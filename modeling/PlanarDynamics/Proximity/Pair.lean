import PlanarDynamics.Error

/-!
# Pairs of colliders

An unordered pair is kept with the lower number first. Pairs are ordered by their first numbers,
then by their second.
-/

namespace PlanarDynamics

@[ext] structure Pair where
  lo : ColliderId
  hi : ColliderId
  lo_le_hi : lo ≤ hi
deriving DecidableEq, Repr, Hashable

namespace Pair

/-- The pair of two colliders given in any order. -/
def of (x y : ColliderId) : Pair :=
  if h : x ≤ y then ⟨x, y, h⟩ else ⟨y, x, Nat.le_of_not_le h⟩

theorem of_comm (x y : ColliderId) : of x y = of y x := by
  grind [of]

def contains (p : Pair) (c : ColliderId) : Bool := p.lo == c || p.hi == c

instance : LT Pair := ⟨fun p q ↦ p.lo < q.lo ∨ p.lo = q.lo ∧ p.hi < q.hi⟩

theorem lt_def {p q : Pair} : p < q ↔ p.lo < q.lo ∨ p.lo = q.lo ∧ p.hi < q.hi := Iff.rfl

theorem lt_trans {p q r : Pair} (h : p < q) (h' : q < r) : p < r := by
  grind [lt_def]

theorem lt_irrefl (p : Pair) : ¬ p < p := by
  grind [lt_def]

instance : DecidableLT Pair := fun _ _ ↦ decidable_of_iff _ lt_def.symm

instance : Ord Pair := ⟨fun p q ↦ if p < q then .lt else if q < p then .gt else .eq⟩

end Pair

/-- A finite set of pairs, listed in ascending order. -/
@[ext] structure PairSet where
  toList : List Pair
  ascending : toList.Pairwise (· < ·)

namespace PairSet

instance : Membership Pair PairSet := ⟨fun s p ↦ p ∈ s.toList⟩

theorem mem_def {p : Pair} {s : PairSet} : p ∈ s ↔ p ∈ s.toList := Iff.rfl

instance (p : Pair) (s : PairSet) : Decidable (p ∈ s) := inferInstanceAs (Decidable (p ∈ s.toList))

def empty : PairSet := ⟨[], .nil⟩

@[simp] theorem not_mem_empty (p : Pair) : p ∉ empty := by simp [mem_def, empty]

/-- Puts `p` into its place in an ascending list. -/
def insertInto (p : Pair) : List Pair → List Pair
  | [] => [p]
  | q :: qs => if p < q then p :: q :: qs else if q < p then q :: insertInto p qs else q :: qs

@[simp] theorem mem_insertInto {p q : Pair} {qs : List Pair} :
    p ∈ insertInto q qs ↔ p = q ∨ p ∈ qs := by
  induction qs with
  | nil => simp [insertInto]
  | cons r rs ih =>
    simp only [insertInto]
    split
    · simp
    · split
      · simp only [List.mem_cons, ih, or_left_comm]
      · have : q = r := by grind [Pair.lt_def, Pair.ext_iff]
        simp [this]

theorem ascending_insertInto {p : Pair} {qs : List Pair} (h : qs.Pairwise (· < ·)) :
    (insertInto p qs).Pairwise (· < ·) := by
  induction qs with
  | nil => simp [insertInto]
  | cons r rs ih =>
    simp only [insertInto]
    split
    · have hr := List.pairwise_cons.1 h
      refine List.pairwise_cons.2 ⟨fun q hq ↦ ?_, h⟩
      rcases List.mem_cons.1 hq with rfl | hq
      · assumption
      · exact Pair.lt_trans ‹_› (hr.1 q hq)
    · split
      · rw [List.pairwise_cons] at h ⊢
        refine ⟨fun q hq ↦ ?_, ih h.2⟩
        rcases mem_insertInto.1 hq with rfl | hq
        · assumption
        · exact h.1 q hq
      · exact h

def insert (s : PairSet) (p : Pair) : PairSet :=
  ⟨insertInto p s.toList, ascending_insertInto s.ascending⟩

@[simp] theorem mem_insert {p q : Pair} {s : PairSet} : p ∈ s.insert q ↔ p = q ∨ p ∈ s :=
  mem_insertInto

def ofList (ps : List Pair) : PairSet := ps.foldl insert empty

def filter (s : PairSet) (keep : Pair → Bool) : PairSet :=
  ⟨s.toList.filter keep, s.ascending.filter keep⟩

@[simp] theorem mem_filter {p : Pair} {s : PairSet} {keep : Pair → Bool} :
    p ∈ s.filter keep ↔ p ∈ s ∧ keep p = true := List.mem_filter

/-- The pairs of `s` that are not in `t`. -/
def diff (s t : PairSet) : PairSet := s.filter (· ∉ t)

end PairSet

end PlanarDynamics
