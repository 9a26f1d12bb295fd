import PlanarDynamics.Proofs.Proximity.Run

/-!
# The events of a grid tell its pairs

Someone who hears of nothing but the events of a grid and of the colliders that are touched knows
the pairs at every time: a pair is known from when it begins until it ends, or until one of its
colliders is touched.  No event is a surprise, as only known pairs end and only unknown ones begin.
Right after an update, what is known are the pairs that overlap: `Grid.replay_run`.
-/

namespace PlanarDynamics

/-- The pair that an event is about. -/
def PairEvent.pair : PairEvent → Pair
  | ends p | begins p => p

/-- What is heard of a grid. -/
inductive Note where
  | event (e : PairEvent)
  | touched (c : ColliderId)
deriving DecidableEq, Repr

namespace PairSet

/-- What is known of the pairs once the note has been heard. -/
def heed (known : PairSet) : Note → PairSet
  | .event (.ends p) => known.filter (· ≠ p)
  | .event (.begins p) => known.insert p
  | .touched c => known.filter (!·.contains c)

/-- The event tells a change: the pair that ends is known, the one that begins is not. -/
def Awaits (known : PairSet) : PairEvent → Prop
  | .ends p => p ∈ known
  | .begins p => p ∉ known

/-- Each event tells a change to what is known when its turn comes. -/
def Follows : PairSet → List PairEvent → Prop
  | _, [] => True
  | known, e :: es => known.Awaits e ∧ (known.heed (.event e)).Follows es

/-- The events that lead from the set of pairs `s` to the set `t`. -/
def changes (s t : PairSet) : List PairEvent :=
  (s.diff t).toList.map .ends ++ (t.diff s).toList.map .begins

variable {s t : PairSet} {p : Pair} {l : List Pair}

/-! ## Hearing events -/

theorem mem_foldl_ends :
    p ∈ (l.map (Note.event ∘ .ends)).foldl heed s ↔ p ∈ s ∧ p ∉ l := by
  induction l generalizing s with
  | nil => simp
  | cons q l ih =>
    rw [List.map_cons, List.foldl_cons, ih]
    show p ∈ s.filter (· ≠ q) ∧ p ∉ l ↔ _
    simp [and_assoc]

theorem mem_foldl_begins :
    p ∈ (l.map (Note.event ∘ .begins)).foldl heed s ↔ p ∈ s ∨ p ∈ l := by
  induction l generalizing s with
  | nil => simp
  | cons q l ih =>
    rw [List.map_cons, List.foldl_cons, ih]
    show p ∈ s.insert q ∨ p ∈ l ↔ _
    rw [mem_insert, List.mem_cons, or_assoc, or_left_comm]

/-- Who knew the first set and hears of the changes knows the second. -/
theorem foldl_heed_changes (s t : PairSet) : ((s.changes t).map Note.event).foldl heed s = t := by
  refine ext_mem fun p ↦ ?_
  rw [changes, List.map_append, List.map_map, List.map_map, List.foldl_append, mem_foldl_begins,
    mem_foldl_ends, ← mem_def, ← mem_def, mem_diff, mem_diff]
  by_cases hs : p ∈ s
  · simp [hs]
  · simp [hs]

theorem follows_append {es es' : List PairEvent} : s.Follows (es ++ es') ↔
    s.Follows es ∧ ((es.map Note.event).foldl heed s).Follows es' := by
  induction es generalizing s with
  | nil => simp [Follows]
  | cons e es ih =>
    simp only [List.cons_append, Follows, List.map_cons, List.foldl_cons, ih, and_assoc]

theorem follows_ends (hl : l.Nodup) (hs : ∀ p ∈ l, p ∈ s) : s.Follows (l.map .ends) := by
  induction l generalizing s with
  | nil => trivial
  | cons q l ih =>
    obtain ⟨hq, hl⟩ := List.nodup_cons.1 hl
    obtain ⟨hqs, hs⟩ := List.forall_mem_cons.1 hs
    refine ⟨hqs, ih hl fun p hp ↦ ?_⟩
    have hne : p ≠ q := fun he ↦ hq (he ▸ hp)
    show p ∈ s.filter (· ≠ q)
    simp [hs p hp, hne]

theorem follows_begins (hl : l.Nodup) (hs : ∀ p ∈ l, p ∉ s) : s.Follows (l.map .begins) := by
  induction l generalizing s with
  | nil => trivial
  | cons q l ih =>
    obtain ⟨hq, hl⟩ := List.nodup_cons.1 hl
    obtain ⟨hqs, hs⟩ := List.forall_mem_cons.1 hs
    refine ⟨hqs, ih hl fun p hp ↦ ?_⟩
    have hne : p ≠ q := fun he ↦ hq (he ▸ hp)
    show p ∉ s.insert q
    simp [hs p hp, hne]

theorem follows_changes (s t : PairSet) : s.Follows (s.changes t) := by
  refine follows_append.2 ⟨follows_ends (nodup _) fun p hp ↦ ?_, ?_⟩
  · exact (mem_diff.1 hp).1
  · refine follows_begins (nodup _) fun p hp ↦ ?_
    rw [List.map_map, mem_foldl_ends]
    exact fun hs ↦ (mem_diff.1 hp).2 hs.1

/-- No pair has two events. -/
theorem nodup_changes (s t : PairSet) : ((s.changes t).map PairEvent.pair).Nodup := by
  have hends : ∀ l : List Pair, (l.map PairEvent.ends).map PairEvent.pair = l := fun l ↦ by
    rw [List.map_map]
    exact List.map_id l
  have hbegins : ∀ l : List Pair, (l.map PairEvent.begins).map PairEvent.pair = l := fun l ↦ by
    rw [List.map_map]
    exact List.map_id l
  rw [changes, List.map_append, hends, hbegins]
  refine List.nodup_append.2 ⟨nodup _, nodup _, ?_⟩
  rintro p hp _ hq rfl
  exact (mem_diff.1 hp).2 (mem_diff.1 hq).1

theorem changes_self (s : PairSet) : s.changes s = [] := by
  have hnone : (s.diff s).toList = [] := by
    refine List.eq_nil_iff_forall_not_mem.2 fun p hp ↦ ?_
    obtain ⟨hmem, hnot⟩ := mem_diff.1 (mem_def.2 hp)
    exact hnot hmem
  rw [changes, hnone]
  rfl

end PairSet

namespace Grid

variable {α : Type} [Scalar α] {g : Grid α}

/-! ## Hearing of a run -/

/-- What is heard of a request. -/
def noted (g : Grid α) : Request α → List Note
  | .updatePairs => g.updatePairs.1.map .event
  | .touch c => [.touched c]
  | .update _ _ | .remove _ => []

/-- What is heard of a run. -/
def notes : Grid α → List (Request α) → List Note
  | _, [] => []
  | g, r :: rs => g.noted r ++ (g.act r).notes rs

theorem updatePairs_eq (g : Grid α) :
    g.updatePairs = (g.pairs.changes g.overlapping, { g with pairs := g.overlapping }) := rfl

theorem overlaps_updatePairs (g : Grid α) (p : Pair) :
    g.updatePairs.2.Overlaps p ↔ g.Overlaps p := Iff.rfl

/-- A second update in a row has nothing to tell. -/
theorem updatePairs_updatePairs (g : Grid α) : g.updatePairs.2.updatePairs.1 = [] :=
  PairSet.changes_self g.overlapping

/-- Who knows the pairs of a grid and hears of a request knows the pairs afterwards. -/
theorem foldl_heed_noted (g : Grid α) (r : Request α) :
    (g.noted r).foldl PairSet.heed g.pairs = (g.act r).pairs := by
  cases r with
  | update c tight =>
    simp only [act, update]
    split <;> rfl
  | remove c => rfl
  | touch c => rfl
  | updatePairs =>
    rw [noted, act, updatePairs_eq]
    exact PairSet.foldl_heed_changes g.pairs g.overlapping

theorem foldl_heed_notes (g : Grid α) (rs : List (Request α)) :
    (g.notes rs).foldl PairSet.heed g.pairs = (g.run rs).pairs := by
  induction rs generalizing g with
  | nil => rfl
  | cons r rs ih => rw [notes, List.foldl_append, foldl_heed_noted, ih, run_cons]

/-- **Replaying the events of a run gives the pairs.** Consider any run that ends with an update.
Someone who knows no pair at first, and then hears of touched colliders and of events, knows after
the update the pairs that the grid remembers, and these are the pairs that overlap.  Each event of
the update tells a change to what is known when its turn comes, no pair has two events, and the
pairs that end come before those that begin, each in ascending order.  Another update has nothing to
tell.

Of arithmetic it is asked that cell numbers grow with coordinates, and that a bound moved out by the
margin is not moved in, unless it is no number any more and compares with nothing. -/
theorem replay_run {cellSize : α} (hsize : 0 < cellSize) (margin : α) (requests : List (Request α))
    (mono : ∀ x y : α, x ≤ y →
      Scalar.cell (x * (1 / cellSize)) ≤ Scalar.cell (y * (1 / cellSize)))
    (outward : ∀ x y : α, (x - Scalar.max margin 0 ≤ y → x - Scalar.max margin 0 ≤ x) ∧
      (y ≤ x + Scalar.max margin 0 → x ≤ x + Scalar.max margin 0))
    (ordered : ∀ r ∈ requests, r.Ordered) :
    ∃ g₀ g : Grid α, ofCellSize cellSize margin = .ok g₀ ∧
      g₀.run (requests ++ [.updatePairs]) = g ∧
      (g₀.notes (requests ++ [.updatePairs])).foldl PairSet.heed .empty = g.pairs ∧
      (∀ p, p ∈ g.pairs ↔ g.Overlaps p) ∧
      (let known := (g₀.notes requests).foldl PairSet.heed .empty
       let events := (g₀.run requests).updatePairs.1
       known.Follows events ∧ (events.map PairEvent.pair).Nodup ∧
        ∃ ended began : List Pair, events = ended.map .ends ++ began.map .begins ∧
          ended.Pairwise (· < ·) ∧ began.Pairwise (· < ·)) ∧
      g.updatePairs.1 = [] := by
  obtain ⟨g₀, h₀, hscale, hmargin, hpairs, hempty⟩ := exists_ofCellSize hsize margin
  rw [← hscale] at mono
  rw [← hmargin] at outward
  have hrun : g₀.run (requests ++ [.updatePairs]) = (g₀.run requests).updatePairs.2 :=
    run_append _ _
  refine ⟨g₀, _, h₀, hrun, ?_, ?_, ?_, ?_⟩
  · rw [← hrun, ← hpairs]
    exact g₀.foldl_heed_notes _
  · intro p
    rw [overlaps_updatePairs, updatePairs_eq]
    exact mem_overlapping_run_iff hempty mono ordered fun _ _ x _ y ↦ outward x y
  · intro known events
    have hknown : known = (g₀.run requests).pairs := by
      rw [← g₀.foldl_heed_notes, hpairs]
    refine ⟨?_, PairSet.nodup_changes _ _, _, _, rfl, PairSet.ascending _, PairSet.ascending _⟩
    rw [hknown]
    exact PairSet.follows_changes _ _
  · exact updatePairs_updatePairs _

/-- The boxes that touch in a corner become known as a pair. -/
theorem corner_replayed : ∃ g₀ g : Grid ℝ, ofCellSize (1 / 2) (1 / 10) = .ok g₀ ∧
    g₀.run (cornering ++ [.updatePairs]) = g ∧
    .of 0 1 ∈ (g₀.notes (cornering ++ [.updatePairs])).foldl PairSet.heed .empty ∧
    g.updatePairs.1 = [] := by
  obtain ⟨g₀, g, h₀, hg, hpairs, hmem, -, hquiet⟩ := replay_run (one_half_pos : (0 : ℝ) < 1 / 2)
    (1 / 10) cornering (fun x y h ↦ Scalar.cell_mono (mul_le_mul_of_nonneg_right h (by norm_num)))
    (fun x y ↦ by norm_num [Scalar.max_eq]) ordered_cornering
  obtain ⟨g₁, h₁, -, hmargin, -, hempty⟩ :=
    exists_ofCellSize (one_half_pos : (0 : ℝ) < 1 / 2) (1 / 10)
  cases h₀.symm.trans h₁
  have hcovers : g.Covers (latest? (cornering ++ [.updatePairs])) := by
    rw [← hg]
    refine covers_run hempty fun r _ x _ ↦ ?_
    rw [hmargin]
    norm_num [Scalar.max_eq]
  refine ⟨g₀, g, h₀, hg, ?_, hquiet⟩
  rw [hpairs, hmem]
  refine hcovers.overlaps (fun _ _ _ ↦ le_trans) (by decide) rfl rfl ?_
  norm_num [Box.overlaps_iff]

end Grid

end PlanarDynamics
