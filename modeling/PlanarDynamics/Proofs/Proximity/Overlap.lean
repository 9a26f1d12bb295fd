import PlanarDynamics.Proximity.Grid
import Mathlib.Data.List.Nodup

/-!
# Which pairs the grid finds

The grid compares only boxes that share a cell.  `Grid.mem_overlapping` says which pairs come out of
that: two different colliders with boxes that overlap and reach a common cell.  It holds of every
scalar, without a law.  Where cell numbers grow with coordinates, boxes that overlap always reach a
common cell (`Grid.Upright.exists_common_cell`), and the detour through cells loses nothing.
-/

namespace PlanarDynamics

namespace Pair

@[simp] theorem of_lo_hi (p : Pair) : of p.lo p.hi = p := by
  simp [of, p.lo_le_hi]

end Pair

namespace PairSet

@[simp] theorem mem_ofList {p : Pair} {ps : List Pair} : p ∈ ofList ps ↔ p ∈ ps := by
  have key : ∀ s : PairSet, p ∈ ps.foldl insert s ↔ p ∈ ps ∨ p ∈ s := by
    induction ps with
    | nil => simp
    | cons q qs ih =>
      intro s
      rw [List.foldl_cons, ih, mem_insert, List.mem_cons]
      constructor
      · rintro (h | rfl | h)
        · exact .inl (.inr h)
        · exact .inl (.inl rfl)
        · exact .inr h
      · rintro ((rfl | h) | h)
        · exact .inr (.inl rfl)
        · exact .inl h
        · exact .inr (.inr h)
  rw [ofList, key]
  simp

@[simp] theorem mem_diff {p : Pair} {s t : PairSet} : p ∈ s.diff t ↔ p ∈ s ∧ p ∉ t := by
  simp [diff]

end PairSet

namespace Box

variable {α : Type} [Scalar α]

theorem contains_iff {a b : Box α} : a.contains b = true ↔
    (a.lower.x ≤ b.lower.x ∧ a.lower.y ≤ b.lower.y) ∧
      b.upper.x ≤ a.upper.x ∧ b.upper.y ≤ a.upper.y := by
  simp only [contains, Bool.and_eq_true, decide_eq_true_eq, and_assoc]

theorem overlaps_iff {a b : Box α} : a.overlaps b = true ↔
    (b.lower.x ≤ a.upper.x ∧ a.lower.x ≤ b.upper.x) ∧
      b.lower.y ≤ a.upper.y ∧ a.lower.y ≤ b.upper.y := by
  simp only [overlaps, Bool.and_eq_true, decide_eq_true_eq]

theorem overlaps_comm (a b : Box α) : a.overlaps b = b.overlaps a := by
  simp only [overlaps]
  rw [Bool.and_comm (decide (b.lower.x ≤ a.upper.x)),
    Bool.and_comm (decide (b.lower.y ≤ a.upper.y))]

end Box

namespace Grid

/-! ## Cells of a box -/

theorem mem_span {lo hi i : Int} : i ∈ span lo hi ↔ lo ≤ i ∧ i ≤ hi := by
  simp only [span, List.mem_map, List.mem_range]
  constructor
  · rintro ⟨n, hn, rfl⟩
    omega
  · rintro ⟨h₁, h₂⟩
    exact ⟨(i - lo).toNat, by omega, by omega⟩

theorem nodup_span (lo hi : Int) : (span lo hi).Nodup := by
  refine List.Nodup.map ?_ List.nodup_range
  intro i j h
  simp only at h
  omega

variable {α : Type} [Scalar α] (g : Grid α)

theorem mem_cellsOf {b : Box α} {c : Cell} : c ∈ g.cellsOf b ↔
    ((g.cellAt b.lower).column ≤ c.column ∧ c.column ≤ (g.cellAt b.upper).column) ∧
      (g.cellAt b.lower).row ≤ c.row ∧ c.row ≤ (g.cellAt b.upper).row := by
  simp only [cellsOf, List.mem_flatMap, List.mem_map, mem_span]
  constructor
  · rintro ⟨row, hr, column, hc, rfl⟩
    exact ⟨hc, hr⟩
  · rintro ⟨hc, hr⟩
    exact ⟨c.row, hr, c.column, hc, rfl⟩

/-- A box is entered once into each of its cells. -/
theorem nodup_cellsOf (b : Box α) : (g.cellsOf b).Nodup := by
  rw [cellsOf, List.nodup_flatMap]
  refine ⟨fun row _ ↦ ?_, ?_⟩
  · refine List.Nodup.map ?_ (nodup_span _ _)
    intro i j h
    exact (Cell.mk.inj h).1
  · refine List.Pairwise.imp ?_ (nodup_span _ _)
    intro row row' hne c hc hc'
    obtain ⟨_, _, rfl⟩ := List.mem_map.1 hc
    obtain ⟨_, _, he⟩ := List.mem_map.1 hc'
    exact hne (Cell.mk.inj he).2.symm

/-! ## Buckets -/

/-- Entering a box into some cells puts it on top of their buckets. -/
theorem getElem?_foldl_alter {β : Type} (e : β) {cells : List Cell} (hn : cells.Nodup)
    (m : Std.HashMap Cell (List β)) (c : Cell) :
    (cells.foldl (fun m cell ↦ m.alter cell fun bucket ↦ some (e :: bucket.getD [])) m)[c]? =
      if c ∈ cells then some (e :: m[c]?.getD []) else m[c]? := by
  induction cells generalizing m with
  | nil => simp
  | cons d cells ih =>
    obtain ⟨hd, hn⟩ := List.nodup_cons.1 hn
    rw [List.foldl_cons, ih hn, Std.HashMap.getElem?_alter]
    by_cases hc : d = c
    · subst hc
      simp [hd]
    · simp [hc, Ne.symm hc]

/-- The bucket of a cell lists the boxes that reach the cell, in reverse. -/
theorem getElem?_buckets (c : Cell) :
    g.buckets[c]?.getD [] = (g.boxes.toList.filter (c ∈ g.cellsOf ·.2)).reverse := by
  have key : ∀ (l : List (ColliderId × Box α)) (m : Std.HashMap Cell (List (ColliderId × Box α))),
      (l.foldl (fun cells entry ↦ (g.cellsOf entry.2).foldl (fun cells cell ↦
        cells.alter cell fun bucket ↦ some (entry :: bucket.getD [])) cells) m)[c]?.getD [] =
      (l.filter (c ∈ g.cellsOf ·.2)).reverse ++ m[c]?.getD [] := by
    intro l
    induction l with
    | nil => simp
    | cons e l ih =>
      intro m
      rw [List.foldl_cons, ih, getElem?_foldl_alter e (g.nodup_cellsOf e.2)]
      by_cases hc : c ∈ g.cellsOf e.2 <;> simp [hc]
  rw [buckets, key]
  simp

/-! ## Couples -/

theorem mem_of_mem_couples {β : Type} {R : β → β → Prop} {l : List β} (hl : l.Pairwise R)
    {x y : β} (h : (x, y) ∈ couples l) : x ∈ l ∧ y ∈ l ∧ R x y := by
  induction l with
  | nil => simp [couples] at h
  | cons z zs ih =>
    obtain ⟨hz, hzs⟩ := List.pairwise_cons.1 hl
    simp only [couples, List.mem_append, List.mem_map, Prod.mk.injEq] at h
    obtain ⟨y', hy', rfl, rfl⟩ | h := h
    · exact ⟨List.mem_cons_self, List.mem_cons_of_mem _ hy', hz _ hy'⟩
    · obtain ⟨hx, hy, hr⟩ := ih hzs h
      exact ⟨List.mem_cons_of_mem _ hx, List.mem_cons_of_mem _ hy, hr⟩

theorem mem_couples_or {β : Type} {l : List β} {x y : β} (hx : x ∈ l) (hy : y ∈ l) (hne : x ≠ y) :
    (x, y) ∈ couples l ∨ (y, x) ∈ couples l := by
  induction l with
  | nil => cases hx
  | cons z zs ih =>
    simp only [couples, List.mem_append, List.mem_map, Prod.mk.injEq]
    obtain rfl | hx := List.mem_cons.1 hx
    · obtain rfl | hy := List.mem_cons.1 hy
      · exact absurd rfl hne
      · exact .inl (.inl ⟨y, hy, rfl, rfl⟩)
    · obtain rfl | hy := List.mem_cons.1 hy
      · exact .inr (.inl ⟨x, ‹_›, rfl, rfl⟩)
      · exact (ih hx hy).imp .inr .inr

/-! ## Pairs -/

/-- The colliders `c` and `c'` have boxes that overlap and reach a common cell. -/
def Meets (c c' : ColliderId) : Prop :=
  ∃ b b', g.box? c = some b ∧ g.box? c' = some b' ∧ b.overlaps b' = true ∧
    ∃ cell, cell ∈ g.cellsOf b ∧ cell ∈ g.cellsOf b'

theorem Meets.symm {g : Grid α} {c c' : ColliderId} (h : g.Meets c c') : g.Meets c' c := by
  obtain ⟨b, b', hb, hb', ho, cell, hc, hc'⟩ := h
  exact ⟨b', b, hb', hb, by rw [Box.overlaps_comm]; exact ho, cell, hc', hc⟩

theorem mem_bucket {cell : Cell} {bucket : List (ColliderId × Box α)}
    (hb : g.buckets[cell]? = some bucket) {c : ColliderId} {b : Box α} :
    (c, b) ∈ bucket ↔ g.box? c = some b ∧ cell ∈ g.cellsOf b := by
  have hl := g.getElem?_buckets cell
  rw [hb, Option.getD_some] at hl
  rw [hl, List.mem_reverse, List.mem_filter, Std.TreeMap.mem_toList_iff_getElem?_eq_some]
  simp [box?]

/-- A bucket has no collider twice. -/
theorem pairwise_bucket {cell : Cell} {bucket : List (ColliderId × Box α)}
    (hb : g.buckets[cell]? = some bucket) : bucket.Pairwise (·.1 ≠ ·.1) := by
  have hl := g.getElem?_buckets cell
  rw [hb, Option.getD_some] at hl
  rw [hl, List.pairwise_reverse]
  refine (Std.TreeMap.distinct_keys_toList.imp ?_).filter _
  intro e e' hne he
  simp [he] at hne

theorem mem_overlapping {p : Pair} :
    p ∈ g.overlapping ↔ p.lo ≠ p.hi ∧ g.Meets p.lo p.hi := by
  simp only [overlapping, PairSet.mem_ofList, List.mem_flatMap, List.mem_filterMap, Prod.exists,
    Std.HashMap.mem_toList_iff_getElem?_eq_some]
  constructor
  · rintro ⟨cell, bucket, hb, c, b, c', b', hcc, hp⟩
    obtain ⟨hc, hc', hne⟩ := mem_of_mem_couples (g.pairwise_bucket hb) hcc
    rw [g.mem_bucket hb] at hc hc'
    split at hp
    · have hm : g.Meets c c' := ⟨b, b', hc.1, hc'.1, ‹_›, cell, hc.2, hc'.2⟩
      cases hp
      simp only [Pair.of]
      split
      · exact ⟨hne, hm⟩
      · exact ⟨Ne.symm hne, hm.symm⟩
    · cases hp
  · rintro ⟨hne, b, b', hb, hb', ho, cell, hc, hc'⟩
    cases hbk : g.buckets[cell]? with
    | none =>
      have hl := g.getElem?_buckets cell
      rw [hbk, Option.getD_none, eq_comm, List.reverse_eq_nil_iff, List.filter_eq_nil_iff] at hl
      have := hl (p.lo, b) (Std.TreeMap.mem_toList_iff_getElem?_eq_some.2 hb)
      simp [hc] at this
    | some bucket =>
      have hm : (p.lo, b) ∈ bucket := (g.mem_bucket hbk).2 ⟨hb, hc⟩
      have hm' : (p.hi, b') ∈ bucket := (g.mem_bucket hbk).2 ⟨hb', hc'⟩
      have hne' : (p.lo, b) ≠ (p.hi, b') := fun he ↦ hne (Prod.mk.inj he).1
      obtain h | h := mem_couples_or hm hm' hne'
      · exact ⟨cell, bucket, hbk, _, _, _, _, h, by simp [ho]⟩
      · refine ⟨cell, bucket, hbk, _, _, _, _, h, ?_⟩
        rw [Box.overlaps_comm, Pair.of_comm]
        simp [ho]

/-- The cells of the lower corner of a box are not beyond those of its upper corner. -/
def Upright (b : Box α) : Prop :=
  (g.cellAt b.lower).column ≤ (g.cellAt b.upper).column ∧
    (g.cellAt b.lower).row ≤ (g.cellAt b.upper).row

/-- Boxes that overlap reach a common cell, if cell numbers grow with coordinates. -/
theorem Upright.exists_common_cell {g : Grid α} {b b' : Box α}
    (mono : ∀ x y : α, x ≤ y → Scalar.cell (x * g.scale) ≤ Scalar.cell (y * g.scale))
    (hb : g.Upright b) (hb' : g.Upright b') (ho : b.overlaps b' = true) :
    ∃ cell, cell ∈ g.cellsOf b ∧ cell ∈ g.cellsOf b' := by
  obtain ⟨⟨h₁, h₂⟩, h₃, h₄⟩ := Box.overlaps_iff.1 ho
  have c₁ := mono _ _ h₁
  have c₂ := mono _ _ h₂
  have c₃ := mono _ _ h₃
  have c₄ := mono _ _ h₄
  simp only [Upright, cellAt] at hb hb'
  -- The larger of the two lower cells lies in both spans.
  refine ⟨⟨max (Scalar.cell (b.lower.x * g.scale)) (Scalar.cell (b'.lower.x * g.scale)),
    max (Scalar.cell (b.lower.y * g.scale)) (Scalar.cell (b'.lower.y * g.scale))⟩, ?_, ?_⟩
  · rw [mem_cellsOf]
    simp only [cellAt]
    omega
  · rw [mem_cellsOf]
    simp only [cellAt]
    omega

/-- Boxes with their corners in order reach a common cell if they overlap. -/
theorem exists_common_cell {b b' : Box α}
    (mono : ∀ x y : α, x ≤ y → Scalar.cell (x * g.scale) ≤ Scalar.cell (y * g.scale))
    (hx : b.lower.x ≤ b.upper.x) (hy : b.lower.y ≤ b.upper.y)
    (hx' : b'.lower.x ≤ b'.upper.x) (hy' : b'.lower.y ≤ b'.upper.y) (ho : b.overlaps b' = true) :
    ∃ cell, cell ∈ g.cellsOf b ∧ cell ∈ g.cellsOf b' := by
  have hb : g.Upright b := ⟨mono _ _ hx, mono _ _ hy⟩
  have hb' : g.Upright b' := ⟨mono _ _ hx', mono _ _ hy'⟩
  exact hb.exists_common_cell mono hb' ho

end Grid

end PlanarDynamics
