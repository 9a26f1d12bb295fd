import PlanarDynamics.Proofs.Real.Plane
import PlanarDynamics.Proofs.Proximity.Overlap

/-!
# Runs of a grid

All that a caller may do to a grid, as data.  After every run the box of a collider covers the box
last given for it (`Grid.Covers`), and was grown from one that was given (`Grid.exists_grow_run`).
The first needs that a margin moves no bound in, the second needs nothing.

The search for overlapping pairs goes from cell to cell.  In which order it does so, and how often
it meets a pair, leaves no trace in what it finds (`Grid.walk_eq`).  So the cells are a mere
shortcut: `Grid.overlapping_run`.
-/

namespace PlanarDynamics

namespace PairSet

theorem nodup (s : PairSet) : s.toList.Nodup := by
  refine s.ascending.imp ?_
  rintro p _ hlt rfl
  exact Pair.lt_irrefl p hlt

/-- Sets of pairs are the same if they have the same pairs. -/
theorem ext_mem {s t : PairSet} (h : ∀ p, p ∈ s ↔ p ∈ t) : s = t := by
  have hperm : s.toList.Perm t.toList := (List.perm_ext_iff_of_nodup s.nodup t.nodup).2 h
  refine PairSet.ext (hperm.eq_of_pairwise (fun p q _ _ hpq hqp ↦ ?_) s.ascending t.ascending)
  exact absurd (Pair.lt_trans hpq hqp) (Pair.lt_irrefl p)

end PairSet

namespace Box

variable {α : Type} [Scalar α]

/-- The lower corner is not beyond the upper one. -/
def Ordered (b : Box α) : Prop := b.lower.x ≤ b.upper.x ∧ b.lower.y ≤ b.upper.y

def coordinates (b : Box α) : List α := [b.lower.x, b.lower.y, b.upper.x, b.upper.y]

/-- Boxes overlap if boxes within them do. -/
theorem overlaps_of_contains (trans : ∀ x y z : α, x ≤ y → y ≤ z → x ≤ z) {a b a' b' : Box α}
    (ha : a'.contains a = true) (hb : b'.contains b = true) (h : a.overlaps b = true) :
    a'.overlaps b' = true := by
  obtain ⟨⟨halx, haly⟩, haux, hauy⟩ := contains_iff.1 ha
  obtain ⟨⟨hblx, hbly⟩, hbux, hbuy⟩ := contains_iff.1 hb
  obtain ⟨⟨h₁, h₂⟩, h₃, h₄⟩ := overlaps_iff.1 h
  refine overlaps_iff.2 ⟨⟨?_, ?_⟩, ?_, ?_⟩
  · exact trans _ _ _ hblx (trans _ _ _ h₁ haux)
  · exact trans _ _ _ halx (trans _ _ _ h₂ hbux)
  · exact trans _ _ _ hbly (trans _ _ _ h₃ hauy)
  · exact trans _ _ _ haly (trans _ _ _ h₄ hbuy)

theorem contains_grow_of_outward {b : Box α} {m : α}
    (h : ∀ x ∈ b.coordinates, x - m ≤ x ∧ x ≤ x + m) : (b.grow m).contains b = true := by
  simp only [coordinates, List.forall_mem_cons] at h
  obtain ⟨⟨hlx, -⟩, ⟨hly, -⟩, ⟨-, hux⟩, ⟨-, huy⟩, -⟩ := h
  exact contains_iff.2 ⟨⟨hlx, hly⟩, hux, huy⟩

end Box

namespace Grid

/-- Something that a caller does to a grid. -/
inductive Request (α : Type) where
  | update (c : ColliderId) (tight : Box α)
  | remove (c : ColliderId)
  | touch (c : ColliderId)
  | updatePairs

namespace Request

variable {α : Type} [Scalar α]

/-- A box that is given has its corners in order. -/
def Ordered : Request α → Prop
  | .update _ tight => tight.Ordered
  | .remove _ | .touch _ | .updatePairs => True

/-- The bounds of the box that is given, if one is. -/
def bounds : Request α → List α
  | .update _ tight => tight.coordinates
  | .remove _ | .touch _ | .updatePairs => []

/-- The box that `c` is to have room for, given the one before. -/
def told (c : ColliderId) (last : Option (Box α)) : Request α → Option (Box α)
  | .update c' tight => if c' = c then some tight else last
  | .remove c' => if c' = c then none else last
  | .touch _ | .updatePairs => last

end Request

variable {α : Type} [Scalar α]

/-- Carries out a request. -/
def act (g : Grid α) : Request α → Grid α
  | .update c tight => g.update c tight
  | .remove c => g.remove c
  | .touch c => g.touch c
  | .updatePairs => g.updatePairs.2

/-- Carries out requests one after the other. -/
def run (g : Grid α) (requests : List (Request α)) : Grid α := requests.foldl act g

/-- The box last given for `c`, if `c` has not been taken out since. -/
def latest? (requests : List (Request α)) (c : ColliderId) : Option (Box α) :=
  requests.foldl (Request.told c) none

variable {g : Grid α} {c : ColliderId} {b : Box α}

@[simp] theorem run_nil : g.run [] = g := rfl

@[simp] theorem run_cons (r : Request α) (rs : List (Request α)) :
    g.run (r :: rs) = (g.act r).run rs := rfl

theorem run_append (rs rs' : List (Request α)) : g.run (rs ++ rs') = (g.run rs).run rs' :=
  List.foldl_append

theorem exists_ofCellSize {cellSize : α} (h : 0 < cellSize) (margin : α) :
    ∃ g : Grid α, ofCellSize cellSize margin = .ok g ∧ g.scale = 1 / cellSize ∧
      g.margin = Scalar.max margin 0 ∧ g.pairs = .empty ∧ ∀ c, g.box? c = none := by
  refine ⟨_, if_pos h, rfl, rfl, rfl, fun c ↦ ?_⟩
  simp [box?]

/-! ## What a request changes -/

theorem box?_update (g : Grid α) (c c' : ColliderId) (tight : Box α) :
    (g.update c tight).box? c' =
      if c = c' ∧ g.outgrown c tight = true then some (tight.grow g.margin) else g.box? c' := by
  simp only [update]
  by_cases ho : g.outgrown c tight = true
  · simp [ho, box?, Std.TreeMap.getElem?_insert]
  · simp [ho]

omit [Scalar α] in
theorem box?_remove (g : Grid α) (c c' : ColliderId) :
    (g.remove c).box? c' = if c = c' then none else g.box? c' := by
  simp [remove, box?, Std.TreeMap.getElem?_erase]

/-- The size of cells and the margin stay. -/
theorem measures_act (g : Grid α) (r : Request α) :
    (g.act r).scale = g.scale ∧ (g.act r).margin = g.margin := by
  cases r with
  | update c tight =>
    simp only [act, update]
    split <;> exact ⟨rfl, rfl⟩
  | _ => exact ⟨rfl, rfl⟩

theorem measures_run (g : Grid α) (rs : List (Request α)) :
    (g.run rs).scale = g.scale ∧ (g.run rs).margin = g.margin := by
  induction rs generalizing g with
  | nil => exact ⟨rfl, rfl⟩
  | cons r rs ih =>
    obtain ⟨hscale, hmargin⟩ := g.measures_act r
    obtain ⟨hscale', hmargin'⟩ := ih (g.act r)
    exact ⟨hscale'.trans hscale, hmargin'.trans hmargin⟩

/-! ## Where boxes come from -/

theorem box?_act {r : Request α} (h : (g.act r).box? c = some b) :
    g.box? c = some b ∨ ∃ tight, r = .update c tight ∧ b = tight.grow g.margin := by
  cases r with
  | update c' tight =>
    rw [act, box?_update] at h
    split at h
    next hc =>
      cases h
      exact .inr ⟨tight, by rw [hc.1], rfl⟩
    · exact .inl h
  | remove c' =>
    rw [act, box?_remove] at h
    split at h
    · cases h
    · exact .inl h
  | touch c' => exact .inl h
  | updatePairs => exact .inl h

/-- A box that is not from before the run was grown from one that was given in it. -/
theorem exists_grow_run {rs : List (Request α)} (h : (g.run rs).box? c = some b) :
    g.box? c = some b ∨ ∃ tight, .update c tight ∈ rs ∧ b = tight.grow g.margin := by
  induction rs generalizing g with
  | nil => exact .inl h
  | cons r rs ih =>
    rcases ih h with hact | ⟨tight, hmem, rfl⟩
    · rcases box?_act hact with hb | ⟨tight, rfl, rfl⟩
      · exact .inl hb
      · exact .inr ⟨tight, List.mem_cons_self, rfl⟩
    · rw [(g.measures_act r).2]
      exact .inr ⟨tight, List.mem_cons_of_mem _ hmem, rfl⟩

/-! ## Boxes cover what was asked for -/

/-- The colliders with a box are those with a box to cover, and each box covers that one. -/
def Covers (g : Grid α) (asked : ColliderId → Option (Box α)) : Prop :=
  ∀ c, Option.Rel (fun fat tight ↦ fat.contains tight = true) (g.box? c) (asked c)

theorem Covers.act {asked : ColliderId → Option (Box α)} (h : g.Covers asked) {r : Request α}
    (hr : ∀ x ∈ r.bounds, x - g.margin ≤ x ∧ x ≤ x + g.margin) :
    (g.act r).Covers fun c ↦ r.told c (asked c) := by
  intro c
  cases r with
  | update c' tight =>
    simp only [Grid.act, box?_update, Request.told]
    by_cases hc : c' = c
    · subst hc
      simp only [true_and, if_true]
      split
      · exact .some (Box.contains_grow_of_outward hr)
      next hkept =>
        -- The box that stays is one that covers the new one too.
        obtain ⟨fat, hfat, hcontains⟩ :
            ∃ fat, g.box? c' = some fat ∧ fat.contains tight = true := by
          simpa [outgrown, Option.any_eq_true] using hkept
        rw [hfat]
        exact .some hcontains
    · simp only [hc, false_and, if_false]
      exact h c
  | remove c' =>
    simp only [Grid.act, box?_remove, Request.told]
    split
    · exact .none
    · exact h c
  | touch c' => exact h c
  | updatePairs => exact h c

theorem Covers.run {asked : ColliderId → Option (Box α)} (h : g.Covers asked)
    {rs : List (Request α)} (hrs : ∀ r ∈ rs, ∀ x ∈ r.bounds, x - g.margin ≤ x ∧ x ≤ x + g.margin) :
    (g.run rs).Covers fun c ↦ rs.foldl (Request.told c) (asked c) := by
  induction rs generalizing g asked with
  | nil => exact h
  | cons r rs ih =>
    obtain ⟨hr, hrs⟩ := List.forall_mem_cons.1 hrs
    rw [← (g.measures_act r).2] at hrs
    exact ih (h.act hr) hrs

theorem Covers.exists_box {asked : ColliderId → Option (Box α)} (h : g.Covers asked)
    {tight : Box α} (ha : asked c = some tight) :
    ∃ fat, g.box? c = some fat ∧ fat.contains tight = true := by
  have hc := h c
  rw [ha] at hc
  generalize g.box? c = fat? at hc
  cases hc with
  | some hcontains => exact ⟨_, rfl, hcontains⟩

/-- After a run that starts without boxes, the boxes cover those last given. -/
theorem covers_run (hempty : ∀ c, g.box? c = none) {rs : List (Request α)}
    (outward : ∀ r ∈ rs, ∀ x ∈ r.bounds, x - g.margin ≤ x ∧ x ≤ x + g.margin) :
    (g.run rs).Covers (latest? rs) := by
  have hnone : g.Covers fun _ ↦ none := by
    intro c
    rw [hempty c]
    exact .none
  exact hnone.run outward

/-- Two different colliders have boxes that overlap. -/
def Overlaps (g : Grid α) (p : Pair) : Prop :=
  p.lo < p.hi ∧ ∃ a b, g.box? p.lo = some a ∧ g.box? p.hi = some b ∧ a.overlaps b = true

/-- Boxes overlap if those that they are to cover do. -/
theorem Covers.overlaps {asked : ColliderId → Option (Box α)} (h : g.Covers asked)
    (trans : ∀ x y z : α, x ≤ y → y ≤ z → x ≤ z) {p : Pair} {a b : Box α} (hp : p.lo < p.hi)
    (ha : asked p.lo = some a) (hb : asked p.hi = some b) (ho : a.overlaps b = true) :
    g.Overlaps p := by
  obtain ⟨fat, hfat, hcontains⟩ := h.exists_box ha
  obtain ⟨fat', hfat', hcontains'⟩ := h.exists_box hb
  exact ⟨hp, fat, fat', hfat, hfat', Box.overlaps_of_contains trans hcontains hcontains' ho⟩

/-! ## The search, cell by cell -/

/-- Looks at two boxes of a cell. A pair that has been found is not looked at again. -/
def visit (found : PairSet) (e : (ColliderId × Box α) × (ColliderId × Box α)) : PairSet :=
  if .of e.1.1 e.2.1 ∈ found then found
  else if e.1.2.overlaps e.2.2 then found.insert (.of e.1.1 e.2.1)
  else found

/-- The pairs that are found on a walk through cells. -/
def walk (cells : List (Cell × List (ColliderId × Box α))) : PairSet :=
  cells.foldl (fun found cell ↦ (couples cell.2).foldl visit found) .empty

theorem mem_visit {p : Pair} {found : PairSet} {e : (ColliderId × Box α) × (ColliderId × Box α)} :
    p ∈ visit found e ↔ p ∈ found ∨ e.1.2.overlaps e.2.2 = true ∧ p = .of e.1.1 e.2.1 := by
  simp only [visit]
  split
  next hmem =>
    refine ⟨.inl, ?_⟩
    rintro (hp | ⟨-, rfl⟩)
    · exact hp
    · exact hmem
  · split
    next ho => simp [ho, or_comm]
    next ho => simp [ho]

theorem mem_foldl_visit {p : Pair} {l : List ((ColliderId × Box α) × (ColliderId × Box α))}
    {found : PairSet} : p ∈ l.foldl visit found ↔
      p ∈ found ∨ ∃ e ∈ l, e.1.2.overlaps e.2.2 = true ∧ p = .of e.1.1 e.2.1 := by
  induction l generalizing found with
  | nil => simp
  | cons e l ih => rw [List.foldl_cons, ih, mem_visit, or_assoc, List.exists_mem_cons_iff]

theorem mem_walk {p : Pair} {cells : List (Cell × List (ColliderId × Box α))} : p ∈ walk cells ↔
    ∃ cell ∈ cells, ∃ e ∈ couples cell.2, e.1.2.overlaps e.2.2 = true ∧ p = .of e.1.1 e.2.1 := by
  have key : ∀ found : PairSet,
      p ∈ cells.foldl (fun found cell ↦ (couples cell.2).foldl visit found) found ↔
        p ∈ found ∨ ∃ cell ∈ cells, ∃ e ∈ couples cell.2,
          e.1.2.overlaps e.2.2 = true ∧ p = .of e.1.1 e.2.1 := by
    induction cells with
    | nil => simp
    | cons cell cells ih =>
      intro found
      rw [List.foldl_cons, ih, mem_foldl_visit, or_assoc, List.exists_mem_cons_iff]
  rw [walk, key]
  simp

/-- Whatever the order of the cells, the walk finds the same pairs. -/
theorem walk_eq {cells : List (Cell × List (ColliderId × Box α))}
    (h : cells.Perm g.buckets.toList) : walk cells = g.overlapping := by
  refine PairSet.ext_mem fun p ↦ ?_
  simp only [mem_walk, h.mem_iff, overlapping, PairSet.mem_ofList, List.mem_flatMap,
    List.mem_filterMap, Option.ite_none_right_eq_some, Option.some.injEq, eq_comm (a := p)]

/-- The search finds all pairs that overlap, if the boxes that do are upright. -/
theorem mem_overlapping_iff
    (mono : ∀ x y : α, x ≤ y → Scalar.cell (x * g.scale) ≤ Scalar.cell (y * g.scale))
    (upright : ∀ c b b', g.box? c = some b → b.overlaps b' = true → g.Upright b) {p : Pair} :
    p ∈ g.overlapping ↔ g.Overlaps p := by
  have hlt : p.lo ≠ p.hi ↔ p.lo < p.hi := p.lo_le_hi.lt_iff_ne.symm
  rw [mem_overlapping, hlt]
  refine and_congr_right fun _ ↦ ?_
  constructor
  · rintro ⟨a, b, ha, hb, ho, -⟩
    exact ⟨a, b, ha, hb, ho⟩
  · rintro ⟨a, b, ha, hb, ho⟩
    have hua := upright _ a b ha ho
    have hub := upright _ b a hb (by rw [Box.overlaps_comm]; exact ho)
    exact ⟨a, b, ha, hb, ho, hua.exists_common_cell mono hub ho⟩

/-! ## The search after a run -/

/-- A box grown from one with its corners in order is upright, if growing moves no bound in. Of a
bound that is no number when it is moved, nothing is asked: its box overlaps with none. -/
theorem upright_grow
    (mono : ∀ x y : α, x ≤ y → Scalar.cell (x * g.scale) ≤ Scalar.cell (y * g.scale))
    {tight b' : Box α} {m : α} (ht : tight.Ordered)
    (outward : ∀ x ∈ tight.coordinates, ∀ y, (x - m ≤ y → x - m ≤ x) ∧ (y ≤ x + m → x ≤ x + m))
    (ho : (tight.grow m).overlaps b' = true) : g.Upright (tight.grow m) := by
  simp only [Box.coordinates, List.forall_mem_cons] at outward
  obtain ⟨hlx, hly, hux, huy, -⟩ := outward
  obtain ⟨⟨h₁, h₂⟩, h₃, h₄⟩ := Box.overlaps_iff.1 ho
  constructor
  · calc Scalar.cell ((tight.lower.x - m) * g.scale)
      _ ≤ Scalar.cell (tight.lower.x * g.scale) := mono _ _ ((hlx _).1 h₂)
      _ ≤ Scalar.cell (tight.upper.x * g.scale) := mono _ _ ht.1
      _ ≤ Scalar.cell ((tight.upper.x + m) * g.scale) := mono _ _ ((hux _).2 h₁)
  · calc Scalar.cell ((tight.lower.y - m) * g.scale)
      _ ≤ Scalar.cell (tight.lower.y * g.scale) := mono _ _ ((hly _).1 h₄)
      _ ≤ Scalar.cell (tight.upper.y * g.scale) := mono _ _ ht.2
      _ ≤ Scalar.cell ((tight.upper.y + m) * g.scale) := mono _ _ ((huy _).2 h₃)

theorem mem_overlapping_run_iff (hempty : ∀ c, g.box? c = none)
    (mono : ∀ x y : α, x ≤ y → Scalar.cell (x * g.scale) ≤ Scalar.cell (y * g.scale))
    {rs : List (Request α)} (ordered : ∀ r ∈ rs, r.Ordered)
    (outward : ∀ r ∈ rs, ∀ x ∈ r.bounds, ∀ y,
      (x - g.margin ≤ y → x - g.margin ≤ x) ∧ (y ≤ x + g.margin → x ≤ x + g.margin)) {p : Pair} :
    p ∈ (g.run rs).overlapping ↔ (g.run rs).Overlaps p := by
  rw [← (g.measures_run rs).1] at mono
  refine mem_overlapping_iff mono fun c b b' hb ho ↦ ?_
  rcases exists_grow_run hb with hold | ⟨tight, hmem, rfl⟩
  · rw [hempty c] at hold
    cases hold
  · exact upright_grow mono (ordered _ hmem) (outward _ hmem) ho

/-- **The grid finds exactly the pairs that overlap.** Colliders may have been given boxes, taken
out and touched in any order.  Each pair of different colliders with overlapping boxes is found, and
found once, no other pair is, and it does not matter in which order the cells are walked.  A
collider has a box if one was given for it and it has not been taken out since, and the box covers
the one last given; so colliders are a pair if the boxes last given overlap.

Nothing is asked of arithmetic but that cell numbers grow with coordinates and that the margin moves
no bound in, and of comparison that it is transitive. -/
theorem overlapping_run {cellSize : α} (hsize : 0 < cellSize) (margin : α)
    (requests : List (Request α)) (trans : ∀ x y z : α, x ≤ y → y ≤ z → x ≤ z)
    (mono : ∀ x y : α, x ≤ y →
      Scalar.cell (x * (1 / cellSize)) ≤ Scalar.cell (y * (1 / cellSize)))
    (ordered : ∀ r ∈ requests, r.Ordered)
    (outward : ∀ r ∈ requests, ∀ x ∈ r.bounds,
      x - Scalar.max margin 0 ≤ x ∧ x ≤ x + Scalar.max margin 0) :
    ∃ g₀ g : Grid α, ofCellSize cellSize margin = .ok g₀ ∧ g₀.run requests = g ∧
      (∀ p, p ∈ g.overlapping ↔ g.Overlaps p) ∧
      g.overlapping.toList.Pairwise (· < ·) ∧
      (∀ cells, cells.Perm g.buckets.toList → walk cells = g.overlapping) ∧
      (∀ c, Option.Rel (fun fat tight ↦ fat.contains tight = true) (g.box? c)
        (latest? requests c)) ∧
      ∀ p a b, p.lo < p.hi → latest? requests p.lo = some a → latest? requests p.hi = some b →
        a.overlaps b = true → p ∈ g.overlapping := by
  obtain ⟨g₀, h₀, hscale, hmargin, -, hempty⟩ := exists_ofCellSize hsize margin
  rw [← hscale] at mono
  rw [← hmargin] at outward
  have hmem : ∀ p, p ∈ (g₀.run requests).overlapping ↔ (g₀.run requests).Overlaps p := by
    refine fun p ↦ mem_overlapping_run_iff hempty mono ordered fun r hr x hx y ↦ ?_
    obtain ⟨hsub, hadd⟩ := outward r hr x hx
    exact ⟨fun _ ↦ hsub, fun _ ↦ hadd⟩
  have hcovers := covers_run hempty outward
  refine ⟨g₀, _, h₀, rfl, hmem, PairSet.ascending _, fun _ ↦ walk_eq, hcovers, ?_⟩
  exact fun p a b hp ha hb ho ↦ (hmem p).2 (hcovers.overlaps trans hp ha hb ho)

/-- Two boxes around the origin, one of which is taken out and put back where it touches the other
in a corner. -/
def cornering : List (Request ℝ) :=
  [.update 0 ⟨⟨-1, 0⟩, ⟨0, 1⟩⟩, .update 1 ⟨⟨-1, -1⟩, ⟨0, 0⟩⟩, .updatePairs, .touch 1, .remove 0,
    .update 0 ⟨⟨0, 0⟩, ⟨1, 1⟩⟩]

theorem ordered_cornering : ∀ r ∈ cornering, r.Ordered := by
  norm_num [cornering, Request.Ordered, Box.Ordered]

/-- A corner in common is enough, and it is found across several cells. -/
theorem corner_found : ∃ g₀ g : Grid ℝ, ofCellSize (1 / 2) (1 / 10) = .ok g₀ ∧
    g₀.run cornering = g ∧ .of 0 1 ∈ g.overlapping ∧ g.overlapping.toList.Pairwise (· < ·) := by
  obtain ⟨g₀, g, h₀, hg, -, hasc, -, -, hfound⟩ := overlapping_run (one_half_pos : (0 : ℝ) < 1 / 2)
    (1 / 10) cornering (fun _ _ _ ↦ le_trans)
    (fun x y h ↦ Scalar.cell_mono (mul_le_mul_of_nonneg_right h (by norm_num))) ordered_cornering
    (fun r _ x _ ↦ by norm_num [Scalar.max_eq])
  refine ⟨g₀, g, h₀, hg, hfound (.of 0 1) ⟨⟨0, 0⟩, ⟨1, 1⟩⟩ ⟨⟨-1, -1⟩, ⟨0, 0⟩⟩ ?_ rfl rfl ?_, hasc⟩
  · decide
  · norm_num [Box.overlaps_iff]

end Grid

end PlanarDynamics
