import PlanarDynamics.Proofs.Real.Bounds
import PlanarDynamics.Proofs.Real.Incident
import PlanarDynamics.Collision.Rule

/-!
# Shapes that collide are not apart

Every rule finds contact points only for shapes that no direction separates: a circle's center is
within its radius of a point of the other shape, and two outlines without a separating side are not
separated by anything.  So shapes with boxes apart have no contact, and the boxes may be asked
first.

One rule is generous.  A circle's center that is outside a polygon by less than `Scalar.epsilon`
counts as inside, where the circle itself may be smaller than that.
-/

namespace PlanarDynamics

/-! ## Feet of perpendiculars -/

namespace Vec

variable {p q c n : Vec ℝ} {k : ℝ}

/-- Where the perpendicular from `c` meets the line through `p` and `q`. -/
noncomputable def foot (p q c : Vec ℝ) : Vec ℝ :=
  p + (q - p) * ((q - p).dot (c - p) / (q - p).dot (q - p))

theorem dot_sub_add_dot_sub (p q c : Vec ℝ) :
    (q - p).dot (q - c) + (q - p).dot (c - p) = (q - p).dot (q - p) := by
  simp only [dot, sub_x, sub_y]
  ring

/-- A point before a segment has its foot on it. -/
theorem onSegment_foot (hp : 0 < (q - p).dot (c - p)) (hq : 0 < (q - p).dot (q - c)) :
    OnSegment p q (foot p q c) := by
  have hsum := dot_sub_add_dot_sub p q c
  have hpos : 0 < (q - p).dot (q - p) := by linarith
  exact ⟨_, div_nonneg hp.le hpos.le, (div_le_one hpos).2 (by linarith), rfl⟩

/-- The same, with both ways told from the side's ends. -/
theorem onSegment_foot_of_ends (hp : 0 < (c - p).dot (q - p)) (hq : 0 < (c - q).dot (p - q)) :
    OnSegment p q (foot p q c) := by
  refine onSegment_foot (hp.trans_eq (dot_comm _ _)) (hq.trans_eq ?_)
  simp only [dot, sub_x, sub_y]
  ring

/-- The foot as a mean of the two points. -/
theorem foot_eq (h : (q - p).dot (q - p) ≠ 0) :
    foot p q c =
      (p * (q - p).dot (q - c) + q * (q - p).dot (c - p)) * (1 / (q - p).dot (q - p)) := by
  have hsum := dot_sub_add_dot_sub p q c
  rw [← eq_sub_iff_add_eq] at hsum
  rw [hsum, foot]
  ext
  · simp only [mul_x, add_x, sub_x]
    field_simp
    ring
  · simp only [mul_y, add_y, sub_y]
    field_simp
    ring

/-- What leads from the foot to the point is normal to the line. -/
theorem sub_foot (hn : n.normSq = 1) (hk : 0 < k) (h : q - p = n.perp * k) :
    c - foot p q c = n * n.dot (c - p) := by
  have hrun : (q - p).dot (q - p) = k * k := by
    rw [h, ← normSq, normSq_mul, normSq_perp, hn, one_mul]
  have halong : (q - p).dot (c - p) = k * n.cross (c - p) := by
    rw [h, dot_comm, dot_mul, dot_perp, mul_comm]
  have hratio : k * n.cross (c - p) / (k * k) = n.cross (c - p) / k := by
    field_simp
  have hfoot : foot p q c = p + n.perp * n.cross (c - p) := by
    rw [foot, hrun, halong, hratio, h]
    ext
    · simp only [add_x, mul_x]
      field_simp
    · simp only [add_y, mul_y]
      field_simp
  rw [hfoot]
  simp only [normSq, dot] at hn
  ext
  · simp only [sub_x, add_x, mul_x, perp, cross, dot, sub_y]
    linear_combination -(c.x - p.x) * hn
  · simp only [sub_y, add_y, mul_y, perp, cross, dot, sub_x]
    linear_combination -(c.y - p.y) * hn

theorem dot_foot (h : q - p = n.perp * k) : n.dot (foot p q c) = n.dot p := by
  rw [foot, dot_add, dot_mul, h, dot_mul, dot_perp, cross_self, zero_mul, zero_mul, add_zero]

end Vec

namespace Collision

variable {t u : Pose ℝ} {d : Vec ℝ}

/-! ## Circles -/

theorem inseparable_circles {a b : Circle ℝ} (ha : 0 ≤ a.radius) (hb : 0 ≤ b.radius)
    (h : (circles a t b u).isEmpty = false) :
    Shape.Inseparable (.circle a) t (.circle b) u := by
  intro d hd
  have hclose : (t.apply a.center).distSq (u.apply b.center) ≤
      (a.radius + b.radius) * (a.radius + b.radius) := by
    by_contra hn
    simp only [circles, not_le.1 hn, if_true] at h
    cases h
  rw [Vec.distSq_comm] at hclose
  have hle := Vec.dot_le_of_normSq_le hd (add_nonneg ha hb) hclose
  have hneg : (-d).normSq = 1 := (Vec.normSq_neg d).trans hd
  rw [Shape.top_circle hd, Shape.top_circle hneg, Vec.neg_dot]
  rw [Vec.dot_sub] at hle
  linarith

/-! ## Points of a shape -/

/-- The shape reaches as far as the local point in every direction. -/
def Reaches (a : Shape ℝ) (t : Pose ℝ) (q : Vec ℝ) : Prop :=
  ∀ d : Vec ℝ, d.normSq = 1 → d.dot (t.apply q) ≤ a.top t d

theorem reaches_vertex {a : Polygon ℝ} {v : Vec ℝ} (hv : v ∈ a.vertices) :
    Reaches (.polygon a) t v := by
  intro d _
  obtain ⟨w, -, htop, hmax⟩ := Shape.top_polygon (t := t) (d := d) a
  rw [htop]
  exact hmax v hv

theorem reaches_end {a : Edge ℝ} {v : Vec ℝ} (hv : v ∈ [a.start, a.stop]) :
    Reaches (.edge a) t v := by
  intro d _
  obtain ⟨w, -, htop, hmax⟩ := Shape.top_edge (t := t) (d := d) a
  rw [htop]
  exact hmax v hv

/-- A polygon reaches the points behind all its sides. -/
theorem reaches_of_behind {a : Polygon ℝ} (ha : a.toOutline.Convex Outline.LeftTurn) {q : Vec ℝ}
    (hq : ∀ s ∈ a.sides, s.separation q ≤ 0) : Reaches (.polygon a) t q := by
  intro d _
  obtain ⟨v, hv, htop, hmax⟩ := Shape.top_polygon (t := t) (d := d) a
  rw [htop, t.dot_apply, t.dot_apply]
  refine add_le_add_left (ha.dot_le hq hv fun w hw ↦ ?_) _
  have hw := hmax w hw
  rw [t.dot_apply, t.dot_apply] at hw
  linarith

/-- With its ends, a segment is reached. -/
theorem Reaches.segment {a : Shape ℝ} {v w q : Vec ℝ} (hv : Reaches a t v) (hw : Reaches a t w)
    (hq : Vec.OnSegment v w q) : Reaches a t q := by
  intro d hd
  obtain ⟨k, hk, hk', hdot⟩ := hq.exists_dot
  have hv := hv d hd
  have hw := hw d hd
  rw [t.dot_apply] at hv hw ⊢
  rw [hdot]
  nlinarith

/-- A shape is not apart from a circle if it reaches a point within the circle. -/
theorem Reaches.inseparable {a : Shape ℝ} {b : Circle ℝ} {q : Vec ℝ} (hq : Reaches a t q)
    (hb : 0 ≤ b.radius)
    (hclose : (t.unapply (u.apply b.center)).distSq q ≤ b.radius * b.radius) :
    Shape.Inseparable a t (.circle b) u := by
  intro d hd
  have hneg : (-d).normSq = 1 := (Vec.normSq_neg d).trans hd
  rw [← t.distSq_apply_apply, t.apply_unapply] at hclose
  have hle := Vec.dot_le_of_normSq_le hd hb hclose
  have hq := hq d hd
  rw [Vec.dot_sub] at hle
  rw [Shape.top_circle hneg, Vec.neg_dot]
  linarith

/-- What is found only for a point within the circle. -/
theorem distSq_le_of_isEmpty {b : Circle ℝ} {c q : Vec ℝ} {m : Manifold ℝ}
    (h : (if b.radius * b.radius < c.distSq q then Manifold.empty else m).isEmpty = false) :
    c.distSq q ≤ b.radius * b.radius := by
  by_contra hn
  rw [if_pos (not_le.1 hn)] at h
  cases h

/-! ## A circle and an edge -/

theorem inseparable_edgeCircle {a : Edge ℝ} {b : Circle ℝ} (hb : 0 ≤ b.radius)
    (h : (edgeCircle a t b u).isEmpty = false) :
    Shape.Inseparable (.edge a) t (.circle b) u := by
  have hstart : Reaches (.edge a) t a.start := reaches_end (by simp)
  have hstop : Reaches (.edge a) t a.stop := reaches_end (by simp)
  simp only [edgeCircle] at h
  -- In each region the closest point of the edge is within the circle.
  split at h
  · exact hstart.inseparable hb (distSq_le_of_isEmpty h)
  next hfrom =>
    split at h
    · exact hstop.inseparable hb (distSq_le_of_isEmpty h)
    next hto =>
      have hclose := distSq_le_of_isEmpty h
      rw [not_le] at hfrom hto
      have hsum := Vec.dot_sub_add_dot_sub a.start a.stop (t.unapply (u.apply b.center))
      rw [Edge.direction, ← Vec.foot_eq (by rw [Edge.direction] at hfrom hto; linarith)] at hclose
      exact (hstart.segment hstop (Vec.onSegment_foot hfrom hto)).inseparable hb hclose

/-! ## A circle and a polygon -/

/-- The side that is found is the one that the point is furthest outside of. -/
theorem deepestSide?_eq_some {reach : ℝ} {c : Vec ℝ} {l : List (Side ℝ)} {s₁ s : Side ℝ}
    {m : Option ℝ} (h : deepestSide? reach c l (s₁, some (s₁.separation c)) = some (s, m)) :
    s ∈ s₁ :: l ∧ m = some (s.separation c) ∧ ∀ s' ∈ s₁ :: l, s'.separation c ≤ s.separation c := by
  induction l generalizing s₁ with
  | nil =>
    cases h
    simp
  | cons s₂ l ih =>
    rw [deepestSide?] at h
    split at h
    · cases h
    · simp only [Scalar.raises, decide_eq_true_eq] at h
      split at h
      next hlt =>
        obtain ⟨hmem, hm, hmax⟩ := ih h
        refine ⟨List.mem_cons_of_mem _ hmem, hm, fun s' hs' ↦ ?_⟩
        obtain rfl | hs' := List.mem_cons.1 hs'
        · exact hlt.le.trans (hmax s₂ List.mem_cons_self)
        · exact hmax s' hs'
      next hge =>
        obtain ⟨hmem, hm, hmax⟩ := ih h
        refine ⟨?_, hm, fun s' hs' ↦ ?_⟩
        · obtain rfl | hmem := List.mem_cons.1 hmem
          · exact List.mem_cons_self
          · exact List.mem_cons_of_mem _ (List.mem_cons_of_mem _ hmem)
        · obtain rfl | hs' := List.mem_cons.1 hs'
          · exact hmax _ List.mem_cons_self
          · obtain rfl | hs' := List.mem_cons.1 hs'
            · exact (not_lt.1 hge).trans (hmax s₁ List.mem_cons_self)
            · exact hmax s' (List.mem_cons_of_mem _ hs')

theorem exists_of_deepestSide?_eq_none {reach : ℝ} {c : Vec ℝ} {l : List (Side ℝ)}
    {best : Side ℝ × Option ℝ} (h : deepestSide? reach c l best = none) :
    ∃ s ∈ l, reach < s.separation c := by
  induction l generalizing best with
  | nil => cases h
  | cons s l ih =>
    rw [deepestSide?] at h
    split at h
    next hout => exact ⟨s, List.mem_cons_self, hout⟩
    · obtain ⟨s', hs', hout⟩ := ih h
      exact ⟨s', List.mem_cons_of_mem _ hs', hout⟩

/-- Of the sides of a polygon, `s` is the one that the point is furthest outside of. -/
structure Outermost (a : Polygon ℝ) (c : Vec ℝ) (s : Side ℝ) : Prop where
  mem : s ∈ a.sides
  le : ∀ s' ∈ a.sides, s'.separation c ≤ s.separation c

/-- The point lies past the end `v` of a side, as seen along the side. -/
def Past (s : Side ℝ) (c v : Vec ℝ) : Prop :=
  v = s.start ∧ (c - s.start).dot (s.stop - s.start) ≤ 0 ∨
    v = s.stop ∧ (c - s.stop).dot (s.start - s.stop) ≤ 0

/-- The contact of a polygon and a circle with its center at `c`, by where the center is. -/
inductive Located (a : Polygon ℝ) (b : Circle ℝ) (c : Vec ℝ) : Manifold ℝ → Prop
  | beyond {s : Side ℝ} (hs : s ∈ a.sides) (hout : b.radius < s.separation c) :
    Located a b c .empty
  | inside {s : Side ℝ} (hs : Outermost a c s) (hin : s.separation c < Scalar.epsilon)
      (id : FeaturePair) :
    Located a b c (.single .faceA s.normal s.center (.fresh b.center id))
  | corner {s : Side ℝ} {v : Vec ℝ} (hs : Outermost a c s)
      (hout : Scalar.epsilon ≤ s.separation c) (hv : Past s c v) (id : FeaturePair) :
    Located a b c (if b.radius * b.radius < c.distSq v then .empty
      else .single .faceA ((c - v).normalizeOr s.normal) v (.fresh b.center id))
  | face {s : Side ℝ} (hs : Outermost a c s) (hout : Scalar.epsilon ≤ s.separation c)
      (hstart : 0 < (c - s.start).dot (s.stop - s.start))
      (hstop : 0 < (c - s.stop).dot (s.start - s.stop)) (id : FeaturePair) :
    Located a b c (if b.radius < (c - s.center).dot s.normal then .empty
      else .single .faceA s.normal s.center (.fresh b.center id))

theorem located_polygonCircle (a : Polygon ℝ) (t : Pose ℝ) (b : Circle ℝ) (u : Pose ℝ) :
    Located a b (t.unapply (u.apply b.center)) (polygonCircle a t b u) := by
  have hne : a.sides ≠ [] := by
    intro h
    have hlen := congrArg List.length h
    have := a.three_le_length
    simp only [Outline.sides, List.length_map, List.length_zipIdx, List.length_zip,
      Outline.length_successive, a.length_normals, min_self, List.length_nil] at hlen
    omega
  simp only [polygonCircle]
  split
  next h => exact absurd h hne
  next s₀ rest hsides =>
    split
    next hdeep =>
      obtain ⟨s, hs, hout⟩ := exists_of_deepestSide?_eq_none hdeep
      exact .beyond (hsides ▸ hs) hout
    next s m hdeep =>
      rw [deepestSide?] at hdeep
      split at hdeep
      · cases hdeep
      obtain ⟨hs, rfl, hmax⟩ := deepestSide?_eq_some hdeep
      rw [← hsides] at hs hmax
      simp only [Option.all_some, decide_eq_true_eq]
      split
      next hin => exact .inside ⟨hs, hmax⟩ hin _
      next hout =>
        rw [not_lt] at hout
        split
        next hstart => exact .corner ⟨hs, hmax⟩ hout (.inl ⟨rfl, hstart⟩) _
        next hstart =>
          split
          next hstop => exact .corner ⟨hs, hmax⟩ hout (.inr ⟨rfl, hstop⟩) _
          next hstop => exact .face ⟨hs, hmax⟩ hout (not_le.1 hstart) (not_le.1 hstop) _

/-- The center of the circle is outside the polygon, but by less than counts. -/
def Marginal (a : Polygon ℝ) (t : Pose ℝ) (b : Circle ℝ) (u : Pose ℝ) : Prop :=
  ∃ s ∈ a.sides, (∀ s' ∈ a.sides, s'.separation (t.unapply (u.apply b.center)) ≤
      s.separation (t.unapply (u.apply b.center))) ∧
    0 < s.separation (t.unapply (u.apply b.center)) ∧
    s.separation (t.unapply (u.apply b.center)) < Scalar.epsilon

/-- From a point before a side of a polygon, the side is as far away as the point is outside. -/
theorem exists_reached_foot {a : Polygon ℝ} (ha : a.toOutline.Convex Outline.LeftTurn) {s : Side ℝ}
    (hs : s ∈ a.sides) {c : Vec ℝ} (hstart : 0 < (c - s.start).dot (s.stop - s.start))
    (hstop : 0 < (c - s.stop).dot (s.start - s.stop)) :
    ∃ q, Reaches (.polygon a) t q ∧ c.distSq q = s.separation c * s.separation c := by
  obtain ⟨k, hk, hrun⟩ := ha.run s hs
  obtain ⟨hv, hw⟩ := Outline.mem_of_mem_successive (Outline.mem_successive_of_mem_sides hs)
  refine ⟨Vec.foot s.start s.stop c, (reaches_vertex hv).segment (reaches_vertex hw) ?_, ?_⟩
  · exact Vec.onSegment_foot_of_ends hstart hstop
  · rw [Vec.distSq, Vec.sub_foot (ha.unit s hs) hk hrun, Vec.normSq_mul, ha.unit s hs, one_mul,
      Side.separation]

/-- How far a point is outside of a side can be measured from the middle of the side. -/
theorem dot_sub_center {o : Outline ℝ} {turn : Vec ℝ → Vec ℝ → Prop} (ho : o.Convex turn)
    {s : Side ℝ} (hs : s ∈ o.sides) (c : Vec ℝ) : (c - s.center).dot s.normal = s.separation c := by
  have hends := ho.separation_eq hs c
  simp only [Side.separation, Side.center, Vec.midpoint, Vec.dot, Vec.sub_x, Vec.sub_y,
    Vec.mul_x, Vec.mul_y, Vec.add_x, Vec.add_y] at hends ⊢
  linear_combination (-0.5 : ℝ) * hends

theorem inseparable_polygonCircle {a : Polygon ℝ} {b : Circle ℝ}
    (ha : a.toOutline.Convex Outline.LeftTurn) (hb : 0 ≤ b.radius) (hm : ¬ Marginal a t b u)
    (h : (polygonCircle a t b u).isEmpty = false) :
    Shape.Inseparable (.polygon a) t (.circle b) u := by
  generalize hM : polygonCircle a t b u = M at h
  have hlocated := located_polygonCircle a t b u
  rw [hM] at hlocated
  cases hlocated with
  | beyond => cases h
  | inside hs hin =>
    have hbehind : ∀ s' ∈ a.sides, s'.separation (t.unapply (u.apply b.center)) ≤ 0 := by
      intro s' hs'
      exact (hs.le s' hs').trans (not_lt.1 fun hpos ↦ hm ⟨_, hs.mem, hs.le, hpos, hin⟩)
    refine (reaches_of_behind ha hbehind).inseparable hb (le_of_eq_of_le ?_ (mul_self_nonneg _))
    simp [Vec.distSq, Vec.normSq, Vec.dot]
  | corner hs _ hv =>
    have hends := Outline.mem_of_mem_successive (Outline.mem_successive_of_mem_sides hs.mem)
    rcases hv with ⟨rfl, -⟩ | ⟨rfl, -⟩
    · exact (reaches_vertex hends.1).inseparable hb (distSq_le_of_isEmpty h)
    · exact (reaches_vertex hends.2).inseparable hb (distSq_le_of_isEmpty h)
  | face hs hout hstart hstop =>
    split at h
    · cases h
    next hreach =>
      obtain ⟨q, hq, hfoot⟩ := exists_reached_foot (t := t) ha hs.mem hstart hstop
      refine hq.inseparable hb ?_
      rw [hfoot]
      rw [dot_sub_center ha hs.mem, not_lt] at hreach
      exact mul_self_le_mul_self (Scalar.epsilon_pos.le.trans hout) hreach

/-! ## Outlines -/

/-- All real numbers are numbers, so the search for the least value skips none. -/
theorem exists_foldl_min (xs : List ℝ) (b : ℝ) :
    ∃ m, xs.foldl (fun best x ↦
        if Scalar.isNumber x then some (best.elim x (Scalar.min · x)) else best) (some b) = some m ∧
      m ∈ b :: xs ∧ ∀ x ∈ b :: xs, m ≤ x := by
  induction xs generalizing b with
  | nil => exact ⟨b, rfl, List.mem_cons_self, by simp⟩
  | cons x xs ih =>
    obtain ⟨m, hm, hmem, hle⟩ := ih (min b x)
    have hmin := hle _ List.mem_cons_self
    refine ⟨m, ?_, ?_, ?_⟩
    · rw [List.foldl_cons, if_pos (by simp [Scalar.isNumber]), Option.elim_some, Scalar.min_eq]
      exact hm
    · rcases List.mem_cons.1 hmem with rfl | hmem
      · rcases min_choice b x with hb | hb
        · rw [hb]
          exact List.mem_cons_self
        · rw [hb]
          exact List.mem_cons_of_mem _ List.mem_cons_self
      · exact List.mem_cons_of_mem _ (List.mem_cons_of_mem _ hmem)
    · intro y hy
      rcases List.mem_cons.1 hy with rfl | hy
      · exact hmin.trans (min_le_left ..)
      rcases List.mem_cons.1 hy with rfl | hy
      · exact hmin.trans (min_le_right ..)
      · exact hle y (List.mem_cons_of_mem _ hy)

theorem exists_least? {xs : List ℝ} (h : xs ≠ []) :
    ∃ m, Scalar.least? xs = some m ∧ m ∈ xs ∧ ∀ x ∈ xs, m ≤ x := by
  cases xs with
  | nil => exact absurd rfl h
  | cons x xs =>
    rw [Scalar.least?, List.foldl_cons, if_pos (by simp [Scalar.isNumber]), Option.elim_none]
    exact exists_foldl_min xs x

/-- A search for the greatest value ends with it, as no value is missing. -/
theorem exists_foldlM {f : Side ℝ → Option ℝ} {l : List (Side ℝ)}
    (hf : ∀ s ∈ l, ∃ d, f s = some d) (best : Side ℝ × ℝ) :
    ∃ r, l.foldlM (fun best s ↦ do
        let d ← f s
        return if best.2 < d then (s, d) else best) best = some r ∧
      (r = best ∨ r.1 ∈ l ∧ f r.1 = some r.2) ∧ best.2 ≤ r.2 ∧
        ∀ s ∈ l, ∀ d, f s = some d → d ≤ r.2 := by
  induction l generalizing best with
  | nil => exact ⟨best, rfl, .inl rfl, le_rfl, by simp⟩
  | cons s l ih =>
    obtain ⟨d, hd⟩ := hf s List.mem_cons_self
    obtain ⟨r, hr, hmem, hle, hall⟩ := ih (fun s' hs' ↦ hf s' (List.mem_cons_of_mem _ hs'))
      (if best.2 < d then (s, d) else best)
    have hboth : best.2 ≤ r.2 ∧ d ≤ r.2 := by
      split at hle
      next hlt => exact ⟨hlt.le.trans hle, hle⟩
      next hge => exact ⟨hle, (not_lt.1 hge).trans hle⟩
    refine ⟨r, ?_, ?_, hboth.1, fun s' hs' d' hd' ↦ ?_⟩
    · rw [List.foldlM_cons, hd]
      exact hr
    · obtain hr | ⟨hmem, hfr⟩ := hmem
      · split at hr
        · rw [hr]
          exact .inr ⟨List.mem_cons_self, hd⟩
        · exact .inl hr
      · exact .inr ⟨List.mem_cons_of_mem _ hmem, hfr⟩
    · obtain rfl | hs' := List.mem_cons.1 hs'
      · rw [hd] at hd'
        cases hd'
        exact hboth.2
      · exact hall s' hs' d' hd'

/-- Separations may be measured in the frame of either outline. -/
theorem dot_relative (s : Side ℝ) (v : Vec ℝ) :
    ((u.relative t).rotate s.normal).dot (v - (u.relative t).apply s.start) =
      (s.place t).separation (u.apply v) := by
  rw [← u.dot_rotate_rotate, u.rotate_relative, ← u.apply_sub_apply, u.apply_relative]
  rfl

/-- How far an outline is in front of a side. -/
theorem exists_separation {o : Outline ℝ} (ho : o.vertices ≠ []) (s : Side ℝ) :
    ∃ d, Scalar.least? (o.vertices.map fun v ↦
        ((u.relative t).rotate s.normal).dot (v - (u.relative t).apply s.start)) = some d ∧
      (∃ v ∈ (o.place u).vertices, (s.place t).separation v = d) ∧
        ∀ v ∈ (o.place u).vertices, d ≤ (s.place t).separation v := by
  simp only [dot_relative]
  have hne : (o.vertices.map fun v ↦ (s.place t).separation (u.apply v)) ≠ [] := by simpa using ho
  obtain ⟨d, hd, hmem, hle⟩ := exists_least? hne
  refine ⟨d, hd, ?_, fun v hv ↦ ?_⟩
  · obtain ⟨v, hv, he⟩ := List.mem_map.1 hmem
    exact ⟨u.apply v, List.mem_map_of_mem hv, he⟩
  · obtain ⟨w, hw, rfl⟩ := List.mem_map.1 hv
    exact hle _ (List.mem_map_of_mem hw)

/-- The greatest separation is that of the reference side. -/
theorem exists_gap {o o' : Outline ℝ} (ho : o.sides ≠ []) (ho' : o'.vertices ≠ []) :
    ∃ s m, greatestSeparation? o t o' u = some (s, m) ∧ s ∈ o.sides ∧
      (o.place t).Gap (o'.place u) (s.place t) m := by
  have hsep := exists_separation (t := t) (u := u) ho'
  simp only [greatestSeparation?]
  cases hsides : o.sides with
  | nil => exact absurd hsides ho
  | cons s₀ rest =>
    obtain ⟨d₀, hd₀, hmin₀, hle₀⟩ := hsep s₀
    obtain ⟨⟨s, m⟩, hr, hmem, hbest, hall⟩ := exists_foldlM (l := rest) (fun s _ ↦ by
      obtain ⟨d, hd, -⟩ := hsep s
      exact ⟨d, hd⟩) (s₀, d₀)
    have hs : s ∈ s₀ :: rest ∧ (∃ v ∈ (o'.place u).vertices, (s.place t).separation v = m) ∧
        ∀ v ∈ (o'.place u).vertices, m ≤ (s.place t).separation v := by
      obtain he | ⟨hs, hm⟩ := hmem
      · cases he
        exact ⟨List.mem_cons_self, hmin₀, hle₀⟩
      · obtain ⟨d, hd, hmin, hle⟩ := hsep s
        rw [hd] at hm
        cases hm
        exact ⟨List.mem_cons_of_mem _ hs, hmin, hle⟩
    refine ⟨s, m, ?_, hs.1, ?_, hs.2.2, hs.2.1, fun r' hr' ↦ ?_⟩
    · simp only [hd₀]
      exact hr
    · rw [Outline.sides_place, hsides]
      exact List.mem_map_of_mem hs.1
    · rw [Outline.sides_place, hsides] at hr'
      obtain ⟨r, hr, rfl⟩ := List.mem_map.1 hr'
      obtain ⟨d, hd, ⟨v, hv, rfl⟩, -⟩ := hsep r
      refine ⟨v, hv, ?_⟩
      obtain rfl | hr := List.mem_cons.1 hr
      · rw [hd₀] at hd
        cases hd
        exact hbest
      · exact hall r hr _ hd

/-- Outlines that touch have no separating side, and so no separating direction. -/
theorem dot_le_dot_of_outlines {o o' : Outline ℝ} {turn : Vec ℝ → Vec ℝ → Prop}
    (hturn : ∀ x y, turn x y → Outline.LeftTurn x y ∨ Outline.UTurn x y)
    (ho : (o.place t).Convex turn) (ho' : (o'.place u).Convex Outline.LeftTurn)
    (h : (outlines o t o' u).isEmpty = false) {v w : Vec ℝ} (hd : d.normSq = 1)
    (hv : v ∈ o.vertices) (hmax : ∀ x ∈ o.vertices, d.dot (t.apply x) ≤ d.dot (t.apply v))
    (hw : w ∈ o'.vertices) (hmin : ∀ x ∈ o'.vertices, d.dot (u.apply w) ≤ d.dot (u.apply x)) :
    d.dot (u.apply w) ≤ d.dot (t.apply v) := by
  have hnone : (∀ s ∈ (o.place t).sides, ∃ x ∈ (o'.place u).vertices, s.separation x ≤ 0) ∧
      ∀ s ∈ (o'.place u).sides, ∃ x ∈ (o.place t).vertices, s.separation x ≤ 0 := by
    obtain ⟨s₁, m₁, h₁, -, hg₁⟩ := exists_gap (t := t) (u := u) ho.sides_ne_nil ho'.vertices_ne_nil
    obtain ⟨s₂, m₂, h₂, -, hg₂⟩ := exists_gap (t := u) (u := t) ho'.sides_ne_nil ho.vertices_ne_nil
    simp only [outlines, h₁, h₂] at h
    split at h
    · cases h
    next hm₁ =>
      split at h
      · cases h
      next hm₂ =>
        refine ⟨fun s hs ↦ ?_, fun s hs ↦ ?_⟩
        · obtain ⟨x, hx, hle⟩ := hg₁.greatest s hs
          exact ⟨x, hx, hle.trans (not_lt.1 hm₁)⟩
        · obtain ⟨x, hx, hle⟩ := hg₂.greatest s hs
          exact ⟨x, hx, hle.trans (not_lt.1 hm₂)⟩
  by_contra hlt
  have hmax' : ∀ x ∈ (o.place t).vertices, d.dot x ≤ d.dot (t.apply v) := by
    intro x hx
    rw [Outline.place, List.mem_map] at hx
    obtain ⟨x, hx, rfl⟩ := hx
    exact hmax x hx
  have hmin' : ∀ x ∈ (o'.place u).vertices, d.dot (u.apply w) ≤ d.dot x := by
    intro x hx
    rw [Outline.place, List.mem_map] at hx
    obtain ⟨x, hx, rfl⟩ := hx
    exact hmin x hx
  obtain ⟨s, hs, hsep⟩ | ⟨s, hs, hsep⟩ := Outline.exists_separating_side hturn ho ho' hd
    (List.mem_map_of_mem hv) hmax' (List.mem_map_of_mem hw) hmin' (not_le.1 hlt)
  · obtain ⟨x, hx, hle⟩ := hnone.1 s hs
    exact absurd (hsep x hx) (not_lt.2 hle)
  · obtain ⟨x, hx, hle⟩ := hnone.2 s hs
    exact absurd (hsep x hx) (not_lt.2 hle)

theorem inseparable_polygons {a b : Polygon ℝ} (ha : a.toOutline.Convex Outline.LeftTurn)
    (hb : b.toOutline.Convex Outline.LeftTurn) (h : (polygons a t b u).isEmpty = false) :
    Shape.Inseparable (.polygon a) t (.polygon b) u := by
  intro d hd
  obtain ⟨v, hv, hvtop, hmax⟩ := Shape.top_polygon (t := t) (d := d) a
  obtain ⟨w, hw, hwtop, hmin⟩ := Shape.top_polygon (t := u) (d := -d) b
  simp only [Vec.neg_dot, neg_le_neg_iff] at hmin
  have hle := dot_le_dot_of_outlines (fun _ _ ↦ .inl) (ha.place t fun _ _ h ↦ h.rotate t)
    (hb.place u fun _ _ h ↦ h.rotate u) h hd hv hmax hw hmin
  rw [hvtop, hwtop, Vec.neg_dot]
  linarith

theorem inseparable_edgePolygon {a : Edge ℝ} {b : Polygon ℝ}
    (hb : b.toOutline.Convex Outline.LeftTurn) (h : (edgePolygon a t b u).isEmpty = false) :
    Shape.Inseparable (.edge a) t (.polygon b) u := by
  intro d hd
  simp only [edgePolygon] at h
  split at h
  · cases h
  next o ho =>
    obtain ⟨ha, hvs⟩ := Edge.convex ho
    obtain ⟨v, hv, hvtop, hmax⟩ := Shape.top_edge (t := t) (d := d) a
    obtain ⟨w, hw, hwtop, hmin⟩ := Shape.top_polygon (t := u) (d := -d) b
    simp only [Vec.neg_dot, neg_le_neg_iff] at hmin
    rw [← hvs] at hv hmax
    have hle := dot_le_dot_of_outlines (fun _ _ ↦ .inr) (ha.place t fun _ _ h ↦ h.rotate t)
      (hb.place u fun _ _ h ↦ h.rotate u) h hd hv hmax hw hmin
    rw [hvtop, hwtop, Vec.neg_dot]
    linarith

end Collision

/-! ## All rules -/

/-- The manifold that a rule finds for two shapes, which it takes in its own order. -/
def Rule.manifold {α : Type} (r : Rule α) (a : Shape α) (poseA : Pose α) (b : Shape α)
    (poseB : Pose α) : Manifold α :=
  if r.primary then r.collide a poseA b poseB else r.collide b poseB a poseA

theorem RuleTable.collide_of_standard {α : Type} [Scalar α] {x y : ShapeKind} {r : Rule α}
    (h : (standard (α := α)).rule? x y = some r) : r.collide = r.kind.collide := by
  cases x <;> cases y <;> simp [standard, register, empty] at h <;> rw [← h]

namespace Shape

variable {a b : Shape ℝ} {t u : Pose ℝ}

/-- One of the shapes is a circle, and its center is outside the other, a polygon, by less than
counts. -/
def Marginal : Shape ℝ → Pose ℝ → Shape ℝ → Pose ℝ → Prop
  | polygon a, t, circle b, u => Collision.Marginal a t b u
  | circle a, t, polygon b, u => Collision.Marginal b u a t
  | _, _, _, _ => False

theorem inseparable_of_collide {k : PairKind} (ha : a.Proper) (hb : b.Proper)
    (hm : ¬ Marginal a t b u) (h : (k.collide a t b u).isEmpty = false) :
    Inseparable a t b u := by
  cases a with
  | circle a =>
    cases b with
    | circle b =>
      cases k with
      | circles => exact Collision.inseparable_circles ha hb h
      | _ => cases h
    | polygon b => cases k <;> cases h
    | edge b => cases k <;> cases h
  | polygon a =>
    obtain ⟨⟨_, hok⟩, hbehind⟩ := ha
    have hconvex := Polygon.convex hok hbehind
    cases b with
    | circle b =>
      cases k with
      | polygonCircle => exact Collision.inseparable_polygonCircle hconvex hb hm h
      | _ => cases h
    | polygon b =>
      obtain ⟨⟨_, hok'⟩, hbehind'⟩ := hb
      cases k with
      | polygons => exact Collision.inseparable_polygons hconvex (Polygon.convex hok' hbehind') h
      | _ => cases h
    | edge b => cases k <;> cases h
  | edge a =>
    cases b with
    | circle b =>
      cases k with
      | edgeCircle => exact Collision.inseparable_edgeCircle hb h
      | _ => cases h
    | polygon b =>
      obtain ⟨⟨_, hok⟩, hbehind⟩ := hb
      cases k with
      | edgePolygon => exact Collision.inseparable_edgePolygon (Polygon.convex hok hbehind) h
      | _ => cases h
    | edge b => cases k <;> cases h

/-- **Shapes that touch are inseparable**, but for a marginal circle. -/
theorem inseparable_of_manifold {x y : ShapeKind} {r : Rule ℝ} (ha : a.Proper) (hb : b.Proper)
    (hm : ¬ Marginal a t b u) (hr : RuleTable.standard.rule? x y = some r)
    (h : (r.manifold a t b u).isEmpty = false) : Inseparable a t b u := by
  rw [Rule.manifold, RuleTable.collide_of_standard hr] at h
  split at h
  · exact inseparable_of_collide ha hb hm h
  · refine (inseparable_of_collide hb ha (fun hm' ↦ hm ?_) h).symm
    cases a <;> cases b <;> exact hm'

end Shape

end PlanarDynamics
