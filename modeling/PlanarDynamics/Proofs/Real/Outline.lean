import Mathlib.Data.List.Rotate
import PlanarDynamics.Proofs.Real.Plane
import PlanarDynamics.Shape.Edge
import PlanarDynamics.Shape.Polygon

/-!
# Convex outlines

An outline is convex if it lies behind each of its sides.  At each vertex two sides meet, and their
normals bound the directions in which no other vertex lies further.  A direction between the two is
a sum of multiples of them, so what is known of the two sides carries over to it.

`Outline.exists_separating_side` is the separating axis theorem: if two convex outlines are apart
along any direction at all, they are apart along the normal of some side of theirs.
-/

namespace PlanarDynamics

/-! ## Directions in a wedge -/

namespace Vec

variable {x y d r b z : Vec ℝ}

/-- The vector lies in every half-plane through the origin that holds the other three. -/
def Between (x y d r : Vec ℝ) : Prop :=
  ∀ b : Vec ℝ, 0 ≤ x.dot b → 0 ≤ y.dot b → 0 ≤ d.dot b → 0 ≤ r.dot b

/-- A vector that is a left turn from `x` and a right turn from `y` is a sum of multiples of
them. -/
theorem dot_nonneg_of_cross (hxy : 0 < x.cross y) (hxr : 0 ≤ x.cross r) (hry : 0 ≤ r.cross y)
    (hx : 0 ≤ x.dot b) (hy : 0 ≤ y.dot b) : 0 ≤ r.dot b := by
  have key : x.cross y * r.dot b = r.cross y * x.dot b + x.cross r * y.dot b := by
    simp only [cross, dot]
    ring
  refine nonneg_of_mul_nonneg_right ?_ hxy
  rw [key]
  exact add_nonneg (mul_nonneg hry hx) (mul_nonneg hxr hy)

/-- Parallel vectors are multiples of each other. -/
theorem eq_mul_of_cross_eq_zero (hd : d.normSq = 1) (h : x.cross d = 0) : x = d * x.dot d := by
  simp only [normSq, dot, cross] at hd h
  ext
  · simp only [mul_x, dot]
    linear_combination -x.x * hd + d.y * h
  · simp only [mul_y, dot]
    linear_combination -x.y * hd - d.x * h

/-- The direction `d` points along `x`, or along `y`, or strictly between them. -/
def Wedge (x y d : Vec ℝ) : Prop :=
  (∃ k : ℝ, 0 < k ∧ x = d * k) ∨ (∃ k : ℝ, 0 < k ∧ y = d * k) ∨ 0 < x.cross d ∧ 0 < d.cross y

theorem wedge_of_cross (hd : d.normSq = 1) (hxy : 0 < x.cross y) (hx : 0 ≤ x.cross d)
    (hy : 0 ≤ d.cross y) : Wedge x y d := by
  obtain hx | hx := hx.eq_or_lt
  · have hpar := eq_mul_of_cross_eq_zero hd hx.symm
    have hmul : x.cross y = x.dot d * d.cross y := by
      conv_lhs => rw [hpar]
      simp only [cross, mul_x, mul_y]
      ring
    exact .inl ⟨x.dot d, pos_of_mul_pos_left (hmul ▸ hxy) hy, hpar⟩
  · obtain hy | hy := hy.eq_or_lt
    · have hcross : y.cross d = 0 := by
        simp only [cross] at hy ⊢
        linarith
      have hpar := eq_mul_of_cross_eq_zero hd hcross
      have hmul : x.cross y = x.cross d * y.dot d := by
        conv_lhs => rw [hpar]
        simp only [cross, mul_x, mul_y]
        ring
      exact .inr (.inl ⟨y.dot d, pos_of_mul_pos_right (hmul ▸ hxy) hx.le, hpar⟩)
    · exact .inr (.inr ⟨hx, hy⟩)

/-- A wedge may also be a half-plane. -/
theorem wedge_of_neg (hd : d.normSq = 1) (hx : x.normSq = 1) (h : 0 ≤ x.cross d) :
    Wedge x (-x) d := by
  obtain h | h := h.eq_or_lt
  · have hpar := eq_mul_of_cross_eq_zero hd h.symm
    have hne : x.dot d ≠ 0 := by
      intro hz
      rw [hpar, hz] at hx
      simp [normSq, dot] at hx
    obtain hneg | hpos := lt_or_gt_of_ne hne
    · refine .inr (.inl ⟨-x.dot d, by linarith, ?_⟩)
      conv_lhs => rw [hpar]
      ext
      · simp only [neg_x, mul_x]
        ring
      · simp only [neg_y, mul_y]
        ring
    · exact .inl ⟨x.dot d, hpos, hpar⟩
  · refine .inr (.inr ⟨h, ?_⟩)
    rw [cross_neg]
    simp only [cross] at h ⊢
    linarith

theorem Between.neg (h : Between (-x) (-y) d r) : Between x y (-d) (-r) := by
  intro z hx hy hd
  have := h (-z)
  simp only [neg_dot, dot_neg, neg_neg] at this hd ⊢
  exact this hx hy hd

theorem between_of_eq_mul {k : ℝ} (hk : 0 < k) (h : r = d * k) : Between x y d r := by
  intro b _ _ hd
  rw [h, dot_comm, dot_mul, dot_comm]
  exact mul_nonneg hd hk.le

theorem between_of_left (hxd : 0 < x.cross d) (hxr : 0 ≤ x.cross r) (hrd : 0 ≤ r.cross d) :
    Between x y d r :=
  fun _ hx _ hd ↦ dot_nonneg_of_cross hxd hxr hrd hx hd

theorem between_of_right (hdy : 0 < d.cross y) (hdr : 0 ≤ d.cross r) (hry : 0 ≤ r.cross y) :
    Between x y d r :=
  fun _ _ hy hd ↦ dot_nonneg_of_cross hdy hdr hry hd hy

theorem cross_self (x : Vec ℝ) : x.cross x = 0 := by
  simp only [cross]
  ring

theorem cross_anticomm (x y : Vec ℝ) : x.cross y = -y.cross x := by
  simp only [cross]
  ring

variable {x₁ y₁ x₂ y₂ : Vec ℝ}

/-- Of two directions to the right of `d`, one is nearer to it. -/
theorem exists_nearest_left (h₁ : 0 < x₁.cross d) (h₂ : 0 < x₂.cross d) :
    ∃ p, (p = x₁ ∨ p = x₂) ∧ 0 < p.cross d ∧ 0 ≤ x₁.cross p ∧ 0 ≤ x₂.cross p := by
  obtain h | h := le_total 0 (x₁.cross x₂)
  · exact ⟨x₂, .inr rfl, h₂, h, (cross_self x₂).ge⟩
  · refine ⟨x₁, .inl rfl, h₁, (cross_self x₁).ge, ?_⟩
    rw [cross_anticomm]
    linarith

/-- Of two directions to the left of `d`, one is nearer to it. -/
theorem exists_nearest_right (h₁ : 0 < d.cross y₁) (h₂ : 0 < d.cross y₂) :
    ∃ q, (q = y₁ ∨ q = y₂) ∧ 0 < d.cross q ∧ 0 ≤ q.cross y₁ ∧ 0 ≤ q.cross y₂ := by
  obtain h | h := le_total 0 (y₁.cross y₂)
  · exact ⟨y₁, .inl rfl, h₁, (cross_self y₁).ge, h⟩
  · refine ⟨y₂, .inr rfl, h₂, ?_, (cross_self y₂).ge⟩
    rw [cross_anticomm]
    linarith

/-- Directions in a wedge that is less than a half-plane, one on either side of `d`, turn left. -/
theorem cross_pos_of_wedge {p q : Vec ℝ} (hturn : 0 < x.cross y) (hxd : 0 < x.cross d)
    (hdy : 0 < d.cross y) (hpd : 0 < p.cross d) (hdq : 0 < d.cross q) (hxp : 0 ≤ x.cross p)
    (hqy : 0 ≤ q.cross y) : 0 < p.cross q := by
  have key : x.cross d * d.cross y * p.cross q =
      p.cross d * q.cross y * x.cross d + p.cross d * d.cross q * x.cross y +
        x.cross p * d.cross q * d.cross y := by
    simp only [cross]
    ring
  have h₁ : 0 ≤ p.cross d * q.cross y * x.cross d := by positivity
  have h₂ : 0 < p.cross d * d.cross q * x.cross y := by positivity
  have h₃ : 0 ≤ x.cross p * d.cross q * d.cross y := by positivity
  refine pos_of_mul_pos_right ?_ (mul_pos hxd hdy).le
  rw [key]
  linarith

/-- A point in front of a direction is in front of one of two directions that enclose it. -/
theorem dot_pos_or_dot_pos {p q : Vec ℝ} (hpq : 0 < p.cross q) (hpd : 0 ≤ p.cross d)
    (hdq : 0 ≤ d.cross q) (hz : 0 < d.dot z) : 0 < p.dot z ∨ 0 < q.dot z := by
  by_contra hn
  rw [not_or, not_lt, not_lt] at hn
  have hsum : p.cross q * d.dot z = d.cross q * p.dot z + p.cross d * q.dot z := by
    simp only [cross, dot]
    ring
  have h₁ := mul_nonneg hdq (neg_nonneg.2 hn.1)
  have h₂ := mul_nonneg hpd (neg_nonneg.2 hn.2)
  have h₃ := mul_pos hpq hz
  linarith

/-- The heart of the separating axis theorem.  Where a direction lies in two wedges of which one is
less than a half-plane, a point in front of the direction is in front of a bound of one wedge that
lies in the other. -/
theorem exists_splitting (h₁ : Wedge x₁ y₁ d) (h₂ : Wedge x₂ y₂ d) (hturn : 0 < x₂.cross y₂)
    (hz : 0 < d.dot z) :
    ∃ r, (r = x₁ ∨ r = y₁ ∨ r = x₂ ∨ r = y₂) ∧ 0 < r.dot z ∧ Between x₁ y₁ d r ∧
      Between x₂ y₂ d r := by
  have hpar : ∀ r (k : ℝ), 0 < k → r = d * k → 0 < r.dot z := by
    rintro r k hk rfl
    rw [dot_comm, dot_mul, dot_comm]
    exact mul_pos hz hk
  obtain ⟨k, hk, he⟩ | ⟨k, hk, he⟩ | ⟨hx₁, hy₁⟩ := h₁
  · exact ⟨x₁, .inl rfl, hpar _ k hk he, between_of_eq_mul hk he, between_of_eq_mul hk he⟩
  · exact ⟨y₁, .inr (.inl rfl), hpar _ k hk he, between_of_eq_mul hk he, between_of_eq_mul hk he⟩
  obtain ⟨k, hk, he⟩ | ⟨k, hk, he⟩ | ⟨hx₂, hy₂⟩ := h₂
  · exact ⟨x₂, .inr (.inr (.inl rfl)), hpar _ k hk he, between_of_eq_mul hk he,
      between_of_eq_mul hk he⟩
  · exact ⟨y₂, .inr (.inr (.inr rfl)), hpar _ k hk he, between_of_eq_mul hk he,
      between_of_eq_mul hk he⟩
  -- The bounds nearest to the direction on either side lie in both wedges.
  obtain ⟨p, hp, hpd, hp₁, hp₂⟩ := exists_nearest_left hx₁ hx₂
  obtain ⟨q, hq, hdq, hq₁, hq₂⟩ := exists_nearest_right hy₁ hy₂
  have hpq := cross_pos_of_wedge hturn hx₂ hy₂ hpd hdq hp₂ hq₂
  obtain hpz | hqz := dot_pos_or_dot_pos hpq hpd.le hdq.le hz
  · exact ⟨p, by tauto, hpz, between_of_left hx₁ hp₁ hpd.le, between_of_left hx₂ hp₂ hpd.le⟩
  · exact ⟨q, by tauto, hqz, between_of_right hy₁ hdq.le hq₁, between_of_right hy₂ hdq.le hq₂⟩

end Vec

namespace Outline

/-! ## Sides -/

section Successive

variable {β γ : Type} {l : List β} {x y : β}

theorem successive_eq_zip (l : List β) : successive l = l.zip (l.rotate 1) := by
  cases l with
  | nil => rfl
  | cons v vs => rw [List.rotate_cons_succ, List.rotate_zero, successive]

theorem mem_of_mem_successive (h : (x, y) ∈ successive l) : x ∈ l ∧ y ∈ l := by
  rw [successive_eq_zip] at h
  obtain ⟨hx, hy⟩ := List.of_mem_zip h
  exact ⟨hx, List.mem_rotate.1 hy⟩

theorem exists_mem_successive_left (h : x ∈ l) : ∃ y, (x, y) ∈ successive l := by
  obtain ⟨i, hi, rfl⟩ := List.mem_iff_getElem.1 h
  rw [successive_eq_zip]
  have hz : i < (l.zip (l.rotate 1)).length := by simpa using hi
  refine ⟨(l.zip (l.rotate 1))[i].2, ?_⟩
  have hmem := List.getElem_mem hz
  rw [List.getElem_zip] at hmem ⊢
  exact hmem

theorem exists_mem_successive_right (h : y ∈ l) : ∃ x, (x, y) ∈ successive l := by
  obtain ⟨i, hi, rfl⟩ := List.mem_iff_getElem.1 (List.mem_rotate.2 h : y ∈ l.rotate 1)
  rw [successive_eq_zip]
  have hz : i < (l.zip (l.rotate 1)).length := by simpa using hi
  refine ⟨(l.zip (l.rotate 1))[i].1, ?_⟩
  have hmem := List.getElem_mem hz
  rw [List.getElem_zip] at hmem ⊢
  exact hmem

theorem successive_map (f : β → γ) (l : List β) :
    successive (l.map f) = (successive l).map (Prod.map f f) := by
  rw [successive_eq_zip, successive_eq_zip, ← List.map_rotate, List.zip_map]

/-- Of two successive sides, one ends where the other starts. -/
theorem snd_eq_fst_of_mem_successive {s t : β × β} (h : (s, t) ∈ successive (successive l)) :
    s.2 = t.1 := by
  have hrot : (l.zip (l.rotate 1)).rotate 1 = (l.rotate 1).zip ((l.rotate 1).rotate 1) :=
    List.zipWith_rotate_distrib Prod.mk l (l.rotate 1) 1 (List.length_rotate ..).symm
  rw [successive_eq_zip (successive l), successive_eq_zip l, hrot] at h
  obtain ⟨i, hi, he⟩ := List.mem_iff_getElem.1 h
  rw [List.getElem_zip, List.getElem_zip, List.getElem_zip, Prod.mk.injEq] at he
  rw [← he.1, ← he.2]

end Successive

variable {o : Outline ℝ} {s : Side ℝ}

theorem mem_zip_of_mem_sides (h : s ∈ o.sides) :
    ((s.start, s.stop), s.normal) ∈ (successive o.vertices).zip o.normals := by
  obtain ⟨e, he, rfl⟩ := List.mem_map.1 h
  exact List.fst_mem_of_mem_zipIdx he

theorem mem_successive_of_mem_sides (h : s ∈ o.sides) :
    (s.start, s.stop) ∈ successive o.vertices :=
  (List.of_mem_zip (mem_zip_of_mem_sides h)).1

theorem exists_mem_sides (hlen : o.normals.length = o.vertices.length) {v w : Vec ℝ}
    (h : (v, w) ∈ successive o.vertices) : ∃ s ∈ o.sides, s.start = v ∧ s.stop = w := by
  obtain ⟨i, hi, he⟩ := List.mem_iff_getElem.1 h
  rw [length_successive] at hi
  have hs : i < o.sides.length := by simp [sides, hlen, hi]
  refine ⟨o.sides[i], List.getElem_mem hs, ?_⟩
  simp [sides, he]

/-! ## Convexity -/

/-- An outline that lies behind each of its sides, with unit normals, and with a turn as given
between the normals of the two sides at each vertex. -/
structure Convex (turn : Vec ℝ → Vec ℝ → Prop) (o : Outline ℝ) : Prop where
  nonempty : o.vertices ≠ []
  unit : ∀ s ∈ o.sides, s.normal.normSq = 1
  run : ∀ s ∈ o.sides, ∃ k : ℝ, 0 < k ∧ s.stop - s.start = s.normal.perp * k
  behind : ∀ s ∈ o.sides, ∀ v ∈ o.vertices, s.separation v ≤ 0
  corner : ∀ v ∈ o.vertices, ∃ s ∈ o.sides, ∃ t ∈ o.sides,
    s.stop = v ∧ t.start = v ∧ turn s.normal t.normal

/-- A turn by less than a half circle, as at the vertices of a polygon. -/
def LeftTurn (x y : Vec ℝ) : Prop := 0 < x.cross y

/-- A turn by a half circle, as at the ends of an edge. -/
def UTurn (x y : Vec ℝ) : Prop := y = -x

/-- A side is measured from either of its ends. -/
theorem Convex.separation_eq {turn : Vec ℝ → Vec ℝ → Prop} (h : o.Convex turn) (hs : s ∈ o.sides)
    (u : Vec ℝ) : s.separation u = s.normal.dot (u - s.stop) := by
  obtain ⟨k, -, hk⟩ := h.run s hs
  have hz : s.normal.dot (s.stop - s.start) = 0 := by
    rw [hk, Vec.dot_mul, Vec.dot_perp, Vec.cross_self, zero_mul]
  rw [Side.separation, Vec.dot_sub, Vec.dot_sub]
  rw [Vec.dot_sub] at hz
  linarith

/-- At the vertex `v` one side ends and another starts. -/
structure Corner (o : Outline ℝ) (v : Vec ℝ) (s t : Side ℝ) : Prop where
  incoming : s ∈ o.sides
  outgoing : t ∈ o.sides
  stop : s.stop = v
  start : t.start = v

namespace Corner

variable {turn : Vec ℝ → Vec ℝ → Prop} {v d r u : Vec ℝ} {t : Side ℝ}

theorem separation_incoming (hc : o.Corner v s t) (h : o.Convex turn) (u : Vec ℝ) :
    s.separation u = s.normal.dot u - s.normal.dot v := by
  rw [h.separation_eq hc.incoming, hc.stop, Vec.dot_sub]

theorem separation_outgoing (hc : o.Corner v s t) (u : Vec ℝ) :
    t.separation u = t.normal.dot u - t.normal.dot v := by
  rw [Side.separation, hc.start, Vec.dot_sub]

/-- What is behind both sides and not beyond the vertex in one direction between the normals is not
beyond it in another. -/
theorem dot_le (hc : o.Corner v s t) (h : o.Convex turn)
    (hr : Vec.Between s.normal t.normal d r) (hu : u ∈ o.vertices) (hd : d.dot u ≤ d.dot v) :
    r.dot u ≤ r.dot v := by
  have hs := h.behind s hc.incoming u hu
  have ht := h.behind t hc.outgoing u hu
  rw [hc.separation_incoming h] at hs
  rw [hc.separation_outgoing] at ht
  have hr := hr (v - u)
  simp only [Vec.dot_sub] at hr
  linarith [hr (by linarith) (by linarith) (by linarith)]

end Corner

/-- At the furthest vertex in a direction, the direction lies between the normals. -/
theorem Convex.exists_corner {turn : Vec ℝ → Vec ℝ → Prop} (h : o.Convex turn) {v d : Vec ℝ}
    (hv : v ∈ o.vertices) (hmax : ∀ u ∈ o.vertices, d.dot u ≤ d.dot v) :
    ∃ s t, o.Corner v s t ∧ turn s.normal t.normal ∧
      0 ≤ s.normal.cross d ∧ 0 ≤ d.cross t.normal := by
  obtain ⟨s, hs, t, ht, rfl, htv, hturn⟩ := h.corner v hv
  refine ⟨s, t, ⟨hs, ht, rfl, htv⟩, hturn, ?_, ?_⟩
  · obtain ⟨k, hk, hrun⟩ := h.run s hs
    have hle := hmax s.start (mem_of_mem_successive (mem_successive_of_mem_sides hs)).1
    have hdot : d.dot (s.stop - s.start) = s.normal.cross d * k := by
      rw [hrun, Vec.dot_mul, Vec.dot_perp]
    rw [Vec.dot_sub] at hdot
    exact nonneg_of_mul_nonneg_left (by linarith) hk
  · obtain ⟨k, hk, hrun⟩ := h.run t ht
    have hle := hmax t.stop (mem_of_mem_successive (mem_successive_of_mem_sides ht)).2
    have hdot : d.dot (t.stop - t.start) = t.normal.cross d * k := by
      rw [hrun, Vec.dot_mul, Vec.dot_perp]
    rw [Vec.dot_sub, htv] at hdot
    rw [Vec.cross_anticomm]
    have hneg : t.normal.cross d ≤ 0 := by
      by_contra hn
      have := mul_pos (not_le.1 hn) hk
      linarith
    linarith

/-- A point behind all sides lies no further in any direction than some vertex. -/
theorem Convex.dot_le (h : o.Convex LeftTurn) {c d v : Vec ℝ}
    (hc : ∀ s ∈ o.sides, s.separation c ≤ 0) (hv : v ∈ o.vertices)
    (hmax : ∀ u ∈ o.vertices, d.dot u ≤ d.dot v) : d.dot c ≤ d.dot v := by
  obtain ⟨s, t, hcorner, hturn, hsd, hdt⟩ := h.exists_corner hv hmax
  have hcs := hc s hcorner.incoming
  have hct := hc t hcorner.outgoing
  rw [hcorner.separation_incoming h] at hcs
  rw [hcorner.separation_outgoing] at hct
  have hd : 0 ≤ d.dot (v - c) := by
    refine Vec.dot_nonneg_of_cross hturn hsd hdt ?_ ?_
    · rw [Vec.dot_sub]
      linarith
    · rw [Vec.dot_sub]
      linarith
  rw [Vec.dot_sub] at hd
  linarith

/-- **The separating axis theorem.** If a polygon lies in front of another convex outline along some
direction, it does so for some side, or the other lies in front of a side of the polygon. -/
theorem exists_separating_side {o o' : Outline ℝ} {turn : Vec ℝ → Vec ℝ → Prop}
    (hturn : ∀ x y, turn x y → LeftTurn x y ∨ UTurn x y) (h : o.Convex turn)
    (h' : o'.Convex LeftTurn) {d v w : Vec ℝ} (hd : d.normSq = 1) (hv : v ∈ o.vertices)
    (hmax : ∀ u ∈ o.vertices, d.dot u ≤ d.dot v) (hw : w ∈ o'.vertices)
    (hmin : ∀ u ∈ o'.vertices, d.dot w ≤ d.dot u) (hlt : d.dot v < d.dot w) :
    (∃ s ∈ o.sides, ∀ u ∈ o'.vertices, 0 < s.separation u) ∨
      ∃ s ∈ o'.sides, ∀ u ∈ o.vertices, 0 < s.separation u := by
  have hmax' : ∀ u ∈ o'.vertices, (-d).dot u ≤ (-d).dot w := fun u hu ↦ by
    rw [Vec.neg_dot, Vec.neg_dot]
    exact neg_le_neg (hmin u hu)
  obtain ⟨s₁, t₁, hc₁, hturn₁, hx₁, hy₁⟩ := h.exists_corner hv hmax
  obtain ⟨s₂, t₂, hc₂, hturn₂, hx₂, hy₂⟩ := h'.exists_corner hw hmax'
  rw [Vec.cross_neg, ← Vec.neg_cross] at hx₂
  rw [Vec.neg_cross, ← Vec.cross_neg] at hy₂
  have hcross₂ : 0 < (-s₂.normal).cross (-t₂.normal) := by
    rw [Vec.neg_cross, Vec.cross_neg, neg_neg]
    exact hturn₂
  have hwedge₁ : Vec.Wedge s₁.normal t₁.normal d := by
    obtain hl | hu := hturn _ _ hturn₁
    · exact Vec.wedge_of_cross hd hl hx₁ hy₁
    · rw [UTurn] at hu
      rw [hu]
      exact Vec.wedge_of_neg hd (h.unit s₁ hc₁.incoming) hx₁
  have hwedge₂ := Vec.wedge_of_cross hd hcross₂ hx₂ hy₂
  obtain ⟨r, hr, hrz, hr₁, hr₂⟩ := Vec.exists_splitting (z := w - v) hwedge₁ hwedge₂ hcross₂ <| by
    rw [Vec.dot_sub]
    linarith
  rw [Vec.dot_sub] at hrz
  -- All of the one outline is behind the first vertex, and all of the other before the second.
  have hbehind : ∀ u ∈ o.vertices, r.dot u ≤ r.dot v := fun u hu ↦ hc₁.dot_le h hr₁ hu (hmax u hu)
  have hbefore : ∀ u ∈ o'.vertices, r.dot w ≤ r.dot u := fun u hu ↦ by
    have := hc₂.dot_le h' hr₂.neg hu (hmax' u hu)
    rw [Vec.neg_dot, Vec.neg_dot] at this
    linarith
  obtain rfl | rfl | rfl | rfl := hr
  · refine .inl ⟨s₁, hc₁.incoming, fun u hu ↦ ?_⟩
    rw [hc₁.separation_incoming h]
    linarith [hbefore u hu]
  · refine .inl ⟨t₁, hc₁.outgoing, fun u hu ↦ ?_⟩
    rw [hc₁.separation_outgoing]
    linarith [hbefore u hu]
  · refine .inr ⟨s₂, hc₂.incoming, fun u hu ↦ ?_⟩
    simp only [Vec.neg_dot] at hrz hbehind
    rw [hc₂.separation_incoming h']
    linarith [hbehind u hu]
  · refine .inr ⟨t₂, hc₂.outgoing, fun u hu ↦ ?_⟩
    simp only [Vec.neg_dot] at hrz hbehind
    rw [hc₂.separation_outgoing]
    linarith [hbehind u hu]

/-! ## Outlines under a pose -/

end Outline

/-- A side under a pose. -/
noncomputable def Side.place (t : Pose ℝ) (s : Side ℝ) : Side ℝ :=
  { s with start := t.apply s.start, stop := t.apply s.stop, normal := t.rotate s.normal }

namespace Outline

variable {o : Outline ℝ} {s : Side ℝ} {turn : Vec ℝ → Vec ℝ → Prop}

/-- An outline under a pose. -/
noncomputable def place (t : Pose ℝ) (o : Outline ℝ) : Outline ℝ :=
  ⟨o.vertices.map t.apply, o.normals.map t.rotate⟩

theorem place_identity (o : Outline ℝ) : o.place .identity = o := by
  rw [place, List.map_congr_left fun v _ ↦ Pose.apply_identity v,
    List.map_congr_left fun v _ ↦ Pose.rotate_identity v, List.map_id', List.map_id']

theorem sides_place (t : Pose ℝ) (o : Outline ℝ) :
    (o.place t).sides = o.sides.map (Side.place t) := by
  simp only [sides, place, successive_map, List.zip_map, List.zipIdx_map, List.map_map,
    List.length_map]
  rfl

theorem separation_place (t : Pose ℝ) (s : Side ℝ) (u : Vec ℝ) :
    (s.place t).separation (t.apply u) = s.separation u := by
  change (t.rotate s.normal).dot (t.apply u - t.apply s.start) = _
  rw [t.apply_sub_apply, t.dot_rotate_rotate, Side.separation]

theorem Convex.place (h : o.Convex turn) (t : Pose ℝ)
    (hturn : ∀ x y, turn x y → turn (t.rotate x) (t.rotate y)) : (o.place t).Convex turn := by
  constructor
  · simp only [Outline.place, ne_eq, List.map_eq_nil_iff]
    exact h.nonempty
  · intro s hs
    rw [sides_place, List.mem_map] at hs
    obtain ⟨s, hs, rfl⟩ := hs
    exact (Vec.normSq_rotate s.normal t.rotation).trans (h.unit s hs)
  · intro s hs
    rw [sides_place, List.mem_map] at hs
    obtain ⟨s, hs, rfl⟩ := hs
    obtain ⟨k, hk, hrun⟩ := h.run s hs
    refine ⟨k, hk, ?_⟩
    change t.apply s.stop - t.apply s.start = (t.rotate s.normal).perp * k
    rw [t.apply_sub_apply, hrun, Pose.rotate, Pose.rotate, Vec.rotate_mul, Vec.perp_rotate]
  · intro s hs v hv
    rw [sides_place, List.mem_map] at hs
    obtain ⟨s, hs, rfl⟩ := hs
    rw [Outline.place, List.mem_map] at hv
    obtain ⟨v, hv, rfl⟩ := hv
    rw [separation_place]
    exact h.behind s hs v hv
  · intro v hv
    rw [Outline.place, List.mem_map] at hv
    obtain ⟨v, hv, rfl⟩ := hv
    obtain ⟨s, hs, u, hu, rfl, huv, hsu⟩ := h.corner v hv
    rw [sides_place]
    refine ⟨s.place t, List.mem_map_of_mem hs, u.place t, List.mem_map_of_mem hu, rfl, ?_,
      hturn _ _ hsu⟩
    change t.apply u.start = _
    rw [huv]

theorem LeftTurn.rotate {x y : Vec ℝ} (h : LeftTurn x y) (t : Pose ℝ) :
    LeftTurn (t.rotate x) (t.rotate y) := by
  rw [LeftTurn, Pose.rotate, Pose.rotate, Vec.cross_rotate_rotate]
  exact h

theorem UTurn.rotate {x y : Vec ℝ} (h : UTurn x y) (t : Pose ℝ) :
    UTurn (t.rotate x) (t.rotate y) := by
  rw [UTurn] at h
  subst h
  ext
  · simp only [Pose.rotate, Vec.rotate, Vec.neg_x, Vec.neg_y]
    ring
  · simp only [Pose.rotate, Vec.rotate, Vec.neg_x, Vec.neg_y]
    ring

end Outline

end PlanarDynamics
