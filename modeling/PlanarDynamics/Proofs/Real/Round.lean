import PlanarDynamics.Proofs.Real.Region
import PlanarDynamics.Proofs.Real.Manifold
import PlanarDynamics.Proofs.Collision.Invariance

/-!
# Exact contacts of circles

A circle touches another shape just if its center is no further from the core of the shape than the
radii reach.  The manifold then tells the distance: its normal leads from the nearest point of the
core to the center, and its separation is the distance less the radii.  This is `Collision.Exact`,
and it holds of every rule with a circle.

Which point of a polygon is nearest is not sought among all its points.  It lies on the side that
the center is furthest outside of (`Collision.Outermost.nearest_corner`): where the center is past
the end of that side, the neighbouring side, which it is not further outside of, turns away from it.
-/

namespace PlanarDynamics

/-! ## Distances -/

namespace Vec

variable {a b c n r z : Vec ℝ}

theorem lt_dist_iff {x : ℝ} (hx : 0 ≤ x) : x < a.dist b ↔ x * x < a.distSq b := by
  rw [← sq]
  exact Real.lt_sqrt hx

/-- A point outside a line by some distance is as far from whatever is behind the line. -/
theorem dot_sub_le_dist (hn : n.normSq = 1) (hb : n.dot b ≤ n.dot a) :
    n.dot (c - a) ≤ c.dist b := by
  have hle : n.dot (c - b) ≤ c.dist b :=
    dot_le_of_normSq_le hn (Real.sqrt_nonneg _) (Real.mul_self_sqrt ?_).ge
  · rw [dot_sub] at hle ⊢
    linarith
  · exact add_nonneg (mul_self_nonneg _) (mul_self_nonneg _)

/-- A vector turned from `n` towards `r`, and no further in front of `r`, is a sum of multiples of
the two. -/
theorem dot_nonneg_of_outermost (hn : n.normSq = 1) (hr : r.normSq = 1) (hne : n.cross r ≠ 0)
    (hside : 0 ≤ n.cross r * n.cross z) (hpos : 0 < n.dot z) (hle : r.dot z ≤ n.dot z)
    (hb : 0 ≤ n.dot b) (hb' : 0 ≤ r.dot b) : 0 ≤ z.dot b := by
  have hσ : 0 < n.cross r * n.cross r := mul_self_pos.2 hne
  have hκ := dot_lt_one hn hr hne
  have hdot := dot_eq_of_unit hn r z
  have hcross := cross_eq_of_unit hn r z
  have hsq := dot_eq_of_unit hn r r
  rw [← normSq, hr] at hsq
  -- If it were turned beyond `r`, it would be further in front of `r` than of `n`.
  have hturn : n.cross r * r.cross z < 0 := by
    by_contra hge
    rw [not_lt, hcross] at hge
    have hfront : n.cross r * n.cross r * n.dot z ≤ n.dot r * (n.cross r * n.cross z) := by
      linarith
    have hpos' : 0 < n.dot r * (n.cross r * n.cross z) := (mul_pos hσ hpos).trans_le hfront
    have hκ' : 0 < n.dot r := pos_of_mul_pos_left hpos' hside
    have := mul_le_mul_of_nonneg_left hle hκ'.le
    rw [hdot] at this
    nlinarith
  have key : n.cross r * n.cross r * z.dot b =
      -(n.cross r * r.cross z) * n.dot b + n.cross r * n.cross z * r.dot b := by
    simp only [cross, dot]
    ring
  refine nonneg_of_mul_nonneg_right ?_ hσ
  rw [key]
  exact add_nonneg (mul_nonneg (neg_nonneg.2 hturn.le) hb) (mul_nonneg hside hb')

end Vec

theorem Pose.dist_apply_apply (t : Pose ℝ) (p q : Vec ℝ) :
    (t.apply p).dist (t.apply q) = p.dist q :=
  congrArg Scalar.sqrt (t.distSq_apply_apply p q)

/-! ## Manifolds of one point -/

/-- The manifold has one point and measures the way from `q` to `c`, less the radii. -/
structure WorldManifold.Spans (w : WorldManifold ℝ) (q c : Vec ℝ) (radii : ℝ) : Prop where
  unit : w.normal.normSq = 1
  direction : c - q = w.normal * c.dist q
  separation : ∃ p, w.points = [⟨p, c.dist q - radii⟩]

namespace Manifold

variable {t u : Pose ℝ} {n p q x : Vec ℝ} {id : FeaturePair} {r s d : ℝ}

/-- Two core points that are far enough apart to have a direction. -/
theorem spans_circles (h : 1e-10 ≤ (u.apply x).dist (t.apply p)) :
    ((single .circles n p (.fresh x id)).inWorld t r u s).Spans (t.apply p) (u.apply x)
      (r + s) := by
  set a := t.apply p with ha
  set b := u.apply x with hb
  set m := circlesNormal a b with hm
  have hway : b - a = m * b.dist a := Vec.eq_normalizeOr_mul h _
  have hunit : m.normSq = 1 := normSq_circlesNormal a b
  refine ⟨hunit, hway, (a + m * r).midpoint (b - m * s), ?_⟩
  show [WorldPoint.between m (a + m * r) (b - m * s)] = _
  congr 1
  refine WorldPoint.ext rfl ?_
  show ((b - m * s) - (a + m * r)).dot m = b.dist a - (r + s)
  rw [Vec.dot_sub_of_normSq hunit, Vec.dot_eq_of_eq_mul hunit hway, sub_sub]

/-- A face, and a core point of the other shape. -/
theorem inWorld_face (hn : n.normSq = 1) :
    ∃ y, (single .faceA n p (.fresh x id)).inWorld t r u s =
      ⟨t.rotate n, [⟨y, (t.unapply (u.apply x) - p).dot n - (r + s)⟩]⟩ := by
  have hunit : (t.rotate n).normSq = 1 := (Vec.normSq_rotate n t.rotation).trans hn
  set a := facePoints (t.rotate n) (t.apply p) r (u.apply x) s with ha
  refine ⟨a.1.midpoint a.2, WorldManifold.ext rfl ?_⟩
  show [WorldPoint.between (t.rotate n) a.1 a.2] = _
  congr 1
  refine WorldPoint.ext rfl ?_
  have hlocal : (u.apply x - t.apply p).dot (t.rotate n) = (t.unapply (u.apply x) - p).dot n := by
    rw [← t.dot_rotate_rotate (t.unapply _ - p), ← t.apply_sub_apply, t.apply_unapply]
  show (a.2 - a.1).dot (t.rotate n) = _
  rw [ha, dot_facePoints hunit, hlocal, sub_sub]

/-- A face below the core point of the other shape, at the distance `d`. -/
theorem spans_face (hn : n.normSq = 1) (hd : 0 ≤ d) (hq : t.unapply (u.apply x) - q = n * d)
    (hp : (t.unapply (u.apply x) - p).dot n = d) :
    ((single .faceA n p (.fresh x id)).inWorld t r u s).Spans (t.apply q) (u.apply x)
      (r + s) := by
  have hway : u.apply x - t.apply q = t.rotate n * d := by
    have := congrArg t.rotate hq
    rw [← t.apply_sub_apply, t.apply_unapply] at this
    rw [this, Pose.rotate, Vec.rotate_mul, Pose.rotate]
  have hunit : (t.rotate n).normSq = 1 := (Vec.normSq_rotate n t.rotation).trans hn
  have hdist := Vec.dist_eq_of_sub_eq hunit hd hway
  obtain ⟨y, hworld⟩ : ∃ y, (single .faceA n p (.fresh x id)).inWorld t r u s =
      ⟨t.rotate n, [⟨y, (t.unapply (u.apply x) - p).dot n - (r + s)⟩]⟩ := inWorld_face hn
  rw [hworld, hp]
  exact ⟨hunit, by rw [hway, hdist], y, by rw [hdist]⟩

end Manifold

namespace Collision

variable {a : Polygon ℝ} {s r : Side ℝ} {c v w : Vec ℝ} {t u : Pose ℝ}

/-! ## The nearest point of a polygon -/

/-- Where the next side at a vertex turns towards a point, but the point is not further outside of
it, the vertex is in the way of all other points. -/
theorem Outermost.dot_le_of_neighbour (hs : Outermost a c s)
    (ha : a.toOutline.Convex Outline.LeftTurn) (hpos : 0 < s.separation c) (hr : r ∈ a.sides)
    (hsv : s.EndsAt v) (hrv : r.EndsAt v) (hne : s.normal.cross r.normal ≠ 0)
    (hside : 0 ≤ s.normal.cross r.normal * s.normal.cross (c - v)) (hw : w ∈ a.vertices) :
    (c - v).dot (w - v) ≤ 0 := by
  have hle := hs.le r hr
  have hws := ha.behind s hs.mem w hw
  have hwr := ha.behind r hr w hw
  simp only [ha.separation_of_endsAt hs.mem hsv, ha.separation_of_endsAt hr hrv] at hpos hle hws hwr
  have hb := Vec.dot_nonneg_of_outermost (b := v - w) (ha.unit s hs.mem) (ha.unit r hr) hne hside
    (by rw [Vec.dot_sub]; exact hpos) (by rw [Vec.dot_sub, Vec.dot_sub]; exact hle)
    (by rw [Vec.dot_sub]; linarith) (by rw [Vec.dot_sub]; linarith)
  rw [Vec.dot_sub] at hb ⊢
  linarith

theorem Outermost.nearest_corner (hs : Outermost a c s)
    (ha : a.toOutline.Convex Outline.LeftTurn) (hpos : 0 < s.separation c) (hv : Past s c v) :
    Vec.Nearest ((Shape.polygon a).core t) (t.apply c) (t.apply v) := by
  obtain ⟨k, hk, hrun⟩ := ha.run s hs.mem
  have halong : ∀ p, (c - p).dot (s.stop - s.start) = s.normal.cross (c - p) * k := by
    intro p
    rw [hrun, Vec.dot_mul, Vec.dot_perp]
  rcases hv with ⟨rfl, hpast⟩ | ⟨rfl, hpast⟩
  · obtain ⟨r, hr, hrs, hturn⟩ := ha.exists_previous hs.mem
    have hneg : s.normal.cross r.normal < 0 := by
      rw [Vec.cross_anticomm]
      exact neg_neg_of_pos hturn
    have hcross : s.normal.cross (c - s.start) ≤ 0 := by
      rw [halong] at hpast
      exact nonpos_of_mul_nonpos_left hpast hk
    refine Shape.nearest_core (Shape.mem_core (Outline.start_mem hs.mem)) fun w hw ↦ ?_
    exact hs.dot_le_of_neighbour ha hpos hr (.inl rfl) (.inr hrs) hneg.ne
      (mul_nonneg_of_nonpos_of_nonpos hneg.le hcross) hw
  · obtain ⟨r, hr, hrs, hturn⟩ := ha.exists_next hs.mem
    have hcross : 0 ≤ s.normal.cross (c - s.stop) := by
      have hback : (c - s.stop).dot (s.start - s.stop) =
          -((c - s.stop).dot (s.stop - s.start)) := by
        simp only [Vec.dot_sub]
        ring
      rw [hback, halong, neg_nonpos] at hpast
      exact nonneg_of_mul_nonneg_left hpast hk
    refine Shape.nearest_core (Shape.mem_core (Outline.stop_mem hs.mem)) fun w hw ↦ ?_
    exact hs.dot_le_of_neighbour ha hpos hr (.inr rfl) (.inl hrs) hturn.ne'
      (mul_nonneg hturn.le hcross) hw

theorem Outermost.nearest_inside (hs : Outermost a c s)
    (ha : a.toOutline.Convex Outline.LeftTurn) (hin : s.separation c ≤ 0) :
    Vec.Nearest ((Shape.polygon a).core t) (t.apply c) (t.apply c) := by
  refine Shape.nearest_core ?_ fun w _ ↦ ?_
  · refine (ha.place t fun _ _ h ↦ h.rotate t).mem_hull fun r hr ↦ ?_
    rw [Outline.sides_place, List.mem_map] at hr
    obtain ⟨r, hr, rfl⟩ := hr
    rw [Outline.separation_place]
    exact (hs.le r hr).trans hin
  · simp [Vec.dot]

theorem mem_core_of_onSegment {a : Shape ℝ} {p q x : Vec ℝ} (hp : p ∈ a.corners)
    (hq : q ∈ a.corners) (hx : Vec.OnSegment p q x) : t.apply x ∈ a.core t := by
  obtain ⟨k, hk, hk', rfl⟩ := hx
  rw [t.apply_segment]
  exact Vec.OnSegment.mem_hull ⟨k, hk, hk', rfl⟩ (Shape.mem_core hp) (Shape.mem_core hq)

theorem Outermost.nearest_face (hs : Outermost a c s) (ha : a.toOutline.Convex Outline.LeftTurn)
    (hout : 0 ≤ s.separation c) (hstart : 0 < (c - s.start).dot (s.stop - s.start))
    (hstop : 0 < (c - s.stop).dot (s.start - s.stop)) :
    Vec.Nearest ((Shape.polygon a).core t) (t.apply c)
      (t.apply (Vec.foot s.start s.stop c)) := by
  obtain ⟨k, hk, hrun⟩ := ha.run s hs.mem
  have hfoot := Vec.sub_foot (c := c) (ha.unit s hs.mem) hk hrun
  refine Shape.nearest_core (mem_core_of_onSegment (Outline.start_mem hs.mem)
    (Outline.stop_mem hs.mem) (Vec.onSegment_foot_of_ends hstart hstop)) fun w hw ↦ ?_
  rw [hfoot, Vec.dot_comm, Vec.dot_mul, Vec.dot_comm, Vec.dot_sub, Vec.dot_foot hrun, ← Vec.dot_sub]
  exact mul_nonpos_of_nonpos_of_nonneg (ha.behind s hs.mem w hw) hout

/-- A polygon has a point nearest to any other. -/
theorem Outermost.exists_nearest (hs : Outermost a c s) (ha : a.toOutline.Convex Outline.LeftTurn) :
    ∃ q, Vec.Nearest ((Shape.polygon a).core t) (t.apply c) q := by
  obtain hin | hout := le_or_gt (s.separation c) 0
  · exact ⟨_, hs.nearest_inside ha hin⟩
  by_cases hstart : (c - s.start).dot (s.stop - s.start) ≤ 0
  · exact ⟨_, hs.nearest_corner ha hout (.inl ⟨rfl, hstart⟩)⟩
  by_cases hstop : (c - s.stop).dot (s.start - s.stop) ≤ 0
  · exact ⟨_, hs.nearest_corner ha hout (.inr ⟨rfl, hstop⟩)⟩
  · exact ⟨_, hs.nearest_face ha hout.le (not_le.1 hstart) (not_le.1 hstop)⟩

/-- A polygon is as far away as any of its sides is before a point. -/
theorem separation_le_dist (ha : a.toOutline.Convex Outline.LeftTurn) (hs : s ∈ a.sides)
    {q : Vec ℝ} (hq : q ∈ (Shape.polygon a).core t) : s.separation c ≤ (t.apply c).dist q := by
  have hunit : (t.rotate s.normal).normSq = 1 :=
    (Vec.normSq_rotate s.normal t.rotation).trans (ha.unit s hs)
  have hbehind : (t.rotate s.normal).dot q ≤ (t.rotate s.normal).dot (t.apply s.start) := by
    refine Vec.dot_le_of_mem_hull (fun w hw ↦ ?_) hq
    obtain ⟨v, hv, rfl⟩ := List.mem_map.1 hw
    have hv := ha.behind s hs v hv
    rw [← Outline.separation_place t] at hv
    change (t.rotate s.normal).dot (t.apply v - t.apply s.start) ≤ 0 at hv
    rw [Vec.dot_sub] at hv
    linarith
  rw [← Outline.separation_place t]
  exact Vec.dot_sub_le_dist hunit hbehind

/-! ## Exact contacts -/

/-- The manifold of a shape and a circle tells how far apart they are: `q` is the point of the
shape's core that is nearest to the circle's center, there is a contact just if the radii reach from
the one to the other, and it measures the way between them. -/
structure Exact (a : Shape ℝ) (t : Pose ℝ) (b : Circle ℝ) (u : Pose ℝ) (m : Manifold ℝ)
    (q : Vec ℝ) : Prop where
  nearest : Vec.Nearest (a.core t) (u.apply b.center) q
  touches : m.isEmpty = false ↔ (u.apply b.center).dist q ≤ a.radius + b.radius
  spans : m.isEmpty = false → 1e-10 ≤ (u.apply b.center).dist q →
    (m.inWorld t a.radius u b.radius).Spans q (u.apply b.center) (a.radius + b.radius)

variable {b : Circle ℝ}

/-- A contact that is dropped if the nearest point is too far away. -/
theorem exact_ite {a : Shape ℝ} {q : Vec ℝ} {m : Manifold ℝ} {far : Prop} [Decidable far]
    (hm : m.isEmpty = false) (hq : Vec.Nearest (a.core t) (u.apply b.center) q)
    (hfar : far ↔ a.radius + b.radius < (u.apply b.center).dist q)
    (hspans : 1e-10 ≤ (u.apply b.center).dist q →
      (m.inWorld t a.radius u b.radius).Spans q (u.apply b.center) (a.radius + b.radius)) :
    Exact a t b u (if far then .empty else m) q := by
  split
  next h =>
    refine ⟨hq, ⟨fun hne ↦ ?_, fun hle ↦ ?_⟩, fun hne ↦ ?_⟩
    · cases hne
    · exact absurd (hfar.1 h) (not_lt.2 hle)
    · cases hne
  next h =>
    rw [hfar, not_lt] at h
    exact ⟨hq, ⟨fun _ ↦ h, fun _ ↦ hm⟩, fun _ ↦ hspans⟩

theorem dist_unapply (t : Pose ℝ) (x q : Vec ℝ) : x.dist (t.apply q) = (t.unapply x).dist q := by
  rw [← t.dist_apply_apply (t.unapply x), t.apply_unapply]

/-- The distance may be compared in local coordinates. -/
theorem far_iff {a : Shape ℝ} (ha : a.radius = 0) (hb : 0 ≤ b.radius) (q : Vec ℝ) :
    b.radius * b.radius < (t.unapply (u.apply b.center)).distSq q ↔
      a.radius + b.radius < (u.apply b.center).dist (t.apply q) := by
  rw [ha, zero_add, dist_unapply, Vec.lt_dist_iff hb]

theorem exact_circles {a : Circle ℝ} (ha : 0 ≤ a.radius) (hb : 0 ≤ b.radius) :
    Exact (.circle a) t b u (circles a t b u) (t.apply a.center) := by
  have hnearest : Vec.Nearest ((Shape.circle a).core t) (u.apply b.center) (t.apply a.center) := by
    rw [← t.apply_unapply (u.apply b.center)]
    refine Shape.nearest_core (Shape.mem_core List.mem_cons_self) fun v hv ↦ ?_
    rw [List.mem_singleton.1 hv]
    simp [Vec.dot]
  refine exact_ite rfl hnearest ?_ Manifold.spans_circles
  rw [Vec.distSq_comm]
  exact (Vec.lt_dist_iff (add_nonneg ha hb)).symm

/-- The face of an edge that is turned to the center of a circle. -/
theorem spans_edgeFace {a : Edge ℝ} {c m y : Vec ℝ} {k r x : ℝ} {id id' : FeaturePair}
    (hc : c = t.unapply (u.apply y)) (hm : m.normSq = 1) (hk : 0 < k)
    (hn : a.direction.crossOut 1 = m * k) :
    ((if (a.direction.crossOut 1).dot (c - a.start) < 0 then
        Manifold.single .faceA (-a.direction.crossOut 1).normalize a.start (.fresh y id)
      else .single .faceA (a.direction.crossOut 1).normalize a.start
        (.fresh y id')).inWorld t r u x).Spans
      (t.apply (Vec.foot a.start a.stop c)) (u.apply y) (r + x) := by
  subst hc
  have hfoot := Vec.sub_foot (c := t.unapply (u.apply y)) hm hk (Vec.eq_perp_mul_of_crossOut hn)
  have hsign : (m * k).dot (t.unapply (u.apply y) - a.start) =
      m.dot (t.unapply (u.apply y) - a.start) * k := by
    rw [Vec.dot_comm, Vec.dot_mul, Vec.dot_comm]
  rw [hn, hsign]
  split
  next hneg =>
    have hm' : (-m).normSq = 1 := (Vec.normSq_neg m).trans hm
    have hflip : -(m * k) = -m * k := by
      ext <;> simp
    rw [hflip, Vec.normalize_mul hm' hk]
    refine Manifold.spans_face (d := -m.dot (t.unapply (u.apply y) - a.start)) hm' ?_ ?_ ?_
    · exact neg_nonneg.2 (neg_of_mul_neg_left hneg hk.le).le
    · rw [hfoot]
      ext <;> simp
    · rw [Vec.dot_neg, Vec.dot_comm]
  next hpos =>
    rw [Vec.normalize_mul hm hk]
    exact Manifold.spans_face hm (nonneg_of_mul_nonneg_left (not_lt.1 hpos) hk) hfoot
      (Vec.dot_comm _ _)

theorem exact_edgeCircle (a : Edge ℝ) (hb : 0 ≤ b.radius) :
    ∃ q, Exact (.edge a) t b u (edgeCircle a t b u) q := by
  set c := t.unapply (u.apply b.center) with hc
  have hstart : a.start ∈ (Shape.edge a).corners := List.mem_cons_self
  have hstop : a.stop ∈ (Shape.edge a).corners := List.mem_cons_of_mem _ List.mem_cons_self
  have hnearest : ∀ q, t.apply q ∈ (Shape.edge a).core t → (c - q).dot (a.start - q) ≤ 0 →
      (c - q).dot (a.stop - q) ≤ 0 →
      Vec.Nearest ((Shape.edge a).core t) (u.apply b.center) (t.apply q) := by
    intro q hq hleft hright
    rw [← t.apply_unapply (u.apply b.center)]
    refine Shape.nearest_core hq fun v hv ↦ ?_
    rcases List.mem_pair.1 hv with rfl | rfl
    · exact hleft
    · exact hright
  have hself : ∀ q : Vec ℝ, (c - q).dot (q - q) ≤ 0 := fun q ↦ by simp [Vec.dot]
  simp only [edgeCircle, ← hc]
  split
  next hfrom =>
    refine ⟨t.apply a.start, exact_ite rfl (hnearest _ (Shape.mem_core hstart) (hself _) ?_)
      (far_iff rfl hb _) Manifold.spans_circles⟩
    rw [Vec.dot_comm]
    exact hfrom
  next hfrom =>
    split
    next hto =>
      refine ⟨t.apply a.stop, exact_ite rfl (hnearest _ (Shape.mem_core hstop) ?_ (hself _))
        (far_iff rfl hb _) Manifold.spans_circles⟩
      refine le_of_eq_of_le ?_ hto
      simp only [Edge.direction, Vec.dot, Vec.sub_x, Vec.sub_y]
      ring
    next hto =>
      rw [not_le] at hfrom hto
      have hsum := Vec.dot_sub_add_dot_sub a.start a.stop c
      have hpos : 0 < a.direction.dot a.direction := (add_pos hto hfrom).trans_eq hsum
      have hlen : (a.direction.crossOut 1).normSq = a.direction.dot a.direction := by
        simp only [Vec.normSq, Vec.dot, Vec.crossOut]
        ring
      rw [← hlen] at hpos
      obtain ⟨m, hm, hn⟩ := Vec.exists_unit hpos
      have hrun : a.stop - a.start = m.perp * (a.direction.crossOut 1).norm :=
        Vec.eq_perp_mul_of_crossOut hn
      -- The foot and both ends are level along the normal.
      have hlevel : ∀ v, m.dot v = m.dot a.start →
          (c - Vec.foot a.start a.stop c).dot (v - Vec.foot a.start a.stop c) ≤ 0 := by
        intro v hv
        rw [Vec.sub_foot hm (Vec.norm_pos hpos) hrun, Vec.dot_comm, Vec.dot_mul, Vec.dot_comm,
          Vec.dot_sub, hv, Vec.dot_foot hrun, sub_self, zero_mul]
      have hend : m.dot a.stop = m.dot a.start := by
        rw [← sub_eq_zero, ← Vec.dot_sub, hrun, Vec.dot_mul, Vec.dot_perp, Vec.cross_self, zero_mul]
      have hfoot := Vec.foot_eq (p := a.start) (q := a.stop) (c := c) (hlen ▸ hpos.ne')
      refine ⟨t.apply (Vec.foot a.start a.stop c), ?_⟩
      rw [← Edge.direction] at hfoot
      rw [← hfoot]
      refine exact_ite ?_ (hnearest _ (mem_core_of_onSegment hstart hstop
        (Vec.onSegment_foot hfrom hto)) (hlevel _ rfl) (hlevel _ hend)) (far_iff rfl hb _)
        fun _ ↦ spans_edgeFace hc hm (Vec.norm_pos hpos) hn
      split <;> rfl

/-- How far a point is outside of the side that it is furthest outside of. -/
def Clearance (o : Outline ℝ) (c : Vec ℝ) (x : ℝ) : Prop :=
  IsGreatest {y | ∃ s ∈ o.sides, s.separation c = y} x

theorem Outermost.eq_of_clearance {x : ℝ} (hs : Outermost a (t.unapply c) s)
    (hx : Clearance (a.toOutline.place t) c x) : s.separation (t.unapply c) = x := by
  have hplace : ∀ r : Side ℝ, (r.place t).separation c = r.separation (t.unapply c) := by
    intro r
    rw [← Outline.separation_place t r, t.apply_unapply]
  obtain ⟨⟨r', hr', hx'⟩, hmax⟩ := hx
  refine le_antisymm (hmax ⟨s.place t, ?_, hplace s⟩) ?_
  · rw [Outline.sides_place]
    exact List.mem_map_of_mem hs.mem
  · rw [Outline.sides_place, List.mem_map] at hr'
    obtain ⟨r, hr, rfl⟩ := hr'
    rw [← hx', hplace]
    exact hs.le r hr

theorem exists_outermost {x : ℝ} (hx : Clearance (a.toOutline.place t) c x) :
    ∃ s, Outermost a (t.unapply c) s := by
  obtain ⟨⟨r', hr', -⟩, -⟩ := hx
  rw [Outline.sides_place, List.mem_map] at hr'
  obtain ⟨r, hr, -⟩ := hr'
  obtain ⟨s, hs, hmax⟩ := Set.exists_max_image {r | r ∈ a.sides}
    (fun r ↦ r.separation (t.unapply c)) (List.finite_toSet _) ⟨r, hr⟩
  exact ⟨s, hs, hmax⟩

theorem Located.exists_exact {M : Manifold ℝ} {x : ℝ}
    (h : Located a b (t.unapply (u.apply b.center)) M)
    (ha : a.toOutline.Convex Outline.LeftTurn) (hb : 0 ≤ b.radius)
    (hx : Clearance (a.toOutline.place t) (u.apply b.center) x)
    (hcounts : x ≤ 0 ∨ Scalar.epsilon ≤ x) : ∃ q, Exact (.polygon a) t b u M q := by
  have hcenter := t.apply_unapply (u.apply b.center)
  cases h with
  | beyond hs hout =>
    obtain ⟨r, hr⟩ := exists_outermost hx
    obtain ⟨q, hq⟩ := hr.exists_nearest (t := t) ha
    have hfar := separation_le_dist (c := t.unapply (u.apply b.center)) ha hs hq.mem
    rw [hcenter] at hq hfar
    refine ⟨q, hq, ⟨fun h ↦ ?_, fun h ↦ ?_⟩, fun h ↦ ?_⟩
    · cases h
    · have h : (u.apply b.center).dist q ≤ 0 + b.radius := h
      linarith
    · cases h
  | inside hs hin id =>
    have hsep := hs.eq_of_clearance hx
    have hx' : x ≤ 0 := hcounts.resolve_right (not_le.2 (hsep ▸ hin))
    have hq := hs.nearest_inside (t := t) ha (hsep.trans_le hx')
    have hzero : (u.apply b.center).dist (u.apply b.center) = 0 :=
      Vec.dist_eq_of_sub_eq (n := Vec.right) (by simp [Vec.normSq, Vec.dot, Vec.right]) le_rfl
        (by ext <;> simp)
    rw [hcenter] at hq
    refine ⟨u.apply b.center, hq, ⟨fun _ ↦ ?_, fun _ ↦ rfl⟩, fun _ hd ↦ ?_⟩
    · rw [hzero]
      exact hb.trans_eq (zero_add b.radius).symm
    · rw [hzero] at hd
      norm_num at hd
  | @corner s v hs hout hv id =>
    have hq := hs.nearest_corner (t := t) ha (Scalar.epsilon_pos.trans_le hout) hv
    rw [hcenter] at hq
    refine ⟨t.apply v, exact_ite rfl hq (far_iff rfl hb v) fun hd ↦ ?_⟩
    rw [dist_unapply] at hd
    have hunit := Vec.normSq_normalizeOr (a := t.unapply (u.apply b.center) - v)
      (ha.unit s hs.mem)
    have hway := Vec.eq_normalizeOr_mul hd s.normal
    exact Manifold.spans_face hunit (Real.sqrt_nonneg _) hway (Vec.dot_eq_of_eq_mul hunit hway)
  | @face s hs hout hstart hstop id =>
    obtain ⟨k, hk, hrun⟩ := ha.run s hs.mem
    have hpos := Scalar.epsilon_pos.le.trans hout
    have hway := Vec.sub_foot (c := t.unapply (u.apply b.center)) (ha.unit s hs.mem) hk hrun
    have hdist := Vec.dist_eq_of_sub_eq (ha.unit s hs.mem) hpos hway
    have hq := hs.nearest_face (t := t) ha hpos hstart hstop
    rw [hcenter] at hq
    refine ⟨_, exact_ite rfl hq ?_ fun _ ↦
      Manifold.spans_face (ha.unit s hs.mem) hpos hway (dot_sub_center ha hs.mem _)⟩
    rw [dot_sub_center ha hs.mem, dist_unapply, hdist]
    exact iff_of_eq (congrArg (· < _) (zero_add b.radius).symm)

/-- Each contact has the normal of a face or a direction to the center. -/
theorem Located.normSq_normal {M : Manifold ℝ} {c : Vec ℝ} {x y : ℝ} (h : Located a b c M)
    (ha : a.toOutline.Convex Outline.LeftTurn) (hM : M.isEmpty = false) :
    (M.inWorld t x u y).normal.normSq = 1 := by
  have hface : ∀ {n p id}, n.normSq = 1 →
      ((Manifold.single .faceA n p (.fresh b.center id)).inWorld t x u y).normal.normSq = 1 := by
    intro n p id hn
    exact (Vec.normSq_rotate n t.rotation).trans hn
  cases h with
  | beyond => cases hM
  | inside hs => exact hface (ha.unit _ hs.mem)
  | corner hs =>
    split at hM
    · cases hM
    next hnear =>
      rw [if_neg hnear]
      exact hface (Vec.normSq_normalizeOr (ha.unit _ hs.mem))
  | face hs =>
    split at hM
    · cases hM
    next hnear =>
      rw [if_neg hnear]
      exact hface (ha.unit _ hs.mem)

/-- A circle with its center in a polygon is as deep as the least deep side. -/
theorem Located.exists_points {M : Manifold ℝ} {x : ℝ}
    (h : Located a b (t.unapply (u.apply b.center)) M)
    (ha : a.toOutline.Convex Outline.LeftTurn) (hb : 0 ≤ b.radius)
    (hx : Clearance (a.toOutline.place t) (u.apply b.center) x) (hin : x ≤ 0) :
    ∃ p, (M.inWorld t 0 u b.radius).points = [⟨p, x - b.radius⟩] := by
  have hout : ∀ {s}, Outermost a (t.unapply (u.apply b.center)) s →
      ¬ Scalar.epsilon ≤ s.separation (t.unapply (u.apply b.center)) := by
    intro s hs hle
    rw [hs.eq_of_clearance hx] at hle
    exact Scalar.epsilon_pos.not_ge (hle.trans hin)
  cases h with
  | @beyond s hs hfar =>
    obtain ⟨r, hr⟩ := exists_outermost hx
    have hle := hr.le s hs
    rw [hr.eq_of_clearance hx] at hle
    linarith
  | @inside s hs _ id =>
    obtain ⟨p, hworld⟩ : ∃ p, (Manifold.single .faceA s.normal s.center
        (.fresh b.center id)).inWorld t 0 u b.radius = _ :=
      Manifold.inWorld_face (ha.unit s hs.mem)
    refine ⟨p, ?_⟩
    rw [hworld, dot_sub_center ha hs.mem, hs.eq_of_clearance hx, zero_add]
  | corner hs hle => exact absurd hle (hout hs)
  | face hs hle => exact absurd hle (hout hs)

theorem Exact.isEmpty_of_corner {a : Shape ℝ} {M : Manifold ℝ} {q : Vec ℝ}
    (h : Exact a t b u M q) (hv : v ∈ a.corners)
    (hle : (u.apply b.center).dist (t.apply v) ≤ a.radius + b.radius) : M.isEmpty = false :=
  h.touches.2 ((h.nearest.dist_le _ (Shape.mem_core hv)).trans hle)

/-- **A polygon and a circle** have an exact contact, unless the center is outside the polygon by
less than counts.  The contact has a unit normal also where the distance has no direction, and for a
center in the polygon it is as deep as the least deep side. -/
theorem exact_polygonCircle {a : Polygon ℝ} (ha : (Shape.polygon a).Proper) {b : Circle ℝ}
    (hb : 0 ≤ b.radius) {t u : Pose ℝ} {x : ℝ}
    (hx : Clearance (a.toOutline.place t) (u.apply b.center) x)
    (hcounts : x ≤ 0 ∨ Scalar.epsilon ≤ x) :
    (∃ q, Exact (.polygon a) t b u (polygonCircle a t b u) q) ∧
    ((polygonCircle a t b u).isEmpty = false →
      ((polygonCircle a t b u).inWorld t 0 u b.radius).normal.normSq = 1 ∧
      (x ≤ 0 →
        ∃ p, ((polygonCircle a t b u).inWorld t 0 u b.radius).points = [⟨p, x - b.radius⟩])) := by
  obtain ⟨⟨_, hok⟩, hbehind⟩ := ha
  have hconvex := Polygon.convex hok hbehind
  have hlocated := located_polygonCircle a t b u
  refine ⟨hlocated.exists_exact hconvex hb hx hcounts, fun htouch ↦ ⟨?_, fun hin ↦ ?_⟩⟩
  · exact hlocated.normSq_normal hconvex htouch
  · exact hlocated.exists_points hconvex hb hx hin

/-- A circle that touches a square in a corner. -/
theorem exact_square_corner : ∃ a : Polygon ℝ,
    Polygon.ofVertices [⟨0, 0⟩, ⟨1, 0⟩, ⟨1, 1⟩, ⟨0, 1⟩] = .ok a ∧ (Shape.polygon a).Proper ∧
    Clearance (a.toOutline.place .identity) (Pose.identity.apply ⟨8 / 5, 9 / 5⟩) (4 / 5) ∧
    Scalar.epsilon ≤ (4 / 5 : ℝ) ∧
    ∃ n p, (polygonCircle a .identity ⟨1, ⟨8 / 5, 9 / 5⟩⟩ .identity).inWorld .identity 0
      .identity 1 = ⟨n, [⟨p, 0⟩]⟩ ∧ n.normSq = 1 := by
  obtain ⟨a, hok, ho⟩ := exists_square (zero_add (1 : ℝ)).symm
  have hproper := proper_square (zero_add (1 : ℝ)).symm hok ho
  have hx : Clearance (a.toOutline.place .identity) (Pose.identity.apply ⟨8 / 5, 9 / 5⟩)
      (4 / 5) := by
    rw [Outline.place_identity, Pose.apply_identity, ho]
    constructor
    · refine ⟨⟨2, 3, ⟨1, 1⟩, ⟨0, 1⟩, ⟨0, 1⟩⟩, ?_, ?_⟩
      · simp [Outline.sides, Outline.successive]
      · norm_num [Side.separation, Vec.dot]
    · rintro _ ⟨s, hs, rfl⟩
      simp only [Outline.sides, Outline.successive, List.cons_append, List.nil_append,
        List.zip_cons_cons, List.zip_nil_left, List.zipIdx_cons, List.zipIdx_nil, List.map_cons,
        List.map_nil, List.mem_cons, List.not_mem_nil, or_false] at hs
      rcases hs with rfl | rfl | rfl | rfl
      all_goals norm_num [Side.separation, Vec.dot]
  have hcounts : Scalar.epsilon ≤ (4 / 5 : ℝ) := by
    rw [Scalar.epsilon]
    norm_num
  obtain ⟨⟨q, hq⟩, -⟩ := exact_polygonCircle hproper (b := ⟨1, ⟨8 / 5, 9 / 5⟩⟩) zero_le_one hx
    (.inr hcounts)
  have hcorner : (⟨1, 1⟩ : Vec ℝ) ∈ (Shape.polygon a).corners := by
    show _ ∈ a.vertices
    simp [ho]
  have hone : (Pose.identity.apply ⟨8 / 5, 9 / 5⟩).dist (Pose.identity.apply (⟨1, 1⟩ : Vec ℝ)) =
      1 := by
    rw [Pose.apply_identity, Pose.apply_identity]
    refine Vec.dist_eq_of_sub_eq (n := ⟨3 / 5, 4 / 5⟩) ?_ zero_le_one ?_
    · norm_num [Vec.normSq, Vec.dot]
    · ext <;> norm_num
  have hdist : (Pose.identity.apply ⟨8 / 5, 9 / 5⟩).dist q = 1 := by
    refine le_antisymm ((hq.nearest.dist_le _ (Shape.mem_core hcorner)).trans_eq hone) ?_
    -- No point of the square is further towards the center than the corner is.
    have hle : (⟨3 / 5, 4 / 5⟩ : Vec ℝ).dot q ≤ (⟨3 / 5, 4 / 5⟩ : Vec ℝ).dot ⟨1, 1⟩ := by
      refine Vec.dot_le_of_mem_hull (fun w hw ↦ ?_) hq.nearest.mem
      obtain ⟨v, hv, rfl⟩ := List.mem_map.1 hw
      have hv : v ∈ a.vertices := hv
      rw [Pose.apply_identity]
      simp only [ho, List.mem_cons, List.not_mem_nil, or_false] at hv
      rcases hv with rfl | rfl | rfl | rfl
      all_goals norm_num [Vec.dot]
    refine le_of_eq_of_le ?_ (Vec.dot_sub_le_dist (by norm_num [Vec.normSq, Vec.dot]) hle)
    rw [Pose.apply_identity]
    norm_num [Vec.dot]
  have hspans := hq.spans (hq.isEmpty_of_corner hcorner (hone.trans_le (zero_add _).ge))
    (le_of_le_of_eq (by norm_num) hdist.symm)
  obtain ⟨p, hp⟩ := hspans.separation
  refine ⟨a, hok, hproper, hx, hcounts, _, p, WorldManifold.ext rfl (hp.trans ?_), hspans.unit⟩
  rw [hdist]
  norm_num [Shape.radius]

/-- **A circle and another circle or an edge** have an exact contact. -/
theorem exact_circles_edges {b : Circle ℝ} (hb : 0 ≤ b.radius) (t u : Pose ℝ) :
    (∀ a : Circle ℝ, 0 ≤ a.radius → ∃ q, Exact (.circle a) t b u (circles a t b u) q) ∧
      ∀ a : Edge ℝ, ∃ q, Exact (.edge a) t b u (edgeCircle a t b u) q :=
  ⟨fun _ ha ↦ ⟨_, exact_circles ha hb⟩, fun a ↦ exact_edgeCircle a hb⟩

/-- Two unit circles that touch, and one that touches an edge without length. -/
theorem exact_touching_circles :
    (∃ q, Exact (.circle ⟨1, 0⟩) .identity ⟨1, 0⟩ ⟨⟨2, 0⟩, 0⟩
      (circles ⟨1, 0⟩ .identity ⟨1, 0⟩ ⟨⟨2, 0⟩, 0⟩) q) ∧
    (circles (⟨1, 0⟩ : Circle ℝ) .identity ⟨1, 0⟩ ⟨⟨2, 0⟩, 0⟩).isEmpty = false ∧
    (∃ q, Exact (.edge ⟨⟨1, 0⟩, ⟨1, 0⟩⟩) .identity ⟨1, 0⟩ ⟨⟨2, 0⟩, 0⟩
      (edgeCircle ⟨⟨1, 0⟩, ⟨1, 0⟩⟩ .identity ⟨1, 0⟩ ⟨⟨2, 0⟩, 0⟩) q) ∧
    (edgeCircle (⟨⟨1, 0⟩, ⟨1, 0⟩⟩ : Edge ℝ) .identity ⟨1, 0⟩ ⟨⟨2, 0⟩, 0⟩).isEmpty = false := by
  have hright : (Vec.right : Vec ℝ).normSq = 1 := by simp [Vec.normSq, Vec.dot, Vec.right]
  have hdist : ∀ v : Vec ℝ, ∀ x : ℝ, 0 ≤ x → v = ⟨2 - x, 0⟩ →
      ((⟨⟨2, 0⟩, 0⟩ : Pose ℝ).apply 0).dist (Pose.identity.apply v) = x := by
    rintro v x hx rfl
    refine Vec.dist_eq_of_sub_eq hright hx ?_
    rw [Pose.apply_identity]
    ext <;> simp [Pose.apply, Pose.rotate, Vec.rotate, Vec.right]
  obtain ⟨hcircle, hedge⟩ := exact_circles_edges (b := ⟨1, 0⟩) zero_le_one .identity
    ⟨⟨2, 0⟩, 0⟩
  obtain ⟨q, hq⟩ := hcircle ⟨1, 0⟩ zero_le_one
  obtain ⟨q', hq'⟩ := hedge ⟨⟨1, 0⟩, ⟨1, 0⟩⟩
  refine ⟨⟨q, hq⟩, hq.isEmpty_of_corner List.mem_cons_self ?_, ⟨q', hq'⟩,
    hq'.isEmpty_of_corner List.mem_cons_self ?_⟩
  · exact (hdist 0 2 zero_le_two (by ext <;> simp)).trans_le one_add_one_eq_two.ge
  · exact (hdist ⟨1, 0⟩ 1 zero_le_one (by ext <;> norm_num)).trans_le (zero_add _).ge

end Collision

end PlanarDynamics
