import PlanarDynamics.Proofs.Real.Region

/-!
# Bounds are tight

A shape is a disc, the hull of some vertices or a segment, and its support in a direction is a
furthest point of it.  A pose turns the direction along with the shape, so the extreme points of a
shape in the world are furthest points too.  Its bounding box is spanned by four of them, and so it
is the smallest box around the shape: `Shape.tight_bounds`.
-/

namespace PlanarDynamics

/-! ## Furthest points -/

namespace Vec

variable {K : Set (Vec ℝ)} {l : List (Vec ℝ)} {a b c d q : Vec ℝ} {r : ℝ}

/-- Of the points of a set, `q` is one that is furthest along `d`. -/
structure Furthest (K : Set (Vec ℝ)) (d q : Vec ℝ) : Prop where
  mem : q ∈ K
  dot_le : ∀ p ∈ K, d.dot p ≤ d.dot q

theorem furthest_disc (hd : d.normSq = 1) (hr : 0 ≤ r) :
    Furthest {p | p.dist c ≤ r} d (c + d * r) where
  mem := by
    refine (dist_eq_of_sub_eq hd hr ?_).le
    ext
    · simp only [sub_x, add_x, add_sub_cancel_left]
    · simp only [sub_y, add_y, add_sub_cancel_left]
  dot_le p hp := by
    have hreach : d.dot (p - c) ≤ r := by
      refine dot_le_of_normSq_le hd hr ?_
      rw [← sq]
      exact (Real.sqrt_le_left hr).1 hp
    rw [dot_sub] at hreach
    rw [dot_add, dot_mul, ← normSq, hd, one_mul]
    linarith

theorem furthest_hull (hq : q ∈ l) (h : ∀ v ∈ l, d.dot v ≤ d.dot q) : Furthest (hull l) d q :=
  ⟨mem_hull hq, fun _ hp ↦ dot_le_of_mem_hull h hp⟩

/-- A segment lies in the hull of its ends. -/
theorem furthest_segment (hq : q ∈ [a, b]) (h : ∀ v ∈ [a, b], d.dot v ≤ d.dot q) :
    Furthest {p | OnSegment a b p} d q where
  mem := by
    simp only [List.mem_cons, List.not_mem_nil, or_false] at hq
    obtain rfl | rfl := hq
    · exact onSegment_left q b
    · exact onSegment_right a q
  dot_le p hp := by
    have ha : a ∈ hull [a, b] := mem_hull (by simp)
    have hb : b ∈ hull [a, b] := mem_hull (by simp)
    exact dot_le_of_mem_hull h (OnSegment.mem_hull hp ha hb)

/-- The direction is turned back into local coordinates, and the furthest point forth. -/
theorem Furthest.apply {t : Pose ℝ} (h : Furthest K (t.unrotate d) q) :
    Furthest (t.apply '' K) d (t.apply q) where
  mem := Set.mem_image_of_mem t.apply h.mem
  dot_le := by
    rintro _ ⟨p, hp, rfl⟩
    rw [t.dot_apply, t.dot_apply]
    linarith [h.dot_le p hp]

end Vec

/-! ## Boxes around points -/

namespace Box

variable {b b' : Box ℝ} {K : Set (Vec ℝ)}

/-- The point lies in the box, sides included. -/
def Holds (b : Box ℝ) (p : Vec ℝ) : Prop :=
  (b.lower.x ≤ p.x ∧ p.x ≤ b.upper.x) ∧ b.lower.y ≤ p.y ∧ p.y ≤ b.upper.y

/-- The box holds all points of a set, and one of them lies on each of its sides. -/
structure Tight (b : Box ℝ) (K : Set (Vec ℝ)) : Prop where
  holds : ∀ p ∈ K, b.Holds p
  left : ∃ p ∈ K, p.x = b.lower.x
  right : ∃ p ∈ K, p.x = b.upper.x
  bottom : ∃ p ∈ K, p.y = b.lower.y
  top : ∃ p ∈ K, p.y = b.upper.y

/-- A tight box is the smallest. -/
theorem Tight.contains (h : b.Tight K) (hb' : ∀ p ∈ K, b'.Holds p) : b'.contains b = true := by
  obtain ⟨pl, hpl, hl⟩ := h.left
  obtain ⟨pr, hpr, hr⟩ := h.right
  obtain ⟨pb, hpb, hb⟩ := h.bottom
  obtain ⟨pt, hpt, ht⟩ := h.top
  have hleft : b'.lower.x ≤ b.lower.x := hl ▸ (hb' pl hpl).1.1
  have hright : b.upper.x ≤ b'.upper.x := hr ▸ (hb' pr hpr).1.2
  have hbottom : b'.lower.y ≤ b.lower.y := hb ▸ (hb' pb hpb).2.1
  have htop : b.upper.y ≤ b'.upper.y := ht ▸ (hb' pt hpt).2.2
  simp [Box.contains, hleft, hright, hbottom, htop]

/-- Furthest points along the axes span a tight box. -/
theorem tight_spanning {left bottom right top : Vec ℝ} (hl : Vec.Furthest K ⟨-1, 0⟩ left)
    (hb : Vec.Furthest K ⟨0, -1⟩ bottom) (hr : Vec.Furthest K ⟨1, 0⟩ right)
    (ht : Vec.Furthest K ⟨0, 1⟩ top) :
    (spanning ⟨left.x, bottom.y⟩ ⟨right.x, top.y⟩).Tight K := by
  have hleft : ∀ p ∈ K, left.x ≤ p.x := fun p hp ↦ by simpa [Vec.dot] using hl.dot_le p hp
  have hbottom : ∀ p ∈ K, bottom.y ≤ p.y := fun p hp ↦ by simpa [Vec.dot] using hb.dot_le p hp
  have hright : ∀ p ∈ K, p.x ≤ right.x := fun p hp ↦ by simpa [Vec.dot] using hr.dot_le p hp
  have htop : ∀ p ∈ K, p.y ≤ top.y := fun p hp ↦ by simpa [Vec.dot] using ht.dot_le p hp
  -- The corners are in order already.
  have hx := hleft right hr.mem
  have hy := hbottom top ht.mem
  have hspan : spanning ⟨left.x, bottom.y⟩ ⟨right.x, top.y⟩ =
      ⟨⟨left.x, bottom.y⟩, ⟨right.x, top.y⟩⟩ := by
    simp only [spanning, Vec.min, Vec.max, Scalar.min_eq, Scalar.max_eq, min_eq_left hx,
      min_eq_left hy, max_eq_right hx, max_eq_right hy]
  rw [hspan]
  exact ⟨fun p hp ↦ ⟨⟨hleft p hp, hright p hp⟩, hbottom p hp, htop p hp⟩, ⟨left, hl.mem, rfl⟩,
    ⟨right, hr.mem, rfl⟩, ⟨bottom, hb.mem, rfl⟩, ⟨top, ht.mem, rfl⟩⟩

end Box

/-! ## Shapes -/

namespace Shape

variable {s : Shape ℝ} {t : Pose ℝ} {d : Vec ℝ}

/-- The points of a shape, in local coordinates. -/
def points : Shape ℝ → Set (Vec ℝ)
  | circle c => {p | p.dist c.center ≤ c.radius}
  | polygon p => Vec.hull p.vertices
  | edge e => {p | Vec.OnSegment e.start e.stop p}

/-- The points of a shape under a pose, in world coordinates. -/
def occupied (s : Shape ℝ) (t : Pose ℝ) : Set (Vec ℝ) := t.apply '' s.points

theorem furthest_support (hs : 0 ≤ s.radius) (hd : d.normSq = 1) :
    Vec.Furthest s.points d (s.support d) := by
  cases s with
  | circle c =>
    have hsupport : c.support d = c.center + d * c.radius := by
      rw [Circle.support, Vec.normalizeOr_of_normSq hd]
    rw [support, hsupport]
    exact Vec.furthest_disc hd hs
  | polygon p =>
    obtain ⟨hmem, hmax⟩ := p.support_mem d
    refine Vec.furthest_hull hmem fun v hv ↦ ?_
    rw [Vec.dot_comm d, Vec.dot_comm d]
    exact hmax v hv
  | edge e =>
    obtain ⟨hmem, hmax⟩ := e.support_mem d
    refine Vec.furthest_segment hmem fun v hv ↦ ?_
    rw [Vec.dot_comm d, Vec.dot_comm d]
    exact hmax v hv

theorem furthest_extreme (hs : 0 ≤ s.radius) (hd : d.normSq = 1) :
    Vec.Furthest (s.occupied t) d (s.extreme t d) :=
  (furthest_support hs ((t.normSq_unrotate d).trans hd)).apply

/-- **Bounding boxes are tight.** Under every pose, all points of a shape lie in its bounding box,
one of them on each side, and every other box that holds them contains the bounding box.  The radius
is that of a circle; polygons and edges have none. -/
theorem tight_bounds (s : Shape ℝ) (hs : 0 ≤ s.radius) (t : Pose ℝ) :
    (s.bounds t).Tight (s.occupied t) ∧
      ∀ b : Box ℝ, (∀ p ∈ s.occupied t, b.Holds p) → b.contains (s.bounds t) = true := by
  have htight : (s.bounds t).Tight (s.occupied t) := by
    refine Box.tight_spanning (furthest_extreme hs ?_) (furthest_extreme hs ?_)
      (furthest_extreme hs ?_) (furthest_extreme hs ?_)
    all_goals norm_num [Vec.normSq, Vec.dot]
  exact ⟨htight, fun _ hb ↦ htight.contains hb⟩

/-- A disc beside the origin of its body, which is turned by a right angle and shifted. -/
theorem tight_turned_disc :
    let disc : Shape ℝ := .circle ⟨2, ⟨1, 0⟩⟩
    let t : Pose ℝ := ⟨⟨3, 0⟩, Real.pi / 2⟩
    0 ≤ disc.radius ∧ disc.bounds t = ⟨⟨1, -1⟩, ⟨5, 3⟩⟩ ∧
      (⟨⟨1, -1⟩, ⟨5, 3⟩⟩ : Box ℝ).Tight (disc.occupied t) := by
  intro disc t
  have hradius : 0 ≤ disc.radius := zero_le_two
  have hcenter : t.apply ⟨1, 0⟩ = ⟨3, 1⟩ := by
    have hsin : Scalar.sin (Real.pi / 2) = 1 := Real.sin_pi_div_two
    have hcos : Scalar.cos (Real.pi / 2) = 0 := Real.cos_pi_div_two
    ext <;> simp [t, Pose.apply, Pose.rotate, Vec.rotate, hsin, hcos]
  have hextreme : ∀ x y : ℝ, (⟨x, y⟩ : Vec ℝ).normSq = 1 →
      disc.extreme t ⟨x, y⟩ = ⟨x * 2 + 3, y * 2 + 1⟩ := by
    intro x y hd
    rw [extreme_circle hd, hcenter]
    rfl
  have hbounds : disc.bounds t = ⟨⟨1, -1⟩, ⟨5, 3⟩⟩ := by
    rw [bounds, hextreme, hextreme, hextreme, hextreme]
    all_goals norm_num [Box.spanning, Vec.min, Vec.max, Scalar.min_eq, Scalar.max_eq, Vec.normSq,
      Vec.dot]
  exact ⟨hradius, hbounds, hbounds ▸ (tight_bounds disc hradius t).1⟩

end Shape

end PlanarDynamics
