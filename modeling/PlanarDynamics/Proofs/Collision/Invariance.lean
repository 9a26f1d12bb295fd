import PlanarDynamics.Proofs.Real.Plane
import PlanarDynamics.Collision.Rule

/-!
# Where two shapes are does not matter

A manifold tells in local coordinates how two shapes touch, so it is the same wherever they are: one
rigid motion of both poses leaves it as it is (`PairKind.collide_moved`).  The rules reach it in
different ways.  Those for circles, and the choice of a reference side, depend on the pose of one
shape as seen from the other, which a motion of both does not change (`Pose.relative_mul`).
Clipping takes place in the world.  There the points move along with the half-planes that cut them
(`Collision.clip_moved`), and are taken back by the pose that has moved as well.
-/

namespace PlanarDynamics

namespace Pose

/-- The pose that a motion `g` of the plane makes of `t`. -/
instance {α : Type} [Scalar α] : Mul (Pose α) :=
  ⟨fun g t ↦ ⟨g.apply t.position, g.rotation + t.rotation⟩⟩

variable (g t u : Pose ℝ) (p q v : Vec ℝ)

@[simp] theorem mul_position : (g * t).position = g.apply t.position := rfl
@[simp] theorem mul_rotation : (g * t).rotation = g.rotation + t.rotation := rfl

theorem rotate_mul : (g * t).rotate v = g.rotate (t.rotate v) := by
  rw [rotate, rotate, rotate, Vec.rotate_rotate, mul_rotation, add_comm]

theorem apply_mul : (g * t).apply p = g.apply (t.apply p) := by
  rw [apply, rotate_mul, mul_position, ← apply_add]
  rfl

theorem unapply_eq : t.unapply p = t.unrotate (p - t.position) := by
  have hs : Scalar.sin (-t.rotation) = -Scalar.sin t.rotation := Real.sin_neg _
  have hc : Scalar.cos (-t.rotation) = Scalar.cos t.rotation := Real.cos_neg _
  ext
  · simp only [unapply, unrotate, Vec.rotate, hs, hc]
    ring
  · simp only [unapply, unrotate, Vec.rotate, hs, hc]
    ring

/-- Seen from a pose that has moved, directions that have moved are as they were. -/
theorem unrotate_mul : (g * t).unrotate (g.rotate v) = t.unrotate v := by
  rw [unrotate, unrotate, rotate, Vec.rotate_rotate, mul_rotation]
  congr 1
  ring

theorem unapply_mul : (g * t).unapply (g.apply p) = t.unapply p := by
  rw [unapply_eq, unapply_eq, mul_position, apply_sub_apply, unrotate_mul]

theorem relative_mul : (g * t).relative (g * u) = t.relative u := by
  have hposition : (g * t).unapply (g * u).position = t.unapply u.position :=
    unapply_mul g t u.position
  have hrotation : (g * u).rotation - (g * t).rotation = u.rotation - t.rotation :=
    add_sub_add_left_eq_sub u.rotation t.rotation g.rotation
  rw [relative, hposition, hrotation, relative]

/-- A motion keeps the point that divides a segment in a given ratio. -/
theorem apply_segment (k : ℝ) :
    g.apply (p + (q - p) * k) = g.apply p + (g.apply q - g.apply p) * k := by
  ext
  · simp only [apply, rotate, Vec.rotate, Vec.add_x, Vec.add_y, Vec.sub_x, Vec.sub_y, Vec.mul_x,
      Vec.mul_y]
    ring
  · simp only [apply, rotate, Vec.rotate, Vec.add_x, Vec.add_y, Vec.sub_x, Vec.sub_y, Vec.mul_x,
      Vec.mul_y]
    ring

/-- How far a point is ahead of another in some direction, seen after a motion. -/
theorem dot_apply_sub_dot_apply (n : Vec ℝ) :
    (g.rotate n).dot (g.apply p) - (g.rotate n).dot (g.apply q) = n.dot p - n.dot q := by
  rw [← Vec.dot_sub, apply_sub_apply, dot_rotate_rotate, Vec.dot_sub]

theorem rotate_neg : g.rotate (-v) = -g.rotate v := by
  ext
  · simp only [rotate, Vec.rotate, Vec.neg_x, Vec.neg_y]
    ring
  · simp only [rotate, Vec.rotate, Vec.neg_x, Vec.neg_y]
    ring

theorem rotate_crossOut (s : ℝ) : (g.rotate v).crossOut s = g.rotate (v.crossOut s) := by
  ext
  · simp only [rotate, Vec.rotate, Vec.crossOut]
    ring
  · simp only [rotate, Vec.rotate, Vec.crossOut]
    ring

end Pose

namespace Collision

variable (g t u : Pose ℝ)

/-! ## Circles -/

theorem circles_moved (a b : Circle ℝ) : circles a (g * t) b (g * u) = circles a t b u := by
  simp only [circles, Pose.apply_mul, Pose.distSq_apply_apply]

theorem polygonCircle_moved (a : Polygon ℝ) (b : Circle ℝ) :
    polygonCircle a (g * t) b (g * u) = polygonCircle a t b u := by
  simp only [polygonCircle, Pose.apply_mul, Pose.unapply_mul]

theorem edgeCircle_moved (a : Edge ℝ) (b : Circle ℝ) :
    edgeCircle a (g * t) b (g * u) = edgeCircle a t b u := by
  simp only [edgeCircle, Pose.apply_mul, Pose.unapply_mul]

/-! ## Outlines -/

theorem greatestSeparation?_moved (o o' : Outline ℝ) :
    greatestSeparation? o (g * t) o' (g * u) = greatestSeparation? o t o' u := by
  simp only [greatestSeparation?, Pose.relative_mul]

/-- The end of a cut side, moved along. -/
noncomputable def ClipPoint.move (c : ClipPoint ℝ) : ClipPoint ℝ :=
  { c with point := g.apply c.point }

theorem ClipPoint.move_mk (p : Vec ℝ) (id : FeaturePair) :
    ClipPoint.move g ⟨p, id⟩ = ⟨g.apply p, id⟩ := rfl

/-- What is left of a segment moves along with the segment and the half-plane, the one that ends at
`y` in the direction `n`. -/
theorem clip_moved (p q : ClipPoint ℝ) (n y : Vec ℝ) (vertex : Nat) :
    clip (p.move g) (q.move g) (g.rotate n) ((g.rotate n).dot (g.apply y)) vertex =
      (clip p q n (n.dot y) vertex).map (·.move g) := by
  simp only [clip, ClipPoint.move, Pose.dot_apply_sub_dot_apply, Pose.apply_segment,
    List.map_append, apply_ite (List.map _), List.map_cons, List.map_nil]

/-- The contact is cut out in the world and told in coordinates of the two shapes. -/
theorem clipAgainst_moved (s : Side ℝ) (o : Outline ℝ) (kind : ManifoldKind)
    (label : FeaturePair → FeaturePair) :
    clipAgainst s (g * t) o (g * u) kind label = clipAgainst s t o u kind label := by
  simp only [clipAgainst, Pose.rotate_mul, Pose.unrotate_mul, Pose.apply_mul, Pose.rotate_crossOut,
    ← Vec.neg_dot, ← Pose.rotate_neg g]
  cases incidentSide? o (u.unrotate (t.rotate s.normal)) with
  | none => rfl
  | some e =>
    dsimp only
    rw [← ClipPoint.move_mk g, ← ClipPoint.move_mk g, clip_moved]
    -- Each cut has to leave two points, as many before the motion as after it.
    rcases clip _ _ (-t.rotate (s.stop - s.start).normalize) _ s.index with
      _ | ⟨p, _ | ⟨q, _ | ⟨_, _⟩⟩⟩
    · rfl
    · rfl
    · simp only [List.map_cons, List.map_nil, clip_moved]
      rcases clip p q (t.rotate (s.stop - s.start).normalize) _ s.next with
        _ | ⟨p', _ | ⟨q', _ | ⟨_, _⟩⟩⟩
      · rfl
      · rfl
      · simp only [List.map_cons, List.map_nil, List.foldl_cons, List.foldl_nil, ClipPoint.move,
          Pose.dot_apply_sub_dot_apply, Pose.unapply_mul]
      · rfl
    · rfl

theorem outlines_moved (a b : Outline ℝ) : outlines a (g * t) b (g * u) = outlines a t b u := by
  simp only [outlines, greatestSeparation?_moved, clipAgainst_moved]

theorem edgePolygon_moved (a : Edge ℝ) (b : Polygon ℝ) :
    edgePolygon a (g * t) b (g * u) = edgePolygon a t b u := by
  simp only [edgePolygon, outlines_moved]

end Collision

open Collision in
/-- The manifold of two shapes of any kinds stays the same under every motion of the two. -/
theorem PairKind.collide_moved (kind : PairKind) (a b : Shape ℝ) (g t u : Pose ℝ) :
    kind.collide a (g * t) b (g * u) = kind.collide a t b u := by
  fun_cases PairKind.collide kind a t b u with
  | case1 a _ b => exact circles_moved g t u a b
  | case2 a _ b => exact polygonCircle_moved g t u a b
  | case3 a _ b => exact outlines_moved g t u a.toOutline b.toOutline
  | case4 a _ b => exact edgeCircle_moved g t u a b
  | case5 a _ b => exact edgePolygon_moved g t u a b
  | case6 => simp only [PairKind.collide]

end PlanarDynamics
