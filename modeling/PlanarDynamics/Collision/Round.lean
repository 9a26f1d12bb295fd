import PlanarDynamics.Manifold.Basic
import PlanarDynamics.Shape.Basic

/-!
# Circles against other shapes

A circle touches another shape in at most one point. Shape A is the other shape, and the circle's
center is taken to its frame, where the closest feature decides.
-/

namespace PlanarDynamics

variable {α : Type} [Scalar α]

namespace Collision

/-- Two circles touch if their centers are no further apart than the sum of their radii. -/
def circles (a : Circle α) (poseA : Pose α) (b : Circle α) (poseB : Pose α) : Manifold α :=
  let radii := a.radius + b.radius
  if radii * radii < (poseA.apply a.center).distSq (poseB.apply b.center) then .empty
  else .single .circles 0 a.center (.fresh b.center .first)

/-- The side that a point is furthest outside of, with the distance. The first side stands in
while there is no number to compare. `none` if the point is beyond `reach` of some side. -/
def deepestSide? (reach : α) (p : Vec α) :
    List (Side α) → Side α × Option α → Option (Side α × Option α)
  | [], best => some best
  | s :: rest, best =>
    let d := s.separation p
    if reach < d then none
    else deepestSide? reach p rest (if Scalar.raises d best.2 then (s, some d) else best)

/-- A polygon against a circle, by the region of the polygon's surroundings that holds the
circle's center: inside, near a vertex of the closest side, or before that side. -/
def polygonCircle (a : Polygon α) (poseA : Pose α) (b : Circle α) (poseB : Pose α) : Manifold α :=
  let c := poseA.unapply (poseB.apply b.center)
  let face (s : Side α) : Manifold α :=
    .single .faceA s.normal s.center (.fresh b.center ⟨s.index.toUInt8, .face, 0, .vertex⟩)
  let corner (s : Side α) (v : Vec α) (i : Nat) : Manifold α :=
    if b.radius * b.radius < c.distSq v then .empty
    else .single .faceA ((c - v).normalizeOr s.normal) v
      (.fresh b.center ⟨i.toUInt8, .vertex, 0, .vertex⟩)
  match a.sides with
  | [] => .empty
  | s₀ :: rest =>
    match deepestSide? b.radius c (s₀ :: rest) (s₀, none) with
    | none => .empty
    | some (s, separation) =>
      if separation.all (· < Scalar.epsilon) then face s
      else if (c - s.start).dot (s.stop - s.start) ≤ 0 then corner s s.start s.index
      else if (c - s.stop).dot (s.start - s.stop) ≤ 0 then corner s s.stop s.next
      else if b.radius < (c - s.center).dot s.normal then .empty
      else face s

/-- An edge against a circle, by the part of the edge closest to the circle's center: one of its
ends or the side that faces the center. -/
def edgeCircle (a : Edge α) (poseA : Pose α) (b : Circle α) (poseB : Pose α) : Manifold α :=
  let c := poseA.unapply (poseB.apply b.center)
  let e := a.direction
  let near (p : Vec α) (m : Manifold α) : Manifold α :=
    if b.radius * b.radius < c.distSq p then .empty else m
  let toStop := e.dot (a.stop - c)
  let fromStart := e.dot (c - a.start)
  if fromStart ≤ 0 then
    near a.start (.single .circles 0 a.start (.fresh b.center ⟨0, .vertex, 0, .vertex⟩))
  else if toStop ≤ 0 then
    near a.stop (.single .circles 0 a.stop (.fresh b.center ⟨1, .vertex, 0, .vertex⟩))
  else
    near ((a.start * toStop + a.stop * fromStart) * (1 / e.dot e)) <|
      let n := e.crossOut 1
      if n.dot (c - a.start) < 0 then
        .single .faceA (-n).normalize a.start (.fresh b.center ⟨1, .face, 0, .vertex⟩)
      else
        .single .faceA n.normalize a.start (.fresh b.center ⟨0, .face, 0, .vertex⟩)

end Collision

end PlanarDynamics
