import PlanarDynamics.Manifold.Basic
import PlanarDynamics.Shape.Basic

/-!
# Convex outlines against each other

Two convex outlines are apart if some side of one has the whole of the other in front of it. If
none has, the side that comes closest to doing so is the reference side, and the side of the other
outline that faces it is cut to the reference side's width. What is left behind the reference side
are the contact points.
-/

namespace PlanarDynamics

variable {α : Type} [Scalar α]

/-- How much better a side of the second outline must be to serve as the reference side, so that
the choice does not flicker between sides about as good. -/
def referenceTolerance : α := 0.1 * 0.005

namespace Collision

/-- The side of `o` that `o'` is furthest in front of, with the distance. `none` if some side has
no number for it, as then nothing shows that the outlines meet. -/
def greatestSeparation? (o : Outline α) (pose : Pose α) (o' : Outline α) (pose' : Pose α) :
    Option (Side α × α) :=
  let rel := pose'.relative pose
  let separation (s : Side α) : Option α :=
    Scalar.least? (o'.vertices.map fun v ↦ (rel.rotate s.normal).dot (v - rel.apply s.start))
  match o.sides with
  | [] => none
  | s₀ :: rest => do
    let d₀ ← separation s₀
    rest.foldlM (fun best s ↦ do
      let d ← separation s
      return if best.2 < d then (s, d) else best) (s₀, d₀)

/-- The side of `o` that faces most against the direction `n`, both in local coordinates. -/
def incidentSide? (o : Outline α) (n : Vec α) : Option (Side α) :=
  match o.sides with
  | [] => none
  | s₀ :: rest =>
    let pick := fun (best : Side α × Option α) (s : Side α) ↦
      if Scalar.lowers (n.dot s.normal) best.2 then (s, some (n.dot s.normal)) else best
    some ((s₀ :: rest).foldl pick (s₀, none)).1

/-- An end of a cut side, with the features that made it. -/
structure ClipPoint (α : Type) where
  point : Vec α
  id : FeaturePair

/-- The part of a segment within the half-plane `normal · x ≤ offset`, bounded by the reference
vertex numbered `vertex`. -/
def clip (p q : ClipPoint α) (normal : Vec α) (offset : α) (vertex : Nat) : List (ClipPoint α) :=
  let dp := normal.dot p.point - offset
  let dq := normal.dot q.point - offset
  let crossing : ClipPoint α :=
    { point := p.point + (q.point - p.point) * (dp / (dp - dq))
      id := ⟨vertex.toUInt8, .vertex, p.id.indexB, .face⟩ }
  (if dp ≤ 0 then [p] else []) ++ (if dq ≤ 0 then [q] else [])
    ++ (if dp * dq < 0 then [crossing] else [])

/-- The contact of the reference side `s` under `pose` with the outline `o` under `pose'`. The
normal and plane of the manifold are in the frame of `pose`, the points in that of `pose'`. -/
def clipAgainst (s : Side α) (pose : Pose α) (o : Outline α) (pose' : Pose α)
    (kind : ManifoldKind) (label : FeaturePair → FeaturePair) : Manifold α :=
  match incidentSide? o (pose'.unrotate (pose.rotate s.normal)) with
  | none => .empty
  | some t =>
    let p : ClipPoint α := ⟨pose'.apply t.start, ⟨s.index.toUInt8, .face, t.index.toUInt8, .vertex⟩⟩
    let q : ClipPoint α := ⟨pose'.apply t.stop, ⟨s.index.toUInt8, .face, t.next.toUInt8, .vertex⟩⟩
    let localTangent := (s.stop - s.start).normalize
    let tangent := pose.rotate localTangent
    let normal := tangent.crossOut 1
    let start := pose.apply s.start
    let stop := pose.apply s.stop
    match clip p q (-tangent) (-tangent.dot start) s.index with
    | [p, q] =>
      match clip p q tangent (tangent.dot stop) s.next with
      | [p, q] =>
        [p, q].foldl (fun m c ↦
          if normal.dot c.point - normal.dot start ≤ 0 then
            m.push (.fresh (pose'.unapply c.point) (label c.id))
          else m) (.withoutPoints kind (localTangent.crossOut 1) s.center)
      | _ => .empty
    | _ => .empty

/-- Two convex outlines. -/
def outlines (a : Outline α) (poseA : Pose α) (b : Outline α) (poseB : Pose α) : Manifold α :=
  match greatestSeparation? a poseA b poseB, greatestSeparation? b poseB a poseA with
  | some (sideA, separationA), some (sideB, separationB) =>
    if 0 < separationA then .empty
    else if 0 < separationB then .empty
    else if separationA + referenceTolerance < separationB then
      clipAgainst sideB poseB a poseA .faceB .swap
    else
      clipAgainst sideA poseA b poseB .faceA id
  | _, _ => .empty

def polygons (a : Polygon α) (poseA : Pose α) (b : Polygon α) (poseB : Pose α) : Manifold α :=
  outlines a.toOutline poseA b.toOutline poseB

/-- An edge without length touches no polygon. -/
def edgePolygon (a : Edge α) (poseA : Pose α) (b : Polygon α) (poseB : Pose α) : Manifold α :=
  match a.outline? with
  | none => .empty
  | some o => outlines o poseA b.toOutline poseB

end Collision

end PlanarDynamics
