import PlanarDynamics.Manifold.Basic
import PlanarDynamics.Pose

/-!
# Manifolds in the world

Where the points of a manifold are once the poses of the two shapes are known.
-/

namespace PlanarDynamics

/-- A contact point midway between two surfaces, and the signed distance from one to the other,
negative if they overlap. -/
@[ext] structure WorldPoint (α : Type) where
  point : Vec α
  separation : α

@[ext] structure WorldManifold (α : Type) where
  /-- The unit normal from shape A to shape B. -/
  normal : Vec α
  points : List (WorldPoint α)

variable {α : Type} [Scalar α]

/-- The contact between the surface points `a` and `b` as measured along `normal`. -/
def WorldPoint.between (normal a b : Vec α) : WorldPoint α := ⟨a.midpoint b, (b - a).dot normal⟩

namespace WorldManifold

def isFinite (w : WorldManifold α) : Bool :=
  w.normal.isFinite && w.points.all (·.point.isFinite)
    && w.points.all (Scalar.isFinite ·.separation)

end WorldManifold

namespace Manifold

/-- The direction from the core point of A to that of B, or the fallback where they coincide. -/
def circlesNormal (a b : Vec α) : Vec α := (b - a).normalizeOr .right

/-- The contact of a face with the surface point below the core point `p` of the other shape:
`normal` and `plane` are those of the face. The first of the two points is on the face. -/
def facePoints (normal plane : Vec α) (faceRadius : α) (p : Vec α) (radius : α) : Vec α × Vec α :=
  (p + normal * (faceRadius - (p - plane).dot normal), p - normal * radius)

/-- The manifold under the poses of its shapes, whose radii are given too. -/
def inWorld (m : Manifold α) (poseA : Pose α) (radiusA : α) (poseB : Pose α) (radiusB : α) :
    WorldManifold α :=
  if m.isEmpty then ⟨0, []⟩
  else match m.kind with
    | .circles =>
      let a := poseA.apply m.localPoint
      let b := poseB.apply m.first.localPoint
      let n := circlesNormal a b
      let touch := WorldPoint.between n (a + n * radiusA) (b - n * radiusB)
      ⟨n, touch :: (m.points.drop 1).map fun _ ↦ ⟨0, 0⟩⟩
    | .faceA =>
      let n := poseA.rotate m.localNormal
      let plane := poseA.apply m.localPoint
      ⟨n, m.points.map fun p ↦
        let (a, b) := facePoints n plane radiusA (poseB.apply p.localPoint) radiusB
        .between n a b⟩
    | .faceB =>
      let n := poseB.rotate m.localNormal
      let plane := poseB.apply m.localPoint
      ⟨-n, m.points.map fun p ↦
        let (b, a) := facePoints n plane radiusB (poseA.apply p.localPoint) radiusA
        ⟨a.midpoint b, (a - b).dot n⟩⟩

end Manifold

end PlanarDynamics
