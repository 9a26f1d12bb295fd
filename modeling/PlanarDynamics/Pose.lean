import PlanarDynamics.Vec

/-!
# Poses

A pose is a rigid motion of the plane: a turn about the origin, then a shift. It takes the local
coordinates of a body to world coordinates.
-/

namespace PlanarDynamics

@[ext] structure Pose (α : Type) where
  position : Vec α
  rotation : α

namespace Pose

variable {α : Type} [Scalar α]

def identity : Pose α := ⟨0, 0⟩

/-- The pose at angle `rotation` that takes the local point `localCenter` to `center`. -/
def ofCenter (center : Vec α) (rotation : α) (localCenter : Vec α) : Pose α :=
  ⟨center - localCenter.rotate rotation, rotation⟩

/-- Takes a direction to world coordinates. -/
def rotate (t : Pose α) (v : Vec α) : Vec α := v.rotate t.rotation

/-- Takes a world direction to local coordinates. -/
def unrotate (t : Pose α) (v : Vec α) : Vec α := v.rotate (-t.rotation)

/-- Takes a point to world coordinates. -/
def apply (t : Pose α) (p : Vec α) : Vec α := t.rotate p + t.position

/-- Takes a world point to local coordinates. -/
def unapply (t : Pose α) (p : Vec α) : Vec α :=
  let q := p - t.position
  ⟨q.x * Scalar.cos t.rotation + q.y * Scalar.sin t.rotation,
    -q.x * Scalar.sin t.rotation + q.y * Scalar.cos t.rotation⟩

/-- The pose of `u` as seen from `t`. -/
def relative (t u : Pose α) : Pose α := ⟨t.unapply u.position, u.rotation - t.rotation⟩

end Pose

end PlanarDynamics
