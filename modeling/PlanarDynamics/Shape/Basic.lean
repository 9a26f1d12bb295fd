import PlanarDynamics.Box
import PlanarDynamics.Pose
import PlanarDynamics.Shape.Circle
import PlanarDynamics.Shape.Edge

/-!
# Shapes

The geometry of a collider, in the local coordinates of its body.
-/

namespace PlanarDynamics

inductive Shape (α : Type) where
  | circle (c : Circle α)
  | polygon (p : Polygon α)
  | edge (e : Edge α)

namespace Shape

variable {α : Type} [Scalar α]

def kind : Shape α → ShapeKind
  | circle _ => .circle
  | polygon _ => .polygon
  | edge _ => .edge

/-- The distance from the core of the shape to its surface. Only circles have one. -/
def radius : Shape α → α
  | circle c => c.radius
  | polygon _ | edge _ => 0

/-- The point of the shape furthest along `direction`. -/
def support : Shape α → Vec α → Vec α
  | circle c => c.support
  | polygon p => p.support
  | edge e => e.support

/-- The point of the shape under `pose` that is furthest along `direction`, both in world
coordinates. -/
def extreme (s : Shape α) (pose : Pose α) (direction : Vec α) : Vec α :=
  pose.apply (s.support (pose.unrotate direction))

/-- The bounding box under `pose`, from the furthest points along the four axis directions. -/
def bounds (s : Shape α) (pose : Pose α) : Box α :=
  .spanning ⟨(s.extreme pose ⟨-1, 0⟩).x, (s.extreme pose ⟨0, -1⟩).y⟩
    ⟨(s.extreme pose ⟨1, 0⟩).x, (s.extreme pose ⟨0, 1⟩).y⟩

/-- Edges have no mass. -/
def massData : Shape α → α → MassData α
  | circle c, density => c.massData density
  | polygon p, density => p.massData density
  | edge e, _ => { mass := 0, center := e.start.midpoint e.stop, inertia := 0 }

end Shape

end PlanarDynamics
