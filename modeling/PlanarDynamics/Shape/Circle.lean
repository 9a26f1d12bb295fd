import PlanarDynamics.Shape.Polygon

/-!
# Circles
-/

namespace PlanarDynamics

@[ext] structure Circle (α : Type) where
  radius : α
  /-- The center, in local coordinates. -/
  center : Vec α

namespace Circle

variable {α : Type} [Scalar α]

/-- A circle of the given radius, which must not be negative. -/
def ofRadius (radius : α) (center : Vec α) : Except Fault (Circle α) :=
  if 0 ≤ radius then .ok ⟨radius, center⟩ else .error .negativeRadius

def support (c : Circle α) (direction : Vec α) : Vec α :=
  c.center + direction.normalizeOr .right * c.radius

def massData (c : Circle α) (density : α) : MassData α :=
  let mass := density * Scalar.pi * c.radius * c.radius
  { mass, center := c.center, inertia := mass * (0.5 * c.radius * c.radius + c.center.normSq) }

end Circle

end PlanarDynamics
