import PlanarDynamics.Shape.Outline

/-!
# Edges

An edge is a line segment that stops bodies from both sides.
-/

namespace PlanarDynamics

@[ext] structure Edge (α : Type) where
  start : Vec α
  stop : Vec α

namespace Edge

variable {α : Type} [Scalar α]

def length (e : Edge α) : α := e.start.dist e.stop

def direction (e : Edge α) : Vec α := e.stop - e.start

/-- The unit normal on the right of the way from start to stop. An edge without length has none. -/
def normal? (e : Edge α) : Option (Vec α) := (e.direction.crossOut 1).normalize?

/-- The edge as an outline that runs there and back. -/
def outline? (e : Edge α) : Option (Outline α) :=
  e.normal?.map fun n ↦ { vertices := [e.start, e.stop], normals := [n, -n] }

/-- The end furthest along `direction`. -/
def support (e : Edge α) (direction : Vec α) : Vec α :=
  if e.stop.dot direction ≤ e.start.dot direction then e.start else e.stop

end Edge

end PlanarDynamics
