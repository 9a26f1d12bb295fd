/-!
# Kinds of shapes
-/

namespace PlanarDynamics

inductive ShapeKind where
  | circle
  | polygon
  | edge
deriving DecidableEq, Repr

namespace ShapeKind

/-- The position of a kind in listings. -/
def index : ShapeKind → Nat
  | circle => 0
  | polygon => 1
  | edge => 2

def name : ShapeKind → String
  | circle => "Circle"
  | polygon => "Polygon"
  | edge => "Edge"

end ShapeKind

end PlanarDynamics
