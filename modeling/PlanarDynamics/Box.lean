import PlanarDynamics.Vec

/-!
# Boxes

Axis-aligned boxes, given by two opposite corners. A box is taken as given: `Box.spanning` puts
the corners in order, the constructor does not.
-/

namespace PlanarDynamics

@[ext] structure Box (α : Type) where
  lower : Vec α
  upper : Vec α

namespace Box

variable {α : Type} [Scalar α]

/-- The box with the two given points as opposite corners. -/
def spanning (p q : Vec α) : Box α := ⟨p.min q, p.max q⟩

/-- Whether two boxes have a point in common. Boxes that touch have. -/
def overlaps (a b : Box α) : Bool :=
  b.lower.x ≤ a.upper.x && a.lower.x ≤ b.upper.x && (b.lower.y ≤ a.upper.y && a.lower.y ≤ b.upper.y)

/-- Whether `b` lies within `a`. -/
def contains (a b : Box α) : Bool :=
  a.lower.x ≤ b.lower.x && a.lower.y ≤ b.lower.y && b.upper.x ≤ a.upper.x && b.upper.y ≤ a.upper.y

/-- The box grown by `margin` on each side. -/
def grow (a : Box α) (margin : α) : Box α :=
  ⟨a.lower - ⟨margin, margin⟩, a.upper + ⟨margin, margin⟩⟩

def center (a : Box α) : Vec α := a.lower.midpoint a.upper

def union (a b : Box α) : Box α := ⟨a.lower.min b.lower, a.upper.max b.upper⟩

/-- The smallest box around some points, of which there must be one. -/
def around? : List (Vec α) → Option (Box α)
  | [] => none
  | p :: ps => some (ps.foldl (fun b q ↦ b.union ⟨q, q⟩) ⟨p, p⟩)

def isFinite (a : Box α) : Bool := a.lower.isFinite && a.upper.isFinite

end Box

end PlanarDynamics
