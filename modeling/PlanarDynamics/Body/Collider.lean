import PlanarDynamics.Material
import PlanarDynamics.Shape.Basic

/-!
# Colliders

A collider gives a body a shape and a surface.
-/

namespace PlanarDynamics

/-- Which colliders may touch. -/
@[ext] structure Filter where
  /-- The classes that the collider belongs to, one bit each. -/
  category : UInt16
  /-- The classes that it touches. -/
  mask : UInt16
  /-- Members of a group above zero touch each other, those of one below zero do not. -/
  group : Int
deriving DecidableEq, Repr

namespace Filter

def default : Filter := ⟨1, 0xFFFF, 0⟩

/-- A common group decides; without one each mask must accept the other's category. -/
def accepts (a b : Filter) : Bool :=
  if a.group = b.group ∧ a.group ≠ 0 then 0 < a.group
  else a.mask &&& b.category != 0 && a.category &&& b.mask != 0

end Filter

structure Collider (α : Type) where
  shape : Shape α
  material : Material α
  filter : Filter
  /-- Sensors notice what they overlap and do not resist it. -/
  isSensor : Bool
  /-- The body that the collider is attached to. -/
  body : Option BodyId

namespace Collider

variable {α : Type} [Scalar α]

def kind (c : Collider α) : ShapeKind := c.shape.kind

def massData (c : Collider α) : MassData α := c.shape.massData c.material.density

end Collider

end PlanarDynamics
