import PlanarDynamics.Shape.Kind

/-!
# Refusals and faults

An `Error` is a refused request: nothing has changed and the caller goes on. A `Fault` is a broken
precondition inside a computation, which then has no result.
-/

namespace PlanarDynamics

/-- Bodies are numbered in the order in which they were added. -/
abbrev BodyId := Nat

/-- Colliders are numbered in the order in which they were added. -/
abbrev ColliderId := Nat

/-- A ticket for a contact: the slot it lives in, and how often the slot had been vacated. Slots are
numbered without end; up to `2 ^ 32` of them, a number of 32 bits would do as well. -/
structure Handle where
  index : Nat
  generation : UInt32
deriving DecidableEq, Repr

/-- Handles are ordered by their slots, then by their generations. -/
instance : LE Handle :=
  ⟨fun h h' ↦ h.index < h'.index ∨ h.index = h'.index ∧ h.generation ≤ h'.generation⟩

theorem Handle.le_def {h h' : Handle} :
    h ≤ h' ↔ h.index < h'.index ∨ h.index = h'.index ∧ h.generation ≤ h'.generation := Iff.rfl

instance : DecidableLE Handle := fun _ _ ↦ decidable_of_iff _ Handle.le_def.symm

/-- Why a list of vertices is not the outline of a polygon. -/
inductive Degeneracy where
  | vertexCount (count : Nat)
  | infiniteVertex
  | noArea
  | shortSide (index : Nat)
  | reflexVertex (index : Nat)
deriving DecidableEq, Repr

inductive Error where
  | noRule (a b : ShapeKind)
  | degenerate (why : Degeneracy)
  | pairTaken (a b : ColliderId)
  | sameCollider (c : ColliderId)
  | staleHandle (h : Handle)
  | noBody (b : BodyId)
  | noCollider (c : ColliderId)
deriving DecidableEq, Repr

def Degeneracy.message : Degeneracy → String
  | vertexCount count => s!"polygon needs 3..=8 vertices, got {count}"
  | infiniteVertex => "polygon vertex is not finite"
  | noArea => "polygon has no area"
  | shortSide index => s!"polygon edge {index} has zero length"
  | reflexVertex index => s!"polygon is not strictly convex at vertex {index}"

def Error.message : Error → String
  | noRule a b => s!"no contact handler registered for {a.name} vs {b.name}"
  | degenerate why => s!"degenerate geometry: {why.message}"
  | pairTaken a b => s!"invariant violated: collider pair ({a}, {b}) already has a contact"
  | sameCollider c => s!"a collider cannot be in contact with itself (collider {c})"
  | staleHandle h => s!"contact handle {h.index}:{h.generation} is stale or was never issued"
  | noBody b => s!"body {b} does not exist"
  | noCollider c => s!"collider {c} does not exist"

inductive Fault where
  /-- A circle of negative radius. -/
  | negativeRadius
  /-- A grid whose cells have no size. -/
  | cellSize
  /-- An interval to clamp to whose ends are out of order. -/
  | clampBounds
  /-- A number that names no element. -/
  | outOfRange
deriving DecidableEq, Repr

/-- The explanation of a fault that the caller could have known of. -/
def Fault.message? : Fault → Option String
  | negativeRadius => some "Circle radius cannot be negative"
  | cellSize => some "Cell size must be positive"
  | clampBounds | outOfRange => none

end PlanarDynamics
