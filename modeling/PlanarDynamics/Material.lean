import PlanarDynamics.Scalar

/-!
# Materials

The surface and density of a collider, and how two surfaces act together.
-/

namespace PlanarDynamics

@[ext] structure Material (α : Type) where
  /-- How much of the approach speed a bounce gives back. -/
  restitution : α
  friction : α
  /-- Mass per area. -/
  density : α

/-- How the coefficients of two surfaces combine. -/
inductive Mixing where
  | geometricMean
  | average
  | min
  | max
  | multiply
deriving DecidableEq, Repr

def Mixing.name : Mixing → String
  | geometricMean => "GeometricMean"
  | average => "Average"
  | min => "Min"
  | max => "Max"
  | multiply => "Multiply"

def Mixing.ofName? (s : String) : Option Mixing :=
  [geometricMean, average, min, max, multiply].find? (·.name = s)

variable {α : Type} [Scalar α]

namespace Material

def default : Material α := ⟨0.2, 0.5, 1⟩

/-- Brings the restitution between 0 and 1 and the friction to at least 0. -/
def ofSurface (restitution friction : α) : Material α :=
  ⟨Scalar.clamp 0 1 restitution, Scalar.max friction 0, 1⟩

def withDensity (m : Material α) (density : α) : Material α :=
  { m with density := Scalar.max density 0 }

end Material

namespace Mixing

def mix : Mixing → α → α → α
  | geometricMean, a, b => Scalar.sqrt (Scalar.max (a * b) 0)
  | average, a, b => 0.5 * (a + b)
  | min, a, b => Scalar.min a b
  | max, a, b => Scalar.max a b
  | multiply, a, b => a * b

end Mixing

end PlanarDynamics
