import PlanarDynamics.Material
import PlanarDynamics.Vec

/-!
# Settings
-/

namespace PlanarDynamics

structure SolverSettings (α : Type) where
  /-- Passes over the velocity constraints in a step. -/
  velocityIterations : Nat
  /-- The most passes over the position constraints in a step. -/
  positionIterations : Nat
  /-- Whether a step starts from the impulses of the step before. -/
  warmStarting : Bool
  /-- How much of those impulses is taken. -/
  warmStartFactor : α
  /-- How much of a position error a pass removes. -/
  baumgarte : α
  /-- The overlap that is left alone. -/
  linearSlop : α
  /-- The most that a pass moves a contact point. -/
  maxLinearCorrection : α
  /-- The approach speed up to which nothing bounces. -/
  restitutionThreshold : α
  /-- The furthest that a body moves in a step. -/
  maxTranslation : α
  /-- The furthest that a body turns in a step. -/
  maxRotation : α

structure WorldSettings (α : Type) where
  gravity : Vec α
  solver : SolverSettings α
  /-- How much larger than asked for boxes are kept in the grid. -/
  boxMargin : α
  /-- The width of the cells of the grid. -/
  cellSize : α
  frictionMixing : Mixing
  restitutionMixing : Mixing

variable {α : Type} [Scalar α]

def SolverSettings.default : SolverSettings α where
  velocityIterations := 8
  positionIterations := 3
  warmStarting := true
  warmStartFactor := 1
  baumgarte := 0.2
  linearSlop := 0.005
  maxLinearCorrection := 0.2
  restitutionThreshold := 1
  maxTranslation := 2.0
  maxRotation := Scalar.pi / 2.0

def WorldSettings.default : WorldSettings α where
  gravity := ⟨0, -10.0⟩
  solver := .default
  boxMargin := 0.1
  cellSize := 4.0
  frictionMixing := .geometricMean
  restitutionMixing := .max

end PlanarDynamics
