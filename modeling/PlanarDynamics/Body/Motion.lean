import PlanarDynamics.Body.Basic
import PlanarDynamics.Settings

/-!
# Motion in a step

Velocities first take up the forces of the step, and positions then follow the new velocities.
-/

namespace PlanarDynamics

/-- Where a body is: its center of mass and its angle. -/
@[ext] structure Placement (α : Type) where
  center : Vec α
  angle : α

@[ext] structure Velocity (α : Type) where
  linear : Vec α
  angular : α

/-- What a computation needs to know of the current step. -/
structure TimeStep (α : Type) where
  dt : α
  invDt : α
  /-- The length of this step over that of the one before. -/
  ratio : α
  gravity : Vec α
  settings : SolverSettings α

variable {α : Type} [Scalar α]

def TimeStep.of (dt previous : α) (gravity : Vec α) (settings : SolverSettings α) : TimeStep α where
  dt := dt
  invDt := if 0 < dt then 1 / dt else 0
  ratio := if 0 < previous then dt / previous else 1
  gravity := gravity
  settings := settings

def Body.placement (b : Body α) : Placement α := ⟨b.position, b.rotation⟩

def Body.motion (b : Body α) : Velocity α := ⟨b.velocity, b.angularVelocity⟩

/-- The velocity `v` of a body after gravity, forces and damping have acted for `dt`. Only dynamic
bodies feel them. -/
def Body.accelerate (b : Body α) (gravity : Vec α) (dt : α) (v : Velocity α) : Velocity α :=
  if b.isDynamic then
    let acceleration := gravity * b.gravityScale + b.force * b.invMass
    { linear := (v.linear + acceleration * dt) * (1 / (1 + dt * b.linearDamping))
      angular := (v.angular + b.torque * b.invInertia * dt) * (1 / (1 + dt * b.angularDamping)) }
  else v

namespace Velocity

/-- The velocity cut down to what the settings allow in a step. -/
def limit (v : Velocity α) (dt : α) (s : SolverSettings α) : Velocity α :=
  let translation := v.linear * dt
  let rotation := v.angular * dt
  { linear :=
      if s.maxTranslation * s.maxTranslation < translation.normSq then
        v.linear * (s.maxTranslation / translation.norm)
      else v.linear
    angular :=
      if s.maxRotation * s.maxRotation < rotation * rotation then
        v.angular * (s.maxRotation / Scalar.abs rotation)
      else v.angular }

end Velocity

/-- Where a body is after moving for `dt`. -/
def Placement.advance (p : Placement α) (v : Velocity α) (dt : α) : Placement α :=
  ⟨p.center + v.linear * dt, p.angle + v.angular * dt⟩

/-- The same angle between `-π` and `π`. -/
def wrapAngle (angle : α) : α := Scalar.atan2 (Scalar.sin angle) (Scalar.cos angle)

/-- Puts the body where a step has brought it. -/
def Body.moveTo (b : Body α) (p : Placement α) (v : Velocity α) : Body α :=
  { b with
    position := p.center, rotation := wrapAngle p.angle
    velocity := v.linear, angularVelocity := v.angular }

end PlanarDynamics
