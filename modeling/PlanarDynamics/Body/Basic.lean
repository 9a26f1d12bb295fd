import PlanarDynamics.Body.Collider

/-!
# Rigid bodies

A body's position is that of its center of mass. Its origin, where the shapes of its colliders are
anchored, follows from it.
-/

namespace PlanarDynamics

inductive BodyKind where
  /-- Never moves. -/
  | static
  /-- Moves as it was set to, whatever it meets. -/
  | kinematic
  /-- Moves by forces and contacts. -/
  | dynamic
deriving DecidableEq, Repr

def BodyKind.name : BodyKind → String
  | static => "static"
  | kinematic => "kinematic"
  | dynamic => "dynamic"

def BodyKind.ofName? (s : String) : Option BodyKind :=
  [static, kinematic, dynamic].find? (·.name = s)

/-- What a caller may change of a body at will. -/
@[ext] structure BodyState (α : Type) where
  /-- The center of mass in local coordinates. -/
  localCenter : Vec α
  /-- The center of mass in the world. -/
  position : Vec α
  rotation : α
  velocity : Vec α
  angularVelocity : α
  force : Vec α
  torque : α
  mass : α
  /-- One over the mass; zero if nothing moves the body. -/
  invMass : α
  /-- The rotational inertia about the center of mass. -/
  inertia : α
  /-- One over the inertia; zero if nothing turns the body. -/
  invInertia : α
  linearDamping : α
  angularDamping : α
  gravityScale : α

@[ext] structure Body (α : Type) extends BodyState α where
  kind : BodyKind
  /-- The attached colliders, in the order in which they were attached. -/
  colliders : List ColliderId

namespace Body

variable {α : Type} [Scalar α]

def isStatic (b : Body α) : Bool := b.kind = .static

def isDynamic (b : Body α) : Bool := b.kind = .dynamic

/-- A body at rest. Dynamic bodies have mass 1 until colliders are attached. -/
def ofKind (kind : BodyKind) (position : Vec α) : Body α :=
  let mass : α := if kind = .dynamic then 1 else 0
  { kind, colliders := [], localCenter := 0, position, rotation := 0, velocity := 0
    angularVelocity := 0, force := 0, torque := 0, mass, invMass := mass, inertia := 0
    invInertia := 0, linearDamping := 0, angularDamping := 0, gravityScale := 1 }

/-- The pose of the body's origin. -/
def pose (b : Body α) : Pose α := .ofCenter b.position b.rotation b.localCenter

/-- Turns the body about its origin to the given angle. -/
def withRotation (b : Body α) (rotation : α) : Body α :=
  { b with rotation, position := b.pose.position + b.localCenter.rotate rotation }

/-- Negative damping counts as none. -/
def withDamping (b : Body α) (linear angular : α) : Body α :=
  { b with linearDamping := Scalar.max linear 0, angularDamping := Scalar.max angular 0 }

/-- The velocity of the point of the body that is at `p` in the world. -/
def velocityAt (b : Body α) (p : Vec α) : Vec α :=
  b.velocity + Vec.outCross b.angularVelocity (p - b.position)

/-- Takes matter away: no mass, and the center of mass at the origin of the body. -/
def withoutMass (b : Body α) : Body α :=
  { b with
    mass := 0, invMass := 0, inertia := 0, invInertia := 0, localCenter := 0
    position := b.pose.position }

/-- The sum of mass data: mass, mass-weighted center and inertia. -/
def totalMass (parts : List (MassData α)) : MassData α :=
  parts.foldl (fun sum m ↦
    ⟨sum.mass + m.mass, sum.center + m.center * m.mass, sum.inertia + m.inertia⟩) ⟨0, 0, 0⟩

/-- The inertia about the center of mass and its inverse, from the inertia about the origin. -/
def centralInertia (inertia mass : α) (center : Vec α) : α × α :=
  if 0 < inertia then
    let central := inertia - mass * center.normSq
    if 0 < central then (central, 1 / central) else (0, 0)
  else (0, 0)

/-- Makes the body consist of the given parts. Its origin stays in place, and every point of a
dynamic body keeps its velocity. A dynamic body without mass gets mass 1, so that it can move. -/
def resetMass (b : Body α) (parts : List (MassData α)) : Body α :=
  if b.isDynamic then
    let total := totalMass parts
    let (mass, invMass, center) :=
      if 0 < total.mass then (total.mass, 1 / total.mass, total.center * (1 / total.mass))
      else (1, 1, total.center)
    let (inertia, invInertia) := centralInertia total.inertia mass center
    let position := b.pose.position + center.rotate b.rotation
    { b with
      mass, invMass, inertia, invInertia, localCenter := center, position
      velocity := b.velocity + Vec.outCross b.angularVelocity (position - b.position) }
  else b.withoutMass

def applyForce (b : Body α) (force : Vec α) : Body α := { b with force := b.force + force }

/-- Applies a force at a point of the world, with the torque that it has about the center. -/
def applyForceAt (b : Body α) (force p : Vec α) : Body α :=
  { b with
    force := b.force + force
    torque := b.torque + (p - b.position).cross force }

/-- Applies an impulse at a point of the world. It moves dynamic bodies only. -/
def applyImpulse (b : Body α) (impulse p : Vec α) : Body α :=
  if b.isDynamic then
    { b with
      velocity := b.velocity + impulse * b.invMass
      angularVelocity := b.angularVelocity + b.invInertia * (p - b.position).cross impulse }
  else b

def clearForces (b : Body α) : Body α := { b with force := 0, torque := 0 }

/-- The body as one of another kind, free of forces, and at rest if it is static now. -/
def changeKind (b : Body α) (kind : BodyKind) : Body α :=
  let b := { b.clearForces with kind }
  if kind = .static then { b with velocity := 0, angularVelocity := 0 } else b

end Body

end PlanarDynamics
