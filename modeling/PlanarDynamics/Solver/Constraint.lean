import PlanarDynamics.Body.Motion
import PlanarDynamics.Contact.Basic
import PlanarDynamics.Contact.Impulse

/-!
# Contact constraints

The solver's copy of the contacts of an island. Bodies are named by their places in the island's
lists of masses, placements and velocities.
-/

namespace PlanarDynamics

/-- What the solver knows of a body. -/
@[ext] structure SolverBody (α : Type) where
  invMass : α
  invInertia : α
  localCenter : Vec α

/-- One of the two bodies that a constraint joins. -/
@[ext] structure Anchor (α : Type) extends SolverBody α where
  place : Nat
  /-- The radius of the shape that touches. -/
  radius : α

/-- One contact point. The arms lead to it from the two centers of mass. -/
@[ext] structure Row (α : Type) where
  armA : Vec α
  armB : Vec α
  normalImpulse : α
  tangentImpulse : α
  /-- One over the resistance to an impulse along the normal. -/
  normalMass : α
  /-- One over the resistance to an impulse along the surface. -/
  tangentMass : α
  /-- The relative normal velocity to reach. -/
  bias : α

structure Constraint (α : Type) where
  handle : Handle
  manifold : Manifold α
  a : Anchor α
  b : Anchor α
  friction : α
  restitution : α
  /-- The normal from A to B, once the rows are prepared. -/
  normal : Vec α
  rows : List (Row α)

variable {α : Type} [Scalar α]

def SolverBody.ofBody (b : Body α) : SolverBody α := ⟨b.invMass, b.invInertia, b.localCenter⟩

/-- Where a body's origin is. -/
def Anchor.pose (b : Anchor α) (p : Placement α) : Pose α :=
  .ofCenter p.center p.angle b.localCenter

/-- The resistance of two bodies to an impulse along `direction` at the ends of two arms. -/
def resistance (a b : SolverBody α) (armA armB direction : Vec α) : α :=
  let ra := armA.cross direction
  let rb := armB.cross direction
  a.invMass + b.invMass + a.invInertia * ra * ra + b.invInertia * rb * rb

def invPositive (k : α) : α := if 0 < k then 1 / k else 0

/-- The velocity of B at the end of its arm, as seen from A at the end of its own. -/
def relativeVelocity (armA armB : Vec α) (v : Velocity α × Velocity α) : Vec α :=
  v.2.linear + Vec.outCross v.2.angular armB - v.1.linear - Vec.outCross v.1.angular armA

/-- The velocities after the impulse `p` has acted on B, and its opposite on A. -/
def applyImpulse (a b : SolverBody α) (armA armB p : Vec α) (v : Velocity α × Velocity α) :
    Velocity α × Velocity α :=
  (⟨v.1.linear - p * a.invMass, v.1.angular - a.invInertia * armA.cross p⟩,
    ⟨v.2.linear + p * b.invMass, v.2.angular + b.invInertia * armB.cross p⟩)

namespace Row

/-- A row that starts from the impulses of the step before, scaled. -/
def ofPoint (scale : α) (p : ManifoldPoint α) : Row α where
  armA := 0
  armB := 0
  normalImpulse := scale * p.normalImpulse
  tangentImpulse := scale * p.tangentImpulse
  normalMass := 0
  tangentMass := 0
  bias := 0

def impulse (r : Row α) : PointImpulse α := ⟨r.normalImpulse, r.tangentImpulse⟩

end Row

namespace Constraint

def tangent (c : Constraint α) : Vec α := c.normal.crossOut 1

def impulse (c : Constraint α) : ContactImpulse α := .ofPoints (c.rows.map Row.impulse)

/-- The constraint of a contact, if it has points and its bodies have places. -/
def ofContact? (scale : α) (bodies : Array (SolverBody α)) (place : BodyId → Option Nat)
    (h : Handle) (c : Contact α) : Option (Constraint α) := do
  let i ← place c.bodyA
  let j ← place c.bodyB
  let a ← bodies[i]?
  let b ← bodies[j]?
  guard !c.manifold.isEmpty
  return {
    handle := h, manifold := c.manifold
    a := { a with place := i, radius := c.radiusA }
    b := { b with place := j, radius := c.radiusB }
    friction := c.friction, restitution := c.restitution, normal := 0
    rows := c.manifold.points.map (Row.ofPoint scale) }

/-- Prepares a row at the given point of the world. Only an approach faster than the threshold
bounces. -/
def prepareRow (c : Constraint α) (threshold : α) (pa pb : Placement α)
    (v : Velocity α × Velocity α) (normal : Vec α) (row : Row α) (p : WorldPoint α) : Row α :=
  let tangent := normal.crossOut 1
  let armA := p.point - pa.center
  let armB := p.point - pb.center
  let approach := normal.dot (relativeVelocity armA armB v)
  let a := c.a.toSolverBody
  let b := c.b.toSolverBody
  { row with
    armA, armB
    normalMass := invPositive (resistance a b armA armB normal)
    tangentMass := invPositive (resistance a b armA armB tangent)
    bias := if approach < -threshold then -c.restitution * approach else 0 }

/-- Prepares the rows for the given placements and velocities. Geometry that is not finite takes
the constraint out of action. -/
def prepare (c : Constraint α) (threshold : α) (pa pb : Placement α)
    (v : Velocity α × Velocity α) : Constraint α :=
  let w := c.manifold.inWorld (c.a.pose pa) c.a.radius (c.b.pose pb) c.b.radius
  if w.isFinite then
    { c with
      normal := w.normal
      rows := List.zipWith (c.prepareRow threshold pa pb v w.normal) c.rows w.points }
  else { c with rows := [] }

end Constraint

/-- Two different entries of an array. -/
def twoOf? {β : Type} (xs : Array β) (i j : Nat) : Option (β × β) :=
  if i = j then none
  else match xs[i]?, xs[j]? with
    | some x, some y => some (x, y)
    | _, _ => none

def setTwo {β : Type} (xs : Array β) (i j : Nat) (v : β × β) : Array β :=
  (xs.setIfInBounds i v.1).setIfInBounds j v.2

/-- The contacts of one island, prepared for solving in the order in which they were given. -/
structure Solver (α : Type) where
  step : TimeStep α
  constraints : List (Constraint α)

namespace Solver

/-- How much of the impulses of the step before is taken. -/
def warmScale (step : TimeStep α) : α :=
  if step.settings.warmStarting then step.settings.warmStartFactor * step.ratio else 0

/-- A solver for some contacts, of which those without points or places are left out. -/
def ofContacts (step : TimeStep α) (contacts : List (Handle × Contact α))
    (bodies : Array (SolverBody α)) (place : BodyId → Option Nat) : Solver α where
  step := step
  constraints := contacts.filterMap fun (h, c) ↦
    Constraint.ofContact? (warmScale step) bodies place h c

def impulses (s : Solver α) : List (Handle × ContactImpulse α) :=
  s.constraints.map fun c ↦ (c.handle, c.impulse)

/-- Prepares all constraints. -/
def prepare (s : Solver α) (placements : Array (Placement α)) (velocities : Array (Velocity α)) :
    Except Fault (Solver α) := do
  let constraints ← s.constraints.mapM fun c ↦
    match placements[c.a.place]?, placements[c.b.place]?, velocities[c.a.place]?,
      velocities[c.b.place]? with
    | some pa, some pb, some va, some vb =>
      .ok (c.prepare s.step.settings.restitutionThreshold pa pb (va, vb))
    | _, _, _, _ => .error .outOfRange
  return { s with constraints }

end Solver

end PlanarDynamics
