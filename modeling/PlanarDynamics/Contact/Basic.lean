import PlanarDynamics.Body.Collider
import PlanarDynamics.Collision.Rule
import PlanarDynamics.Manifold.World
import PlanarDynamics.Proximity.Pair

/-!
# Contacts

A contact accompanies two colliders for as long as they are near each other, touching or not. In
each step its manifold is found anew, and the impulses of points that are still there carry over.
-/

namespace PlanarDynamics

structure Contact (α : Type) where
  colliderA : ColliderId
  colliderB : ColliderId
  bodyA : BodyId
  bodyB : BodyId
  kind : PairKind
  /-- Finds the manifold of shapes in the order A, B. -/
  collide : Collide α
  manifold : Manifold α
  radiusA : α
  radiusB : α
  friction : α
  restitution : α
  touching : Bool
  /-- Whether the contact is solved in this step. -/
  enabled : Bool
  /-- Whether one of the colliders is a sensor. -/
  sensor : Bool
  /-- Whether it is to be checked again that the colliders may touch. -/
  needsFiltering : Bool

/-- How a contact's touching changed. -/
inductive Transition where
  | began
  | ended
  | persisted
  | idle
deriving DecidableEq, Repr

def Transition.of : Bool → Bool → Transition
  | false, true => began
  | true, false => ended
  | true, true => persisted
  | false, false => idle

def Transition.name : Transition → String
  | began => "Began"
  | ended => "Ended"
  | persisted => "Persisted"
  | idle => "Idle"

variable {α : Type} [Scalar α]

namespace Contact

/-- The contact of two colliders that stand in the order of the rule and are attached. -/
def ofRule (r : Rule α) (a b : ColliderId × Collider α) (friction restitution : α) :
    Except Error (Contact α) :=
  match a.2.body, b.2.body with
  | none, _ => .error (.noCollider a.1)
  | some _, none => .error (.noCollider b.1)
  | some bodyA, some bodyB => .ok {
      colliderA := a.1, colliderB := b.1, bodyA, bodyB
      kind := r.kind, collide := r.collide, manifold := .empty
      radiusA := a.2.shape.radius, radiusB := b.2.shape.radius
      friction, restitution, touching := false, enabled := true
      sensor := a.2.isSensor || b.2.isSensor, needsFiltering := false }

/-- The pair of colliders that the contact belongs to. -/
def pair (c : Contact α) : Pair := .of c.colliderA c.colliderB

def involves (c : Contact α) (collider : ColliderId) : Bool :=
  c.colliderA == collider || c.colliderB == collider

/-- Whether the solver is to push the two bodies apart. -/
def isSolvable (c : Contact α) : Bool := c.touching && c.enabled && !c.sensor

def setEnabled (c : Contact α) (enabled : Bool) : Contact α := { c with enabled }

/-- Asks for the colliders to be checked again. -/
def flag (c : Contact α) : Contact α := { c with needsFiltering := true }

/-- Forgets the touching state and the impulses. -/
def clearHistory (c : Contact α) : Contact α :=
  { c with manifold := .empty, touching := false, enabled := true, needsFiltering := false }

def worldManifold (c : Contact α) (poseA poseB : Pose α) : WorldManifold α :=
  c.manifold.inWorld poseA c.radiusA poseB c.radiusB

/-- The manifold under the given poses, without impulses. The shapes are those of A and B. -/
def evaluate (c : Contact α) (shapeA : Shape α) (poseA : Pose α) (shapeB : Shape α)
    (poseB : Pose α) : Manifold α := c.collide shapeA poseA shapeB poseB

/-- Whether a manifold has finite points, in local coordinates and in the world. -/
def isFinite (c : Contact α) (m : Manifold α) (poseA poseB : Pose α) : Bool :=
  m.localNormal.isFinite && m.localPoint.isFinite && m.points.all (·.localPoint.isFinite)
    && (m.inWorld poseA c.radiusA poseB c.radiusB).isFinite

/-- The manifold under the given poses; none that is not finite. -/
def evaluateFinite (c : Contact α) (shapeA : Shape α) (poseA : Pose α) (shapeB : Shape α)
    (poseB : Pose α) : Manifold α :=
  let m := c.evaluate shapeA poseA shapeB poseB
  if m.isEmpty || c.isFinite m poseA poseB then m else .empty

/-- The contact under new poses, enabled again, and how its touching changed. A sensor notes only
that there is an overlap. -/
def update (c : Contact α) (shapeA : Shape α) (poseA : Pose α) (shapeB : Shape α)
    (poseB : Pose α) : Contact α × Transition :=
  let m := c.evaluateFinite shapeA poseA shapeB poseB
  let touching := !m.isEmpty
  ({ c with
      enabled := true
      touching
      manifold := if c.sensor then .empty else m.carryFrom c.manifold },
    .of c.touching touching)

/-- The contact with the friction and restitution of two materials. -/
def mix (c : Contact α) (friction restitution : Mixing) (a b : Material α) : Contact α :=
  { c with
    friction := friction.mix a.friction b.friction
    restitution := restitution.mix a.restitution b.restitution }

end Contact

end PlanarDynamics
