import PlanarDynamics.Contact.Registry
import PlanarDynamics.Solver.Position

/-!
# Islands

An island is a set of bodies that can act on each other in a step: they are linked by contacts to
be solved, but not through static bodies. Islands share static bodies only, so each is solved by
itself.
-/

namespace PlanarDynamics

/-- A contact to be solved, and the bodies that it links. -/
structure Link where
  handle : Handle
  a : BodyId
  b : BodyId
deriving DecidableEq, Repr

namespace Link

def touches (l : Link) (i : BodyId) : Bool := l.a == i || l.b == i

/-- The body at the other end. -/
def other (l : Link) (i : BodyId) : BodyId := if l.a = i then l.b else l.a

end Link

structure Island where
  /-- The bodies that move in the order in which they were reached, then the static ones. -/
  bodies : List BodyId
  /-- The contacts in the order of their slots. -/
  contacts : List Handle
deriving DecidableEq, Repr

/-- What solving an island has come to. -/
structure Solution (α : Type) where
  /-- The bodies that move, with their new states. -/
  bodies : List (BodyId × Placement α × Velocity α)
  impulses : List (Handle × ContactImpulse α)
  /-- Whether the overlaps were brought down to what is tolerated. -/
  solved : Bool

/-! ## Walks -/

/-- A walk over the links, and the island that it has found so far. -/
structure Walk where
  /-- The bodies that are still to be visited. -/
  stack : List BodyId
  /-- The bodies that have not been on the stack. -/
  unseen : List BodyId
  /-- The slots of the contacts that have been taken into an island. -/
  marked : List Nat
  /-- The bodies visited that move. -/
  moving : List BodyId := []
  /-- The static bodies visited. -/
  static : List BodyId := []
  contacts : List Handle := []

namespace Walk

/-- Puts a body on the stack, unless it has been there. -/
def push (w : Walk) (i : BodyId) : Walk :=
  if i ∈ w.unseen then { w with stack := i :: w.stack, unseen := w.unseen.erase i } else w

/-- Takes the contact of a link of the body `i` into the island, with the body at the other end. A
contact that is marked has been taken already. -/
def follow (i : BodyId) (w : Walk) (l : Link) : Walk :=
  if l.handle.index ∈ w.marked then w
  else
    { w with
      marked := l.handle.index :: w.marked
      contacts := w.contacts ++ [l.handle] }.push (l.other i)

/-- Visits a body, and goes on along its links unless it is static. -/
def visit (links : List Link) (isStatic : Bool) (i : BodyId) (w : Walk) : Walk :=
  if isStatic then { w with static := w.static ++ [i] }
  else (links.filter (·.touches i)).foldl (follow i) { w with moving := w.moving ++ [i] }

/-- A bound on the visits that are left: each body is put on the stack at most once. -/
def left (w : Walk) : Nat := 2 * w.unseen.length + w.stack.length

theorem left_push (w : Walk) (i : BodyId) : (w.push i).left ≤ w.left := by
  rw [push]
  split
  next h =>
    have := List.length_pos_of_mem h
    simp only [left, List.length_cons, List.length_erase_of_mem h]
    omega
  next => exact Nat.le_refl _

theorem left_follow (i : BodyId) (w : Walk) (l : Link) : (w.follow i l).left ≤ w.left := by
  rw [follow]
  split
  · exact Nat.le_refl _
  · exact left_push _ _

theorem left_visit (links : List Link) (isStatic : Bool) (i : BodyId) (w : Walk) :
    (w.visit links isStatic i).left ≤ w.left := by
  rw [visit]
  split
  · exact Nat.le_refl _
  · generalize links.filter (·.touches i) = ls
    suffices ∀ w : Walk, (ls.foldl (follow i) w).left ≤ w.left from this _
    induction ls with
    | nil => exact fun w ↦ Nat.le_refl _
    | cons l ls ih => exact fun w ↦ Nat.le_trans (ih _) (left_follow i w l)

/-- Visits bodies until none is left on the stack. -/
def finish (isStatic : BodyId → Bool) (links : List Link) (w : Walk) : Walk :=
  match _ : w.stack with
  | [] => w
  | i :: stack => finish isStatic links ({ w with stack }.visit links (isStatic i) i)
termination_by w.left
decreasing_by
  refine Nat.lt_of_le_of_lt (left_visit _ _ _ _) ?_
  simp [left, ‹w.stack = _›]

/-- The island found, with its contacts in order. -/
def island (w : Walk) : Island where
  bodies := w.moving ++ w.static
  contacts := w.contacts.mergeSort

end Walk

namespace Island

variable {α : Type} [Scalar α]

/-! ## Partition -/

/-- The contacts to be solved whose bodies both exist, in the order of their slots. -/
def links (bodies : Array (Body α)) (r : Registry α) : List Link :=
  r.entries.filterMap fun (h, c) ↦
    if c.isSolvable ∧ c.bodyA < bodies.size ∧ c.bodyB < bodies.size then
      some ⟨h, c.bodyA, c.bodyB⟩
    else none

/-- The islands of the given first bodies. `unseen` are the bodies in no island so far, and `marked`
the slots whose contacts are in one. -/
def gather (isStatic : BodyId → Bool) (links : List Link) :
    List BodyId → List BodyId → List Nat → List Island
  | [], _, _ => []
  | seed :: seeds, unseen, marked =>
    if isStatic seed || seed ∉ unseen then gather isStatic links seeds unseen marked
    else
      let w := Walk.finish isStatic links { stack := [seed], unseen := unseen.erase seed, marked }
      -- Static bodies may be seen again.
      w.island :: gather isStatic links seeds (unseen.filter (· ∉ w.moving)) w.marked

/-- All islands. Each body that is not static is in one of them. -/
def partition (bodies : Array (Body α)) (r : Registry α) : List Island :=
  let all := List.range bodies.size
  gather (fun i ↦ bodies[i]?.any (·.isStatic)) (links bodies r) all all []

/-! ## Solution -/

/-- The place of a body in the island. Of several, the last. -/
def place? (island : Island) (b : BodyId) : Option Nat :=
  (island.bodies.zipIdx.findRev? (·.1 = b)).map (·.2)

/-- The bodies of the island. -/
def members (island : Island) (bodies : Array (Body α)) :
    Except Fault (List (BodyId × Body α)) :=
  island.bodies.mapM fun i ↦
    match bodies[i]? with
    | some b => .ok (i, b)
    | none => .error .outOfRange

/-- Moves and solves the bodies of an island for one step. -/
def solve (island : Island) (bodies : Array (Body α)) (r : Registry α) (step : TimeStep α) :
    Except Fault (Solution α) := do
  let members ← island.members bodies
  let contacts := island.contacts.filterMap fun h ↦ (r.get? h).map (h, ·)
  let masses := (members.map (.ofBody ·.2)).toArray
  let placements := (members.map (·.2.placement)).toArray
  let velocities :=
    (members.map fun (_, b) ↦ b.accelerate step.gravity step.dt b.motion).toArray
  let solver ← (Solver.ofContacts step contacts masses island.place?).prepare placements velocities
  let (solver, velocities) ← Solver.velocityPasses step.settings.velocityIterations solver
    (solver.warmStart velocities)
  let velocities := velocities.map (·.limit step.dt step.settings)
  let placements := Array.zipWith (·.advance · step.dt) placements velocities
  let (placements, solved) ←
    Solver.positionPasses step.settings.positionIterations solver placements
  return {
    bodies := (members.zip (placements.toList.zip velocities.toList)).filterMap
      fun ((i, b), p, v) ↦ if b.isStatic then none else some (i, p, v)
    impulses := solver.impulses
    solved }

end Island

end PlanarDynamics
