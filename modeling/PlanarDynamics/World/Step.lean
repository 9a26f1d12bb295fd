import PlanarDynamics.Solver.Island
import PlanarDynamics.World.Basic

/-!
# The step

A step brings the near pairs up to date and their contacts with them, solves the islands, and moves
the bodies.
-/

namespace PlanarDynamics

namespace World

variable {α σ : Type} [Scalar α]

/-! ## Near pairs -/

/-- Brings the boxes of all colliders up to date. -/
def syncBoxes (w : World α σ) : World α σ :=
  w.colliders.toList.zipIdx.foldl (fun w (c, i) ↦ { w with grid := w.syncBox i c }) w

def destroyContact (w : World α σ) (h : Handle) : World α σ :=
  match w.contacts.destroy h with
  | .ok (c, contacts) => { w with contacts, listener := w.listener.map (·.hearDestroyed h c) }
  | .error _ => w

/-- Makes the contact of two colliders, if they may touch and their shapes can. -/
def createContact (w : World α σ) (p : Pair) : World α σ :=
  if w.mayTouch p.lo p.hi then
    match w.colliders[p.lo]?, w.colliders[p.hi]? with
    | some a, some b =>
      match w.contacts.create (p.lo, a) (p.hi, b) with
      | .ok (_, contacts) => { w with contacts }
      | .error _ => w
    | _, _ => w
  else w

def handleEvent (w : World α σ) : PairEvent → World α σ
  | .ends p =>
    match w.contacts.find? p.lo p.hi with
    | some h => w.destroyContact h
    | none => w
  | .begins p => w.createContact p

/-- Makes and destroys contacts as pairs come near and part. -/
def updatePairs (w : World α σ) : World α σ :=
  let w := w.syncBoxes
  let (events, grid) := w.grid.updatePairs
  events.foldl handleEvent { w with grid }

/-! ## Contacts -/

/-- Updates a contact for the current poses of its bodies. One whose colliders may no longer touch
is put on the list instead. -/
def updateContact (st : World α σ × List Handle) (h : Handle) :
    Except Fault (World α σ × List Handle) :=
  let (w, refused) := st
  match w.contacts.get? h with
  | none => .ok st
  | some c =>
    if c.needsFiltering && !w.mayTouch c.colliderA c.colliderB then .ok (w, refused ++ [h])
    else
      match w.bodies[c.bodyA]?, w.bodies[c.bodyB]?, w.colliders[c.colliderA]?,
        w.colliders[c.colliderB]? with
      | some bodyA, some bodyB, some a, some b =>
        let updated :=
          { c with needsFiltering := false }.update a.shape bodyA.pose b.shape bodyB.pose
        match w.listener with
        | none => .ok ({ w with contacts := w.contacts.setContact h.index updated.1 }, refused)
        | some l =>
          let (l, new) := l.hearUpdate h c.manifold updated
          .ok ({ w with contacts := w.contacts.setContact h.index new, listener := some l },
            refused)
      | _, _, _, _ => .error .outOfRange

/-- Updates all contacts in the order of their slots, and destroys those whose colliders may no
longer touch. -/
def updateContacts (w : World α σ) : Except Fault (World α σ) := do
  let (w, refused) ← (w.contacts.entries.map (·.1)).foldlM updateContact (w, [])
  return refused.foldl destroyContact w

/-! ## Motion -/

/-- Keeps the impulses of a contact for the next step. -/
def commitImpulse (w : World α σ) (entry : Handle × ContactImpulse α) : World α σ :=
  let (h, i) := entry
  match w.contacts.get? h with
  | none => w
  | some c =>
    let c := { c with manifold := c.manifold.writeImpulses i }
    { w with
      contacts := w.contacts.setContact h.index c
      listener := w.listener.map (·.hearSolved h c i) }

def commit (w : World α σ) (s : Solution α) : World α σ :=
  let bodies := s.bodies.foldl (fun bodies (i, p, v) ↦ bodies.modify i (·.moveTo p v)) w.bodies
  s.impulses.foldl commitImpulse { w with bodies }

/-- Solves the islands and moves the bodies. Forces act for one step. -/
def move (w : World α σ) (dt : α) : Except Fault (World α σ) := do
  let step := TimeStep.of dt w.previousDt w.settings.gravity w.settings.solver
  let solutions ← (Island.partition w.bodies w.contacts).mapM
    (·.solve w.bodies w.contacts step)
  let w := solutions.foldl commit w
  return { w with bodies := w.bodies.map (·.clearForces), previousDt := dt }

/-- Advances the world by `dt`. A step without a finite positive length does nothing. -/
def step (w : World α σ) (dt : α) : Except Fault (World α σ) :=
  if 0 < dt ∧ Scalar.isFinite dt then do
    let w ← w.updatePairs.updateContacts
    w.move dt
  else .ok w

/-- Advances the world by `n` steps of the same length. -/
def steps (dt : α) : Nat → World α σ → Except Fault (World α σ)
  | 0, w => .ok w
  | n + 1, w => do steps dt n (← w.step dt)

end World

end PlanarDynamics
