import PlanarDynamics.Contact.Basic
import PlanarDynamics.Contact.Impulse

/-!
# Listeners

A listener is told of what happens to contacts during a step, and keeps a state of its own. It may
refuse to have a contact solved in the current step; otherwise it only watches.
-/

namespace PlanarDynamics

structure Listener (α σ : Type) where
  state : σ
  /-- The colliders have begun to touch. -/
  onBegin : Handle → Contact α → σ → σ
  /-- The colliders touch no more, or the contact was destroyed while they touched. -/
  onEnd : Handle → Contact α → σ → σ
  /-- The colliders touch, since now or since before. -/
  onStay : Handle → Contact α → σ → σ
  /-- Whether to solve a contact, given also its manifold in the step before. -/
  preSolve : Handle → Contact α → Manifold α → σ → Bool × σ
  /-- The contact has been solved. -/
  postSolve : Handle → Contact α → ContactImpulse α → σ → σ

/-- An entry of an event log. The colliders are in the contact's order. -/
inductive ContactEvent (α : Type) where
  | began (a b : ColliderId)
  | ended (a b : ColliderId)
  | stayed (a b : ColliderId)
  | solved (a b : ColliderId) (normalImpulse : α)

def ContactEvent.isBegan {α : Type} : ContactEvent α → Bool
  | began .. => true
  | _ => false

def ContactEvent.isEnded {α : Type} : ContactEvent α → Bool
  | ended .. => true
  | _ => false

namespace Listener

variable {α σ τ : Type}

/-- A listener that heeds nothing and refuses nothing. -/
def silent (state : σ) : Listener α σ where
  state := state
  onBegin _ _ s := s
  onEnd _ _ s := s
  onStay _ _ s := s
  preSolve _ _ _ s := (true, s)
  postSolve _ _ _ s := s

/-- A listener that keeps its state as a part of `s`. -/
def within (l : Listener α σ) (read : τ → σ) (write : τ → σ → τ) (s : τ) : Listener α τ where
  state := write s l.state
  onBegin h c t := write t (l.onBegin h c (read t))
  onEnd h c t := write t (l.onEnd h c (read t))
  onStay h c t := write t (l.onStay h c (read t))
  preSolve h c m t := ((l.preSolve h c m (read t)).1, write t (l.preSolve h c m (read t)).2)
  postSolve h c i t := write t (l.postSolve h c i (read t))

variable [Scalar α]

/-- A listener that writes down all events. -/
def log : Listener α (Array (ContactEvent α)) :=
  { silent #[] with
    onBegin := fun _ c s ↦ s.push (.began c.colliderA c.colliderB)
    onEnd := fun _ c s ↦ s.push (.ended c.colliderA c.colliderB)
    onStay := fun _ c s ↦ s.push (.stayed c.colliderA c.colliderB)
    postSolve := fun _ c i s ↦ s.push (.solved c.colliderA c.colliderB i.normalSum) }

/-- Tells of a change of touching. -/
def hearTransition (l : Listener α σ) (h : Handle) (c : Contact α) : Transition → Listener α σ
  | .began => { l with state := l.onBegin h c l.state }
  | .ended => { l with state := l.onEnd h c l.state }
  | .persisted | .idle => l

/-- Tells of a contact that touches, and lets the listener refuse to have it solved. A sensor
cannot be refused. -/
def hearTouching (l : Listener α σ) (h : Handle) (c : Contact α) (before : Manifold α) :
    Listener α σ × Contact α :=
  let l := { l with state := l.onStay h c l.state }
  if c.sensor then (l, c)
  else
    let answer := l.preSolve h c before l.state
    ({ l with state := answer.2 }, if answer.1 then c else c.setEnabled false)

/-- Tells how a contact came out of an update: the contact with the change of its touching, and the
manifold that it had before. -/
def hearUpdate (l : Listener α σ) (h : Handle) (before : Manifold α)
    (updated : Contact α × Transition) : Listener α σ × Contact α :=
  let l := l.hearTransition h updated.1 updated.2
  if updated.1.touching then l.hearTouching h updated.1 before else (l, updated.1)

/-- Tells of a contact that was destroyed. -/
def hearDestroyed (l : Listener α σ) (h : Handle) (c : Contact α) : Listener α σ :=
  if c.touching then { l with state := l.onEnd h c l.state } else l

def hearSolved (l : Listener α σ) (h : Handle) (c : Contact α) (i : ContactImpulse α) :
    Listener α σ := { l with state := l.postSolve h c i l.state }

end Listener

end PlanarDynamics
