import PlanarDynamics.Proofs.Registry.Reachable

/-!
# Requests carried out in place

A registry that is kept in one place is written part by part, and what has been written when an
error comes up stays written.  The requests are spelled out here as programs of that kind: `EStateM`
keeps the state at the moment of the error.  Each of them is all or nothing.  It comes to what the
operation of the same name says, and leaves nothing behind if that refuses.
-/

namespace PlanarDynamics

section

variable {ε S β : Type}

/-- What comes out, at `s`, of something that is done completely or not at all. -/
def allOrNothing (s : S) : Except ε (β × S) → EStateM.Result ε S β
  | .ok x => .ok x.1 x.2
  | .error e => .error e s

/-- The state that is left, also by an error. -/
def leftBy : EStateM.Result ε S β → S
  | .ok _ s => s
  | .error _ s => s

@[simp] theorem run_throw (e : ε) (s : S) : (throw e : EStateM ε S β).run s = .error e s := rfl

@[simp] theorem run_ofExcept_ok (b : β) (s : S) :
    (MonadExcept.ofExcept (.ok b) : EStateM ε S β).run s = .ok b s := rfl

@[simp] theorem run_ofExcept_error (e : ε) (s : S) :
    (MonadExcept.ofExcept (.error e) : EStateM ε S β).run s = .error e s := rfl

theorem leftBy_allOrNothing (s : S) (x : Except ε (β × S)) :
    leftBy (allOrNothing s x) = (x.map (·.2)).toOption.getD s := by
  cases x <;> rfl

end

namespace InPlace

variable {α : Type} [Scalar α]

/-! ## Programs -/

/-- The contact of a handle, which must be live. -/
def fetch (h : Handle) : EStateM Error (Registry α) (Contact α) := do
  match (← get).get? h with
  | some c => return c
  | none => throw (.staleHandle h)

/-- Empties a slot, and returns what was in it. -/
def vacate (i : Nat) : EStateM Error (Registry α) (Option (Contact α)) :=
  modifyGet fun r ↦ (r.slots[i]?.bind (·.contact?),
    { r with slots := r.slots.modify i fun s ↦ ⟨s.generation + 1, none⟩ })

def create (a b : ColliderId × Collider α) : EStateM Error (Registry α) Handle := do
  if a.1 = b.1 then throw (.sameCollider a.1)
  else match (← get).find? a.1 b.1 with
    | some h => return h
    | none =>
      let c ← MonadExcept.ofExcept ((← get).build a b)
      let h ← modifyGet (·.allocate c)
      modify fun r ↦ { r with handles := r.handles.insert (.of a.1 b.1) h }
      return h

def destroy (h : Handle) : EStateM Error (Registry α) (Contact α) := do
  let _ ← fetch h
  match ← vacate h.index with
  | none => throw (.staleHandle h)
  | some c =>
    modify fun r ↦ { r with handles := r.handles.erase c.pair }
    modify fun r ↦ { r with free := h.index :: r.free }
    return c

def reset (h : Handle) (a b : ColliderId × Collider α) : EStateM Error (Registry α) Unit := do
  if a.1 = b.1 then throw (.sameCollider a.1)
  else
    let old ← fetch h
    let key := Pair.of a.1 b.1
    if key ≠ old.pair ∧ (← get).handles.contains key then throw (.pairTaken key.lo key.hi)
    else
      let c ← MonadExcept.ofExcept ((← get).build a b)
      let _ ← fetch h
      modify (·.setContact h.index c)
      modify (·.modify h (·.clearHistory))
      modify fun r ↦ { r with handles := r.handles.erase old.pair }
      modify fun r ↦ { r with handles := r.handles.insert key h }

def remix (h : Handle) (colliders : Array (Collider α)) : EStateM Error (Registry α) Unit := do
  let c ← fetch h
  match colliders[c.colliderA]? with
  | none => throw (.noCollider c.colliderA)
  | some a =>
    match colliders[c.colliderB]? with
    | none => throw (.noCollider c.colliderB)
    | some b =>
      modify fun r ↦ r.modify h ({ · with
        friction := r.frictionMixing.mix a.material.friction b.material.friction })
      modify fun r ↦ r.modify h ({ · with
        restitution := r.restitutionMixing.mix a.material.restitution b.material.restitution })

/-! ## All or nothing -/

section

variable {r : Registry α} {h : Handle} {c : Contact α}

omit [Scalar α] in
theorem run_fetch_of_some (hc : r.get? h = some c) : (fetch h).run r = .ok c r := by
  simp [fetch, hc]

omit [Scalar α] in
theorem run_fetch_of_none (hc : r.get? h = none) :
    (fetch h).run r = .error (.staleHandle h) r := by
  simp [fetch, hc]

end

theorem run_create (a b : ColliderId × Collider α) (r : Registry α) :
    (create a b).run r = allOrNothing r (r.create a b) := by
  by_cases hne : a.1 = b.1
  · simp only [create, Registry.create, if_pos hne, run_throw, allOrNothing]
  · cases hf : r.find? a.1 b.1 with
    | some h =>
      simp only [create, Registry.create, if_neg hne, EStateM.run_bind, EStateM.run_get, hf,
        EStateM.run_pure, allOrNothing]
    | none =>
      cases hb : r.build a b with
      | error e =>
        simp only [create, Registry.create, if_neg hne, EStateM.run_bind, EStateM.run_get, hf, hb,
          run_ofExcept_error]
        rfl
      | ok c =>
        simp only [create, Registry.create, if_neg hne, EStateM.run_bind, EStateM.run_get, hf, hb,
          run_ofExcept_ok, EStateM.run_modifyGet, EStateM.run_modify, EStateM.run_pure]
        rfl

omit [Scalar α] in
theorem run_destroy (h : Handle) (r : Registry α) :
    (destroy h).run r = allOrNothing r (r.destroy h) := by
  cases hc : r.get? h with
  | none =>
    simp only [destroy, Registry.destroy, hc, EStateM.run_bind, run_fetch_of_none, allOrNothing]
  | some c =>
    -- The slot of a live contact is not empty.
    have hslot := Registry.get?_eq_some_iff.1 hc
    simp only [destroy, Registry.destroy, hc, EStateM.run_bind, run_fetch_of_some hc, vacate,
      EStateM.run_modifyGet, hslot, Option.bind_some, EStateM.run_modify, EStateM.run_pure,
      allOrNothing]

theorem run_reset (h : Handle) (a b : ColliderId × Collider α) (r : Registry α) :
    (reset h a b).run r = allOrNothing r ((r.reset h a b).map ((), ·)) := by
  by_cases hne : a.1 = b.1
  · simp only [reset, Registry.reset, if_pos hne, run_throw, Except.map, allOrNothing]
  · cases hc : r.get? h with
    | none =>
      simp only [reset, Registry.reset, if_neg hne, hc, EStateM.run_bind, run_fetch_of_none hc,
        Except.map, allOrNothing]
    | some old =>
      by_cases ht : .of a.1 b.1 ≠ old.pair ∧ r.handles.contains (.of a.1 b.1)
      · simp only [reset, Registry.reset, if_neg hne, hc, EStateM.run_bind, run_fetch_of_some hc,
          EStateM.run_get, if_pos ht, run_throw, Except.map, allOrNothing]
      · cases hb : r.build a b with
        | error e =>
          simp only [reset, Registry.reset, if_neg hne, hc, EStateM.run_bind, run_fetch_of_some hc,
            EStateM.run_get, if_neg ht, hb, run_ofExcept_error]
          rfl
        | ok c =>
          simp only [reset, Registry.reset, if_neg hne, hc, EStateM.run_bind, run_fetch_of_some hc,
            EStateM.run_get, if_neg ht, hb, run_ofExcept_ok, EStateM.run_modify,
            Registry.modify_setContact hc]
          rfl

theorem run_remix (h : Handle) (colliders : Array (Collider α)) (r : Registry α) :
    (remix h colliders).run r = allOrNothing r ((r.remix h colliders).map ((), ·)) := by
  cases hc : r.get? h with
  | none =>
    simp only [remix, Registry.remix, hc, EStateM.run_bind, run_fetch_of_none hc, Except.map,
      allOrNothing]
  | some c =>
    cases ha : colliders[c.colliderA]? with
    | none =>
      simp only [remix, Registry.remix, hc, EStateM.run_bind, run_fetch_of_some hc, ha, run_throw,
        Except.map, allOrNothing]
    | some a =>
      cases hb : colliders[c.colliderB]? with
      | none =>
        simp only [remix, Registry.remix, hc, EStateM.run_bind, run_fetch_of_some hc, ha, hb,
          run_throw, Except.map, allOrNothing]
      | some b =>
        simp only [remix, Registry.remix, hc, EStateM.run_bind, run_fetch_of_some hc, ha, hb,
          EStateM.run_modify, Registry.modify_of_some hc, Registry.modify_setContact hc, Except.map,
          allOrNothing]
        rfl

end InPlace

end PlanarDynamics
