import PlanarDynamics.Contact.Basic
import PlanarDynamics.Settings
import Std.Data.HashMap

/-!
# The contact registry

The live contacts, at most one for each pair of colliders. A contact is reached by a handle, which
names its slot and the generation of the slot; it goes stale when the contact is destroyed, though
the slot is used again. The slot vacated last is used first, and contacts are listed in the order
of their slots.
-/

namespace PlanarDynamics

structure Slot (α : Type) where
  /-- How often the slot has been vacated. -/
  generation : UInt32
  contact? : Option (Contact α)

/-- The generation of the next contact in the slot. A slot that is occupied would be vacated
first. -/
def Slot.next {α : Type} (s : Slot α) : UInt32 :=
  match s.contact? with
  | none => s.generation
  | some _ => s.generation + 1

@[simp] theorem Slot.next_vacant {α : Type} (generation : UInt32) :
    (⟨generation, none⟩ : Slot α).next = generation := rfl

structure Registry (α : Type) where
  rules : RuleTable α
  frictionMixing : Mixing
  restitutionMixing : Mixing
  slots : Array (Slot α)
  /-- The vacant slots, the one vacated last first. -/
  free : List Nat
  handles : Std.HashMap Pair Handle

namespace Registry

variable {α : Type} [Scalar α]

def empty (rules : RuleTable α) (frictionMixing restitutionMixing : Mixing) : Registry α where
  rules := rules
  frictionMixing := frictionMixing
  restitutionMixing := restitutionMixing
  slots := #[]
  free := []
  handles := ∅

/-- An empty registry with the standard rules. -/
def ofSettings (s : WorldSettings α) : Registry α :=
  empty .standard s.frictionMixing s.restitutionMixing

/-! ## Looking up -/

/-- The contact that a handle was issued for, while it lives. -/
def get? (r : Registry α) (h : Handle) : Option (Contact α) :=
  match r.slots[h.index]? with
  | some s => if s.generation = h.generation then s.contact? else none
  | none => none

/-- The handle of the contact of two colliders, in either order. -/
def find? (r : Registry α) (a b : ColliderId) : Option Handle := r.handles[Pair.of a b]?

/-- The live contacts in the order of their slots. -/
def entries (r : Registry α) : List (Handle × Contact α) :=
  r.slots.toList.zipIdx.filterMap fun (s, i) ↦ s.contact?.map (⟨i, s.generation⟩, ·)

/-- The contacts of a collider, in the order of their slots. -/
def contactsOf (r : Registry α) (c : ColliderId) : List Handle :=
  (r.entries.filter (·.2.involves c)).map (·.1)

def size (r : Registry α) : Nat := r.handles.size

def isEmpty (r : Registry α) : Bool := r.handles.isEmpty

/-- The number of slots, occupied or not. -/
def capacity (r : Registry α) : Nat := r.slots.size

/-! ## Changing -/

/-- Replaces what a slot holds, and leaves its generation. -/
def setContact (r : Registry α) (i : Nat) (c : Contact α) : Registry α :=
  { r with slots := r.slots.modify i fun s ↦ { s with contact? := some c } }

/-- Changes a live contact. Its colliders must stay the same. -/
def modify (r : Registry α) (h : Handle) (f : Contact α → Contact α) : Registry α :=
  match r.get? h with
  | some c => r.setContact h.index (f c)
  | none => r

/-- Changes all live contacts. -/
def map (r : Registry α) (f : Contact α → Contact α) : Registry α :=
  { r with slots := r.slots.map fun s ↦ { s with contact? := s.contact?.map f } }

/-- A contact for two colliders, in the order of the rule for their shapes. -/
def build (r : Registry α) (a b : ColliderId × Collider α) : Except Error (Contact α) := do
  let rule ← r.rules.lookup a.2.kind b.2.kind
  let (a, b) := if rule.primary then (a, b) else (b, a)
  Contact.ofRule rule a b (r.frictionMixing.mix a.2.material.friction b.2.material.friction)
    (r.restitutionMixing.mix a.2.material.restitution b.2.material.restitution)

/-- Puts a contact into the slot vacated last, or into a new one. -/
def allocate (r : Registry α) (c : Contact α) : Handle × Registry α :=
  match r.free with
  | i :: free =>
    let generation := (r.slots[i]?.map (·.next)).getD 0
    (⟨i, generation⟩,
      { r with slots := r.slots.modify i fun _ ↦ ⟨generation, some c⟩, free })
  | [] => (⟨r.slots.size, 0⟩, { r with slots := r.slots.push ⟨0, some c⟩ })

/-- The contact of two different colliders, made if there is none. -/
def create (r : Registry α) (a b : ColliderId × Collider α) :
    Except Error (Handle × Registry α) :=
  if a.1 = b.1 then .error (.sameCollider a.1)
  else match r.find? a.1 b.1 with
    | some h => .ok (h, r)
    | none => do
      let c ← r.build a b
      let (h, r) := r.allocate c
      return (h, { r with handles := r.handles.insert (.of a.1 b.1) h })

/-- Takes a contact out and returns it as it was. -/
def destroy (r : Registry α) (h : Handle) : Except Error (Contact α × Registry α) :=
  match r.get? h with
  | none => .error (.staleHandle h)
  | some c => .ok (c, { r with
      slots := r.slots.modify h.index fun s ↦ ⟨s.generation + 1, none⟩
      free := h.index :: r.free
      handles := r.handles.erase c.pair })

/-- Gives a contact to another pair of colliders, without its history. Its handle stays valid. -/
def reset (r : Registry α) (h : Handle) (a b : ColliderId × Collider α) :
    Except Error (Registry α) :=
  if a.1 = b.1 then .error (.sameCollider a.1)
  else match r.get? h with
    | none => .error (.staleHandle h)
    | some old =>
      let key := Pair.of a.1 b.1
      if key ≠ old.pair ∧ r.handles.contains key then .error (.pairTaken key.lo key.hi)
      else do
        let c ← r.build a b
        return { (r.setContact h.index c.clearHistory) with
          handles := (r.handles.erase old.pair).insert key h }

/-- Combines the materials of a contact's colliders anew. -/
def remix (r : Registry α) (h : Handle) (colliders : Array (Collider α)) :
    Except Error (Registry α) :=
  match r.get? h with
  | none => .error (.staleHandle h)
  | some c =>
    match colliders[c.colliderA]?, colliders[c.colliderB]? with
    | none, _ => .error (.noCollider c.colliderA)
    | some _, none => .error (.noCollider c.colliderB)
    | some a, some b =>
      .ok (r.setContact h.index (c.mix r.frictionMixing r.restitutionMixing a.material b.material))

end Registry

end PlanarDynamics
