import PlanarDynamics.Contact.Impulse
import PlanarDynamics.Proofs.Registry.View

/-!
# Runs of a registry

All that a caller may do to a registry, as data: requests, each granted or refused, and changes to a
single contact through its handle.  `Registry.Outcome` lists the ways in which a request can go, and
every invariant of a run is checked against that list.  The first of them is `Registry.Wf`, so the
slots, the stack of vacant slots and the map of handles agree after every run.  Counting follows:
`Registry.parts_agree_run`.
-/

namespace PlanarDynamics

namespace Contact

variable {α : Type} [Scalar α]

/-- What callers do to a contact in place, and what the steps of a world do. -/
inductive Change (α : Type) where
  | setEnabled (enabled : Bool)
  | flag
  | update (shapeA : Shape α) (poseA : Pose α) (shapeB : Shape α) (poseB : Pose α)
  | unflag
  | writeImpulses (i : ContactImpulse α)

def change (c : Contact α) : Change α → Contact α
  | .setEnabled enabled => c.setEnabled enabled
  | .flag => c.flag
  | .update shapeA poseA shapeB poseB => (c.update shapeA poseA shapeB poseB).1
  | .unflag => { c with needsFiltering := false }
  | .writeImpulses i => { c with manifold := c.manifold.writeImpulses i }

@[simp] theorem colliderA_change (c : Contact α) (how : Change α) :
    (c.change how).colliderA = c.colliderA := by
  cases how <;> rfl

@[simp] theorem colliderB_change (c : Contact α) (how : Change α) :
    (c.change how).colliderB = c.colliderB := by
  cases how <;> rfl

end Contact

namespace Registry

/-- Something that a caller does to a registry. -/
inductive Request (α : Type) where
  | create (a b : ColliderId × Collider α)
  | destroy (h : Handle)
  | reset (h : Handle) (a b : ColliderId × Collider α)
  | remix (h : Handle) (colliders : Array (Collider α))
  | change (h : Handle) (how : Contact.Change α)

variable {α : Type} [Scalar α] {r : Registry α}

/-- Carries out a request. One that is refused changes nothing. -/
def act (r : Registry α) : Request α → Registry α
  | .create a b => ((r.create a b).map (·.2)).toOption.getD r
  | .destroy h => ((r.destroy h).map (·.2)).toOption.getD r
  | .reset h a b => (r.reset h a b).toOption.getD r
  | .remix h colliders => (r.remix h colliders).toOption.getD r
  | .change h how => r.modify h (·.change how)

/-- Carries out requests one after the other. -/
def run (r : Registry α) (requests : List (Request α)) : Registry α := requests.foldl act r

@[simp] theorem run_nil : r.run [] = r := rfl

@[simp] theorem run_cons (q : Request α) (qs : List (Request α)) :
    r.run (q :: qs) = (r.act q).run qs := rfl

/-! ## The ways in which a request can go -/

/-- The registry that a request leaves behind. -/
inductive Outcome (r : Registry α) : Request α → Registry α → Prop where
  /-- The request is refused, or there is nothing to do. -/
  | unchanged {q : Request α} (hdestroy : ∀ h, q = .destroy h → r.get? h = none)
      (hchange : ∀ h how, q = .change h how → r.get? h = none) : Outcome r q r
  | enrolled {a b : ColliderId × Collider α} {c : Contact α} (hne : a.1 ≠ b.1)
      (hfind : r.find? a.1 b.1 = none) (hb : r.build a b = .ok c) :
      Outcome r (.create a b) (r.enroll c)
  | vacated {h : Handle} {c : Contact α} {r' : Registry α} (hd : r.destroy h = .ok (c, r')) :
      Outcome r (.destroy h) r'
  | rebound {h : Handle} {a b : ColliderId × Collider α} {old c : Contact α} (hne : a.1 ≠ b.1)
      (hold : r.get? h = some old) (hfind : .of a.1 b.1 = old.pair ∨ r.find? a.1 b.1 = none)
      (hb : r.build a b = .ok c) : Outcome r (.reset h a b) (r.rebind h old c)
  | remixed {h : Handle} {colliders : Array (Collider α)} {c : Contact α} {a b : Material α}
      (hc : r.get? h = some c) : Outcome r (.remix h colliders)
        (r.setContact h.index (c.mix r.frictionMixing r.restitutionMixing a b))
  | changed {h : Handle} {how : Contact.Change α} {c : Contact α} (hc : r.get? h = some c) :
      Outcome r (.change h how) (r.setContact h.index (c.change how))

theorem outcome_act (r : Registry α) (q : Request α) : r.Outcome q (r.act q) := by
  cases q with
  | create a b =>
    rw [act]
    cases hx : r.create a b with
    | error e => exact .unchanged (by rintro _ ⟨⟩) (by rintro _ _ ⟨⟩)
    | ok x =>
      obtain ⟨h, r'⟩ := x
      rcases create_eq_ok_iff.1 hx with ⟨hne, ⟨-, rfl⟩ | ⟨hfind, c, hb, -, rfl⟩⟩
      · exact .unchanged (by rintro _ ⟨⟩) (by rintro _ _ ⟨⟩)
      · exact .enrolled hne hfind hb
  | destroy h =>
    rw [act]
    cases hx : r.destroy h with
    | error e =>
      refine .unchanged ?_ (by rintro _ _ ⟨⟩)
      rintro _ ⟨⟩
      cases hc : r.get? h with
      | none => rfl
      | some c => simp [destroy, hc] at hx
    | ok x => exact .vacated hx
  | reset h a b =>
    rw [act]
    cases hx : r.reset h a b with
    | error e => exact .unchanged (by rintro _ ⟨⟩) (by rintro _ _ ⟨⟩)
    | ok r' =>
      obtain ⟨hne, old, c, hold, hfind, hb, rfl⟩ := reset_eq_ok_iff.1 hx
      exact .rebound hne hold hfind hb
  | remix h colliders =>
    rw [act]
    cases hx : r.remix h colliders with
    | error e => exact .unchanged (by rintro _ ⟨⟩) (by rintro _ _ ⟨⟩)
    | ok r' =>
      obtain ⟨c, a, b, hc, -, -, rfl⟩ := remix_eq_ok_iff.1 hx
      exact .remixed hc
  | change h how =>
    rw [act, modify]
    cases hc : r.get? h with
    | none =>
      refine .unchanged (by rintro _ ⟨⟩) ?_
      rintro _ _ ⟨⟩
      exact hc
    | some c => exact .changed hc

/-! ## The parts agree after every run -/

theorem Outcome.wf {q : Request α} {r' : Registry α} (ho : r.Outcome q r') (hr : r.Wf) :
    r'.Wf := by
  cases ho with
  | unchanged => exact hr
  | @enrolled a b c hne hfind hb =>
    obtain ⟨-, hp, hc⟩ := of_build_eq_ok hb
    refine hr.enroll (hc hne) ?_
    rw [hp]
    exact hr.find?_eq_none_iff.1 hfind
  | vacated hd => exact hr.destroy hd
  | @rebound h a b old c hne hold hfind hb =>
    obtain ⟨-, hp, hc⟩ := of_build_eq_ok hb
    refine hr.rebind hold (hc hne) fun h' k hk hkp ↦ ?_
    rw [hp] at hkp
    rcases hfind with he | hnone
    · exact hr.handle_eq hold hk (hkp.trans he)
    · exact absurd hkp (hr.find?_eq_none_iff.1 hnone h' k hk)
  | remixed hc => exact hr.setContact hc rfl rfl
  | @changed h how c hc => exact hr.setContact hc (c.colliderA_change how) (c.colliderB_change how)

theorem Wf.run (hr : r.Wf) (requests : List (Request α)) : (r.run requests).Wf := by
  induction requests generalizing r with
  | nil => exact hr
  | cons q qs ih => exact ih ((outcome_act r q).wf hr)

theorem wf_run_empty (rules : RuleTable α) (friction restitution : Mixing)
    (requests : List (Request α)) : ((empty rules friction restitution).run requests).Wf :=
  (wf_empty rules friction restitution).run requests

/-! ## Counting -/

namespace Wf

omit [Scalar α]

/-- The pairs in the map are those of the listed contacts. -/
theorem keys_perm (hr : r.Wf) : r.handles.keys.Perm (r.entries.map (·.2.pair)) := by
  have hkeys : r.handles.keys.Nodup :=
    Std.HashMap.distinct_keys.imp fun h ↦ by simpa using h
  have hpairs : (r.entries.map (·.2.pair)).Nodup := by
    refine List.Nodup.map_on ?_ (nodup_handles.of_map _)
    rintro ⟨h, c⟩ he ⟨h', c'⟩ he' hp
    rw [mem_entries] at he he'
    cases hr.handle_eq he' he hp
    rw [he] at he'
    cases he'
    rfl
  refine (List.perm_ext_iff_of_nodup hkeys hpairs).2 fun p ↦ ?_
  rw [Std.HashMap.mem_keys, Std.HashMap.mem_iff_isSome_getElem?, Option.isSome_iff_exists]
  simp only [hr.handles_eq_some_iff, List.mem_map, Prod.exists, mem_entries]

theorem size_eq (hr : r.Wf) : r.size = r.entries.length := by
  rw [size, ← Std.HashMap.length_keys, hr.keys_perm.length_eq, List.length_map]

/-- Each slot is occupied or vacant. -/
theorem slots_perm (hr : r.Wf) :
    (r.entries.map (·.1.index) ++ r.free).Perm (List.range r.slots.size) := by
  have hlive : ∀ i, i ∈ r.entries.map (·.1.index) ↔ ∃ g c, r.slots[i]? = some ⟨g, some c⟩ := by
    intro i
    simp only [List.mem_map, Prod.exists, mem_entries, get?_eq_some_iff]
    constructor
    · rintro ⟨h, c, hs, rfl⟩
      exact ⟨h.generation, c, hs⟩
    · rintro ⟨g, c, hs⟩
      exact ⟨⟨i, g⟩, c, hs, rfl⟩
  have hnodup : (r.entries.map (·.1.index) ++ r.free).Nodup := by
    refine List.nodup_append'.2 ⟨?_, hr.free_nodup, ?_⟩
    · exact List.pairwise_map.2 (pairwise_entries.imp Nat.ne_of_lt)
    · intro i hi hf
      obtain ⟨g, c, hs⟩ := (hlive i).1 hi
      obtain ⟨g', hs'⟩ := (hr.mem_free_iff i).1 hf
      rw [hs] at hs'
      cases hs'
  refine (List.perm_ext_iff_of_nodup hnodup List.nodup_range).2 fun i ↦ ?_
  rw [List.mem_append, hlive, hr.mem_free_iff, List.mem_range]
  constructor
  · rintro (⟨g, c, hs⟩ | ⟨g, hs⟩)
    · exact (Array.getElem?_eq_some_iff.1 hs).1
    · exact (Array.getElem?_eq_some_iff.1 hs).1
  · intro hi
    have hs := Array.getElem?_eq_getElem hi
    rcases hslot : r.slots[i] with ⟨g, _ | c⟩
    · exact .inr ⟨g, hslot ▸ hs⟩
    · exact .inl ⟨g, c, hslot ▸ hs⟩

theorem capacity_eq (hr : r.Wf) : r.capacity = r.size + r.free.length := by
  have hlen := hr.slots_perm.length_eq
  rw [List.length_append, List.length_map, List.length_range] at hlen
  rw [capacity, hr.size_eq, hlen]

end Wf

/-- **The parts of a registry agree after every run.** The stack of vacant slots has no duplicates
and holds the vacant slots.  The map has a pair under a handle exactly if the slot of the handle is
occupied, in the generation of the handle, by a contact of the pair; so each occupied slot has
exactly one pair.  No contact joins a collider to itself. -/
theorem parts_agree_run (rules : RuleTable α) (friction restitution : Mixing)
    (requests : List (Request α)) :
    let r := (empty rules friction restitution).run requests
    (r.free.Nodup ∧ ∀ i, i ∈ r.free ↔ ∃ g, r.slots[i]? = some ⟨g, none⟩) ∧
      (∀ (p : Pair) (h : Handle), r.handles[p]? = some h ↔
        ∃ c, r.slots[h.index]? = some ⟨h.generation, some c⟩ ∧
          .of c.colliderA c.colliderB = p) ∧
      (∀ (i : Nat) (g : UInt32) (c : Contact α), r.slots[i]? = some ⟨g, some c⟩ →
        (∃! p : Pair, ∃ h, r.handles[p]? = some h ∧ h.index = i) ∧ c.colliderA ≠ c.colliderB) ∧
      r.size = r.entries.length ∧ r.capacity = r.size + r.free.length := by
  intro r
  have hr : r.Wf := wf_run_empty rules friction restitution requests
  have hmap : ∀ (p : Pair) (h : Handle), r.handles[p]? = some h ↔
      ∃ c, r.slots[h.index]? = some ⟨h.generation, some c⟩ ∧ .of c.colliderA c.colliderB = p := by
    intro p h
    simp only [hr.handles_eq_some_iff, get?_eq_some_iff, Contact.pair]
  refine ⟨⟨hr.free_nodup, hr.mem_free_iff⟩, hmap, fun i g c hs ↦ ⟨?_, ?_⟩, hr.size_eq,
    hr.capacity_eq⟩
  · refine ⟨c.pair, ⟨⟨i, g⟩, (hmap _ _).2 ⟨c, hs, rfl⟩, rfl⟩, ?_⟩
    rintro p ⟨h, hh, rfl⟩
    obtain ⟨c', hs', rfl⟩ := (hmap p h).1 hh
    rw [hs] at hs'
    cases hs'
    rfl
  · exact hr.collider_ne ⟨i, g⟩ c (get?_eq_some_iff.2 hs)

end Registry

end PlanarDynamics
