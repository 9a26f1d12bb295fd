import Mathlib.Data.List.Induction
import Mathlib.Order.Bounds.Basic
import PlanarDynamics.Proofs.Registry.Generation

/-!
# Slots are used again

A slot is taken when a contact is created and vacated when it is destroyed.  Requests that are
refused, and those that change a contact where it is, do neither.  `Registry.slotLog` writes this
down from the answers that a caller gets, and the stack of vacant slots is what the log leaves open:
`Registry.Wf.free_run`.

So no slot is lost.  There are as many slots as there have been contacts at one time, and a new
contact goes where a contact was destroyed last: `Registry.slots_reused_run`.
-/

namespace PlanarDynamics

/-! ## Logs of slots -/

/-- What happens to slots. -/
inductive SlotEvent where
  | taken (i : Nat)
  | vacated (i : Nat)

namespace SlotEvent

variable {log : List SlotEvent} {i : Nat}

/-- The slot has been vacated, and not taken since. -/
def Vacant (log : List SlotEvent) (i : Nat) : Prop :=
  ∃ earlier later, log = earlier ++ vacated i :: later ∧ taken i ∉ later

/-- Of the slots that have been vacated and not taken since, the one that was vacated last. -/
def LastVacant (log : List SlotEvent) (i : Nat) : Prop :=
  ∃ earlier later, log = earlier ++ vacated i :: later ∧ taken i ∉ later ∧ ∀ j, ¬ Vacant later j

/-- Keeps count of vacant slots. -/
def adjust (vacant : List Nat) : SlotEvent → List Nat
  | taken i => vacant.filter (· ≠ i)
  | vacated i => i :: vacant

/-- The vacant slots, the one vacated last first. -/
def stack (log : List SlotEvent) : List Nat := log.foldl adjust []

theorem stack_concat (log : List SlotEvent) (e : SlotEvent) :
    stack (log ++ [e]) = adjust (stack log) e := by
  rw [stack, List.foldl_append]
  rfl

theorem mem_foldl_adjust {vacant : List Nat} (hi : i ∈ vacant) (h : taken i ∉ log) :
    i ∈ log.foldl adjust vacant := by
  induction log generalizing vacant with
  | nil => exact hi
  | cons e log ih =>
    rw [List.mem_cons, not_or] at h
    refine ih ?_ h.2
    cases e with
    | taken j =>
      have hne : i ≠ j := fun he ↦ h.1 (congrArg taken he)
      simp [adjust, hi, hne]
    | vacated j => exact List.mem_cons_of_mem j hi

theorem Vacant.mem_stack (h : Vacant log i) : i ∈ stack log := by
  obtain ⟨earlier, later, rfl, hi⟩ := h
  rw [stack, List.foldl_append, List.foldl_cons]
  exact mem_foldl_adjust List.mem_cons_self hi

/-- What lies above a slot in the stack has been vacated later. -/
theorem exists_vacated_of_stack {above below : List Nat} (h : stack log = above ++ i :: below) :
    ∃ earlier later, log = earlier ++ vacated i :: later ∧ taken i ∉ later ∧
      stack later = above := by
  induction log using List.reverseRecOn generalizing above below with
  | nil => simp [stack] at h
  | append_singleton log e ih =>
    rw [stack_concat] at h
    cases e with
    | taken j =>
      obtain ⟨l, m, hlog, rfl, hm⟩ := List.filter_eq_append_iff.1 h
      obtain ⟨k, below', rfl, hk, hij, -⟩ := List.filter_eq_cons_iff.1 hm
      rw [← List.append_assoc] at hlog
      obtain ⟨earlier, later, rfl, hi, hlater⟩ := ih hlog
      have hne : i ≠ j := by simpa using hij
      refine ⟨earlier, later ++ [taken j], by simp, by simp [hi, hne], ?_⟩
      -- What was above the slot is still above it, but for the slot that has been taken.
      have hnone : k.filter (· ≠ j) = [] := List.filter_eq_nil_iff.2 hk
      rw [stack_concat, hlater, adjust, List.filter_append, hnone, List.append_nil]
    | vacated j =>
      rcases List.cons_eq_append_iff.1 h with ⟨rfl, he⟩ | ⟨above', rfl, hlog⟩
      · obtain ⟨rfl, -⟩ := List.cons.inj he
        exact ⟨log, [], rfl, List.not_mem_nil, rfl⟩
      · obtain ⟨earlier, later, rfl, hi, hlater⟩ := ih hlog
        refine ⟨earlier, later ++ [vacated j], by simp, by simp [hi], ?_⟩
        rw [stack_concat, hlater, adjust]

theorem not_vacant_of_stack (h : stack log = []) (j : Nat) : ¬ Vacant log j := by
  intro hj
  have := hj.mem_stack
  rw [h] at this
  cases this

theorem lastVacant_of_stack {below : List Nat} (h : stack log = i :: below) :
    LastVacant log i := by
  obtain ⟨earlier, later, hlog, hi, hlater⟩ :=
    exists_vacated_of_stack (show stack log = [] ++ i :: below from h)
  exact ⟨earlier, later, hlog, hi, not_vacant_of_stack hlater⟩

end SlotEvent

namespace Registry

/-! ## Where a contact goes -/

section Enroll

variable {α : Type} {r : Registry α} {i : Nat} {below : List Nat}

/-- While slots are vacant, the first of them is taken. -/
theorem enroll_of_free_cons (hf : r.free = i :: below) (c : Contact α) :
    (r.allocate c).1.index = i ∧ (r.enroll c).free = below ∧
      (r.enroll c).capacity = r.capacity := by
  simp [enroll, allocate, hf, capacity]

/-- Where none is, there is one slot more. -/
theorem enroll_of_free_nil (hf : r.free = []) (c : Contact α) :
    (r.allocate c).1.index = r.capacity ∧ (r.enroll c).free = [] ∧
      (r.enroll c).capacity = r.capacity + 1 := by
  simp [enroll, allocate, hf, capacity]

namespace Wf

theorem size_le_capacity (hr : r.Wf) : r.size ≤ r.capacity := by
  rw [hr.capacity_eq]
  exact Nat.le_add_right _ _

theorem exists_contact (hr : r.Wf) (hf : r.free = []) (hi : i < r.capacity) :
    ∃ h c, h.index = i ∧ r.get? h = some c := by
  have hmem := hr.slots_perm.mem_iff.2 (List.mem_range.2 hi)
  rw [hf, List.append_nil, List.mem_map] at hmem
  obtain ⟨⟨h, c⟩, he, rfl⟩ := hmem
  exact ⟨h, c, rfl, mem_entries.1 he⟩

/-- A contact that is put in takes the slot that it gets off the stack. -/
theorem free_enroll (hr : r.Wf) (c : Contact α) :
    (r.enroll c).free = SlotEvent.adjust r.free (.taken (r.allocate c).1.index) := by
  have hnodup := hr.free_nodup
  cases hf : r.free with
  | nil => rw [(enroll_of_free_nil hf c).2.1, SlotEvent.adjust, List.filter_nil]
  | cons i below =>
    obtain ⟨hindex, hfree, -⟩ := enroll_of_free_cons hf c
    rw [hf, List.nodup_cons] at hnodup
    have hbelow : ∀ j ∈ below, j ≠ i := fun j hj he ↦ hnodup.1 (he ▸ hj)
    rw [hfree, hindex, SlotEvent.adjust, List.filter_cons_of_neg (by simp)]
    exact (List.filter_eq_self.2 (by simpa using hbelow)).symm

end Wf

end Enroll

variable {α : Type} [Scalar α] {r : Registry α}

/-! ## What a run does to slots -/

/-- The slot that a request takes or vacates, going by its answer.  A contact that is there already
is found, and takes no slot. -/
def slotEvent? (r : Registry α) : Request α → Option SlotEvent
  | .create a b =>
    if (r.find? a.1 b.1).isSome then none
    else (r.create a b).toOption.map fun x ↦ .taken x.1.index
  | .destroy h => (r.destroy h).toOption.map fun _ ↦ .vacated h.index
  | .reset _ _ _ => none
  | .remix _ _ => none
  | .change _ _ => none

/-- What happens to slots in a run. -/
def slotLog (r : Registry α) : List (Request α) → List SlotEvent
  | [] => []
  | q :: qs => (r.slotEvent? q).toList ++ (r.act q).slotLog qs

theorem act_create {a b : ColliderId × Collider α} {h : Handle} {r' : Registry α}
    (hx : r.create a b = .ok (h, r')) : r.act (.create a b) = r' := by
  rw [act, hx]
  rfl

theorem act_destroy {h : Handle} {c : Contact α} {r' : Registry α}
    (hd : r.destroy h = .ok (c, r')) : r.act (.destroy h) = r' := by
  rw [act, hd]
  rfl

theorem Wf.free_act (hr : r.Wf) (q : Request α) :
    (r.act q).free = (r.slotEvent? q).toList.foldl SlotEvent.adjust r.free := by
  cases q with
  | create a b =>
    rw [act, slotEvent?]
    cases hx : r.create a b with
    | error e => split <;> rfl
    | ok x =>
      obtain ⟨h, r'⟩ := x
      rcases create_eq_ok_iff.1 hx with ⟨-, ⟨hfind, rfl⟩ | ⟨hfind, c, -, rfl, rfl⟩⟩
      · rw [hfind]
        rfl
      · rw [hfind]
        exact hr.free_enroll c
  | destroy h =>
    rw [act, slotEvent?]
    cases hx : r.destroy h with
    | error e => rfl
    | ok x =>
      obtain ⟨-, hr'⟩ := destroy_eq_ok_iff.1 hx
      exact congrArg free hr'
  | reset h a b =>
    rw [act]
    cases hx : r.reset h a b with
    | error e => rfl
    | ok r' =>
      obtain ⟨-, old, c, -, -, -, rfl⟩ := reset_eq_ok_iff.1 hx
      rfl
  | remix h colliders =>
    rw [act]
    cases hx : r.remix h colliders with
    | error e => rfl
    | ok r' =>
      obtain ⟨c, a, b, -, -, -, rfl⟩ := remix_eq_ok_iff.1 hx
      rfl
  | change h how =>
    rw [act, Registry.modify]
    cases r.get? h <;> rfl

/-- The vacant slots are those that the log leaves open. -/
theorem Wf.free_run (hr : r.Wf) (requests : List (Request α)) :
    (r.run requests).free = (r.slotLog requests).foldl SlotEvent.adjust r.free := by
  induction requests generalizing r with
  | nil => rfl
  | cons q qs ih =>
    rw [run_cons, ih ((outcome_act r q).wf hr), hr.free_act, slotLog, List.foldl_append]

/-! ## How many slots there are -/

/-- Slots are added only where none is vacant, before or after. -/
theorem Outcome.capacity {q : Request α} {r' : Registry α} (ho : r.Outcome q r') :
    r'.capacity = r.capacity ∨ r'.free = [] ∧ r.capacity ≤ r'.capacity := by
  cases ho with
  | unchanged => exact .inl rfl
  | @enrolled a b c =>
    cases hf : r.free with
    | nil =>
      obtain ⟨-, hfree, hcapacity⟩ := enroll_of_free_nil hf c
      exact .inr ⟨hfree, hcapacity ▸ Nat.le_succ _⟩
    | cons i below => exact .inl (enroll_of_free_cons hf c).2.2
  | vacated hd =>
    obtain ⟨-, rfl⟩ := destroy_eq_ok_iff.1 hd
    exact .inl Array.size_modify
  | rebound => exact .inl Array.size_modify
  | remixed => exact .inl Array.size_modify
  | changed => exact .inl Array.size_modify

/-- There are more slots only if there would be too few. -/
theorem Wf.capacity_act (hr : r.Wf) (q : Request α) :
    (r.act q).capacity = max (r.act q).size r.capacity := by
  have hr' : (r.act q).Wf := (outcome_act r q).wf hr
  obtain hsame | ⟨hfree, hle⟩ := (outcome_act r q).capacity
  · rw [← hsame, max_eq_right hr'.size_le_capacity]
  · have hfull := hr'.capacity_eq
    rw [hfree, List.length_nil, Nat.add_zero] at hfull
    rw [← hfull, max_eq_left hle]

/-- The numbers of contacts there are in the course of a run, its start and its end included. -/
def sizes (r : Registry α) (requests : List (Request α)) : Set Nat :=
  {n | ∃ before, before <+: requests ∧ (r.run before).size = n}

theorem run_concat (r : Registry α) (qs : List (Request α)) (q : Request α) :
    r.run (qs ++ [q]) = (r.run qs).act q := by
  rw [run, List.foldl_append]
  rfl

theorem sizes_concat (r : Registry α) (qs : List (Request α)) (q : Request α) :
    r.sizes (qs ++ [q]) = insert ((r.run qs).act q).size (r.sizes qs) := by
  ext n
  rw [← run_concat]
  simp only [sizes, List.prefix_concat_iff, Set.mem_ofPred_eq, Set.mem_insert_iff]
  constructor
  · rintro ⟨before, rfl | hbefore, rfl⟩
    · exact .inl rfl
    · exact .inr ⟨before, hbefore, rfl⟩
  · rintro (rfl | ⟨before, hbefore, rfl⟩)
    · exact ⟨_, .inl rfl, rfl⟩
    · exact ⟨before, .inr hbefore, rfl⟩

theorem Wf.isGreatest_capacity_run (hr : r.Wf) (hfull : r.capacity = r.size)
    (requests : List (Request α)) :
    IsGreatest (r.sizes requests) (r.run requests).capacity := by
  induction requests using List.reverseRecOn with
  | nil => simp [sizes, hfull]
  | append_singleton qs q ih =>
    rw [sizes_concat, run_concat, (hr.run qs).capacity_act]
    exact ih.insert _

/-- **Slots are never lost.** After every run there are as many slots as there have been contacts at
some time, and never were there more contacts.  A contact that is created takes the slot that was
vacated last, of those that have not been taken since.  Only if each slot has a contact, so that no
such slot is left, there is one slot more. -/
theorem slots_reused_run (rules : RuleTable α) (friction restitution : Mixing)
    (requests : List (Request α)) :
    let r₀ := empty rules friction restitution
    let r := r₀.run requests
    IsGreatest (r₀.sizes requests) r.capacity ∧
    ∀ a b h r', r.find? a.1 b.1 = none → r.create a b = .ok (h, r') →
      (SlotEvent.LastVacant (r₀.slotLog requests) h.index ∧ r'.capacity = r.capacity) ∨
      ((∀ i < r.capacity, ∃ h c, h.index = i ∧ r.get? h = some c) ∧
        (∀ i, ¬ SlotEvent.Vacant (r₀.slotLog requests) i) ∧
        h.index = r.capacity ∧ r'.capacity = r.capacity + 1) := by
  intro r₀ r
  have hr₀ : r₀.Wf := wf_empty rules friction restitution
  have hr : r.Wf := hr₀.run requests
  have hstack : r.free = SlotEvent.stack (r₀.slotLog requests) := hr₀.free_run requests
  refine ⟨hr₀.isGreatest_capacity_run rfl requests, fun a b h r' hfind hx ↦ ?_⟩
  obtain ⟨-, ⟨hf, -⟩ | ⟨-, c, -, rfl, rfl⟩⟩ := create_eq_ok_iff.1 hx
  · rw [hfind] at hf
    cases hf
  cases hfree : r.free with
  | nil =>
    obtain ⟨hindex, -, hcapacity⟩ := enroll_of_free_nil hfree c
    refine .inr ⟨fun i ↦ hr.exists_contact hfree, ?_, hindex, hcapacity⟩
    exact SlotEvent.not_vacant_of_stack (hstack.symm.trans hfree)
  | cons i below =>
    obtain ⟨hindex, -, hcapacity⟩ := enroll_of_free_cons hfree c
    refine .inl ⟨?_, hcapacity⟩
    rw [hindex]
    exact SlotEvent.lastVacant_of_stack (hstack.symm.trans hfree)

/-- Two contacts are made, and destroyed in the same order.  The next one goes where the second
was. -/
theorem second_slot_reused :
    let r₀ : Registry Float := empty .standard .max .max
    let requests : List (Request Float) := [.create (0, .round 0) (1, .round 1),
      .create (1, .round 1) (2, .round 2), .destroy ⟨0, 0⟩, .destroy ⟨1, 0⟩]
    ∃ r r', r₀.run requests = r ∧ r.capacity = 2 ∧ r.find? 0 1 = none ∧
      r.create (0, .round 0) (1, .round 1) = .ok (⟨1, 1⟩, r') ∧
      SlotEvent.LastVacant (r₀.slotLog requests) 1 ∧ r'.capacity = 2 := by
  intro r₀ requests
  obtain ⟨c, hb⟩ : ∃ c, r₀.build (0, .round 0) (1, .round 1) = .ok c := exists_build rfl rfl rfl
  obtain ⟨c', hb'⟩ : ∃ c, r₀.build (1, .round 1) (2, .round 2) = .ok c := exists_build rfl rfl rfl
  have hp : c.pair = .of 0 1 := (of_build_eq_ok hb).2.1
  have hp' : c'.pair = .of 1 2 := (of_build_eq_ok hb').2.1
  have hne : Pair.of 0 1 ≠ Pair.of 1 2 := by decide
  let r₁ := r₀.enroll c
  let r₂ := r₁.enroll c'
  let r₃ : Registry Float := { r₂ with
    slots := #[⟨1, none⟩, ⟨0, some c'⟩]
    free := [0]
    handles := r₂.handles.erase c.pair }
  let r : Registry Float := { r₃ with
    slots := #[⟨1, none⟩, ⟨1, none⟩]
    free := [1, 0]
    handles := r₃.handles.erase c'.pair }
  have h₁ : r₀.create (0, .round 0) (1, .round 1) = .ok (⟨0, 0⟩, r₁) := by
    have hfind : r₀.find? 0 1 = none := by simp [r₀, find?, empty]
    exact create_eq_ok_iff.2 ⟨by decide, .inr ⟨hfind, c, hb, rfl, rfl⟩⟩
  have h₂ : r₁.create (1, .round 1) (2, .round 2) = .ok (⟨1, 0⟩, r₂) := by
    have hfind : r₁.find? 1 2 = none := by simp [r₁, find?, handles_enroll, hp, hne, r₀, empty]
    exact create_eq_ok_iff.2 ⟨by decide, .inr ⟨hfind, c', hb', rfl, rfl⟩⟩
  have h₃ : r₂.destroy ⟨0, 0⟩ = .ok (c, r₃) := destroy_eq_ok_iff.2 ⟨rfl, rfl⟩
  have h₄ : r₃.destroy ⟨1, 0⟩ = .ok (c', r) := destroy_eq_ok_iff.2 ⟨rfl, rfl⟩
  have hrun : r₀.run requests = r := by
    rw [run_cons, run_cons, run_cons, run_cons, run_nil, act_create h₁, act_create h₂,
      act_destroy h₃, act_destroy h₄]
  have hfind : r.find? 0 1 = none := by simp [r, r₃, find?, hp, hp', hne.symm]
  have hx : r.create (0, .round 0) (1, .round 1) = .ok (⟨1, 1⟩, r.enroll c) :=
    create_eq_ok_iff.2 ⟨by decide, .inr ⟨hfind, c, hb, rfl, rfl⟩⟩
  obtain ⟨-, hreused⟩ := slots_reused_run .standard .max .max requests
  rw [hrun] at hreused
  obtain ⟨hlast, hcapacity⟩ | ⟨-, -, -, hcapacity⟩ :=
    hreused (0, .round 0) (1, .round 1) ⟨1, 1⟩ (r.enroll c) hfind hx
  · exact ⟨r, r.enroll c, hrun, rfl, hfind, hx, hlast, hcapacity⟩
  · cases hcapacity

end Registry

end PlanarDynamics
