import Mathlib.Algebra.Group.Nat.Defs
import PlanarDynamics.Proofs.Registry.Run
import PlanarDynamics.Scalar.Binary64

/-!
# Generations

A slot changes its generation when it is vacated and at no other time, so in a run its generation
goes up by the number of times that it is vacated, around the circle of 32-bit numbers.  A handle
keeps the generation in which it was issued, and its slot must be vacated to leave it.  So a handle
that has gone stale stays stale, and is not issued again, until the slot has gone once around:
`Registry.stale_run`.
-/

namespace PlanarDynamics

namespace Slot

variable {α : Type} {s s' s'' : Slot α} {m n : Nat}

/-- The slot is `n` generations further.  If that is none, it is occupied if it was. -/
structure Advances (n : Nat) (s s' : Slot α) : Prop where
  generation : s'.generation = s.generation + .ofNat n
  occupied : n = 0 → s.contact?.isSome → s'.contact?.isSome

theorem Advances.refl (s : Slot α) : s.Advances 0 s := ⟨by simp, fun _ ↦ id⟩

theorem Advances.trans (h : s.Advances m s') (h' : s'.Advances n s'') :
    s.Advances (m + n) s'' where
  generation := by
    rw [h'.generation, h.generation, UInt32.ofNat_add, UInt32.add_assoc]
  occupied hmn ho := by
    obtain ⟨hm, hn⟩ := Nat.add_eq_zero_iff.1 hmn
    exact h'.occupied hn (h.occupied hm ho)

/-- Generations come around after `2 ^ 32` steps, and not before. -/
theorem Advances.generation_ne (h : s.Advances n s') (hpos : 0 < n) (hlt : n < 2 ^ 32) :
    s'.generation ≠ s.generation := by
  intro he
  rw [h.generation] at he
  have hn := congrArg UInt32.toNat (UInt32.add_eq_left.1 he)
  rw [UInt32.toNat_ofNat_of_lt' hlt] at hn
  exact Nat.ne_of_gt hpos hn

end Slot

namespace Registry

/-! ## Slots -/

section Slots

variable {α : Type} {r : Registry α} {i : Nat} {s : Slot α} {h : Handle}

theorem slot_setContact (hs : r.slots[i]? = some s) (j : Nat) (c : Contact α) :
    ∃ s', (r.setContact j c).slots[i]? = some s' ∧ s.Advances 0 s' := by
  by_cases hj : j = i
  · refine ⟨{ s with contact? := some c }, ?_, ?_, fun _ _ ↦ rfl⟩
    · simp [setContact, Array.getElem?_modify, hj, hs]
    · simp
  · refine ⟨s, ?_, .refl s⟩
    simp [setContact, Array.getElem?_modify, hj, hs]

/-- A slot that is taken was vacant, so its generation stays. -/
theorem slot_enroll (hr : r.Wf) (hs : r.slots[i]? = some s) (c : Contact α) :
    ∃ s', (r.enroll c).slots[i]? = some s' ∧ s.Advances 0 s' := by
  cases hf : r.free with
  | nil =>
    obtain ⟨hi, -⟩ := Array.getElem?_eq_some_iff.1 hs
    refine ⟨s, ?_, .refl s⟩
    simp [enroll, allocate, hf, Array.getElem?_push, Nat.ne_of_lt hi, hs]
  | cons j free =>
    obtain ⟨g, hj⟩ := (hr.mem_free_iff j).1 (hf ▸ List.mem_cons_self)
    by_cases hij : j = i
    · subst hij
      rw [hj, Option.some.injEq] at hs
      subst hs
      refine ⟨⟨g, some c⟩, ?_, by simp, fun _ _ ↦ rfl⟩
      simp [enroll, allocate, hf, Array.getElem?_modify, hj]
    · refine ⟨s, ?_, .refl s⟩
      simp [enroll, allocate, hf, Array.getElem?_modify, hij, hs]

theorem slot_destroy (hs : r.slots[i]? = some s) {c : Contact α} {r' : Registry α}
    (hd : r.destroy h = .ok (c, r')) :
    ∃ s', r'.slots[i]? = some s' ∧ s.Advances (h.index == i).toNat s' := by
  obtain ⟨-, rfl⟩ := destroy_eq_ok_iff.1 hd
  by_cases hi : h.index = i
  · refine ⟨⟨s.generation + 1, none⟩, ?_, ?_, ?_⟩
    · simp [Array.getElem?_modify, hi, hs]
    · simp [hi]
    · simp [hi]
  · refine ⟨s, ?_, ?_⟩
    · simp [Array.getElem?_modify, hi, hs]
    · rw [beq_false_of_ne hi]
      exact .refl s

/-- Whether a request vacates the slot `i`. -/
def vacates (r : Registry α) (i : Nat) : Request α → Bool
  | .destroy h => h.index == i && (r.destroy h).isOk
  | _ => false

theorem vacates_of_destroy {c : Contact α} {r' : Registry α} (hd : r.destroy h = .ok (c, r')) :
    r.vacates i (.destroy h) = (h.index == i) := by
  simp [vacates, hd, Except.isOk, Except.toBool]

theorem vacates_of_stale {q : Request α} (hq : ∀ h, q = .destroy h → r.get? h = none) :
    r.vacates i q = false := by
  cases q with
  | destroy h => simp [vacates, destroy, hq h rfl, Except.isOk, Except.toBool]
  | _ => rfl

theorem get?_eq_none_of_generation_ne (hs : r.slots[h.index]? = some s)
    (hg : s.generation ≠ h.generation) : r.get? h = none := by
  simp [get?, hs, hg]

end Slots

variable {α : Type} [Scalar α] {r : Registry α} {i : Nat} {s : Slot α} {h : Handle}

/-! ## Counting -/

/-- How often the slot `i` is vacated in a run. -/
def vacancies (r : Registry α) (i : Nat) : List (Request α) → Nat
  | [] => 0
  | q :: qs => (r.vacates i q).toNat + (r.act q).vacancies i qs

/-- A request advances a slot by a generation if it vacates it, and else not. -/
theorem Outcome.slot {q : Request α} {r' : Registry α} (ho : r.Outcome q r') (hr : r.Wf)
    (hs : r.slots[i]? = some s) :
    ∃ s', r'.slots[i]? = some s' ∧ s.Advances (r.vacates i q).toNat s' := by
  cases ho with
  | unchanged hdestroy =>
    rw [vacates_of_stale hdestroy]
    exact ⟨s, hs, .refl s⟩
  | enrolled => exact slot_enroll hr hs _
  | vacated hd =>
    rw [vacates_of_destroy hd]
    exact slot_destroy hs hd
  | rebound => exact slot_setContact hs _ _
  | remixed => exact slot_setContact hs _ _
  | changed => exact slot_setContact hs _ _

theorem slot_run (hr : r.Wf) (hs : r.slots[i]? = some s) (requests : List (Request α)) :
    ∃ s', (r.run requests).slots[i]? = some s' ∧ s.Advances (r.vacancies i requests) s' := by
  induction requests generalizing r s with
  | nil => exact ⟨s, hs, .refl s⟩
  | cons q qs ih =>
    obtain ⟨s₁, hs₁, h₁⟩ := (outcome_act r q).slot hr hs
    obtain ⟨s₂, hs₂, h₂⟩ := ih ((outcome_act r q).wf hr) hs₁
    exact ⟨s₂, hs₂, h₁.trans h₂⟩

/-! ## Stale handles -/

/-- The handle reaches nothing, and all requests by it are refused as stale. -/
structure Stale (r : Registry α) (h : Handle) : Prop where
  get : r.get? h = none
  modify : ∀ f, r.modify h f = r
  destroy : r.destroy h = .error (.staleHandle h)
  reset : ∀ a b, a.1 ≠ b.1 → r.reset h a b = .error (.staleHandle h)
  remix : ∀ colliders, r.remix h colliders = .error (.staleHandle h)

theorem stale_of_get?_eq_none (hh : r.get? h = none) : r.Stale h where
  get := hh
  modify f := by rw [Registry.modify, hh]
  destroy := by rw [Registry.destroy, hh]
  reset a b hne := by rw [Registry.reset, if_neg hne, hh]
  remix colliders := by rw [Registry.remix, hh]

theorem get?_run_eq_none {c : Contact α} {r' : Registry α} (hd : r.destroy h = .ok (c, r'))
    (hr' : r'.Wf) {requests : List (Request α)} (hlt : 1 + r'.vacancies h.index requests < 2 ^ 32) :
    (r'.run requests).get? h = none := by
  obtain ⟨s, hs, h₁⟩ := slot_destroy (get?_eq_some_iff.1 (destroy_eq_ok_iff.1 hd).1) hd
  obtain ⟨s', hs', h₂⟩ := slot_run hr' hs requests
  rw [beq_self_eq_true, Bool.toNat_true] at h₁
  exact get?_eq_none_of_generation_ne hs' ((h₁.trans h₂).generation_ne (by omega) hlt)

/-- A slot that is to hold another contact has been vacated, so it is in another generation. -/
theorem allocate_run_ne (hr : r.Wf) {c c' : Contact α} (hc : r.get? h = some c)
    {requests : List (Request α)}
    (hlt : r.vacancies h.index requests < 2 ^ 32) : ((r.run requests).allocate c').1 ≠ h := by
  intro he
  obtain ⟨s, hs, ha⟩ := slot_run hr (get?_eq_some_iff.1 hc) requests
  have hr := hr.run requests
  -- A slot that has not been vacated still holds a contact for `h`, and is not given away.
  have hvacated : r.vacancies h.index requests ≠ 0 := by
    intro hv
    have hg : s.generation = h.generation := by
      rw [ha.generation, hv]
      simp
    obtain ⟨k, hk⟩ := Option.isSome_iff_exists.1 (ha.occupied hv rfl)
    have hstale : (r.run requests).get? h = none := he ▸ get?_allocate_handle hr c'
    simp [get?, hs, hg, hk] at hstale
  have hne := ha.generation_ne (Nat.pos_of_ne_zero hvacated) hlt
  obtain ⟨s', hs', ha'⟩ := slot_enroll hr hs c'
  have hnew : ((r.run requests).enroll c').get? h = some c' := by
    rw [get?_enroll hr, if_pos he.symm]
  rw [get?_eq_some_iff, hs', Option.some.injEq] at hnew
  refine hne ?_
  rw [show h.generation = s'.generation by rw [hnew], ha'.generation]
  simp

/-- **Stale handles stay stale, and no handle is issued twice**, until the slot has been vacated
`2 ^ 32` times.  It is enough to count from the destruction of the contact, for the first, and from
the one creation to the other, for the second. -/
theorem stale_run (rules : RuleTable α) (friction restitution : Mixing)
    (before after : List (Request α)) :
    let r := (empty rules friction restitution).run before
    (∀ h c r', r.destroy h = .ok (c, r') → 1 + r'.vacancies h.index after < 2 ^ 32 →
      (r'.run after).Stale h) ∧
    (∀ a b h r', r.find? a.1 b.1 = none → r.create a b = .ok (h, r') →
      r'.vacancies h.index after < 2 ^ 32 → ∀ a' b' h' r'',
        (r'.run after).find? a'.1 b'.1 = none → (r'.run after).create a' b' = .ok (h', r'') →
          h' ≠ h) := by
  intro r
  have hr : r.Wf := wf_run_empty rules friction restitution before
  constructor
  · intro h c r' hd hlt
    have hr' : r'.Wf := (Outcome.vacated hd).wf hr
    exact stale_of_get?_eq_none (get?_run_eq_none hd hr' hlt)
  · intro a b h r' hfind hx hlt a' b' h' r'' hfind' hx'
    obtain ⟨hne, ⟨hf, -⟩ | ⟨-, c, hb, rfl, rfl⟩⟩ := create_eq_ok_iff.1 hx
    · rw [hfind] at hf
      cases hf
    obtain ⟨-, ⟨hf', -⟩ | ⟨-, c', -, rfl, -⟩⟩ := create_eq_ok_iff.1 hx'
    · rw [hfind'] at hf'
      cases hf'
    have hr' : (r.enroll c).Wf := (Outcome.enrolled hne hfind hb).wf hr
    have hc : (r.enroll c).get? (r.allocate c).1 = some c := by rw [get?_enroll hr, if_pos rfl]
    exact allocate_run_ne hr' hc hlt

end Registry

/-- A round collider of a body. -/
def Collider.round (b : BodyId) : Collider Float :=
  ⟨.circle ⟨1, 0⟩, .default, .default, false, some b⟩

/-- The contact of two colliders is destroyed and made anew, in the same slot. -/
theorem Registry.stale_of_reuse : ∃ (r₁ r₂ r₃ : Registry Float) (c : Contact Float),
    (empty .standard .max .max).create (0, .round 0) (1, .round 1) = .ok (⟨0, 0⟩, r₁) ∧
      r₁.destroy ⟨0, 0⟩ = .ok (c, r₂) ∧
      r₂.create (0, .round 0) (1, .round 1) = .ok (⟨0, 1⟩, r₃) ∧ r₃.Stale ⟨0, 0⟩ ∧
      (⟨0, 1⟩ : Handle) ≠ ⟨0, 0⟩ := by
  let r : Registry Float := empty .standard .max .max
  obtain ⟨c, hb⟩ : ∃ c, r.build (0, .round 0) (1, .round 1) = .ok c := exists_build rfl rfl rfl
  have hfind : r.find? 0 1 = none := by simp [r, find?, empty]
  have hx : r.create (0, .round 0) (1, .round 1) = .ok (⟨0, 0⟩, r.enroll c) :=
    create_eq_ok_iff.2 ⟨by decide, .inr ⟨hfind, c, hb, rfl, rfl⟩⟩
  let r₂ : Registry Float := { (r.enroll c) with
    slots := #[⟨1, none⟩]
    free := [0]
    handles := (r.enroll c).handles.erase c.pair }
  have hd : (r.enroll c).destroy ⟨0, 0⟩ = .ok (c, r₂) := destroy_eq_ok_iff.2 ⟨rfl, rfl⟩
  have hfind₂ : r₂.find? 0 1 = none := by
    simp [r₂, find?, (of_build_eq_ok hb).2.1]
  have hx₂ : r₂.create (0, .round 0) (1, .round 1) = .ok (⟨0, 1⟩, r₂.enroll c) :=
    create_eq_ok_iff.2 ⟨by decide, .inr ⟨hfind₂, c, hb, rfl, rfl⟩⟩
  have hact : r.act (.create (0, .round 0) (1, .round 1)) = r.enroll c := by
    rw [act, hx]
    rfl
  have hact₁ : (r.enroll c).act (.destroy ⟨0, 0⟩) = r₂ := by
    rw [act, hd]
    rfl
  have hact₂ : r₂.act (.create (0, .round 0) (1, .round 1)) = r₂.enroll c := by
    rw [act, hx₂]
    rfl
  refine ⟨r.enroll c, r₂, r₂.enroll c, c, hx, hd, hx₂, ?_, ?_⟩
  · have hd' : (r.run [.create (0, .round 0) (1, .round 1)]).destroy ⟨0, 0⟩ = .ok (c, r₂) := by
      rwa [run_cons, run_nil, hact]
    have hs := (stale_run .standard .max .max [.create (0, .round 0) (1, .round 1)]
      [.create (0, .round 0) (1, .round 1)]).1 ⟨0, 0⟩ c r₂ hd' (by simp [vacancies, vacates])
    rwa [run_cons, run_nil, hact₂] at hs
  · refine (stale_run .standard .max .max [] [.destroy ⟨0, 0⟩]).2 (0, .round 0) (1, .round 1) ⟨0, 0⟩
      (r.enroll c) hfind hx ?_ (0, .round 0) (1, .round 1) ⟨0, 1⟩ (r₂.enroll c) ?_ ?_
    · simp [vacancies, vacates_of_destroy hd]
    · rwa [run_cons, run_nil, hact₁]
    · rwa [run_cons, run_nil, hact₁]

end PlanarDynamics
