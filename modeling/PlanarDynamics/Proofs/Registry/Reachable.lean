import PlanarDynamics.Proofs.Registry.Ledger

/-!
# Contacts of a run

A contact of a registry was built from two colliders at some time, and has been changed in place
since.  `Registry.forall_run` packs this into an induction.  It shows of every run that contacts
which are to be solved have points, since whether colliders touch is read off the manifold that is
then kept, and that the friction of a contact is mixed from that of two materials.
-/

namespace PlanarDynamics

namespace Contact

variable {α : Type} [Scalar α] {c : Contact α}

/-- If the colliders touch and neither is a sensor, the manifold has points. -/
def HasPoints (c : Contact α) : Prop :=
  c.touching = true → c.sensor = false → c.manifold.isEmpty = false

omit [Scalar α] in
theorem HasPoints.of_isSolvable (h : c.HasPoints) (hs : c.isSolvable = true) :
    c.manifold.isEmpty = false := by
  simp only [isSolvable, Bool.and_eq_true, Bool.not_eq_true'] at hs
  exact h hs.1.1 hs.2

theorem Fresh.hasPoints (h : c.Fresh) : c.HasPoints := by
  intro ht
  rw [h.touching] at ht
  cases ht

theorem hasPoints_update (c : Contact α) (shapeA : Shape α) (poseA : Pose α) (shapeB : Shape α)
    (poseB : Pose α) : (c.update shapeA poseA shapeB poseB).1.HasPoints := by
  intro ht hs
  have hs : c.sensor = false := hs
  simp only [update, hs, Bool.not_eq_true'] at ht ⊢
  exact ht

theorem HasPoints.change (h : c.HasPoints) (how : Change α) : (c.change how).HasPoints := by
  cases how with
  | update shapeA poseA shapeB poseB => exact c.hasPoints_update shapeA poseA shapeB poseB
  | _ => exact h

end Contact

namespace Registry

section

variable {α : Type} {r : Registry α} {h : Handle}

theorem modify_of_none (hc : r.get? h = none) (f : Contact α → Contact α) : r.modify h f = r := by
  rw [modify, hc]

theorem modify_of_some {c : Contact α} (hc : r.get? h = some c) (f : Contact α → Contact α) :
    r.modify h f = r.setContact h.index (f c) := by
  rw [modify, hc]

theorem setContact_of_get? {c : Contact α} (hc : r.get? h = some c) :
    r.setContact h.index c = r := by
  rw [get?_eq_some_iff] at hc
  have hslots : r.slots.modify h.index (fun s ↦ { s with contact? := some c }) = r.slots := by
    refine Array.ext_getElem? fun i ↦ ?_
    rw [Array.getElem?_modify]
    split
    next hi =>
      rw [← hi, hc]
      rfl
    · rfl
  rw [setContact, hslots]

theorem setContact_setContact (r : Registry α) (i : Nat) (c c' : Contact α) :
    (r.setContact i c).setContact i c' = r.setContact i c' := by
  have hslots : (r.slots.modify i fun s ↦ { s with contact? := some c }).modify i
      (fun s ↦ { s with contact? := some c' }) =
      r.slots.modify i fun s ↦ { s with contact? := some c' } := by
    refine Array.ext_getElem? fun j ↦ ?_
    simp only [Array.getElem?_modify]
    split
    · rw [Option.map_map]
      rfl
    · rfl
  simp only [setContact, hslots]

/-- A contact that has just been put in place is changed. -/
theorem modify_setContact {c : Contact α} (hc : r.get? h = some c) (c' : Contact α)
    (f : Contact α → Contact α) :
    (r.setContact h.index c').modify h f = r.setContact h.index (f c') := by
  have hget : (r.setContact h.index c').get? h = some c' := by
    rw [get?_setContact hc, if_pos rfl]
  rw [modify_of_some hget, setContact_setContact]

end

variable {α : Type} [Scalar α] {r : Registry α}

/-- Where the contacts of a registry come from when a request has been carried out. -/
theorem Outcome.origin {q : Request α} {r' : Registry α} (ho : r.Outcome q r') (hr : r.Wf)
    {h : Handle} {c : Contact α} (hc : r'.get? h = some c) :
    r.get? h = some c ∧ (∀ how, q ≠ .change h how) ∨ (∃ a b, r.build a b = .ok c) ∨
      ∃ old, r.get? h = some old ∧ ((∃ how, q = .change h how ∧ c = old.change how) ∨
        ∃ colliders a b, q = .remix h colliders ∧
          c = old.mix r.frictionMixing r.restitutionMixing a b) := by
  cases ho with
  | unchanged _ hchange =>
    refine .inl ⟨hc, fun how he ↦ ?_⟩
    rw [hchange h how he] at hc
    cases hc
  | @enrolled a b _ _ _ hb =>
    rw [get?_enroll hr] at hc
    split at hc
    · cases hc
      exact .inr (.inl ⟨a, b, hb⟩)
    · exact .inl ⟨hc, by rintro _ ⟨⟩⟩
  | vacated hd =>
    rw [get?_destroy hd] at hc
    split at hc
    · cases hc
    · exact .inl ⟨hc, by rintro _ ⟨⟩⟩
  | @rebound _ a b _ _ _ hold _ hb =>
    rw [get?_rebind hold] at hc
    split at hc
    · cases hc
      exact .inr (.inl ⟨a, b, hb⟩)
    · exact .inl ⟨hc, by rintro _ ⟨⟩⟩
  | @remixed _ colliders old a b hold =>
    rw [get?_setContact hold] at hc
    split at hc
    next he =>
      cases hc
      exact .inr (.inr ⟨old, he ▸ hold, .inr ⟨colliders, a, b, he ▸ rfl, rfl⟩⟩)
    · exact .inl ⟨hc, by rintro _ ⟨⟩⟩
  | @changed _ how old hold =>
    rw [get?_setContact hold] at hc
    split at hc
    next he =>
      cases hc
      exact .inr (.inr ⟨old, he ▸ hold, .inl ⟨how, he ▸ rfl, rfl⟩⟩)
    next he =>
      refine .inl ⟨hc, ?_⟩
      rintro _ ⟨⟩
      exact he rfl

theorem Outcome.sameRules {q : Request α} {r' : Registry α} (ho : r.Outcome q r') :
    r.SameRules r' := by
  cases ho with
  | unchanged => exact ⟨rfl, rfl, rfl⟩
  | @enrolled a b c =>
    cases hf : r.free <;> simp [SameRules, Registry.enroll, allocate, hf]
  | vacated hd =>
    obtain ⟨-, he⟩ := destroy_eq_ok_iff.1 hd
    rw [he]
    exact ⟨rfl, rfl, rfl⟩
  | rebound => exact ⟨rfl, rfl, rfl⟩
  | remixed => exact ⟨rfl, rfl, rfl⟩
  | changed => exact ⟨rfl, rfl, rfl⟩

omit [Scalar α] in
theorem SameRules.trans {r' r'' : Registry α} (h : r.SameRules r') (h' : r'.SameRules r'') :
    r.SameRules r'' :=
  ⟨h'.1.trans h.1, h'.2.1.trans h.2.1, h'.2.2.trans h.2.2⟩

theorem sameRules_run (r : Registry α) (requests : List (Request α)) :
    r.SameRules (r.run requests) := by
  induction requests generalizing r with
  | nil => exact ⟨rfl, rfl, rfl⟩
  | cons q qs ih => exact (outcome_act r q).sameRules.trans (ih (r.act q))

/-- What holds of contacts when they are built by the rules of `r`, and is kept when they change or
their materials are mixed anew, holds of all contacts after a run. -/
theorem forall_run_of_sameRules {P : Contact α → Prop} {r₀ : Registry α}
    (hbuild : ∀ (r : Registry α) a b c, r₀.SameRules r → r.build a b = .ok c → P c)
    (hchange : ∀ c how, P c → P (c.change how))
    (hmix : ∀ c a b, P c → P (c.mix r₀.frictionMixing r₀.restitutionMixing a b)) (hr : r.Wf)
    (hsame : r₀.SameRules r) (hP : ∀ h c, r.get? h = some c → P c)
    (requests : List (Request α)) : ∀ h c, (r.run requests).get? h = some c → P c := by
  induction requests generalizing r with
  | nil => exact hP
  | cons q qs ih =>
    have ho := outcome_act r q
    refine ih (ho.wf hr) (hsame.trans ho.sameRules) fun h c hc ↦ ?_
    obtain ⟨hold, -⟩ | ⟨a, b, hb⟩ | ⟨old, hold, ⟨how, -, rfl⟩ | ⟨_, a, b, -, rfl⟩⟩ :=
      ho.origin hr hc
    · exact hP h c hold
    · exact hbuild r a b c hsame hb
    · exact hchange old how (hP h old hold)
    · rw [hsame.2.1, hsame.2.2]
      exact hmix old a b (hP h old hold)

/-- The same, where of the rules only those for friction matter. -/
theorem forall_run {P : Contact α → Prop} {friction : Mixing}
    (hbuild : ∀ (r : Registry α) a b c, r.frictionMixing = friction → r.build a b = .ok c → P c)
    (hchange : ∀ c how, P c → P (c.change how))
    (hmix : ∀ c restitution a b, P c → P (c.mix friction restitution a b)) (hr : r.Wf)
    (hf : r.frictionMixing = friction) (hP : ∀ h c, r.get? h = some c → P c)
    (requests : List (Request α)) : ∀ h c, (r.run requests).get? h = some c → P c := by
  subst hf
  exact forall_run_of_sameRules (fun r' a b c hsame ↦ hbuild r' a b c hsame.2.1) hchange
    (fun c a b ↦ hmix c _ a b) hr ⟨rfl, rfl, rfl⟩ hP requests

/-- The friction of a contact is mixed from that of two materials. -/
theorem exists_friction_of_build {a b : ColliderId × Collider α} {c : Contact α}
    (hb : r.build a b = .ok c) : ∃ x y, c.friction = r.frictionMixing.mix x y := by
  obtain ⟨rule, x, y, -, -, hc⟩ := exists_ofRule_of_build hb
  obtain ⟨i, j, -, -, rfl⟩ := Contact.ofRule_eq_ok_iff.1 hc
  exact ⟨_, _, rfl⟩

/-- Some run of an empty registry ends in `r`. -/
def Reachable (r : Registry α) : Prop :=
  ∃ rules friction restitution requests, (empty rules friction restitution).run requests = r

namespace Reachable

variable {h : Handle} {c : Contact α}

/-- **Contacts that touch have points.** -/
theorem hasPoints (hr : r.Reachable) (hc : r.get? h = some c) : c.HasPoints := by
  obtain ⟨rules, friction, restitution, requests, rfl⟩ := hr
  refine forall_run (fun r a b c _ hb ↦ (of_build_eq_ok hb).1.hasPoints)
    (fun c how hc ↦ hc.change how) (fun c _ _ _ hc ↦ hc) (wf_empty rules friction restitution) rfl
    (fun h c hc ↦ ?_) requests h c hc
  simp [empty, get?] at hc

theorem exists_friction (hr : r.Reachable) (hc : r.get? h = some c) :
    ∃ x y, c.friction = r.frictionMixing.mix x y := by
  obtain ⟨rules, friction, restitution, requests, rfl⟩ := hr
  rw [(sameRules_run (empty rules friction restitution) requests).2.1]
  refine forall_run (P := fun c ↦ ∃ x y, c.friction = friction.mix x y)
    (fun r a b c hf hb ↦ hf ▸ exists_friction_of_build hb) (fun c how hc ↦ ?_)
    (fun c _ _ _ _ ↦ ⟨_, _, rfl⟩) (wf_empty rules friction restitution) rfl (fun h c hc ↦ ?_)
    requests h c hc
  · cases how <;> exact hc
  · simp [empty, get?] at hc

end Reachable

end Registry

end PlanarDynamics
