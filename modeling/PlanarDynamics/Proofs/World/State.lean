import PlanarDynamics.Proofs.Registry.State
import PlanarDynamics.Proofs.World.Derived

/-!
# What the contacts of a world say of themselves

A step evaluates every contact that it leaves, under the poses that the bodies have when it begins.
After that the contact only gets impulses, marks and coefficients, which do not count in
`Contact.bare`.  So the flags of a contact and its manifold agree at all times, and the manifold was
finite where the bodies were just before the last step: `World.contacts_faithful`.
-/

namespace PlanarDynamics

variable {α : Type} [Scalar α]

namespace Contact

variable {c c' : Contact α}

/-- The contact as its last evaluation has left it. -/
def bare (c : Contact α) : Contact α :=
  { c with
    manifold := c.manifold.bare, friction := 0, restitution := 0, enabled := true
    needsFiltering := false }

theorem isFinite_of_bare (h : c'.bare = c.bare) (poseA poseB : Pose α) :
    c'.isFinite c'.manifold poseA poseB = c.isFinite c.manifold poseA poseB := by
  have hbare : ∀ c : Contact α, c.isFinite c.manifold poseA poseB =
      c.bare.isFinite c.bare.manifold poseA poseB :=
    fun c ↦ (c.isFinite_bare c.manifold poseA poseB).symm
  rw [hbare c', hbare c, h]

end Contact

/-- The standard rules leave room. -/
theorem RuleTable.hasRoom_standard : (standard : RuleTable α).HasRoom := by
  intro x y rule h a poseA b poseB
  obtain ⟨k, hk⟩ : ∃ k : PairKind, rule.collide = k.collide := by
    cases x <;> cases y <;> simp [standard, register, empty] at h
    all_goals
      subst h
      exact ⟨_, rfl⟩
  rw [hk]
  exact k.count_collide_le a poseA b poseB

namespace World

variable {σ : Type} {w w' w₀ : World α σ} {bodies : Array (Body α)}

/-! ## One step -/

/-- The contacts that touch were finite with their bodies as they are in `bodies`. -/
def FiniteAt (bodies : Array (Body α)) (w : World α σ) : Prop :=
  ∀ h c, w.contacts.get? h = some c → ∃ a b, bodies[c.bodyA]? = some a ∧
    bodies[c.bodyB]? = some b ∧
    (c.sensor = false → c.touching = true → c.isFinite c.manifold a.pose b.pose = true)

theorem FiniteAt.of_keeps (h : w.FiniteAt bodies)
    (hk : w.contacts.Keeps Contact.bare w'.contacts) : w'.FiniteAt bodies := by
  intro i c' hc'
  obtain ⟨c, hc, he⟩ := hk i c' hc'
  obtain ⟨a, b, ha, hb, hfinite⟩ := h i c hc
  have hA : c'.bare.bodyA = c.bare.bodyA := by rw [he]
  have hB : c'.bare.bodyB = c.bare.bodyB := by rw [he]
  have hs : c'.bare.sensor = c.bare.sensor := by rw [he]
  have ht : c'.bare.touching = c.bare.touching := by rw [he]
  refine ⟨a, b, hA ▸ ha, hB ▸ hb, fun hs' ht' ↦ ?_⟩
  rw [Contact.isFinite_of_bare he]
  exact hfinite (hs.symm.trans hs') (ht.symm.trans ht')

/-- A contact of a sound world is renewed by an update. -/
theorem exists_renewed_eq (hw : w.Wf) {h : Handle} {c : Contact α}
    (hc : w.contacts.get? h = some c) : ∃ (a b : Body α) (shapeA shapeB : Shape α),
      w.bodies[c.bodyA]? = some a ∧ w.bodies[c.bodyB]? = some b ∧
      w.renewed c = ({ c with needsFiltering := false }.update shapeA a.pose shapeB b.pose).1 := by
  obtain ⟨a, b, x, y, ha, hb, hx, hy, -⟩ := hw.exists_sides hc
  refine ⟨x, y, a.shape, b.shape, hx, hy, ?_⟩
  simp only [renewed, updated, ha, hb, hx, hy]

theorem finiteAt_refreshed (hw : w.Wf) : w.refreshed.FiniteAt w.bodies := by
  intro h c hc
  obtain ⟨c₀, hc₀, -, he⟩ := get?_refreshed_eq_some hw hc
  obtain ⟨a, b, shapeA, shapeB, ha, hb, hrenewed⟩ := exists_renewed_eq hw hc₀
  rw [hrenewed] at he
  have hA := congrArg Contact.bodyA he
  have hB := congrArg Contact.bodyB he
  have hsensor := congrArg Contact.sensor he
  have htouch := congrArg Contact.touching he
  refine ⟨a, b, hA.symm ▸ ha, hB.symm ▸ hb, fun hs ht ↦ ?_⟩
  change (c.setEnabled true).isFinite (c.setEnabled true).manifold a.pose b.pose = true
  rw [he]
  refine Contact.isFinite_update ?_ ?_
  · exact hsensor.symm.trans hs
  · exact htouch.symm.trans ht

theorem finiteAt_step (hw : w.Wf) {dt : α} (hdt : Valid dt) (h : w.step dt = .ok w') :
    w'.FiniteAt w.bodies := by
  have hw₁ := wf_updatePairs hw
  rw [step_of_updateContacts hdt (updateContacts_eq hw₁)] at h
  have hbodies : w.updatePairs.bodies = w.bodies :=
    (paired_updatePairs hw).scene.bodies.trans sameButGrid_regrid.bodies
  have hrefreshed := finiteAt_refreshed hw₁
  rw [hbodies] at hrefreshed
  refine hrefreshed.of_keeps (keeps_move (fun c i ↦ ?_) h)
  simp only [Contact.bare, Manifold.bare_writeImpulses]

/-! ## Between steps -/

/-- Neither a mark nor a coefficient counts. -/
theorem admits_keepsBare : Registry.Admits (Registry.Keeps (α := α) Contact.bare) where
  refl := .refl
  trans := .trans
  flag r h := .modify r h fun _ ↦ rfl
  remix {r r' h colliders} hx := by
    obtain ⟨c, a, b, hc, -, -, rfl⟩ := Registry.remix_eq_ok_iff.1 hx
    rw [← Registry.modify_of_some hc fun c ↦ c.mix _ _ a.material b.material]
    exact .modify r h fun _ ↦ rfl

/-! ## Runs -/

/-- The run has a step, and `w₁` is the world just before the last one. -/
def LastStep (w₀ : World α σ) (actions : List (Action α σ)) (w₁ : World α σ) : Prop :=
  ∃ before dt after, actions = before ++ .step dt :: after ∧ Valid dt ∧
    (∀ dt', .step dt' ∈ after → ¬ Valid dt') ∧ w₀.run before = .ok w₁

theorem LastStep.append {actions : List (Action α σ)} {w₁ : World α σ}
    (h : LastStep w₀ actions w₁) {a : Action α σ} (ha : ∀ dt, a = .step dt → ¬ Valid dt) :
    LastStep w₀ (actions ++ [a]) w₁ := by
  obtain ⟨before, dt, after, rfl, hdt, hafter, hrun⟩ := h
  refine ⟨before, dt, after ++ [a], by simp, hdt, fun dt' hmem ↦ ?_, hrun⟩
  rcases List.mem_append.1 hmem with hmem | hmem
  · exact hafter dt' hmem
  · exact ha dt' (List.mem_singleton.1 hmem).symm

/-- Contacts are evaluated by steps only. -/
theorem keepsBare_act_of_not_valid {a : Action α σ} (ha : ∀ dt, a = .step dt → ¬ Valid dt)
    (h : w.act a = .ok w') : w.contacts.Keeps Contact.bare w'.contacts := by
  cases a using Action.step_or_change with
  | step dt =>
    cases (step_of_not_valid (ha dt rfl)).symm.trans h
    exact .refl _
  | change a hstep => exact admits_keepsBare.act hstep h

theorem exists_lastStep {s : WorldSettings α} (h₀ : ofSettings s = .ok w₀)
    {actions : List (Action α σ)} (h : w₀.run actions = .ok w) {i : Handle} {c : Contact α}
    (hc : w.contacts.get? i = some c) : ∃ w₁, LastStep w₀ actions w₁ ∧ w.FiniteAt w₁.bodies := by
  induction actions using List.reverseRecOn generalizing w i c with
  | nil =>
    cases h
    rw [(ofSettings_eq_ok h₀).1] at hc
    cases hc
  | append_singleton actions a ih =>
    obtain ⟨w', hrun, ha⟩ := run_append.1 h
    have ha := run_singleton.1 ha
    by_cases hstep : ∃ dt, a = .step dt ∧ Valid dt
    · obtain ⟨dt, rfl, hdt⟩ := hstep
      have hwf := (sound_ofSettings h₀).run hrun |>.wf
      exact ⟨w', ⟨actions, dt, [], rfl, hdt, by simp, hrun⟩, finiteAt_step hwf hdt ha⟩
    · have hnot : ∀ dt, a = .step dt → ¬ Valid dt := fun dt he hdt ↦ hstep ⟨dt, he, hdt⟩
      have hkeeps := keepsBare_act_of_not_valid hnot ha
      obtain ⟨c', hc', -⟩ := hkeeps i c hc
      obtain ⟨w₁, hlast, hfinite⟩ := ih hrun hc'
      exact ⟨w₁, hlast.append hnot, hfinite.of_keeps hkeeps⟩

theorem Reachable.faithful (hw : w.Reachable) {h : Handle} {c : Contact α}
    (hc : w.contacts.get? h = some c) : ∃ last, c.Faithful last := by
  obtain ⟨rules, friction, restitution, requests, hrun⟩ := hw.contacts
  have hrules : rules = .standard := by
    have hsame := (Registry.sameRules_run (.empty rules friction restitution) requests).1
    rw [hrun, hw.sound.wf.rules] at hsame
    exact hsame.symm
  have hfaithful := Registry.faithful_run (hrules ▸ RuleTable.hasRoom_standard) friction
    restitution requests
  rw [hrun] at hfaithful
  exact ⟨_, (hfaithful h c hc).1⟩

/-- **Contacts say what is so.**  After any requests to a registry, and at any time in a world, a
contact has no more points than there is room for; it touches exactly if it has points, unless one
of its colliders is a sensor, in which case it has none and is not solved; and if it has points they
were finite under the poses for which it was last evaluated.  In a world that was in the last step,
with the bodies where they were before.  The transition that an update returns tells whether the
contact touched before and touches now, and it touches now exactly if finite points have been
found. -/
theorem contacts_faithful :
    (∀ (rules : RuleTable α) (friction restitution : Mixing)
      (requests : List (Registry.Request α)) (h : Handle) (c : Contact α), rules.HasRoom →
      ((Registry.empty rules friction restitution).run requests).get? h = some c →
      c.Faithful (Registry.lastPoses h requests)) ∧
    (∀ (s : WorldSettings α) (w₀ w : World α σ) (actions : List (Action α σ)) (h : Handle)
      (c : Contact α), ofSettings s = .ok w₀ → w₀.run actions = .ok w →
      w.contacts.get? h = some c → ∃ w₁ a b, LastStep w₀ actions w₁ ∧
        w₁.bodies[c.bodyA]? = some a ∧ w₁.bodies[c.bodyB]? = some b ∧
        c.Faithful (some (a.pose, b.pose))) ∧
    ∀ (c c' : Contact α) (t : Transition) (shapeA : Shape α) (poseA : Pose α) (shapeB : Shape α)
      (poseB : Pose α), c.update shapeA poseA shapeB poseB = (c', t) →
      (t = .began ↔ c.touching = false ∧ c'.touching = true) ∧
      (t = .ended ↔ c.touching = true ∧ c'.touching = false) ∧
      (t = .persisted ↔ c.touching = true ∧ c'.touching = true) ∧
      (t = .idle ↔ c.touching = false ∧ c'.touching = false) ∧
      (c'.touching = true ↔ (c.evaluate shapeA poseA shapeB poseB).isEmpty = false ∧
        c.isFinite (c.evaluate shapeA poseA shapeB poseB) poseA poseB = true) := by
  refine ⟨fun rules friction restitution requests h c hroom hc ↦ ?_,
    fun s w₀ w actions h c h₀ hrun hc ↦ ?_, fun c c' t shapeA poseA shapeB poseB he ↦ ?_⟩
  · exact (Registry.faithful_run hroom friction restitution requests h c hc).1
  · obtain ⟨w₁, hlast, hfinite⟩ := exists_lastStep h₀ hrun hc
    obtain ⟨a, b, ha, hb, hf⟩ := hfinite h c hc
    obtain ⟨last, hfaithful⟩ := Reachable.faithful ⟨s, actions, w₀, h₀, hrun⟩ hc
    exact ⟨w₁, a, b, hlast, ha, hb, hfaithful.count_le, hfaithful.touching_iff, hfaithful.sensor,
      fun hs ht ↦ ⟨a.pose, b.pose, rfl, hf hs ht⟩⟩
  · have ht := c.transition_update shapeA poseA shapeB poseB
    have htouch := c.touching_update_iff shapeA poseA shapeB poseB
    rw [he] at ht htouch
    obtain rfl : t = .of c.touching c'.touching := ht
    obtain ⟨hbegan, hended, hpersisted, hidle⟩ := Transition.of_iff c.touching c'.touching
    exact ⟨hbegan, hended, hpersisted, hidle, htouch.trans Contact.isEmpty_evaluateFinite_iff⟩

/-- Three discs after a step.  Those that touch have points, which were finite where the bodies were
before the step. -/
theorem solids_faithful : ∃ (w₀ w : World ℝ Unit) (h : Handle) (c : Contact ℝ),
    ofSettings .default = .ok w₀ ∧ w₀.run (solids none ++ [.step 1]) = .ok w ∧
    w.contacts.get? h = some c ∧ c.pair = .of 0 1 ∧ c.manifold.isEmpty = false ∧
    ∃ w₁ a b, LastStep w₀ (solids none ++ [.step 1]) w₁ ∧ w₁.bodies[c.bodyA]? = some a ∧
      w₁.bodies[c.bodyB]? = some b ∧ c.isFinite c.manifold a.pose b.pose = true := by
  obtain ⟨w₀, h₀⟩ := exists_ofSettings_default Unit
  obtain ⟨w', h'⟩ : ∃ w', w₀.run (solids none) = .ok w' := ⟨_, rfl⟩
  obtain ⟨w, hstep, htouch, -, hcolliders⟩ := exists_step_solids h₀ h'
  have hrun : w₀.run (solids none ++ [.step 1]) = .ok w :=
    run_append.2 ⟨w', h', run_singleton.2 hstep⟩
  obtain ⟨h, c, hc, hp, ht⟩ := htouch (.of 0 1) (.inl rfl)
  obtain ⟨-, hworld, -⟩ := contacts_faithful (α := ℝ) (σ := Unit)
  obtain ⟨w₁, a, b, hlast, ha, hb, hf⟩ := hworld .default w₀ w _ h c h₀ hrun hc
  have hs : c.sensor = false := by
    obtain ⟨x, y, hx, hy, hj⟩ := ((sound_ofSettings h₀).run hrun).wf.joins h c hc
    rw [hcolliders] at hx hy
    have hbears := (run_solids h₀ h').2
    obtain ⟨_, rfl⟩ := hbears.exists_solid hx
    obtain ⟨_, rfl⟩ := hbears.exists_solid hy
    exact hj.sensor
  obtain ⟨poseA, poseB, he, hfinite⟩ := hf.finite hs ht
  cases he
  exact ⟨w₀, w, h, c, h₀, hrun, hc, hp, (hf.touching_iff hs).1 ht, w₁, a, b, hlast, ha, hb, hfinite⟩

end World

end PlanarDynamics
