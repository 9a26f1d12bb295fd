import PlanarDynamics.Proofs.Real.Solver
import PlanarDynamics.Proofs.World.Requests
import PlanarDynamics.Proofs.World.Transparency

/-!
# Three solid discs

A disc on a body that stays, between two discs on bodies that can move, all on the first axis of the
plane.  Both outer discs overlap the one in the middle and not each other, so there are two contacts
to be solved, each for itself: the smallest world with more than one island to solve.
-/

namespace PlanarDynamics

/-- A disc that pushes others away. -/
noncomputable def Collider.solid (body : Option BodyId) : Collider ℝ :=
  ⟨.disc, .default, .default, false, body⟩

/-- If the body is static, impulses do not move it. -/
def Body.IsFirm (b : Body ℝ) : Prop := b.isStatic = true → b.invMass = 0 ∧ b.invInertia = 0

theorem Body.isFirm_resetMass (b : Body ℝ) (parts : List (MassData ℝ)) :
    (b.resetMass parts).IsFirm := by
  intro hs
  have hk : b.isDynamic = false := by
    have hkind : b.kind = .static := by
      rw [← World.resetMass_kind b parts]
      exact of_decide_eq_true hs
    simp [isDynamic, hkind]
  rw [resetMass, hk]
  exact ⟨rfl, rfl⟩

theorem Body.isFirm_ofKind (k : BodyKind) (position : Vec ℝ) : (ofKind k position).IsFirm := by
  intro hs
  have hk : k = .static := of_decide_eq_true hs
  subst hk
  exact ⟨rfl, rfl⟩

namespace World

variable {σ : Type} {w w' : World ℝ σ} {x : ℝ}

theorem map_modify_eq {β γ : Type} {f : β → β} {g : β → γ} (hg : ∀ b, g (f b) = g b) (xs : Array β)
    (i : Nat) : (xs.modify i f).map g = xs.map g := by
  refine Array.ext_getElem? fun j ↦ ?_
  rw [Array.getElem?_map, Array.getElem?_map]
  exact map_getElem?_modify hg xs j i

theorem forall_mem_modify {β : Type} {P : β → Prop} {f : β → β} (hf : ∀ b, P b → P (f b))
    {xs : Array β} (hxs : ∀ b ∈ xs, P b) (i : Nat) : ∀ b ∈ xs.modify i f, P b := by
  intro b hb
  obtain ⟨j, hj⟩ := Array.mem_iff_getElem?.1 hb
  rw [Array.getElem?_modify] at hj
  split at hj
  · obtain ⟨b', hb', rfl⟩ := Option.map_eq_some_iff.1 hj
    exact hf b' (hxs b' (Array.mem_of_getElem? hb'))
  · exact hxs b (Array.mem_of_getElem? hj)

/-- Three bodies on the axis have these colliders, and the settings are as usual. -/
structure Bears (w : World ℝ σ) (colliders : Array (Collider ℝ)) : Prop where
  colliders : w.colliders = colliders
  poses : w.bodies.map Body.pose = #[.onAxis 0, .onAxis (-3 / 2), .onAxis (3 / 2)]
  kinds : w.bodies.map Body.kind = #[.static, .dynamic, .dynamic]
  firm : ∀ b ∈ w.bodies, b.IsFirm
  settings : w.settings = .default

/-- Attaching a collider leaves all bodies where they are and what they are. -/
theorem Bears.addCollider {cs : Array (Collider ℝ)} (hw : w.Bears cs) {b : BodyId} (hb : b < 3)
    {c : Collider ℝ} (h : w.act (.addCollider b c) = .ok w') :
    w'.Bears (cs.push { c with body := some b }) := by
  have hsize : w.bodies.size = 3 := by
    simpa using congrArg Array.size hw.kinds
  have hlist : ∀ body : Body ℝ, ({ body with
      colliders := body.colliders ++ [w.colliders.size] } : Body ℝ).pose = body.pose := fun _ ↦ rfl
  simp only [act, World.addCollider, if_pos (hsize ▸ hb)] at h
  cases h
  simp only [Except.map, Except.toOption, Option.getD_some, refreshMass]
  refine ⟨congrArg (Array.push · _) hw.colliders, ?_, ?_, ?_, hw.settings⟩
  · rw [map_modify_eq fun b ↦ Body.pose_resetMass b _, map_modify_eq hlist, hw.poses]
  · rw [map_modify_eq fun b ↦ resetMass_kind b _, map_modify_eq, hw.kinds]
    exact fun _ ↦ rfl
  · dsimp only
    refine forall_mem_modify (fun b _ ↦ b.isFirm_resetMass _) ?_ b
    refine forall_mem_modify (fun _ hb ↦ ?_) hw.firm b
    exact hb

/-- The three discs, and someone to listen. -/
noncomputable def solids (l : Option (Listener ℝ σ)) : List (Action ℝ σ) :=
  [.addBody (.ofKind .static ⟨0, 0⟩), .addBody (.ofKind .dynamic ⟨-3 / 2, 0⟩),
    .addBody (.ofKind .dynamic ⟨3 / 2, 0⟩), .addCollider 0 (.solid none),
    .addCollider 1 (.solid none), .addCollider 2 (.solid none), .setListener l]

theorem run_solids {w₀ : World ℝ σ} (h₀ : ofSettings .default = .ok w₀)
    {l : Option (Listener ℝ σ)} (h : w₀.run (solids l) = .ok w) :
    w.listener = l ∧ w.Bears #[.solid (some 0), .solid (some 1), .solid (some 2)] := by
  obtain ⟨-, rfl⟩ := ofSettings_eq_ok_iff.1 h₀
  simp only [solids, run_cons] at h
  obtain ⟨w₁, h₁, w₂, h₂, w₃, h₃, w₄, h₄, w₅, h₅, w₆, h₆, w₇, h₇, h⟩ := h
  have hw₃ : w₃.Bears #[] := by
    cases h₁
    cases h₂
    cases h₃
    have hpose : ∀ k x, ({ Body.ofKind k ⟨x, 0⟩ with colliders := [] } : Body ℝ).pose = .onAxis x :=
      pose_ofKind
    refine ⟨rfl, by simp [addBody, hpose], by simp [addBody, Body.ofKind], ?_, rfl⟩
    intro b hb
    simp only [addBody, Array.mem_push, Array.not_mem_empty, false_or] at hb
    rcases hb with (rfl | rfl) | rfl
    · exact Body.isFirm_ofKind _ _
    · exact Body.isFirm_ofKind _ _
    · exact Body.isFirm_ofKind _ _
  have hw₆ := ((hw₃.addCollider (by decide) h₄).addCollider (by decide) h₅).addCollider
    (by decide) h₆
  cases h
  cases h₇
  exact ⟨rfl, hw₆.colliders, hw₆.poses, hw₆.kinds, hw₆.firm, hw₆.settings⟩

namespace Bears

theorem exists_body {cs : Array (Collider ℝ)} (hw : w.Bears cs) {i : BodyId} {t : Pose ℝ}
    {k : BodyKind}
    (ht : (#[.onAxis 0, .onAxis (-3 / 2), .onAxis (3 / 2)] : Array (Pose ℝ))[i]? = some t)
    (hk : (#[.static, .dynamic, .dynamic] : Array BodyKind)[i]? = some k) :
    ∃ b, w.bodies[i]? = some b ∧ b.pose = t ∧ b.kind = k := by
  rw [← hw.poses, Array.getElem?_map, Option.map_eq_some_iff] at ht
  rw [← hw.kinds, Array.getElem?_map, Option.map_eq_some_iff] at hk
  obtain ⟨b, hb, rfl⟩ := ht
  obtain ⟨b', hb', rfl⟩ := hk
  cases hb.symm.trans hb'
  exact ⟨b, hb, rfl, rfl⟩

variable (hw : w.Bears #[.solid (some 0), .solid (some 1), .solid (some 2)])

include hw

theorem exists_solid {i : ColliderId} {c : Collider ℝ} (hc : w.colliders[i]? = some c) :
    ∃ b, c = .solid b := by
  rw [hw.colliders] at hc
  have hmem := Array.mem_of_getElem? hc
  simp only [List.mem_toArray, List.mem_cons, List.not_mem_nil, or_false] at hmem
  rcases hmem with rfl | rfl | rfl
  · exact ⟨some 0, rfl⟩
  · exact ⟨some 1, rfl⟩
  · exact ⟨some 2, rfl⟩

/-- A disc that reaches the one in the middle collides with it. -/
theorem collides_middle {i : BodyId} (hi : i ≠ 0) {b : Body ℝ}
    (hc : w.colliders[i]? = some (.solid (some i))) (hb : w.bodies[i]? = some b)
    (hk : b.kind = .dynamic) (hp : b.pose = .onAxis x) (hx : |0 - x| ≤ 2) :
    w.Collides ⟨0, i, i.zero_le⟩ := by
  obtain ⟨b₀, hb₀, hp₀, -⟩ := hw.exists_body (i := 0) rfl rfl
  have hc₀ : w.colliders[0]? = some (.solid (some 0)) := by
    rw [hw.colliders]
    rfl
  refine (collides_iff hc₀ hc rfl rfl hb₀ hb rfl).2 ⟨?_, ?_⟩
  · refine mayTouch_iff.2 ⟨0, _, .default, i, _, .default,
      standing_eq_some_iff.2 ⟨_, b₀, hc₀, rfl, hb₀, rfl, rfl⟩,
      standing_eq_some_iff.2 ⟨_, b, hc, rfl, hb, rfl, rfl⟩, Ne.symm hi, ?_, by decide⟩
    simp [Body.isDynamic, hk]
  · rw [hp₀, hp]
    exact isEmpty_circles_onAxis hx

theorem collides {p : Pair} (hp : p = .of 0 1 ∨ p = .of 0 2) : w.Collides p := by
  rcases hp with rfl | rfl
  · obtain ⟨b, hb, hpose, hk⟩ := hw.exists_body (i := 1) rfl rfl
    refine hw.collides_middle (by decide) ?_ hb hk hpose (by norm_num [abs_le])
    rw [hw.colliders]
    rfl
  · obtain ⟨b, hb, hpose, hk⟩ := hw.exists_body (i := 2) rfl rfl
    refine hw.collides_middle (by decide) ?_ hb hk hpose (by norm_num [abs_le])
    rw [hw.colliders]
    rfl

/-- Once contacts are up to date, both outer discs touch the one in the middle. -/
theorem touches_updated (hr : w.Reachable) {p : Pair} (hp : p = .of 0 1 ∨ p = .of 0 2) :
    w.updatePairs.refreshed.Touches p := by
  have hcoll := hw.collides hp
  refine hr.sound.touches_of_collides hcoll (hcoll.mem_near hr (fun i c hc ↦ ?_) ?_)
  · obtain ⟨b, rfl⟩ := hw.exists_solid hc
    exact zero_le_one
  · rintro ⟨a, b, _, _, _, _, ha, hb, -, -, -, -, hm⟩
    obtain ⟨_, rfl⟩ := hw.exists_solid ha
    obtain ⟨_, rfl⟩ := hw.exists_solid hb
    exact hm

/-- No contact has a sensor. -/
theorem sensor_updated (hr : w.Reachable) {h : Handle} {c : Contact ℝ}
    (hc : w.updatePairs.refreshed.contacts.get? h = some c) : c.sensor = false := by
  have hwf := hr.sound.wf
  obtain ⟨a, b, ha, hb, hj⟩ := (wf_refreshed (wf_updatePairs hwf)).joins h c hc
  rw [colliders_updated hwf] at ha hb
  obtain ⟨_, rfl⟩ := hw.exists_solid ha
  obtain ⟨_, rfl⟩ := hw.exists_solid hb
  exact hj.sensor

end Bears

/-- Friction is not negative where it is mixed by a root. -/
theorem friction_updated (hr : w.Reachable) (hm : w.contacts.frictionMixing = .geometricMean)
    {h : Handle} {c : Contact ℝ} (hc : w.updatePairs.refreshed.contacts.get? h = some c) :
    0 ≤ c.friction := by
  obtain ⟨x, y, he⟩ := hr.contacts_updated.exists_friction hc
  rw [(leads_updatePairs.trans leads_refreshed).frictionMixing_eq, hm] at he
  rw [he]
  exact Real.sqrt_nonneg _

theorem valid_one : Valid (1 : ℝ) := ⟨one_pos, rfl⟩

/-- The three discs just before they are solved. -/
theorem updated_solids {w₀ : World ℝ σ} (h₀ : ofSettings .default = .ok w₀)
    {l : Option (Listener ℝ σ)} (h : w₀.run (solids l) = .ok w) :
    ∃ w₁, w.updatePairs.updateContacts = .ok w₁ ∧
      (∀ p, p = .of 0 1 ∨ p = .of 0 2 → w₁.Touches p) ∧
      (∀ h c, w₁.contacts.get? h = some c → c.sensor = false ∧ 0 ≤ c.friction) ∧
      (∀ b ∈ w₁.bodies, b.IsFirm) ∧ -w₁.settings.solver.maxLinearCorrection ≤ 0 := by
  obtain ⟨-, hw⟩ := run_solids h₀ h
  have hr : w.Reachable := ⟨_, _, w₀, h₀, h⟩
  have hm : w.contacts.frictionMixing = .geometricMean := by
    rw [(leads_run (wf_ofSettings h₀) h).frictionMixing_eq]
    obtain ⟨-, rfl⟩ := ofSettings_eq_ok_iff.1 h₀
    rfl
  refine ⟨w.updatePairs.refreshed, updateContacts_eq (wf_updatePairs hr.sound.wf),
    fun p ↦ hw.touches_updated hr, fun i c hc ↦ ?_, ?_, ?_⟩
  · exact ⟨hw.sensor_updated hr hc, friction_updated hr hm hc⟩
  · rw [bodies_updated hr.sound.wf]
    exact hw.firm
  · rw [(sameScene_updated hr.sound.wf).settings, sameButGrid_regrid.settings, hw.settings]
    norm_num [WorldSettings.default, SolverSettings.default]

theorem exists_solids (l : Option (Listener ℝ σ)) : ∃ w w₁ : World ℝ σ, w.Reachable ∧
    w.listener = l ∧ w.updatePairs.updateContacts = .ok w₁ ∧
    (∀ p, p = .of 0 1 ∨ p = .of 0 2 → w₁.Touches p) ∧
    (∀ h c, w₁.contacts.get? h = some c → c.sensor = false ∧ 0 ≤ c.friction) ∧
    (∀ b ∈ w₁.bodies, b.IsFirm) ∧ -w₁.settings.solver.maxLinearCorrection ≤ 0 := by
  obtain ⟨w₀, h₀⟩ := exists_ofSettings_default σ
  obtain ⟨w, h⟩ : ∃ w, w₀.run (solids l) = .ok w := ⟨_, rfl⟩
  obtain ⟨w₁, hw₁⟩ := updated_solids h₀ h
  exact ⟨w, w₁, ⟨_, _, w₀, h₀, h⟩, (run_solids h₀ h).1, hw₁⟩

end World

end PlanarDynamics
