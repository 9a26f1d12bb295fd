import PlanarDynamics.Proofs.World.Solid

/-!
# Committing solutions

The solutions of the islands of a step are found first and committed afterwards.  Islands share
static bodies only, and no contacts, so their solutions touch different bodies and different
contacts: it does not matter in which order they are committed.
-/

namespace PlanarDynamics

section Lists

variable {β γ δ : Type}

theorem sublist_flatMap {l : List β} {l' : List γ} {f : β → List δ} {g : γ → List δ}
    (h : List.Forall₂ (fun b c ↦ (g c).Sublist (f b)) l l') :
    (l'.flatMap g).Sublist (l.flatMap f) := by
  induction h with
  | nil => exact .slnil
  | cons hbc _ ih =>
    rw [List.flatMap_cons, List.flatMap_cons]
    exact hbc.append ih

/-- Batches of updates may be made in any order, if updates of different keys commute and no key is
updated twice. -/
theorem foldl_batches_of_perm {κ : Type} {f : δ → κ × β → δ}
    (hf : ∀ s x y, x.1 ≠ y.1 → f (f s x) y = f (f s y) x) {g : γ → List (κ × β)} {l l' : List γ}
    (hp : l'.Perm l) (hn : (l.flatMap fun c ↦ (g c).map (·.1)).Nodup) (s : δ) :
    l'.foldl (fun s c ↦ (g c).foldl f s) s = l.foldl (fun s c ↦ (g c).foldl f s) s := by
  rw [← List.map_flatMap] at hn
  rw [← List.foldl_flatMap, ← List.foldl_flatMap]
  refine ((hp.symm.flatMap_right g).foldl_eq' (fun x hx y hy s ↦ ?_) s).symm
  by_cases hxy : x.1 = y.1
  · rw [List.inj_on_of_nodup_map hn hx hy hxy]
  · exact hf s x y hxy

end Lists

theorem modify_modify_of_ne {β : Type} (xs : Array β) {i j : Nat} (hij : i ≠ j) (f g : β → β) :
    (xs.modify i f).modify j g = (xs.modify j g).modify i f := by
  refine Array.ext_getElem? fun k ↦ ?_
  simp only [Array.getElem?_modify]
  by_cases hi : i = k
  · subst hi
    simp [hij.symm]
  · simp [hi]

namespace Registry

variable {α : Type} {r : Registry α}

/-- Different live handles name different slots. -/
theorem index_ne {h h' : Handle} {c c' : Contact α} (hc : r.get? h = some c)
    (hc' : r.get? h' = some c') (hne : h ≠ h') : h.index ≠ h'.index := by
  intro hi
  rw [get?_eq_some_iff] at hc hc'
  rw [hi, hc', Option.some.injEq, Slot.mk.injEq] at hc
  apply hne
  cases h
  cases h'
  simp_all

theorem modify_comm {h h' : Handle} (hne : h ≠ h') (f g : Contact α → Contact α) :
    (r.modify h f).modify h' g = (r.modify h' g).modify h f := by
  have hget : (r.modify h f).get? h' = r.get? h' := by rw [get?_modify, if_neg hne.symm]
  have hget' : (r.modify h' g).get? h = r.get? h := by rw [get?_modify, if_neg hne]
  cases hc : r.get? h with
  | none => rw [modify_of_none hc, modify_of_none (hget'.trans hc)]
  | some c =>
    cases hc' : r.get? h' with
    | none => rw [modify_of_none hc', modify_of_none (hget.trans hc')]
    | some c' =>
      rw [modify_of_some (hget.trans hc'), modify_of_some (hget'.trans hc), modify_of_some hc,
        modify_of_some hc', setContact, setContact, setContact, setContact]
      simp only [modify_modify_of_ne r.slots (index_ne hc hc' hne)]

end Registry

/-! ## What a solution does -/

namespace Solution

variable {α : Type}

/-- Puts the bodies of a solution where it says. -/
def moveBodies [Scalar α] (bodies : Array (Body α)) (s : Solution α) : Array (Body α) :=
  s.bodies.foldl (fun bodies e ↦ bodies.modify e.1 (·.moveTo e.2.1 e.2.2)) bodies

/-- Keeps the impulses of a solution. -/
def storeImpulses (r : Registry α) (s : Solution α) : Registry α :=
  s.impulses.foldl (fun r e ↦ r.modify e.1 fun c ↦
    { c with manifold := c.manifold.writeImpulses e.2 }) r

end Solution

namespace World

variable {α σ : Type} [Scalar α] {w w' : World α σ} {solutions order : List (Solution α)}

section

omit [Scalar α]

theorem contacts_commitImpulse (w : World α σ) (e : Handle × ContactImpulse α) :
    (w.commitImpulse e).contacts = w.contacts.modify e.1 fun c ↦
      { c with manifold := c.manifold.writeImpulses e.2 } := by
  cases hc : w.contacts.get? e.1 <;> simp only [commitImpulse, Registry.modify, hc]

theorem bodies_commitImpulse (w : World α σ) (e : Handle × ContactImpulse α) :
    (w.commitImpulse e).bodies = w.bodies := by
  cases hc : w.contacts.get? e.1 <;> simp only [commitImpulse, hc]

end

theorem bodies_commit (w : World α σ) (s : Solution α) :
    (w.commit s).bodies = s.moveBodies w.bodies := by
  have hfold : ∀ (l : List (Handle × ContactImpulse α)) (w : World α σ),
      (l.foldl commitImpulse w).bodies = w.bodies := by
    intro l
    induction l with
    | nil => exact fun w ↦ rfl
    | cons e l ih =>
      intro w
      rw [List.foldl_cons, ih, bodies_commitImpulse]
  exact hfold _ _

theorem contacts_commit (w : World α σ) (s : Solution α) :
    (w.commit s).contacts = s.storeImpulses w.contacts :=
  (List.foldl_hom contacts fun w e ↦ (contacts_commitImpulse w e).symm).symm

theorem bodies_foldl_commit (solutions : List (Solution α)) (w : World α σ) :
    (solutions.foldl commit w).bodies = solutions.foldl Solution.moveBodies w.bodies :=
  (List.foldl_hom bodies fun w s ↦ (bodies_commit w s).symm).symm

theorem contacts_foldl_commit (solutions : List (Solution α)) (w : World α σ) :
    (solutions.foldl commit w).contacts = solutions.foldl Solution.storeImpulses w.contacts :=
  (List.foldl_hom contacts fun w s ↦ (contacts_commit w s).symm).symm

end World

/-! ## Solutions of different islands -/

namespace Island

variable {α : Type} {bodies : Array (Body α)} {r : Registry α}

/-- Islands share no contact. -/
theorem pairwise_partition_contacts (bodies : Array (Body α)) (r : Registry α) :
    (partition bodies r).Pairwise fun I J ↦ ∀ h ∈ I.contacts, h ∉ J.contacts := by
  refine (pairwise_partition bodies r).imp_of_mem fun {I J} hI hJ hIJ h hhI hhJ ↦ ?_
  obtain ⟨i, hi, hmov, j, hb⟩ := (mem_contacts_iff hI).1 hhI
  exact hIJ i hmov hi (mem_bodies_of_mem_contacts hJ hhJ hb)

theorem nodup_flatMap_moving (bodies : Array (Body α)) (r : Registry α) :
    ((partition bodies r).flatMap fun I ↦ I.bodies.filter fun i ↦ !isStaticAt bodies i).Nodup := by
  refine List.nodup_flatMap.2 ⟨fun I hI ↦ ?_, ?_⟩
  · exact (isComponent_of_mem_partition hI).1.nodup.filter _
  · refine (pairwise_partition bodies r).imp_of_mem fun {I J} hI _ hIJ i hi hj ↦ ?_
    obtain ⟨hiI, hs⟩ := List.mem_filter.1 hi
    rw [Bool.not_eq_true'] at hs
    have hmov := ((isComponent_of_mem_partition hI).2 i hiI).2 hs
    exact hIJ i hmov hiI (List.mem_filter.1 hj).1

theorem nodup_flatMap_contacts (bodies : Array (Body α)) (r : Registry α) :
    ((partition bodies r).flatMap (·.contacts)).Nodup := by
  refine List.nodup_flatMap.2 ⟨fun I hI ↦ ?_, pairwise_partition_contacts bodies r⟩
  refine (pairwise_contacts hI).imp ?_
  rintro h _ hlt rfl
  exact Nat.lt_irrefl _ hlt

variable [Scalar α] {step : TimeStep α} {solutions : List (Solution α)}

/-- No body is moved twice. -/
theorem nodup_moved (h : (partition bodies r).mapM (·.solve bodies r step) = .ok solutions) :
    (solutions.flatMap fun s ↦ s.bodies.map (·.1)).Nodup := by
  refine (nodup_flatMap_moving bodies r).sublist (sublist_flatMap ?_)
  refine (mapM_eq_ok_iff.1 h).imp fun I s hs ↦ ?_
  rw [map_bodies_of_solve hs]

/-- No contact is solved twice. -/
theorem nodup_solved (h : (partition bodies r).mapM (·.solve bodies r step) = .ok solutions) :
    (solutions.flatMap fun s ↦ s.impulses.map (·.1)).Nodup := by
  refine (nodup_flatMap_contacts bodies r).sublist (sublist_flatMap ?_)
  exact (mapM_eq_ok_iff.1 h).imp fun I s hs ↦ map_impulses_of_solve hs

end Island

namespace World

variable {α σ : Type} [Scalar α] {w w₁ : World α σ} {solutions order : List (Solution α)}

/-- The solutions of islands may be committed in any order. -/
theorem foldl_commit_of_perm {step : TimeStep α}
    (h : (Island.partition w.bodies w.contacts).mapM (·.solve w.bodies w.contacts step) =
      .ok solutions) (hp : order.Perm solutions) :
    (order.foldl commit w).bodies = (solutions.foldl commit w).bodies ∧
      (order.foldl commit w).contacts = (solutions.foldl commit w).contacts := by
  rw [bodies_foldl_commit, bodies_foldl_commit, contacts_foldl_commit, contacts_foldl_commit]
  constructor
  · refine foldl_batches_of_perm (fun bodies x y hxy ↦ ?_) hp (Island.nodup_moved h) _
    exact modify_modify_of_ne bodies hxy _ _
  · refine foldl_batches_of_perm (fun r x y hxy ↦ ?_) hp (Island.nodup_solved h) _
    exact Registry.modify_comm hxy _ _

/-- Islands can be solved where friction and corrections have limits. -/
theorem exists_solutions (step : TimeStep α)
    (hlimits : ∀ h c, w.contacts.get? h = some c → c.isSolvable = true → HasLimits c.friction)
    (hcorr : -step.settings.maxLinearCorrection ≤ 0) :
    ∃ solutions, (Island.partition w.bodies w.contacts).mapM
      (·.solve w.bodies w.contacts step) = .ok solutions := by
  refine (faultsOnly_mapM fun I hI ↦ ?_).exists_ok
  refine I.faultsOnly_solve (fun c r v ↦ Row.faultsOnly_solve c r v) (fun h hh c hc ↦ ?_)
    (fun i hi ↦ Island.lt_size_of_mem_partition hI hi)
    (fun _ ↦ faultsOnly_clampWithin_of_le hcorr _)
  obtain ⟨_, -, -, _, c', hc', hs, -⟩ := (Island.mem_contacts_iff hI).1 hh
  cases hc.symm.trans hc'
  exact hlimits h c hc hs

theorem step_of_updateContacts {dt : α} (hdt : Valid dt)
    (h : w.updatePairs.updateContacts = .ok w₁) : w.step dt = w₁.move dt := by
  rw [step_of_valid hdt, h]
  rfl

theorem move_of_solutions {dt : α} (h : (Island.partition w.bodies w.contacts).mapM
      (·.solve w.bodies w.contacts
        (TimeStep.of dt w.previousDt w.settings.gravity w.settings.solver)) = .ok solutions) :
    w.move dt = .ok { solutions.foldl commit w with
      bodies := (solutions.foldl commit w).bodies.map (·.clearForces), previousDt := dt } := by
  rw [move, h]
  rfl

theorem exists_move_of_hasLimits {dt : α}
    (hlimits : ∀ h c, w.contacts.get? h = some c → c.isSolvable = true → HasLimits c.friction)
    (hcorr : -w.settings.solver.maxLinearCorrection ≤ 0) : ∃ w', w.move dt = .ok w' := by
  obtain ⟨solutions, hs⟩ := exists_solutions
    (.of dt w.previousDt w.settings.gravity w.settings.solver) hlimits hcorr
  exact ⟨_, move_of_solutions hs⟩

theorem of_move_eq_ok {dt : α} (h : w.move dt = .ok w₁) : ∃ solutions,
    (Island.partition w.bodies w.contacts).mapM (·.solve w.bodies w.contacts
      (TimeStep.of dt w.previousDt w.settings.gravity w.settings.solver)) = .ok solutions ∧
    w₁ = { solutions.foldl commit w with
      bodies := (solutions.foldl commit w).bodies.map (·.clearForces), previousDt := dt } := by
  obtain ⟨solutions, hs, -⟩ := bind_eq_ok_iff.1 h
  rw [move_of_solutions hs] at h
  exact ⟨solutions, hs, (Except.ok.inj h).symm⟩

/-- The three discs can be stepped, and touch when that is done. -/
theorem exists_step_solids {w₀ w : World ℝ σ} (h₀ : ofSettings .default = .ok w₀)
    {l : Option (Listener ℝ σ)} (h : w₀.run (solids l) = .ok w) :
    ∃ w', w.step 1 = .ok w' ∧ (∀ p, p = .of 0 1 ∨ p = .of 0 2 → w'.Touches p) ∧
      SameRoster w.bodies w'.bodies ∧ w'.colliders = w.colliders := by
  have hwf := (sound_ofSettings h₀).run h |>.wf
  obtain ⟨w₁, hw₁, htouch, hc, -, hcorr⟩ := updated_solids h₀ h
  obtain ⟨w', hm⟩ : ∃ w', w₁.move 1 = .ok w' :=
    exists_move_of_hasLimits (fun h c hget _ ↦ hasLimits_of_nonneg (hc h c hget).2) hcorr
  have hmoved := moved_move hm
  cases (updateContacts_eq (wf_updatePairs hwf)).symm.trans hw₁
  refine ⟨w', (step_of_updateContacts valid_one hw₁).trans hm,
    fun p hp ↦ hmoved.touches (htouch p hp), ?_, hmoved.colliders.trans (colliders_updated hwf)⟩
  rw [← bodies_updated hwf]
  exact hmoved.roster

/-- **Islands are independent.** In a step, solving an island depends on nothing but its own bodies
and contacts, and it makes no difference to bodies and contacts in which order the solutions are
committed. -/
theorem independent_islands (hw : w.Reachable) {dt : α} (hdt : Valid dt) :
    ∃ w₁, w.updatePairs.updateContacts = .ok w₁ ∧
      let step := TimeStep.of dt w₁.previousDt w₁.settings.gravity w₁.settings.solver
      (∀ I ∈ Island.partition w₁.bodies w₁.contacts, ∀ (bodies : Array (Body α)) (r : Registry α),
        (∀ i ∈ I.bodies, bodies[i]? = w₁.bodies[i]?) →
        (∀ h ∈ I.contacts, r.get? h = w₁.contacts.get? h) →
        I.solve bodies r step = I.solve w₁.bodies w₁.contacts step) ∧
      ∀ solutions, (Island.partition w₁.bodies w₁.contacts).mapM
          (·.solve w₁.bodies w₁.contacts step) = .ok solutions →
        ∃ w', w.step dt = .ok w' ∧ ∀ order : List (Solution α), order.Perm solutions →
          w'.bodies = (order.foldl commit w₁).bodies.map (·.clearForces) ∧
          w'.contacts = (order.foldl commit w₁).contacts := by
  obtain ⟨w₁, hw₁⟩ : ∃ w₁, w.updatePairs.updateContacts = .ok w₁ :=
    ⟨_, updateContacts_eq (wf_updatePairs hw.sound.wf)⟩
  refine ⟨w₁, hw₁, fun I _ bodies r hb hr ↦ I.solve_congr hb hr _, fun solutions hs ↦ ?_⟩
  refine ⟨_, (step_of_updateContacts hdt hw₁).trans (move_of_solutions hs), fun order hp ↦ ?_⟩
  obtain ⟨hb, hc⟩ := foldl_commit_of_perm hs hp
  rw [hb, hc]
  exact ⟨rfl, rfl⟩

/-- Of three discs the outer ones touch the one in the middle.  A further body makes no difference
to how they are solved, and their solutions may as well be committed from the last to the first. -/
theorem independent_solids : ∃ w w₁ w' : World ℝ Unit, w.Reachable ∧
    w.updatePairs.updateContacts = .ok w₁ ∧ w₁.Touches (.of 0 1) ∧ w₁.Touches (.of 0 2) ∧
    let step := TimeStep.of 1 w₁.previousDt w₁.settings.gravity w₁.settings.solver
    (∀ I ∈ Island.partition w₁.bodies w₁.contacts, ∀ b,
      I.solve (w₁.bodies.push b) w₁.contacts step = I.solve w₁.bodies w₁.contacts step) ∧
    ∃ solutions, (Island.partition w₁.bodies w₁.contacts).mapM
        (·.solve w₁.bodies w₁.contacts step) = .ok solutions ∧
      w.step 1 = .ok w' ∧
      w'.bodies = (solutions.reverse.foldl commit w₁).bodies.map (·.clearForces) ∧
      w'.contacts = (solutions.reverse.foldl commit w₁).contacts := by
  obtain ⟨w, w₁, hw, -, hw₁, htouch, hc, -, hcorr⟩ := exists_solids (σ := Unit) none
  obtain ⟨w₂, hw₂, hsolve, hcommit⟩ := independent_islands hw valid_one
  cases hw₁.symm.trans hw₂
  obtain ⟨solutions, hs⟩ := exists_solutions
    (.of 1 w₁.previousDt w₁.settings.gravity w₁.settings.solver)
    (fun h c hget _ ↦ hasLimits_of_nonneg (hc h c hget).2) hcorr
  obtain ⟨w', hstep, horder⟩ := hcommit solutions hs
  obtain ⟨hb, hr⟩ := horder solutions.reverse solutions.reverse_perm
  refine ⟨w, w₁, w', hw, hw₁, htouch _ (.inl rfl), htouch _ (.inr rfl), fun I hI b ↦ ?_,
    solutions, hs, hstep, hb, hr⟩
  refine hsolve I hI _ _ (fun i hi ↦ ?_) fun _ _ ↦ rfl
  rw [Array.getElem?_push, if_neg (Nat.ne_of_lt (Island.lt_size_of_mem_partition hI hi))]

end World

end PlanarDynamics
