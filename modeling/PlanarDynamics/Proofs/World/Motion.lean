import PlanarDynamics.Proofs.Solver.Coasting
import PlanarDynamics.Proofs.World.Solving

/-!
# What a step does to bodies

Solutions are committed body by body, and no body is in two of them.  So the state of a body after a
step comes from the one solution that has it: none for a static body, which stays where it is, and
for a body that nothing holds the one of an island of its own, where it moves by itself.  Whatever
else a body is made of no step changes.
-/

namespace PlanarDynamics

section Writes

variable {β γ : Type} {f : γ → β → β} {l : List (Nat × γ)} {i : Nat}

theorem size_foldl_modify (l : List (Nat × γ)) (xs : Array β) :
    (l.foldl (fun xs e ↦ xs.modify e.1 (f e.2)) xs).size = xs.size := by
  induction l generalizing xs with
  | nil => rfl
  | cons e l ih => rw [List.foldl_cons, ih, Array.size_modify]

/-- Updates that do not name an entry leave it. -/
theorem getElem?_foldl_modify_of_notMem (h : i ∉ l.map (·.1)) (xs : Array β) :
    (l.foldl (fun xs e ↦ xs.modify e.1 (f e.2)) xs)[i]? = xs[i]? := by
  induction l generalizing xs with
  | nil => rfl
  | cons e l ih =>
    rw [List.map_cons, List.mem_cons, not_or] at h
    rw [List.foldl_cons, ih h.2, Array.getElem?_modify, if_neg (Ne.symm h.1)]

/-- An entry that is named once is updated once. -/
theorem getElem?_foldl_modify_of_mem (hn : (l.map (·.1)).Nodup) {c : γ} (h : (i, c) ∈ l)
    (xs : Array β) :
    (l.foldl (fun xs e ↦ xs.modify e.1 (f e.2)) xs)[i]? = xs[i]?.map (f c) := by
  induction l generalizing xs with
  | nil => cases h
  | cons e l ih =>
    obtain ⟨he, hn⟩ := List.nodup_cons.1 hn
    rw [List.foldl_cons]
    rcases List.mem_cons.1 h with rfl | h
    · rw [getElem?_foldl_modify_of_notMem he, Array.getElem?_modify, if_pos rfl]
    · have hne : e.1 ≠ i := fun hei ↦ he (List.mem_map.2 ⟨(i, c), h, hei.symm⟩)
      rw [ih hn h, Array.getElem?_modify, if_neg hne]

end Writes

namespace Body

variable {α : Type}

/-- What a step leaves of a body whatever happens to it: all but where it is, how it moves and the
forces on it. -/
structure SameMake (b b' : Body α) : Prop where
  kind : b'.kind = b.kind
  colliders : b'.colliders = b.colliders
  mass : b'.mass = b.mass
  invMass : b'.invMass = b.invMass
  inertia : b'.inertia = b.inertia
  invInertia : b'.invInertia = b.invInertia
  localCenter : b'.localCenter = b.localCenter
  linearDamping : b'.linearDamping = b.linearDamping
  angularDamping : b'.angularDamping = b.angularDamping
  gravityScale : b'.gravityScale = b.gravityScale

variable [Scalar α]

theorem sameMake_clearForces (b : Body α) : b.SameMake b.clearForces :=
  ⟨rfl, rfl, rfl, rfl, rfl, rfl, rfl, rfl, rfl, rfl⟩

theorem sameMake_moveTo (b : Body α) (p : Placement α) (v : Velocity α) :
    b.SameMake (b.moveTo p v).clearForces :=
  ⟨rfl, rfl, rfl, rfl, rfl, rfl, rfl, rfl, rfl, rfl⟩

end Body

namespace World

variable {α σ : Type} [Scalar α] {w w₁ w' : World α σ} {dt : α} {i : BodyId} {b : Body α}

/-- The length of the step and what else the solver is told of it. -/
def timeStep (w : World α σ) (dt : α) : TimeStep α :=
  .of dt w.previousDt w.settings.gravity w.settings.solver

/-- No contact that is to be solved is one of the body. -/
def IsFree (w : World α σ) (i : BodyId) : Prop :=
  ∀ h c, w.contacts.get? h = some c → c.isSolvable = true → c.bodyA ≠ i ∧ c.bodyB ≠ i

omit [Scalar α] in
theorem IsFree.not_binds (hi : w.IsFree i) (h : Handle) (j : BodyId) :
    ¬ Island.Binds w.bodies w.contacts h i j := by
  rintro ⟨c, hc, hs, -, -, ⟨hA, -⟩ | ⟨-, hB⟩⟩
  · exact (hi h c hc hs).1 hA
  · exact (hi h c hc hs).2 hB

/-- A contact is one of bodies with colliders. -/
theorem Wf.isFree (hw : w.Wf) (hb : w.bodies[i]? = some b) (hnil : b.colliders = []) :
    w.IsFree i := by
  intro h c hc _
  obtain ⟨a₁, a₂, h₁, h₂, hj⟩ := hw.joins h c hc
  have hne : ∀ {k : ColliderId} {a : Collider α} {j : BodyId}, w.colliders[k]? = some a →
      a.body = some j → j ≠ i := by
    rintro k a j ha haj rfl
    obtain ⟨j', b', haj', hb', hmem⟩ := hw.owned k a ha
    cases haj.symm.trans haj'
    cases hb.symm.trans hb'
    rw [hnil] at hmem
    cases hmem
  exact ⟨hne h₁ hj.bodyA, hne h₂ hj.bodyB⟩

/-! ## States that are committed -/

/-- The bodies after a step are those before it, each with the state that was found for it. -/
theorem bodies_move (h : w.move dt = .ok w') : ∃ solutions,
    (Island.partition w.bodies w.contacts).mapM
      (·.solve w.bodies w.contacts (w.timeStep dt)) = .ok solutions ∧
    w'.bodies = ((solutions.flatMap (·.bodies)).foldl
      (fun bodies e ↦ bodies.modify e.1 (·.moveTo e.2.1 e.2.2)) w.bodies).map (·.clearForces) := by
  obtain ⟨solutions, hs, rfl⟩ := of_move_eq_ok h
  refine ⟨solutions, hs, congrArg (Array.map _) ?_⟩
  rw [bodies_foldl_commit, List.foldl_flatMap]
  rfl

theorem size_bodies_move (h : w.move dt = .ok w') : w'.bodies.size = w.bodies.size := by
  obtain ⟨solutions, -, hb⟩ := bodies_move h
  rw [hb, Array.size_map]
  exact size_foldl_modify (f := fun (s : Placement α × Velocity α) (b : Body α) ↦ b.moveTo s.1 s.2)
    (solutions.flatMap (·.bodies)) w.bodies

/-- A static body is in no solution. -/
theorem getElem?_move_of_isStatic (h : w.move dt = .ok w') (hb : w.bodies[i]? = some b)
    (hs : b.isStatic = true) : w'.bodies[i]? = some b.clearForces := by
  obtain ⟨solutions, hsol, hbodies⟩ := bodies_move h
  have hi : i ∉ (solutions.flatMap (·.bodies)).map (·.1) := by
    rw [List.map_flatMap, mem_moved_iff hsol]
    rintro ⟨b', hb', hs'⟩
    cases hb.symm.trans hb'
    rw [hs] at hs'
    cases hs'
  have hget := getElem?_foldl_modify_of_notMem
    (f := fun (s : Placement α × Velocity α) (b : Body α) ↦ b.moveTo s.1 s.2) hi w.bodies
  rw [hb] at hget
  rw [hbodies, Array.getElem?_map]
  exact congrArg (Option.map _) hget

/-- A body that moves gets the state that the solution of its island has for it. -/
theorem getElem?_move_of_mem {I : Island} {s : Solution α} {p : Placement α} {v : Velocity α}
    (h : w.move dt = .ok w') (hb : w.bodies[i]? = some b)
    (hI : I ∈ Island.partition w.bodies w.contacts)
    (hs : I.solve w.bodies w.contacts (w.timeStep dt) = .ok s) (hi : (i, p, v) ∈ s.bodies) :
    w'.bodies[i]? = some (b.moveTo p v).clearForces := by
  obtain ⟨solutions, hsol, hbodies⟩ := bodies_move h
  obtain ⟨s', hmem, hs'⟩ := exists_mem_mapM hsol hI
  cases hs.symm.trans hs'
  have hn := Island.nodup_moved hsol
  rw [← List.map_flatMap] at hn
  have hget := getElem?_foldl_modify_of_mem
    (f := fun (s : Placement α × Velocity α) (b : Body α) ↦ b.moveTo s.1 s.2) hn
    (List.mem_flatMap.2 ⟨s, hmem, hi⟩) w.bodies
  rw [hb] at hget
  rw [hbodies, Array.getElem?_map]
  exact congrArg (Option.map _) hget

theorem exists_getElem?_move (h : w.move dt = .ok w') (hb : w.bodies[i]? = some b)
    (hs : b.isStatic = false) : ∃ p v, w'.bodies[i]? = some (b.moveTo p v).clearForces := by
  obtain ⟨solutions, hsol, -⟩ := bodies_move h
  obtain ⟨I, hI, hiI⟩ := Island.exists_mem_partition (r := w.contacts) ⟨b, hb, hs⟩
  obtain ⟨s, -, hsI⟩ := exists_mem_mapM hsol hI
  obtain ⟨⟨_, p, v⟩, hmem, rfl⟩ :=
    List.mem_map.1 ((Island.mem_bodies_of_solve hsI).2 ⟨hiI, b, hb, hs⟩)
  exact ⟨p, v, getElem?_move_of_mem h hb hI hsI hmem⟩

/-- A body that nothing holds moves by itself. -/
theorem getElem?_move_of_isFree (h : w.move dt = .ok w') (hb : w.bodies[i]? = some b)
    (hs : b.isStatic = false) (hi : w.IsFree i) :
    w'.bodies[i]? = some (b.coast (w.timeStep dt)).clearForces := by
  obtain ⟨I, hI, hiI⟩ := Island.exists_mem_partition (r := w.contacts) ⟨b, hb, hs⟩
  obtain ⟨solved, hsI⟩ := Island.bodies_of_solve_of_free hI hiI hb hs hi.not_binds (w.timeStep dt)
  exact getElem?_move_of_mem h hb hI hsI (List.mem_singleton.2 rfl)

/-- What moving makes of a body. -/
theorem getElem?_move (h : w.move dt = .ok w') (hb : w.bodies[i]? = some b) :
    ∃ b', w'.bodies[i]? = some b' ∧ b.SameMake b' ∧ b'.force = 0 ∧ b'.torque = 0 ∧
      (b.isStatic = true → b' = b.clearForces) ∧
      (b.isStatic = false → w.IsFree i → b' = (b.coast (w.timeStep dt)).clearForces) := by
  cases hs : b.isStatic with
  | true =>
    refine ⟨b.clearForces, getElem?_move_of_isStatic h hb hs, b.sameMake_clearForces, rfl, rfl,
      fun _ ↦ rfl, fun hs' ↦ ?_⟩
    cases hs'
  | false =>
    obtain ⟨p, v, hi⟩ := exists_getElem?_move h hb hs
    refine ⟨_, hi, b.sameMake_moveTo p v, rfl, rfl, fun hs' ↦ ?_, fun _ hfree ↦ ?_⟩
    · cases hs'
    · exact Option.some.inj (hi.symm.trans (getElem?_move_of_isFree h hb hs hfree))

/-! ## Steps -/

theorem timeStep_updated (hw : w.Wf) (dt : α) :
    w.updatePairs.refreshed.timeStep dt = w.timeStep dt := by
  have hs := sameScene_updated hw
  have hg := sameButGrid_regrid (w := w)
  simp only [timeStep, hs.settings, hs.previousDt, hg.settings, hg.previousDt]

/-- An island that cannot be solved has contacts. -/
theorem contacts_ne_nil_of_solve {I : Island} (hI : I ∈ Island.partition w.bodies w.contacts)
    {step : TimeStep α} {f : Fault} (h : I.solve w.bodies w.contacts step = .error f) :
    I.contacts ≠ [] := by
  intro hnil
  obtain ⟨s, hs⟩ := Island.exists_solve w.contacts step hnil
    fun i hi ↦ Island.lt_size_of_mem_partition hI hi
  cases hs.symm.trans h

/-- **What a step does to bodies.** It is given up exactly if an island with contacts has bounds out
of order, and never where friction and corrections have limits.  Otherwise every body keeps its make
and is free of forces afterwards; a static body stays as it is, whatever it is in contact with; and
a body that is in no contact to be solved moves by itself, whatever other bodies there are. -/
theorem frame_of_step (hw : w.Reachable) (hdt : Valid dt) :
    ∃ w₁, w.updatePairs.updateContacts = .ok w₁ ∧
      (∀ f, w.step dt = .error f ↔ f = .clampBounds ∧
        ∃ I ∈ Island.partition w.bodies w₁.contacts, I.contacts ≠ [] ∧
          I.solve w.bodies w₁.contacts (w.timeStep dt) = .error .clampBounds) ∧
      ((∀ h c, w₁.contacts.get? h = some c → c.isSolvable = true → HasLimits c.friction) →
        -w.settings.solver.maxLinearCorrection ≤ 0 → ∃ w', w.step dt = .ok w') ∧
      ∀ w', w.step dt = .ok w' → w'.bodies.size = w.bodies.size ∧
        ∀ (i : BodyId) (b : Body α), w.bodies[i]? = some b → ∃ b', w'.bodies[i]? = some b' ∧
          b.SameMake b' ∧ b'.force = 0 ∧ b'.torque = 0 ∧
          (b.isStatic = true → b' = b.clearForces) ∧
          (b.isStatic = false → w₁.IsFree i → b' = (b.coast (w.timeStep dt)).clearForces) := by
  have hwf := hw.sound.wf
  have hw₁ : w.updatePairs.updateContacts = .ok w.updatePairs.refreshed :=
    updateContacts_eq (wf_updatePairs hwf)
  have hstep := timeStep_updated hwf dt
  have hsettings : w.updatePairs.refreshed.settings = w.settings :=
    (sameScene_updated hwf).settings.trans sameButGrid_regrid.settings
  refine ⟨_, hw₁, ?_⟩
  rw [← bodies_updated hwf, ← hstep, ← hsettings, step_of_updateContacts hdt hw₁]
  generalize w.updatePairs.refreshed = w₁
  refine ⟨fun f ↦ ?_, exists_move_of_hasLimits, fun w' h ↦ ⟨size_bodies_move h, fun i b hb ↦ ?_⟩⟩
  · rw [move_eq_error_iff]
    refine and_congr_right fun _ ↦ exists_congr fun I ↦ and_congr_right fun hI ↦ ?_
    exact (and_iff_right_of_imp (contacts_ne_nil_of_solve hI)).symm
  · exact getElem?_move h hb

/-- Three discs that touch, and far from contacts a body without colliders.  In a step the disc in
the middle stays and the further body falls. -/
theorem frame_of_solids : ∃ w w' : World ℝ Unit, w.Reachable ∧ w.Touches (.of 0 1) ∧
    w.step 1 = .ok w' ∧ (∃ b, w.bodies[0]? = some b ∧ b.isStatic = true ∧
      w'.bodies[0]? = some b.clearForces) ∧
    w.bodies[3]? = some (.ofKind .dynamic 0) ∧
    w'.bodies[3]? = some ((Body.ofKind .dynamic 0).coast (w.timeStep 1)).clearForces := by
  obtain ⟨w₀, h₀⟩ := exists_ofSettings_default Unit
  obtain ⟨w₁, h₁⟩ : ∃ w₁, w₀.run (solids none) = .ok w₁ := ⟨_, rfl⟩
  obtain ⟨w₃, hstep, htouch, hroster, -⟩ := exists_step_solids h₀ h₁
  let w := (w₃.addBody (.ofKind .dynamic 0)).2.changeSettings .default
  have hrun : w₀.run (solids none ++ [.step 1, .addBody (.ofKind .dynamic 0),
      .changeSettings .default]) = .ok w :=
    run_append.2 ⟨w₁, h₁, run_cons.2 ⟨w₃, hstep, rfl⟩⟩
  have hw : w.Reachable := ⟨_, _, w₀, h₀, hrun⟩
  have hm : w.contacts.frictionMixing = .geometricMean := by
    rw [(leads_run (wf_ofSettings h₀) hrun).frictionMixing_eq]
    obtain ⟨-, rfl⟩ := ofSettings_eq_ok_iff.1 h₀
    rfl
  -- The step before has left the bodies what they are.
  have hbears := (run_solids h₀ h₁).2
  obtain ⟨b₁, hb₁, -, hk₁⟩ := hbears.exists_body (i := 0) rfl rfl
  obtain ⟨b, hb, hk, -⟩ := hroster.exists_of_mem hb₁
  have hsize : w₃.bodies.size = 3 := by
    rw [hroster.size_eq]
    simpa using congrArg Array.size hbears.kinds
  have h0 : w.bodies[0]? = some b := by
    change (w₃.bodies.push _)[0]? = _
    rw [Array.getElem?_push, if_neg (by rw [hsize]; decide), hb]
  have h3 : w.bodies[3]? = some (.ofKind .dynamic 0) := by
    change (w₃.bodies.push _)[3]? = _
    rw [← hsize, Array.getElem?_push_size]
    rfl
  obtain ⟨w₄, hw₄, -, hexists, hframe⟩ := frame_of_step hw valid_one
  cases (updateContacts_eq (wf_updatePairs hw.sound.wf)).symm.trans hw₄
  obtain ⟨w', hw'⟩ := hexists
    (fun h c hget _ ↦ hasLimits_of_nonneg (friction_updated hw hm hget))
    (by norm_num [w, changeSettings, WorldSettings.default, SolverSettings.default])
  obtain ⟨-, hbodies⟩ := hframe w' hw'
  obtain ⟨_, hb', -, -, -, hstatic, -⟩ := hbodies 0 b h0
  obtain ⟨_, hc', -, -, -, -, hfree⟩ := hbodies 3 _ h3
  have hs : b.isStatic = true := decide_eq_true (hk.trans hk₁)
  rw [hstatic hs] at hb'
  rw [hfree rfl ?_] at hc'
  · exact ⟨w, w', hw, htouch _ (.inl rfl), hw', ⟨b, h0, hs, hb'⟩, h3, hc'⟩
  · rw [← bodies_updated hw.sound.wf] at h3
    exact (wf_refreshed (wf_updatePairs hw.sound.wf)).isFree h3 rfl

end World

end PlanarDynamics
