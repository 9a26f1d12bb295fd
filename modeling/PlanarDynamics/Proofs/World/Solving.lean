import PlanarDynamics.Proofs.World.Audit

/-!
# Every contact is solved once

Once the contacts are up to date, those that are to be solved have points and join bodies of which
one moves.  So each of them is in an island, the solver of the island leaves none of its contacts
out, and the listener is told of each of them, once.  What can come in between is friction or a
correction whose bounds are out of order: then the step is given up.
-/

namespace PlanarDynamics

namespace World

variable {α σ : Type} [Scalar α] {w w₁ w' : World α σ}

/-! ## Contacts that are ready to be solved -/

theorem get?_refreshed_eq_some (hw : w.Wf) {h : Handle} {c : Contact α}
    (hc : w.refreshed.contacts.get? h = some c) : ∃ c₀, w.contacts.get? h = some c₀ ∧
      w.refuses c₀ = false ∧ c.setEnabled true = w.renewed c₀ := by
  have hr := get?_refreshed hw h
  rw [hc, Option.map_some, eq_comm, Option.bind_eq_some_iff] at hr
  obtain ⟨c₀, hc₀, he⟩ := hr
  obtain ⟨hr, he⟩ := Option.ite_none_left_eq_some.1 he
  exact ⟨c₀, hc₀, by simpa using hr, (Option.some.inj he).symm⟩

/-- Contacts join bodies that are there, one of which moves, and they have points if they touch. -/
structure Ready (w : World α σ) : Prop where
  points : ∀ h c, w.contacts.get? h = some c → c.HasPoints
  lt_size : ∀ h c, w.contacts.get? h = some c →
    c.bodyA < w.bodies.size ∧ c.bodyB < w.bodies.size
  moving : ∀ h c, w.contacts.get? h = some c →
    Island.IsMoving w.bodies c.bodyA ∨ Island.IsMoving w.bodies c.bodyB

theorem Wf.lt_size (hw : w.Wf) {h : Handle} {c : Contact α} (hc : w.contacts.get? h = some c) :
    c.bodyA < w.bodies.size ∧ c.bodyB < w.bodies.size := by
  obtain ⟨a, b, x, y, -, -, hx, hy, -⟩ := hw.exists_sides hc
  exact ⟨(Array.getElem?_eq_some_iff.1 hx).1, (Array.getElem?_eq_some_iff.1 hy).1⟩

omit [Scalar α] in
theorem isMoving_of_isDynamic {i : BodyId} {b : Body α} (hb : w.bodies[i]? = some b)
    (hd : b.isDynamic = true) : Island.IsMoving w.bodies i := by
  refine ⟨b, hb, ?_⟩
  have hk : b.kind = .dynamic := of_decide_eq_true hd
  simp [Body.isStatic, hk]

/-- Of two colliders that may touch, one is on a body that moves. -/
theorem Wf.isMoving (hw : w.Wf) {h : Handle} {c : Contact α} (hc : w.contacts.get? h = some c)
    (ha : w.Allows c.pair) :
    Island.IsMoving w.bodies c.bodyA ∨ Island.IsMoving w.bodies c.bodyB := by
  obtain ⟨a, b, hA, hB, hj⟩ := hw.joins h c hc
  obtain ⟨i, d, f, j, e, g, hi, hj', -, hde, -⟩ := mayTouch_iff.1 (allows_pair.1 ha)
  obtain ⟨a', x, hA', hai, hx, rfl, -⟩ := standing_eq_some_iff.1 hi
  obtain ⟨b', y, hB', hbj, hy, rfl, -⟩ := standing_eq_some_iff.1 hj'
  cases hA.symm.trans hA'
  cases hB.symm.trans hB'
  cases hj.bodyA.symm.trans hai
  cases hj.bodyB.symm.trans hbj
  rcases Bool.or_eq_true_iff.1 hde with hd | hd
  · exact .inl (isMoving_of_isDynamic hx hd)
  · exact .inr (isMoving_of_isDynamic hy hd)

/-- **Contacts that are up to date are ready.** -/
theorem Reachable.ready (hw : w.Reachable) : w.updatePairs.refreshed.Ready := by
  obtain ⟨hwf, ht⟩ := hw.sound
  have hwf₁ := wf_refreshed (wf_updatePairs hwf)
  refine ⟨fun h c hc ↦ hw.contacts_updated.hasPoints hc, fun h c hc ↦ hwf₁.lt_size hc,
    fun h c hc ↦ hwf₁.isMoving hc ?_⟩
  obtain ⟨c₀, hc₀, hr, he⟩ := get?_refreshed_eq_some (wf_updatePairs hwf) hc
  have hpair : c.pair = c₀.pair := by
    refine Contact.pair_eq_of_base ?_
    rw [← base_renewed (w := w.updatePairs) c₀, ← he, Contact.base_setEnabled]
  rw [hpair, (sameScene_refreshed (wf_updatePairs hwf)).allows_iff, allows_updatePairs hwf]
  exact (allows_of_get?_updatePairs hwf ht hc₀ hr).1

/-! ## Islands and their solvers -/

namespace Ready

variable {h : Handle} {I : Island} {step : TimeStep α} {solutions : List (Solution α)}
  (hw : w.Ready)

include hw

omit [Scalar α] in
/-- The contacts of the islands are those to be solved. -/
theorem mem_flatMap_contacts :
    h ∈ (Island.partition w.bodies w.contacts).flatMap (·.contacts) ↔
      ∃ c, w.contacts.get? h = some c ∧ c.isSolvable = true := by
  rw [List.mem_flatMap]
  constructor
  · rintro ⟨I, hI, hh⟩
    obtain ⟨_, -, -, _, c, hc, hs, -⟩ := (Island.mem_contacts_iff hI).1 hh
    exact ⟨c, hc, hs⟩
  · rintro ⟨c, hc, hs⟩
    obtain ⟨hA, hB⟩ := hw.lt_size h c hc
    exact Island.exists_mem_contacts hc hs hA hB (hw.moving h c hc)

/-- The solver of an island leaves out none of its contacts. -/
theorem exists_solver (hI : I ∈ Island.partition w.bodies w.contacts) (step : TimeStep α) :
    ∃ members, I.members w.bodies = .ok members ∧
      (I.solver members w.contacts step).constraints.map (·.handle) = I.contacts := by
  obtain ⟨members, hm⟩ :=
    Island.exists_members fun i (hi : i ∈ I.bodies) ↦ Island.lt_size_of_mem_partition hI hi
  have hn := (Island.isComponent_of_mem_partition hI).1.nodup
  refine ⟨members, hm, Island.handles_solver hm hn (fun h hh ↦ ?_) step⟩
  obtain ⟨_, -, -, _, c, hc, hs, hA, hB, -⟩ := (Island.mem_contacts_iff hI).1 hh
  have hb : Island.Binds w.bodies w.contacts h c.bodyA c.bodyB :=
    ⟨c, hc, hs, hA, hB, .inl ⟨rfl, rfl⟩⟩
  exact ⟨c, hc, Island.mem_bodies_of_mem_contacts hI hh hb,
    Island.mem_bodies_of_mem_contacts hI hh hb.symm, (hw.points h c hc).of_isSolvable hs⟩

/-- So the solutions have impulses for the contacts of the islands. -/
theorem flatMap_impulses (hs : (Island.partition w.bodies w.contacts).mapM
      (·.solve w.bodies w.contacts step) = .ok solutions) :
    solutions.flatMap (fun s ↦ s.impulses.map (·.1)) =
      (Island.partition w.bodies w.contacts).flatMap (·.contacts) := by
  rw [List.flatMap_def, List.flatMap_def]
  refine congrArg List.flatten (map_eq_of_mapM_eq_ok hs fun I hI s hsol ↦ ?_)
  obtain ⟨members, hm, hhandles⟩ := hw.exists_solver hI step
  obtain ⟨members', hm', himp, -⟩ := Island.of_solve_eq_ok hsol
  cases hm.symm.trans hm'
  exact himp.trans hhandles

end Ready

/-- The solutions have a state for each body that moves. -/
theorem mem_moved_iff {step : TimeStep α} {solutions : List (Solution α)}
    (hs : (Island.partition w.bodies w.contacts).mapM
      (·.solve w.bodies w.contacts step) = .ok solutions) {i : BodyId} :
    i ∈ solutions.flatMap (fun s ↦ s.bodies.map (·.1)) ↔ Island.IsMoving w.bodies i := by
  rw [List.mem_flatMap]
  constructor
  · rintro ⟨s, hmem, hi⟩
    obtain ⟨I, -, hsol⟩ := exists_of_mem_mapM hs hmem
    exact ((Island.mem_bodies_of_solve hsol).1 hi).2
  · intro hi
    obtain ⟨I, hI, hiI⟩ := Island.exists_mem_partition (r := w.contacts) hi
    obtain ⟨s, hmem, hsol⟩ := exists_mem_mapM hs hI
    exact ⟨s, hmem, (Island.mem_bodies_of_solve hsol).2 ⟨hiI, hi⟩⟩

/-! ## Steps that are given up -/

/-- Solving an island fails at most for bounds that are out of order. -/
theorem fault_of_solve {I : Island} (hI : I ∈ Island.partition w.bodies w.contacts)
    (step : TimeStep α) : FaultsOnly (· = .clampBounds) (I.solve w.bodies w.contacts step) :=
  I.faultsOnly_solve (P := fun _ ↦ True) (fun c r v _ ↦ r.fault_of_solve c v)
    (fun _ _ _ _ ↦ trivial) (fun _ hi ↦ Island.lt_size_of_mem_partition hI hi)
    (fun _ ↦ faultsOnly_clampWithin _ _ _)

/-- Moving is given up exactly if there is an island that cannot be solved. -/
theorem move_eq_error_iff {dt : α} {f : Fault} : w.move dt = .error f ↔ f = .clampBounds ∧
    ∃ I ∈ Island.partition w.bodies w.contacts, I.solve w.bodies w.contacts
      (TimeStep.of dt w.previousDt w.settings.gravity w.settings.solver) = .error .clampBounds := by
  cases hs : (Island.partition w.bodies w.contacts).mapM (·.solve w.bodies w.contacts
      (TimeStep.of dt w.previousDt w.settings.gravity w.settings.solver)) with
  | ok solutions =>
    rw [move_of_solutions hs]
    constructor
    · rintro ⟨⟩
    · rintro ⟨-, I, hI, hf⟩
      obtain ⟨s, -, hsol⟩ := exists_mem_mapM hs hI
      cases hsol.symm.trans hf
  | error f' =>
    have hf' : f' = .clampBounds ∧ ∃ I ∈ Island.partition w.bodies w.contacts,
        I.solve w.bodies w.contacts
          (TimeStep.of dt w.previousDt w.settings.gravity w.settings.solver) = .error f' := by
      refine faultsOnly_mapM (p := fun f ↦ f = .clampBounds ∧
        ∃ I ∈ Island.partition w.bodies w.contacts, I.solve w.bodies w.contacts
          (TimeStep.of dt w.previousDt w.settings.gravity w.settings.solver) = .error f) ?_ f' hs
      exact fun I hI f hf ↦ ⟨fault_of_solve hI _ f hf, I, hI, hf⟩
    obtain ⟨rfl, hI⟩ := hf'
    have hmove : w.move dt = .error .clampBounds := by
      rw [move, hs]
      rfl
    rw [hmove, Except.error.injEq, eq_comm]
    exact (and_iff_left hI).symm

/-! ## What the listener is told -/

/-- The listener is asked about each contact that touches and has no sensor. -/
theorem asks_of_get? (hw : w.Wf) {h : Handle} {c : Contact α}
    (hc : w.refreshed.contacts.get? h = some c) (ht : c.touching = true) (hs : c.sensor = false) :
    h ∈ (w.contacts.entries.map (·.1)).filter w.asks := by
  obtain ⟨c₀, hc₀, hr, he⟩ := get?_refreshed_eq_some hw hc
  refine List.mem_filter.2 ⟨List.mem_map.2 ⟨(h, c₀), Registry.mem_entries.2 hc₀, rfl⟩, ?_⟩
  have hask : (w.renewed c₀).touching = true ∧ (w.renewed c₀).sensor = false := by
    rw [← he]
    exact ⟨ht, hs⟩
  simp [asks, hc₀, hr, hask]

section

variable {l : Listener α σ} {w w₁ w' : World α (σ × List (Report α))} {x : σ}
  {reports : List (Report α)} {dt : α}

theorem hears_updated (hw : w.Wf) : Hears l w w.updatePairs.refreshed
    (Consulted l w.updatePairs.refreshed
      ((w.updatePairs.contacts.entries.map (·.1)).filter w.updatePairs.asks)) :=
  (hears_updatePairs w).after_silence (hears_refreshed (wf_updatePairs hw))

/-- A listener that never refuses leaves all contacts enabled. -/
theorem enabled_of_consent (hw : w.Wf) (hl : w.listener = some (l.auditedAt x reports))
    (hconsent : ∀ a, l.Answers a → a.2 = true) {h : Handle} {c : Contact α}
    (hc : w.updatePairs.refreshed.contacts.get? h = some c) (ht : c.touching = true)
    (hs : c.sensor = false) : c.enabled = true := by
  obtain ⟨x', new, -, hnew⟩ := hears_updated hw x reports hl
  have hmem := asks_of_get? (wf_updatePairs hw) hc ht hs
  rw [← hnew.asked] at hmem
  obtain ⟨a, ha, rfl⟩ := List.mem_map.1 hmem
  obtain ⟨c', hc', he⟩ := hnew.enabled a ha
  cases hc.symm.trans hc'
  exact he.trans (hconsent a (hnew.answers a ha))

/-- When the solutions are committed, the listener is told of the contacts of the islands. -/
theorem Ready.hears_commit (hw : w.Ready) {step : TimeStep α} {solutions : List (Solution α)}
    (hs : (Island.partition w.bodies w.contacts).mapM
      (·.solve w.bodies w.contacts step) = .ok solutions) :
    Hears l w (solutions.foldl commit w)
      (Tells ((Island.partition w.bodies w.contacts).flatMap (·.contacts))) := by
  rw [← hw.flatMap_impulses hs]
  refine hears_foldl_commit fun s hmem h hh ↦ ?_
  have hmem : h ∈ solutions.flatMap fun s ↦ s.impulses.map (·.1) :=
    List.mem_flatMap.2 ⟨s, hmem, hh⟩
  rw [hw.flatMap_impulses hs, hw.mem_flatMap_contacts] at hmem
  obtain ⟨c, hc, -⟩ := hmem
  rw [hc]
  rfl

/-- **Every contact is solved and reported once.** In a step of a world with a listener, once the
contacts are up to date: no solver leaves out a contact of its island.  The step is given up exactly
if an island has bounds out of order, and never where friction and corrections have limits.
Otherwise the listener is told of those contacts that touch, are enabled and have no sensor, once
each, and of none that it refused; and the solutions that are committed have one state for each body
that moves. -/
theorem solved_once (hw : w.Reachable) (hl : w.listener = some (l.auditedAt x reports))
    (hdt : Valid dt) : ∃ w₁, w.updatePairs.updateContacts = .ok w₁ ∧
      let step := TimeStep.of dt w₁.previousDt w₁.settings.gravity w₁.settings.solver
      let islands := Island.partition w₁.bodies w₁.contacts
      (∀ I ∈ islands, ∃ members, I.members w₁.bodies = .ok members ∧
        (I.solver members w₁.contacts step).constraints.map (·.handle) = I.contacts) ∧
      (∀ f, w.step dt = .error f ↔ f = .clampBounds ∧
        ∃ I ∈ islands, I.solve w₁.bodies w₁.contacts step = .error .clampBounds) ∧
      ((∀ h c, w₁.contacts.get? h = some c → c.isSolvable = true → HasLimits c.friction) →
        -step.settings.maxLinearCorrection ≤ 0 → ∃ w', w.step dt = .ok w') ∧
      ∀ w', w.step dt = .ok w' →
        (∃ x' new, w'.listener = some (l.auditedAt x' (reports ++ new)) ∧
          (solvedIn new).Nodup ∧
          (∀ h, h ∈ solvedIn new ↔ ∃ c, w₁.contacts.get? h = some c ∧ c.touching = true ∧
            c.enabled = true ∧ c.sensor = false) ∧
          ∀ h, (h, false) ∈ answersIn new → h ∉ solvedIn new) ∧
        ∃ solutions, islands.mapM (·.solve w₁.bodies w₁.contacts step) = .ok solutions ∧
          w'.bodies = (solutions.foldl commit w₁).bodies.map (·.clearForces) ∧
          (solutions.flatMap fun s ↦ s.bodies.map (·.1)).Nodup ∧
          ∀ i, i ∈ solutions.flatMap (fun s ↦ s.bodies.map (·.1)) ↔
            Island.IsMoving w₁.bodies i := by
  have hwf := hw.sound.wf
  obtain ⟨x₁, new₁, hl₁, hnew₁⟩ := hears_updated hwf x reports hl
  have hready := hw.ready
  have hw₁ : w.updatePairs.updateContacts = .ok w.updatePairs.refreshed :=
    updateContacts_eq (wf_updatePairs hwf)
  generalize w.updatePairs.refreshed = w₁ at *
  rw [step_of_updateContacts hdt hw₁]
  refine ⟨w₁, hw₁, fun I hI ↦ hready.exists_solver hI _, fun f ↦ move_eq_error_iff,
    exists_move_of_hasLimits, fun w' hm ↦ ?_⟩
  obtain ⟨solutions, hs, rfl⟩ := of_move_eq_ok hm
  obtain ⟨x₂, new₂, hl₂, hsolved, hanswers⟩ := hready.hears_commit hs x₁ _ hl₁
  have hsolved : solvedIn (new₁ ++ new₂) =
      (Island.partition w₁.bodies w₁.contacts).flatMap (·.contacts) := by
    rw [solvedIn_append, hnew₁.solved, hsolved, List.nil_append]
  have hmem : ∀ h, h ∈ solvedIn (new₁ ++ new₂) ↔ ∃ c, w₁.contacts.get? h = some c ∧
      c.touching = true ∧ c.enabled = true ∧ c.sensor = false := by
    intro h
    rw [hsolved, hready.mem_flatMap_contacts]
    simp only [Contact.isSolvable, Bool.and_eq_true, Bool.not_eq_true', and_assoc]
  refine ⟨⟨x₂, new₁ ++ new₂, ?_, ?_, hmem, fun h hrefused hh ↦ ?_⟩, solutions, hs, rfl,
    Island.nodup_moved hs, fun i ↦ mem_moved_iff hs⟩
  · rw [← List.append_assoc]
    exact hl₂
  · rw [hsolved]
    exact Island.nodup_flatMap_contacts w₁.bodies w₁.contacts
  · rw [answersIn_append, hanswers, List.append_nil] at hrefused
    obtain ⟨c, hc, he⟩ := hnew₁.enabled _ hrefused
    obtain ⟨c', hc', -, he', -⟩ := (hmem h).1 hh
    cases hc.symm.trans hc'
    cases he.symm.trans he'

/-- Three discs, of which the outer ones touch the one in the middle.  A listener that refuses
nothing is told of both contacts, once each. -/
theorem solids_solved_once : ∃ w w₁ w' : World ℝ (Unit × List (Report ℝ)), ∃ new,
    w.Reachable ∧ w.listener = some ((Listener.silent ()).auditedAt () []) ∧
    w.updatePairs.updateContacts = .ok w₁ ∧ w.step 1 = .ok w' ∧
    w'.listener = some ((Listener.silent ()).auditedAt () new) ∧ (solvedIn new).Nodup ∧
    ∀ p, p = .of 0 1 ∨ p = .of 0 2 →
      ∃ h c, w₁.contacts.get? h = some c ∧ c.pair = p ∧ h ∈ solvedIn new := by
  obtain ⟨w, w₁, hw, hl, hw₁, htouch, hc, -, hcorr⟩ :=
    exists_solids (some ((Listener.silent ()).auditedAt () []))
  obtain ⟨w₂, hw₂, -, -, hexists, hstep⟩ := solved_once hw hl valid_one
  cases hw₁.symm.trans hw₂
  obtain ⟨w', hw'⟩ := hexists (fun h c hget _ ↦ hasLimits_of_nonneg (hc h c hget).2) hcorr
  obtain ⟨⟨x', new, hl', hn, hmem, -⟩, -⟩ := hstep w' hw'
  refine ⟨w, w₁, w', new, hw, hl, hw₁, hw', hl', hn, fun p hp ↦ ?_⟩
  obtain ⟨h, c, hget, hcp, ht⟩ := htouch p hp
  refine ⟨h, c, hget, hcp, (hmem h).2 ⟨c, hget, ht, ?_, (hc h c hget).1⟩⟩
  have hwf := hw.sound.wf
  cases (updateContacts_eq (wf_updatePairs hwf)).symm.trans hw₁
  exact enabled_of_consent hwf hl (fun _ ↦ Listener.answers_silent) hget ht (hc h c hget).1

end

end World

end PlanarDynamics
