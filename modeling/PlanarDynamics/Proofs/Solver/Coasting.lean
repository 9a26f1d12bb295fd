import PlanarDynamics.Proofs.Solver.Solution

/-!
# Bodies that nothing holds

A body without contacts to be solved is alone in its island.  It goes through the same solver as all
others, which has nothing to do for it: it takes up its forces and moves on, `Body.coast`, whatever
other bodies are there.
-/

namespace PlanarDynamics

variable {α : Type} [Scalar α]

/-! ## Motion without contacts -/

/-- The velocity that a body takes up in a step by itself. -/
def Body.coastVelocity (step : TimeStep α) (b : Body α) : Velocity α :=
  (b.accelerate step.gravity step.dt b.motion).limit step.dt step.settings

/-- Where a body gets in a step by itself. -/
def Body.coastPlacement (step : TimeStep α) (b : Body α) : Placement α :=
  b.placement.advance (b.coastVelocity step) step.dt

/-- The body after a step by itself: the velocity takes up gravity, forces and damping, and the body
follows it. -/
def Body.coast (step : TimeStep α) (b : Body α) : Body α :=
  b.moveTo (b.coastPlacement step) (b.coastVelocity step)

namespace Solver

variable {s : Solver α}

theorem prepare_eq_ok (h : s.constraints = []) (ps : Array (Placement α))
    (vs : Array (Velocity α)) : s.prepare ps vs = .ok s := by
  obtain ⟨step, constraints⟩ := s
  cases h
  rfl

theorem warmStart_eq (h : s.constraints = []) (vs : Array (Velocity α)) : s.warmStart vs = vs := by
  rw [warmStart, h]
  rfl

theorem velocityPasses_eq_ok (h : s.constraints = []) (n : Nat) (vs : Array (Velocity α)) :
    velocityPasses n s vs = .ok (s, vs) := by
  induction n with
  | zero => rfl
  | succ n ih =>
    have hpass : s.velocityPass vs = .ok (s, vs) := by
      obtain ⟨step, constraints⟩ := s
      cases h
      rfl
    rw [velocityPasses, hpass]
    exact ih

theorem exists_positionPasses (h : s.constraints = []) (n : Nat) (ps : Array (Placement α)) :
    ∃ solved, positionPasses n s ps = .ok (ps, solved) := by
  induction n with
  | zero => exact ⟨_, rfl⟩
  | succ n ih =>
    have hpass : ∃ b, s.positionPass ps = .ok (ps, b) := by
      obtain ⟨step, constraints⟩ := s
      cases h
      exact ⟨_, rfl⟩
    obtain ⟨b, hb⟩ := hpass
    rw [positionPasses, hb]
    cases b with
    | true => exact ⟨_, rfl⟩
    | false => exact ih

end Solver

namespace Island

variable {island : Island} {bodies : Array (Body α)} {r : Registry α} {i : BodyId}
  {members : List (BodyId × Body α)}

/-- Without contacts, each member of an island moves by itself. -/
theorem solve_of_contacts_eq_nil (hc : island.contacts = [])
    (hm : island.members bodies = .ok members) (r : Registry α) (step : TimeStep α) :
    ∃ solved, island.solve bodies r step = .ok {
      bodies := members.filterMap fun m ↦
        if m.2.isStatic then none else some (m.1, m.2.coastPlacement step, m.2.coastVelocity step)
      impulses := []
      solved } := by
  have hnil : (island.solver members r step).constraints = [] := by
    rw [solver, current, hc]
    rfl
  have hv : island.solveVelocities members r step step.settings.velocityIterations
      (fun m ↦ m.2.accelerate step.gravity step.dt m.2.motion) = .ok (island.solver members r step,
        (members.map fun m ↦ m.2.accelerate step.gravity step.dt m.2.motion).toArray) := by
    rw [solveVelocities, Solver.prepare_eq_ok hnil]
    simp only [bind, Except.bind]
    rw [Solver.velocityPasses_eq_ok hnil, Solver.warmStart_eq hnil]
  have hvelocities : (members.map fun m ↦ m.2.accelerate step.gravity step.dt
      m.2.motion).toArray.map (·.limit step.dt step.settings) =
        (members.map (·.2.coastVelocity step)).toArray := by
    rw [List.map_toArray, List.map_map]
    rfl
  have hplacements : Array.zipWith (·.advance · step.dt) (members.map (·.2.placement)).toArray
      (members.map (·.2.coastVelocity step)).toArray =
        (members.map (·.2.coastPlacement step)).toArray := by
    rw [List.zipWith_toArray, List.zipWith_map, List.zipWith_self]
    rfl
  obtain ⟨solved, hp⟩ := Solver.exists_positionPasses hnil step.settings.positionIterations
    (members.map (·.2.coastPlacement step)).toArray
  have hzip : members.zip ((members.map (·.2.coastPlacement step)).zip
      (members.map (·.2.coastVelocity step))) =
        members.map fun m ↦ (m, m.2.coastPlacement step, m.2.coastVelocity step) := by
    rw [List.zip_map', List.zip, List.zipWith_map_right, List.zipWith_self]
  refine ⟨solved, ?_⟩
  simp only [solve_eq, hm, hv, bind, Except.bind, hvelocities, hplacements, hp, hzip,
    List.filterMap_map]
  rw [Solver.impulses, hnil]
  rfl

/-- So there is always a solution. -/
theorem exists_solve (r : Registry α) (step : TimeStep α) (hc : island.contacts = [])
    (hb : ∀ i ∈ island.bodies, i < bodies.size) : ∃ s, island.solve bodies r step = .ok s := by
  obtain ⟨members, hm⟩ := exists_members hb
  obtain ⟨solved, hs⟩ := solve_of_contacts_eq_nil hc hm r step
  exact ⟨_, hs⟩

/-! ## Islands of one body -/

omit [Scalar α] in
/-- A body that moves and is in no contact to be solved is alone in its island. -/
theorem eq_singleton_of_free {I : Island} (hI : I ∈ partition bodies r) (hi : i ∈ I.bodies)
    (hmov : IsMoving bodies i) (hfree : ∀ h j, ¬ Binds bodies r h i j) :
    I.bodies = [i] ∧ I.contacts = [] := by
  obtain ⟨hcomp, hstatic⟩ := isComponent_of_mem_partition hI
  have hs := (hstatic i hi).1 hmov
  have honly : ∀ j, j ∈ I.bodies ↔ j = i := by
    intro j
    rw [hcomp.mem_iff i hi hs]
    constructor
    · intro hij
      -- The first link of a walk away from the body would bind it.
      rcases Relation.ReflTransGen.cases_head hij with rfl | ⟨k, hik, -⟩
      · rfl
      · obtain ⟨h, hb⟩ := joins_iff.1 hik.2
        exact (hfree h k hb).elim
    · rintro rfl
      exact .refl
  constructor
  · refine List.perm_singleton.1 ((List.perm_ext_iff_of_nodup hcomp.nodup
      (List.nodup_singleton i)).2 fun j ↦ ?_)
    rw [honly, List.mem_singleton]
  · refine List.eq_nil_iff_forall_not_mem.2 fun h hh ↦ ?_
    obtain ⟨k, hk, -, j, hb⟩ := (mem_contacts_iff hI).1 hh
    rw [honly] at hk
    subst hk
    exact hfree h j hb

/-- **A body that nothing holds moves by itself.** -/
theorem bodies_of_solve_of_free {I : Island} (hI : I ∈ partition bodies r) (hi : i ∈ I.bodies)
    {b : Body α} (hb : bodies[i]? = some b) (hs : b.isStatic = false)
    (hfree : ∀ h j, ¬ Binds bodies r h i j) (step : TimeStep α) : ∃ solved,
      I.solve bodies r step =
        .ok ⟨[(i, b.coastPlacement step, b.coastVelocity step)], [], solved⟩ := by
  obtain ⟨hbodies, hcontacts⟩ := eq_singleton_of_free hI hi ⟨b, hb, hs⟩ hfree
  have hm : I.members bodies = .ok [(i, b)] := by
    simp only [members, hbodies, List.mapM_cons, List.mapM_nil, hb]
    rfl
  obtain ⟨solved, h⟩ := solve_of_contacts_eq_nil hcontacts hm r step
  refine ⟨solved, ?_⟩
  rw [h]
  simp [hs]

end Island

end PlanarDynamics
