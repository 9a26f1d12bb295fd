import PlanarDynamics.Proofs.Real.Solver

/-!
# The friction cone

At a contact point bodies push each other and do not pull, and friction holds no more than the push
lets it: `PointImpulse.InCone`.  A row that has just been solved is in the cone, whatever it started
from, so one pass brings all constraints there that have two bodies to act on, and later passes keep
them there.  The constraints of an island do have two bodies, if its contacts join different ones:
`Island.impulses_inCone`.
-/

namespace PlanarDynamics

/-- The impulse pushes, and along the surface it is within what friction can hold. -/
structure PointImpulse.InCone (friction : ℝ) (p : PointImpulse ℝ) : Prop where
  push : 0 ≤ p.normal
  hold : |p.tangent| ≤ friction * p.normal

/-! ## One pass -/

theorem clampWithin_bounds {lo hi x y : ℝ} (h : clampWithin lo hi x = .ok y) :
    lo ≤ y ∧ y ≤ hi := by
  rw [clampWithin] at h
  split at h
  next hle =>
    cases h
    rw [Scalar.clamp_eq hle]
    exact ⟨le_max_left _ _, max_le hle (min_le_left _ _)⟩
  · cases h

namespace Row

variable {c : Constraint ℝ} {r r' : Row ℝ} {v v' : Velocity ℝ × Velocity ℝ}

theorem normalImpulse_solveNormal_nonneg (c : Constraint ℝ) (r : Row ℝ)
    (v : Velocity ℝ × Velocity ℝ) : 0 ≤ (r.solveNormal c v).1.normalImpulse := by
  simp only [solveNormal, Scalar.max_eq]
  exact le_max_right _ _

/-- What a row has started from does not matter once it is solved. -/
theorem inCone_of_solve (h : r.solve c v = .ok (r', v')) : r'.impulse.InCone c.friction := by
  obtain ⟨t, ht, h⟩ := bind_eq_ok_iff.1 h
  cases h
  exact ⟨normalImpulse_solveNormal_nonneg c r v, abs_le.2 (clampWithin_bounds ht)⟩

end Row

namespace Constraint

variable {c c' : Constraint ℝ} {rows rows' : List (Row ℝ)} {v v' : Velocity ℝ × Velocity ℝ}
  {vs vs' : Array (Velocity ℝ)} {size : Nat}

/-- The constraint has two bodies to act on, among as many as `size`. -/
structure Acts (c : Constraint ℝ) (size : Nat) : Prop where
  ne : c.a.place ≠ c.b.place
  lt_a : c.a.place < size
  lt_b : c.b.place < size

theorem Acts.of_outline (h : c.outline = c'.outline) (hc : c.Acts size) : c'.Acts size := by
  have ha : c.outline.a.place = c'.outline.a.place := by rw [h]
  have hb : c.outline.b.place = c'.outline.b.place := by rw [h]
  exact ⟨ha ▸ hb ▸ hc.ne, ha ▸ hc.lt_a, hb ▸ hc.lt_b⟩

theorem Acts.exists_twoOf? (hc : c.Acts vs.size) :
    ∃ v, twoOf? vs c.a.place c.b.place = some v :=
  ⟨(_, _), twoOf?_eq_some_iff.2
    ⟨hc.ne, Array.getElem?_eq_getElem hc.lt_a, Array.getElem?_eq_getElem hc.lt_b⟩⟩

/-- All points of the constraint are in the cone. -/
def InCone (c : Constraint ℝ) : Prop := ∀ r ∈ c.rows, r.impulse.InCone c.friction

theorem inCone_of_solveRows (h : c.solveRows rows v = .ok (rows', v')) :
    ∀ r ∈ rows', r.impulse.InCone c.friction := by
  induction rows generalizing v rows' v' with
  | nil =>
    cases h
    rintro r ⟨⟩
  | cons r rows ih =>
    obtain ⟨⟨r₁, v₁⟩, h₁, h⟩ := bind_eq_ok_iff.1 h
    obtain ⟨⟨rows₂, v₂⟩, h₂, h⟩ := bind_eq_ok_iff.1 h
    cases h
    exact List.forall_mem_cons.2 ⟨Row.inCone_of_solve h₁, ih h₂⟩

theorem inCone_of_solveVelocity (hc : c.Acts vs.size) (h : c.solveVelocity vs = .ok (c', vs')) :
    c'.InCone := by
  obtain ⟨v, htwo⟩ := hc.exists_twoOf?
  rw [solveVelocity, htwo] at h
  obtain ⟨x, hx, h⟩ := bind_eq_ok_iff.1 h
  cases h
  exact inCone_of_solveRows (c := c) hx

/-- The points that a constraint reports are among its rows. -/
theorem InCone.impulse (hc : c.InCone) : ∀ p ∈ c.impulse.points, p.InCone c.friction := by
  intro p hp
  have hmem : p ∈ c.rows.map Row.impulse := by
    rw [Constraint.impulse] at hp
    match c.rows.map Row.impulse, hp with
    | [q], hp => exact hp
    | q :: q' :: rest, hp =>
      exact List.mem_of_mem_take (i := 2) hp
  obtain ⟨r, hr, rfl⟩ := List.mem_map.1 hmem
  exact hc r hr

end Constraint

/-! ## All passes -/

namespace Solver

variable {s s' : Solver ℝ} {cs cs' : List (Constraint ℝ)} {vs vs' : Array (Velocity ℝ)}

theorem inCone_of_solveConstraints (hcs : ∀ c ∈ cs, c.Acts vs.size)
    (h : solveConstraints cs vs = .ok (cs', vs')) : ∀ c ∈ cs', c.InCone := by
  induction cs generalizing vs cs' vs' with
  | nil =>
    cases h
    rintro c ⟨⟩
  | cons c cs ih =>
    obtain ⟨⟨c₁, vs₁⟩, hc, h⟩ := bind_eq_ok_iff.1 h
    obtain ⟨⟨cs₁, vs₂⟩, hrest, h⟩ := bind_eq_ok_iff.1 h
    cases h
    obtain ⟨hact, hacts⟩ := List.forall_mem_cons.1 hcs
    have hsize : vs₁.size = vs.size := (Constraint.of_solveVelocity_eq_ok hc).2
    exact List.forall_mem_cons.2
      ⟨Constraint.inCone_of_solveVelocity hact hc, ih (hsize ▸ hacts) hrest⟩

theorem inCone_of_velocityPass (hs : ∀ c ∈ s.constraints, c.Acts vs.size)
    (h : s.velocityPass vs = .ok (s', vs')) : ∀ c ∈ s'.constraints, c.InCone := by
  obtain ⟨x, hx, h⟩ := bind_eq_ok_iff.1 h
  cases h
  exact inCone_of_solveConstraints hs hx

/-- Each pass solves every row, so after the last one it does not matter how many there were. -/
theorem inCone_of_velocityPasses {n : Nat} (hs : ∀ c ∈ s.constraints, c.Acts vs.size)
    (h : velocityPasses (n + 1) s vs = .ok (s', vs')) : ∀ c ∈ s'.constraints, c.InCone := by
  induction n generalizing s vs with
  | zero =>
    obtain ⟨x, hx, h⟩ := bind_eq_ok_iff.1 h
    cases h
    exact inCone_of_velocityPass hs hx
  | succ n ih =>
    obtain ⟨⟨s₁, vs₁⟩, h₁, h⟩ := bind_eq_ok_iff.1 h
    obtain ⟨-, ho, hsize⟩ := of_velocityPass_eq_ok h₁
    exact ih (hsize ▸ forall_of_outline (fun _ _ ↦ Constraint.Acts.of_outline) ho hs) h

end Solver

/-! ## Islands -/

namespace Island

variable {island : Island} {bodies : Array (Body ℝ)} {r : Registry ℝ} {step : TimeStep ℝ}
  {members : List (BodyId × Body ℝ)} {n : Nat} {start : BodyId × Body ℝ → Velocity ℝ}
  {s : Solver ℝ} {vs : Array (Velocity ℝ)}

/-- The constraints of an island are those of its contacts. -/
theorem exists_contact {c : Constraint ℝ} (hc : c ∈ (island.solver members r step).constraints) :
    ∃ k, c.handle ∈ island.contacts ∧ r.get? c.handle = some k ∧ c.friction = k.friction ∧
      (k.bodyA ≠ k.bodyB → c.Acts members.length) := by
  obtain ⟨e, he, hec⟩ := List.mem_filterMap.1 hc
  obtain ⟨hh, hget⟩ := mem_current.1 he
  obtain ⟨i, j, a, b, hi, hj, ha, hb, -, rfl⟩ := Constraint.ofContact?_eq_some_iff.1 hec
  refine ⟨e.2, hh, hget, rfl, fun hne ↦ ⟨?_, ?_, ?_⟩⟩
  · intro (hij : i = j)
    have hsame := (getElem?_of_place? (hij ▸ hi)).symm.trans (getElem?_of_place? hj)
    exact hne (Option.some.inj hsame)
  · simpa using (Array.getElem?_eq_some_iff.1 ha).1
  · simpa using (Array.getElem?_eq_some_iff.1 hb).1

theorem inCone_of_solveVelocities
    (hd : ∀ h ∈ island.contacts, ∀ c, r.get? h = some c → c.bodyA ≠ c.bodyB)
    (h : island.solveVelocities members r step (n + 1) start = .ok (s, vs)) :
    ∀ c ∈ s.constraints, c.InCone := by
  obtain ⟨s₀, hs₀, h⟩ := bind_eq_ok_iff.1 h
  refine Solver.inCone_of_velocityPasses ?_ h
  refine Solver.forall_of_outline (fun _ _ ↦ Constraint.Acts.of_outline)
    (Solver.outline_prepare hs₀).2 fun c hc ↦ ?_
  obtain ⟨k, hh, hget, -, hacts⟩ := exists_contact hc
  simpa [Solver.size_warmStart] using hacts (hd _ hh k hget)

theorem impulses_of_solve {sol : Solution ℝ} (h : island.solve bodies r step = .ok sol) :
    ∃ members start s vs, island.solveVelocities members r step
      step.settings.velocityIterations start = .ok (s, vs) ∧ sol.impulses = s.impulses := by
  rw [solve_eq] at h
  obtain ⟨members, -, h⟩ := bind_eq_ok_iff.1 h
  obtain ⟨⟨s, vs⟩, hv, h⟩ := bind_eq_ok_iff.1 h
  obtain ⟨x, -, h⟩ := bind_eq_ok_iff.1 h
  cases h
  exact ⟨members, _, s, vs, hv, rfl⟩

/-- A constraint of a solver that has done some passes has the friction of its contact. -/
theorem friction_of_solveVelocities
    (h : island.solveVelocities members r step n start = .ok (s, vs)) :
    ∀ c ∈ s.constraints, ∃ k, c.handle ∈ island.contacts ∧ r.get? c.handle = some k ∧
      c.friction = k.friction := by
  have ho := (of_solveVelocities_eq_ok h).2.1
  refine Solver.forall_of_outline (fun c c' he hc ↦ ?_) ho fun c hc ↦ ?_
  · have hh := Constraint.handle_eq_of_outline he
    have hf : c.outline.friction = c'.outline.friction := congrArg _ he
    exact hh ▸ hf ▸ hc
  · obtain ⟨k, hh, hget, hf, -⟩ := exists_contact hc
    exact ⟨k, hh, hget, hf⟩

/-- **No contact pulls, and friction stays within its cone.**  This is so after any number of
passes, from whatever the passes start with.  In each of them the bounds for friction are in order,
so that no clamp faults. -/
theorem impulses_inCone (island : Island) (bodies : Array (Body ℝ)) (r : Registry ℝ)
    (step : TimeStep ℝ) (hn : 1 ≤ step.settings.velocityIterations)
    (hd : ∀ h ∈ island.contacts, ∀ c, r.get? h = some c → c.bodyA ≠ c.bodyB)
    (hf : ∀ h ∈ island.contacts, ∀ c, r.get? h = some c → ∃ (rule : Mixing) (e f e' f' : ℝ),
      c.friction = rule.mix (Material.ofSurface e f).friction (Material.ofSurface e' f').friction) :
    (∀ members n start, ∃ s vs, island.solveVelocities members r step n start = .ok (s, vs) ∧
      ∀ c ∈ s.constraints, ∀ row ∈ c.rows, ∀ v,
        0 ≤ c.friction * (row.solveNormal c v).1.normalImpulse) ∧
    (∀ sol, island.solve bodies r step = .ok sol → ∀ h i, (h, i) ∈ sol.impulses →
      ∃ c, h ∈ island.contacts ∧ r.get? h = some c ∧ ∀ p ∈ i.points, p.InCone c.friction) ∧
    ((∀ i ∈ island.bodies, i < bodies.size) → 0 ≤ step.settings.maxLinearCorrection →
      ∃ sol, island.solve bodies r step = .ok sol) := by
  have hnonneg : ∀ h ∈ island.contacts, ∀ c, r.get? h = some c → 0 ≤ c.friction := by
    intro h hh c hc
    obtain ⟨rule, e, f, e', f', he⟩ := hf h hh c hc
    rw [he]
    exact rule.mix_nonneg (Material.friction_ofSurface_nonneg e f)
      (Material.friction_ofSurface_nonneg e' f')
  have hrow : ∀ (c : Constraint ℝ) (row : Row ℝ) v, 0 ≤ c.friction →
      FaultsOnly (fun _ ↦ False) (row.solve c v) :=
    fun c row v hc ↦ row.faultsOnly_solve c v (hasLimits_of_nonneg hc)
  refine ⟨fun members n start ↦ ?_, fun sol hsol h i hi ↦ ?_, fun hb hcorr ↦ ?_⟩
  · obtain ⟨⟨s, vs⟩, hs⟩ :=
      (faultsOnly_solveVelocities hrow hnonneg members step n start).exists_ok
    refine ⟨s, vs, hs, fun c hc row _ v ↦ ?_⟩
    obtain ⟨k, hh, hget, hfriction⟩ := friction_of_solveVelocities hs c hc
    rw [hfriction]
    exact mul_nonneg (hnonneg _ hh k hget) (row.normalImpulse_solveNormal_nonneg c v)
  · obtain ⟨members, start, s, vs, hs, himpulses⟩ := impulses_of_solve hsol
    rw [himpulses] at hi
    obtain ⟨c, hc, he⟩ := List.mem_map.1 hi
    cases he
    obtain ⟨k, hh, hget, hfriction⟩ := friction_of_solveVelocities hs c hc
    refine ⟨k, hh, hget, hfriction ▸ Constraint.InCone.impulse ?_⟩
    obtain ⟨m, hm⟩ := Nat.exists_eq_add_of_le' hn
    rw [hm] at hs
    exact inCone_of_solveVelocities hd hs c hc
  · refine (faultsOnly_solve hrow hnonneg hb fun separation ↦ ?_).exists_ok
    exact faultsOnly_clampWithin_of_le (neg_nonpos.2 hcorr) _

/-- Two bodies whose contact has been left with a pull. -/
theorem strained_impulses_inCone : ∃ (sol : Solution ℝ) (i : ContactImpulse ℝ),
    (⟨[0, 1], [⟨0, 0⟩]⟩ : Island).solve #[.ofKind .dynamic 0, .ofKind .dynamic 0]
      .strained (.of 1 1 0 .default) = .ok sol ∧ (⟨0, 0⟩, i) ∈ sol.impulses ∧
    ∀ p ∈ i.points, p.InCone Contact.strained.friction := by
  have hall : ∀ h ∈ [(⟨0, 0⟩ : Handle)], ∀ c, Registry.strained.get? h = some c →
      c = .strained := by
    intro h hh c hc
    rw [List.mem_singleton.1 hh, Registry.get?_strained] at hc
    exact (Option.some.inj hc).symm
  obtain ⟨-, hcone, hsolve⟩ := impulses_inCone ⟨[0, 1], [⟨0, 0⟩]⟩
    #[.ofKind .dynamic 0, .ofKind .dynamic 0] .strained (.of 1 1 0 .default) (by decide)
    (fun h hh c hc ↦ hall h hh c hc ▸ Nat.zero_ne_one)
    (fun h hh c hc ↦ hall h hh c hc ▸ ⟨.average, 0, 1, 0, 1, rfl⟩)
  obtain ⟨sol, hsol⟩ := hsolve (by decide) (by norm_num [TimeStep.of, SolverSettings.default])
  obtain ⟨members, hm, hhandles, -⟩ := of_solve_eq_ok hsol
  have hmem : (⟨0, 0⟩ : Handle) ∈ sol.impulses.map (·.1) := by
    rw [hhandles, handles_solver hm (by decide) fun h hh ↦ ?_]
    · exact List.mem_singleton_self _
    · rw [List.mem_singleton.1 hh]
      exact ⟨_, Registry.get?_strained, by decide, by decide, rfl⟩
  obtain ⟨⟨h, i⟩, hi, rfl⟩ := List.mem_map.1 hmem
  obtain ⟨c, hh, hc, hp⟩ := hcone sol hsol _ i hi
  exact ⟨sol, i, hsol, hi, hall _ hh c hc ▸ hp⟩

end Island

end PlanarDynamics
