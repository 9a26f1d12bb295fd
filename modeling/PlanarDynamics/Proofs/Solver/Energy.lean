import PlanarDynamics.Proofs.Real.Manifold
import PlanarDynamics.Proofs.Solver.Law
import PlanarDynamics.Proofs.Solver.Momentum

/-!
# Kinetic energy

Without friction and bounce, solving for velocities adds no kinetic energy:
`Solver.energy_velocityPasses`.  A row may take back what it has pushed in earlier passes, so this
does not follow from the sign of the impulse.  The energy of two bodies is a parabola in the impulse
between them: `energy_applyImpulse`.  A row leaves bodies that part only where it does not push any
more, so it has gone no further than to the lowest point: `Constraint.dissipates_solveNormal`.
-/

namespace PlanarDynamics

/-! ## Parabolas -/

/-- From an impulse `x` that does not pull to `y`, where the slope is not negative, and is zero if
there is a push, the parabola does not rise. -/
theorem mul_add_half_nonpos {k x y g : ℝ} (hk : 0 ≤ k) (hx : 0 ≤ x) (hgap : 0 ≤ g + k * (y - x))
    (hzero : y * (g + k * (y - x)) = 0) : (y - x) * g + k * (y - x) * (y - x) / 2 ≤ 0 := by
  have hend : (y - x) * (g + k * (y - x)) ≤ 0 := by
    rw [sub_mul, hzero, zero_sub]
    exact neg_nonpos.2 (mul_nonneg hx hgap)
  have hbend : 0 ≤ k * (y - x) * (y - x) := by
    rw [mul_assoc]
    exact mul_nonneg hk (mul_self_nonneg _)
  linarith

/-! ## One body -/

namespace SolverBody

/-- The kinetic energy of a body, which counts only if its mass is finite. -/
def energy {α : Type} [Scalar α] (b : SolverBody α) (v : Velocity α) : α :=
  if 0 < b.invMass then
    v.linear.normSq / (2.0 * b.invMass) + v.angular * v.angular / (2.0 * b.invInertia)
  else 0

/-- Impulses move and turn the body, or it is fixed and rests. -/
inductive IsFreeOrRests (b : SolverBody ℝ) (v : Velocity ℝ) : Prop
  | free (h : b.IsFree)
  | rests (h : b.IsFixed) (hv : v = ⟨0, 0⟩)

variable {b : SolverBody ℝ} {v v' : Velocity ℝ}

theorem IsFreeOrRests.of_eq (h : b.IsFreeOrRests v) (hv : b.IsFixed → v' = v) :
    b.IsFreeOrRests v' := by
  cases h with
  | free h => exact .free h
  | rests h hrest => exact .rests h ((hv h).trans hrest)

theorem IsFreeOrRests.invMass_nonneg (h : b.IsFreeOrRests v) : 0 ≤ b.invMass := by
  cases h with
  | free h => exact h.invMass.le
  | rests h _ => exact h.invMass.ge

theorem IsFreeOrRests.invInertia_nonneg (h : b.IsFreeOrRests v) : 0 ≤ b.invInertia := by
  cases h with
  | free h => exact h.invInertia.le
  | rests h _ => exact h.invInertia.ge

theorem IsFreeOrRests.isFixed (h : b.IsFreeOrRests v) (hm : ¬0 < b.invMass) : b.IsFixed := by
  cases h with
  | free h => exact absurd h.invMass hm
  | rests h _ => exact h

/-- The work of an impulse, and what it would do to the body at rest. -/
theorem energy_push (h : b.IsFreeOrRests v) (arm impulse : Vec ℝ) :
    b.energy (b.push arm impulse v) = b.energy v +
      (impulse.dot v.linear + arm.cross impulse * v.angular) +
      (b.invMass * impulse.normSq + b.invInertia * arm.cross impulse * arm.cross impulse) / 2 := by
  cases h with
  | free h =>
    have hm := h.invMass.ne'
    have hi := h.invInertia.ne'
    have htwo : (2.0 : ℝ) = 2 := by norm_num
    simp only [energy, if_pos h.invMass, htwo, push, Vec.normSq, Vec.dot, Vec.add_x, Vec.add_y,
      Vec.mul_x, Vec.mul_y]
    field_simp
    ring
  | rests h hv =>
    have hnone : ∀ w, b.energy w = 0 := fun w ↦ if_neg h.invMass.not_gt
    rw [hnone, hnone, h.invMass, h.invInertia, hv]
    simp [Vec.dot]

end SolverBody

/-! ## Two bodies -/

/-- The work along the normal, and half the resistance to it. -/
theorem energy_applyImpulse {a b : SolverBody ℝ} {v : Velocity ℝ × Velocity ℝ} {n : Vec ℝ}
    (ha : a.IsFreeOrRests v.1) (hb : b.IsFreeOrRests v.2) (hn : n.normSq = 1)
    (armA armB : Vec ℝ) (x : ℝ) :
    a.energy (applyImpulse a b armA armB (n * x) v).1 +
        b.energy (applyImpulse a b armA armB (n * x) v).2 =
      a.energy v.1 + b.energy v.2 + x * (relativeVelocity armA armB v).dot n +
        resistance a b armA armB n * x * x / 2 := by
  simp only [Vec.normSq, Vec.dot] at hn
  rw [applyImpulse_eq_push, SolverBody.energy_push ha, SolverBody.energy_push hb]
  simp only [relativeVelocity, resistance, Vec.normSq, Vec.dot, Vec.cross, Vec.outCross, Vec.add_x,
    Vec.add_y, Vec.sub_x, Vec.sub_y, Vec.mul_x, Vec.mul_y, Vec.neg_x, Vec.neg_y]
  linear_combination (x * x * (a.invMass + b.invMass) / 2) * hn

theorem applyImpulse_zero (a b : SolverBody ℝ) (armA armB : Vec ℝ) (v : Velocity ℝ × Velocity ℝ) :
    applyImpulse a b armA armB 0 v = v := by
  refine Prod.ext ?_ ?_
  · ext <;> simp [applyImpulse, Vec.cross]
  · ext <;> simp [applyImpulse, Vec.cross]

/-! ## Rows -/

/-- The row pushes and does nothing else, and asks for no bounce. -/
structure Row.IsInelastic (r : Row ℝ) : Prop where
  push : 0 ≤ r.normalImpulse
  hold : r.tangentImpulse = 0
  bias : r.bias = 0

namespace Constraint

variable {c c' : Constraint ℝ} {r r' : Row ℝ} {rows rows' : List (Row ℝ)}
  {v v' v'' : Velocity ℝ × Velocity ℝ}

/-- From the velocities `v` to `v'`, fixed bodies keep theirs, and the two bodies of the constraint
gain no energy. -/
structure Dissipates (c : Constraint ℝ) (v v' : Velocity ℝ × Velocity ℝ) : Prop where
  spares : c.Spares v v'
  energy : c.a.energy v'.1 + c.b.energy v'.2 ≤ c.a.energy v.1 + c.b.energy v.2

theorem Dissipates.refl (c : Constraint ℝ) (v : Velocity ℝ × Velocity ℝ) : c.Dissipates v v :=
  ⟨.refl c v, le_rfl⟩

theorem Dissipates.trans (h : c.Dissipates v v') (h' : c.Dissipates v' v'') : c.Dissipates v v'' :=
  ⟨h.spares.trans h'.spares, h'.energy.trans h.energy⟩

/-- Each of the two bodies is free, or it is fixed and rests. -/
structure IsFreeOrRests (c : Constraint ℝ) (v : Velocity ℝ × Velocity ℝ) : Prop where
  a : c.a.IsFreeOrRests v.1
  b : c.b.IsFreeOrRests v.2

theorem IsFreeOrRests.of_spares (hc : c.IsFreeOrRests v) (h : c.Spares v v') :
    c.IsFreeOrRests v' :=
  ⟨hc.a.of_eq h.fst, hc.b.of_eq h.snd⟩

/-- Bodies that the row leaves parting have got back what it had pushed before. -/
theorem dissipates_solveNormal (hc : c.IsFreeOrRests v) (hn : c.normal.normSq = 1)
    (hr : r.IsPrepared c.a.toSolverBody c.b.toSolverBody c.normal) (hi : r.IsInelastic) :
    c.Dissipates v (r.solveNormal c v).2 := by
  have hspares : c.Spares v (r.solveNormal c v).2 := c.spares_applyImpulse _ _ _ v
  refine ⟨hspares, ?_⟩
  by_cases hmass : 0 < c.a.invMass ∨ 0 < c.b.invMass
  · have hmovable : c.IsMovable := ⟨hc.a.invMass_nonneg, hc.b.invMass_nonneg,
      hc.a.invInertia_nonneg, hc.b.invInertia_nonneg, hmass⟩
    have hk := hmovable.resistance_pos r.armA r.armB c.normal
    obtain ⟨-, hgap, hzero⟩ := r.pushLaw_solveNormal hr hmovable hn v
    have hbias : (r.solveNormal c v).1.bias = 0 := hi.bias
    rw [hbias, r.normalVelocity_solveNormal hn v] at hgap
    rw [hbias, sub_zero, r.normalVelocity_solveNormal hn v] at hzero
    have hdown := mul_add_half_nonpos hk.le hi.push hgap hzero
    have henergy := energy_applyImpulse hc.a hc.b hn r.armA r.armB
      ((r.solveNormal c v).1.normalImpulse - r.normalImpulse)
    rw [Row.normalVelocity] at hdown
    refine henergy.trans_le ?_
    linarith
  -- Neither body can be moved.
  · obtain ⟨ha, hb⟩ := not_or.1 hmass
    rw [hspares.fst (hc.a.isFixed ha), hspares.snd (hc.b.isFixed hb)]

/-- Where there is no friction to hold, the friction row does nothing. -/
theorem of_solveFriction (hf : c.friction = 0) (hr : r.tangentImpulse = 0)
    (h : r.solveFriction c v = .ok (r', v')) : r' = r ∧ v' = v := by
  obtain ⟨y, hy, h⟩ := bind_eq_ok_iff.1 h
  cases h
  have hbounds := clampWithin_bounds hy
  rw [hf, zero_mul, neg_zero] at hbounds
  have hzero : y = 0 := le_antisymm hbounds.2 hbounds.1
  refine ⟨?_, ?_⟩
  · rw [hzero, ← hr]
  · have himpulse : c.tangent * (y - r.tangentImpulse) = 0 := by
      rw [hzero, hr, sub_zero]
      ext <;> simp
    rw [himpulse, applyImpulse_zero]

theorem dissipates_solve (hc : c.IsFreeOrRests v) (hn : c.normal.normSq = 1) (hf : c.friction = 0)
    (hr : r.IsPrepared c.a.toSolverBody c.b.toSolverBody c.normal) (hi : r.IsInelastic)
    (h : r.solve c v = .ok (r', v')) : r'.IsInelastic ∧ c.Dissipates v v' := by
  have hpush := r.normalImpulse_solveNormal_nonneg c v
  obtain ⟨rfl, rfl⟩ := of_solveFriction (r := (r.solveNormal c v).1) hf hi.hold h
  exact ⟨⟨hpush, hi.hold, hi.bias⟩, dissipates_solveNormal hc hn hr hi⟩

theorem dissipates_solveRows (hc : c.IsFreeOrRests v) (hn : c.normal.normSq = 1)
    (hf : c.friction = 0)
    (hrows : ∀ r ∈ rows, r.IsPrepared c.a.toSolverBody c.b.toSolverBody c.normal ∧ r.IsInelastic)
    (h : c.solveRows rows v = .ok (rows', v')) :
    (∀ r ∈ rows', r.IsInelastic) ∧ c.Dissipates v v' := by
  induction rows generalizing v rows' v' with
  | nil =>
    cases h
    exact ⟨nofun, .refl c v⟩
  | cons r rows ih =>
    obtain ⟨⟨r₁, v₁⟩, h₁, h⟩ := bind_eq_ok_iff.1 h
    obtain ⟨⟨rows₂, v₂⟩, h₂, h⟩ := bind_eq_ok_iff.1 h
    cases h
    obtain ⟨⟨hr, hi⟩, hrest⟩ := List.forall_mem_cons.1 hrows
    obtain ⟨hi₁, hd₁⟩ := dissipates_solve hc hn hf hr hi h₁
    obtain ⟨hi₂, hd₂⟩ := ih (hc.of_spares hd₁.spares) hrest h₂
    exact ⟨List.forall_mem_cons.2 ⟨hi₁, hi₂⟩, hd₁.trans hd₂⟩

end Constraint

/-! ## All bodies -/

/-- The kinetic energy of all bodies. -/
noncomputable def energy (bodies : Array (SolverBody ℝ)) (vs : Array (Velocity ℝ)) : ℝ :=
  total (fun b v ↦ b.energy v) bodies.toList vs

/-- From the velocities `vs` to `vs'`, fixed bodies keep theirs, and the bodies gain no energy. -/
structure Dissipated (bodies : Array (SolverBody ℝ)) (vs vs' : Array (Velocity ℝ)) : Prop where
  size : vs'.size = vs.size
  fixed : ∀ (k : Nat) (b : SolverBody ℝ), bodies[k]? = some b → b.IsFixed → vs'[k]? = vs[k]?
  energy : energy bodies vs' ≤ energy bodies vs

/-- Each body is free, or it is fixed and rests. -/
def AreFreeOrRest (bodies : Array (SolverBody ℝ)) (vs : Array (Velocity ℝ)) : Prop :=
  ∀ (k : Nat) (b : SolverBody ℝ) (v : Velocity ℝ), bodies[k]? = some b → vs[k]? = some v →
    b.IsFreeOrRests v

section

variable {bodies : Array (SolverBody ℝ)} {vs vs' vs'' : Array (Velocity ℝ)}

theorem Dissipated.refl (bodies : Array (SolverBody ℝ)) (vs : Array (Velocity ℝ)) :
    Dissipated bodies vs vs := ⟨rfl, fun _ _ _ _ ↦ rfl, le_rfl⟩

theorem Dissipated.trans (h : Dissipated bodies vs vs') (h' : Dissipated bodies vs' vs'') :
    Dissipated bodies vs vs'' :=
  ⟨h'.size.trans h.size, fun k b hb hf ↦ (h'.fixed k b hb hf).trans (h.fixed k b hb hf),
    h'.energy.trans h.energy⟩

theorem AreFreeOrRest.of_dissipated (h : AreFreeOrRest bodies vs) (hd : Dissipated bodies vs vs') :
    AreFreeOrRest bodies vs' := by
  intro k b v' hb hv'
  obtain ⟨hk, -⟩ := Array.getElem?_eq_some_iff.1 hv'
  have hv := Array.getElem?_eq_getElem (hd.size ▸ hk)
  refine (h k b _ hb hv).of_eq fun hf ↦ ?_
  exact Option.some.inj (hv'.symm.trans ((hd.fixed k b hb hf).trans hv))

end

/-! ## Constraints -/

namespace Constraint

variable {c c' : Constraint ℝ} {bodies : Array (SolverBody ℝ)} {vs vs' : Array (Velocity ℝ)}

/-- The bodies meet along a normal, without friction and bounce, and none pulls. -/
structure IsInelastic (c : Constraint ℝ) : Prop where
  unit : c.normal.normSq = 1
  friction : c.friction = 0
  rows : ∀ r ∈ c.rows, r.IsInelastic

theorem dissipated_solveVelocity (hk : c.Knows bodies) (hp : c.IsPrepared) (hi : c.IsInelastic)
    (hb : AreFreeOrRest bodies vs) (h : c.solveVelocity vs = .ok (c', vs')) :
    c'.IsInelastic ∧ Dissipated bodies vs vs' := by
  rw [solveVelocity] at h
  split at h
  · cases h
    exact ⟨hi, .refl bodies vs⟩
  next v htwo =>
    obtain ⟨⟨rows, v'⟩, hx, h⟩ := bind_eq_ok_iff.1 h
    cases h
    obtain ⟨-, ha', hb'⟩ := twoOf?_eq_some_iff.1 htwo
    have hc : c.IsFreeOrRests v := ⟨hb _ _ _ hk.a ha', hb _ _ _ hk.b hb'⟩
    obtain ⟨hrows, hd⟩ := dissipates_solveRows hc hi.unit hi.friction
      (fun r hr ↦ ⟨hp r hr, hi.rows r hr⟩) hx
    refine ⟨⟨hi.unit, hi.friction, hrows⟩, size_setTwo _ _ _ _, fun k b hkb hfixed ↦ ?_, ?_⟩
    · obtain ⟨ha, hb⟩ := hk.isFixed hkb hfixed
      exact hd.spares.getElem?_setTwo htwo ha hb
    · have hka := hk.a
      have hkb := hk.b
      rw [← Array.getElem?_toList] at hka hkb
      rw [energy, total, sum_zipWith_setTwo hka hkb htwo]
      exact add_le_of_nonpos_right (sub_nonpos.2 hd.energy)

end Constraint

/-! ## Solvers -/

namespace Solver

variable {bodies : Array (SolverBody ℝ)} {ps : Array (Placement ℝ)}
  {vs vs' vs₀ : Array (Velocity ℝ)} {s s' s₁ : Solver ℝ} {cs cs' : List (Constraint ℝ)}

/-- All constraints know their bodies and are prepared, and are without friction and bounce. -/
def AreInelastic (bodies : Array (SolverBody ℝ)) (cs : List (Constraint ℝ)) : Prop :=
  ∀ c ∈ cs, c.Knows bodies ∧ c.IsPrepared ∧ c.IsInelastic

theorem dissipated_solveConstraints (hcs : AreInelastic bodies cs) (hb : AreFreeOrRest bodies vs)
    (h : solveConstraints cs vs = .ok (cs', vs')) :
    AreInelastic bodies cs' ∧ Dissipated bodies vs vs' := by
  induction cs generalizing vs cs' vs' with
  | nil =>
    cases h
    exact ⟨hcs, .refl bodies vs⟩
  | cons c cs ih =>
    obtain ⟨⟨c₁, vs₁⟩, hc, h⟩ := bind_eq_ok_iff.1 h
    obtain ⟨⟨cs₁, vs₂⟩, hrest, h⟩ := bind_eq_ok_iff.1 h
    cases h
    obtain ⟨⟨hk, hp, hi⟩, hcs⟩ := List.forall_mem_cons.1 hcs
    have hk₁ := hk.of_outline (Constraint.of_solveVelocity_eq_ok hc).1.symm
    obtain ⟨hi₁, hd₁⟩ := Constraint.dissipated_solveVelocity hk hp hi hb hc
    obtain ⟨hcs₂, hd₂⟩ := ih hcs (hb.of_dissipated hd₁) hrest
    exact ⟨List.forall_mem_cons.2 ⟨⟨hk₁, hp.solveVelocity hc, hi₁⟩, hcs₂⟩, hd₁.trans hd₂⟩

theorem dissipated_velocityPass (hs : AreInelastic bodies s.constraints)
    (hb : AreFreeOrRest bodies vs) (h : s.velocityPass vs = .ok (s', vs')) :
    AreInelastic bodies s'.constraints ∧ Dissipated bodies vs vs' := by
  obtain ⟨x, hx, h⟩ := bind_eq_ok_iff.1 h
  cases h
  exact dissipated_solveConstraints hs hb hx

theorem dissipated_velocityPasses {n : Nat} (hs : AreInelastic bodies s.constraints)
    (hb : AreFreeOrRest bodies vs) (h : velocityPasses n s vs = .ok (s', vs')) :
    AreInelastic bodies s'.constraints ∧ Dissipated bodies vs vs' := by
  induction n generalizing s vs with
  | zero =>
    cases h
    exact ⟨hs, .refl bodies vs'⟩
  | succ n ih =>
    obtain ⟨⟨s₁, vs₁⟩, h₁, h⟩ := bind_eq_ok_iff.1 h
    obtain ⟨hs₁, hd₁⟩ := dissipated_velocityPass hs hb h₁
    obtain ⟨hs₂, hd₂⟩ := ih hs₁ (hb.of_dissipated hd₁) h
    exact ⟨hs₂, hd₁.trans hd₂⟩

/-- **Solving without friction and bounce adds no energy.**  No pass does, after however many
others. -/
theorem energy_velocityPasses (hk : ∀ c ∈ s.constraints, c.Knows bodies)
    (hp : s.prepare ps vs₀ = .ok s₁) (hi : ∀ c ∈ s₁.constraints, c.IsInelastic)
    (hb : AreFreeOrRest bodies vs) (n : Nat) :
    ∃ s₂ vs₂ s₃ vs₃, velocityPasses n s₁ vs = .ok (s₂, vs₂) ∧
      s₂.velocityPass vs₂ = .ok (s₃, vs₃) ∧ energy bodies vs₃ ≤ energy bodies vs₂ ∧
      energy bodies vs₂ ≤ energy bodies vs := by
  have hk₁ := forall_of_outline (fun _ _ ↦ Constraint.Knows.of_outline) (outline_prepare hp).2 hk
  have hs₁ : AreInelastic bodies s₁.constraints :=
    fun c hc ↦ ⟨hk₁ c hc, isPrepared_prepare hp c hc, hi c hc⟩
  obtain ⟨s₂, vs₂, h₂⟩ := exists_velocityPasses (fun c hc ↦ (hi c hc).friction.ge) n vs
  obtain ⟨hs₂, hd₂⟩ := dissipated_velocityPasses hs₁ hb h₂
  -- The next pass returns as well.
  obtain ⟨s₃, vs₃, h₃⟩ := exists_velocityPasses (fun c hc ↦ (hs₂ c hc).2.2.friction.ge) 1 vs₂
  obtain ⟨⟨s₃, vs₃⟩, h₃, h⟩ := bind_eq_ok_iff.1 h₃
  cases h
  obtain ⟨-, hd₃⟩ := dissipated_velocityPass hs₂ (hb.of_dissipated hd₂) h₃
  exact ⟨s₂, vs₂, s₃, vs₃, h₂, h₃, hd₃.energy, hd₂.energy⟩

/-- A disc strikes a fixed one, at two contacts of the two. -/
theorem discs_energy : ∃ (s₁ s₂ s₃ : Solver ℝ) (vs₂ vs₃ : Array (Velocity ℝ)),
    (⟨.of 1 1 0 .default, [.discs ⟨0, 0, 0⟩ ⟨1, 1, 0⟩, .discs ⟨0, 0, 0⟩ ⟨1, 1, 0⟩]⟩ :
      Solver ℝ).prepare #[⟨0, 0⟩, ⟨⟨1, 0⟩, 0⟩] #[⟨0, 0⟩, ⟨⟨-1, 0⟩, 0⟩] = .ok s₁ ∧
    velocityPasses 8 s₁ #[⟨0, 0⟩, ⟨⟨-1, 0⟩, 0⟩] = .ok (s₂, vs₂) ∧
    s₂.velocityPass vs₂ = .ok (s₃, vs₃) ∧
    energy #[⟨0, 0, 0⟩, ⟨1, 1, 0⟩] vs₃ ≤ energy #[⟨0, 0, 0⟩, ⟨1, 1, 0⟩] vs₂ ∧
    energy #[⟨0, 0, 0⟩, ⟨1, 1, 0⟩] vs₂ ≤ 1 / 2 := by
  obtain ⟨c, hc, hp⟩ : ∃ c, (Constraint.discs ⟨0, 0, 0⟩ ⟨1, 1, 0⟩).prepare 1 ⟨0, 0⟩
      ⟨⟨1, 0⟩, 0⟩ (⟨0, 0⟩, ⟨⟨-1, 0⟩, 0⟩) = c ∧
      (⟨.of 1 1 0 .default, [.discs ⟨0, 0, 0⟩ ⟨1, 1, 0⟩, .discs ⟨0, 0, 0⟩ ⟨1, 1, 0⟩]⟩ :
        Solver ℝ).prepare #[⟨0, 0⟩, ⟨⟨1, 0⟩, 0⟩] #[⟨0, 0⟩, ⟨⟨-1, 0⟩, 0⟩] =
          .ok ⟨.of 1 1 0 .default, [c, c]⟩ := ⟨_, rfl, rfl⟩
  have hknows : ∀ c ∈ [Constraint.discs ⟨0, 0, 0⟩ ⟨1, 1, 0⟩, .discs ⟨0, 0, 0⟩ ⟨1, 1, 0⟩],
      c.Knows #[⟨0, 0, 0⟩, ⟨1, 1, 0⟩] := by
    simpa using ⟨rfl, rfl⟩
  rw [Constraint.prepare, if_pos (WorldManifold.isFinite_real _)] at hc
  have hinelastic : c.IsInelastic := by
    rw [← hc]
    refine ⟨Manifold.normSq_circlesNormal _ _, rfl, fun r hr ↦ ?_⟩
    cases List.mem_singleton.1 hr
    refine ⟨zero_le_one, rfl, ?_⟩
    simp [Constraint.prepareRow, Constraint.discs]
  have hrest : AreFreeOrRest #[⟨0, 0, 0⟩, ⟨1, 1, 0⟩] #[⟨0, 0⟩, ⟨⟨-1, 0⟩, 0⟩] := by
    intro k b v hb hv
    rcases k with _ | _ | k
    · cases hb
      cases hv
      exact .rests ⟨rfl, rfl⟩ rfl
    · cases hb
      exact .free ⟨one_pos, one_pos⟩
    · cases hb
  obtain ⟨s₂, vs₂, s₃, vs₃, h₂, h₃, hpass, hall⟩ := energy_velocityPasses hknows hp
    (by simpa using hinelastic) hrest 8
  refine ⟨_, s₂, s₃, vs₂, vs₃, hp, h₂, h₃, hpass, hall.trans_eq ?_⟩
  norm_num [energy, total, SolverBody.energy, Vec.normSq, Vec.dot]

end Solver

end PlanarDynamics
