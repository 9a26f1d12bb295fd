import PlanarDynamics.Proofs.Real.Manifold
import PlanarDynamics.Proofs.Solver.Cone

/-!
# The laws of contact

Bodies in contact part at least as fast as is asked for, do not pull, and push only where they part
no faster.  Friction is within its cone; where the bodies slip it is as large as it can be, and
against the slip.  A row that is solved leaves this behind, whatever it started from, since the
masses with which it was prepared are exactly how the relative velocity answers to an impulse, and
since what is clamped is the impulse of all passes together: `Row.pushLaw_solveNormal` and
`Row.frictionLaw_of_solveFriction`.  Solving keeps those masses, so it is so for every row in every
pass: `Solver.lawful_velocityPasses`.
-/

namespace PlanarDynamics

/-! ## Clamped impulses -/

theorem mul_add_neg_one_div_mul {k : ℝ} (hk : 0 < k) (x g : ℝ) :
    k * (x + -(1 / k) * g) = k * x - g := by
  field_simp
  ring

/-- An impulse that may not pull leaves a gap of velocity only where it has let go. -/
theorem complementary_max {k x g : ℝ} (hk : 0 < k) :
    0 ≤ Max.max (x + -(1 / k) * g) 0 ∧ 0 ≤ g + k * (Max.max (x + -(1 / k) * g) 0 - x) ∧
      Max.max (x + -(1 / k) * g) 0 * (g + k * (Max.max (x + -(1 / k) * g) 0 - x)) = 0 := by
  have hscale := mul_add_neg_one_div_mul hk x g
  rcases le_total (x + -(1 / k) * g) 0 with hle | hle
  -- The impulse would pull, and lets go instead.
  · have hpull : k * x - g ≤ 0 := hscale ▸ mul_nonpos_of_nonneg_of_nonpos hk.le hle
    rw [max_eq_right hle]
    exact ⟨le_rfl, by linarith, zero_mul _⟩
  · have hstop : g + k * (x + -(1 / k) * g - x) = 0 := by
      rw [mul_sub, hscale]
      ring
    rw [max_eq_left hle, hstop, mul_zero]
    exact ⟨hle, le_rfl, rfl⟩

/-- An impulse between bounds leaves slip only where it is at a bound, and against the slip. -/
theorem slip_of_clampWithin {k x w l y : ℝ} (hk : 0 < k)
    (h : clampWithin (-l) l (x + -(1 / k) * w) = .ok y) :
    w + k * (y - x) = 0 ∨ y = l ∧ w + k * (y - x) < 0 ∨ y = -l ∧ 0 < w + k * (y - x) := by
  have hscale := mul_add_neg_one_div_mul hk x w
  rw [clampWithin] at h
  split at h
  next hle =>
    cases h
    rw [Scalar.clamp]
    split
    next hlo =>
      have hbelow := mul_lt_mul_of_pos_left hlo hk
      exact .inr (.inr ⟨rfl, by linarith⟩)
    next hlo =>
      split
      next hhi =>
        have habove := mul_lt_mul_of_pos_left hhi hk
        exact .inr (.inl ⟨rfl, by linarith⟩)
      next hhi => exact .inl (by rw [mul_sub, hscale]; ring)
  · cases h

/-! ## How velocities answer to impulses -/

/-- The resistance is how much an impulse along a direction changes the relative velocity along
it. -/
theorem dot_relativeVelocity_applyImpulse {n : Vec ℝ} (hn : n.normSq = 1) (a b : SolverBody ℝ)
    (armA armB : Vec ℝ) (x : ℝ) (v : Velocity ℝ × Velocity ℝ) :
    (relativeVelocity armA armB (applyImpulse a b armA armB (n * x) v)).dot n =
      (relativeVelocity armA armB v).dot n + resistance a b armA armB n * x := by
  simp only [Vec.normSq, Vec.dot] at hn
  simp only [relativeVelocity, applyImpulse, resistance, Vec.dot, Vec.cross, Vec.outCross,
    Vec.add_x, Vec.add_y, Vec.sub_x, Vec.sub_y, Vec.mul_x, Vec.mul_y]
  linear_combination (x * (a.invMass + b.invMass)) * hn

namespace Constraint

variable {c : Constraint ℝ}

/-- Impulses can move one of the bodies, and none moves backwards. -/
structure IsMovable (c : Constraint ℝ) : Prop where
  invMass_a : 0 ≤ c.a.invMass
  invMass_b : 0 ≤ c.b.invMass
  invInertia_a : 0 ≤ c.a.invInertia
  invInertia_b : 0 ≤ c.b.invInertia
  movable : 0 < c.a.invMass ∨ 0 < c.b.invMass

theorem IsMovable.resistance_pos (h : c.IsMovable) (armA armB d : Vec ℝ) :
    0 < resistance c.a.toSolverBody c.b.toSolverBody armA armB d := by
  have hmass : 0 < c.a.invMass + c.b.invMass := by
    rcases h.movable with ha | hb
    · exact add_pos_of_pos_of_nonneg ha h.invMass_b
    · exact add_pos_of_nonneg_of_pos h.invMass_a hb
  have ha : 0 ≤ c.a.invInertia * armA.cross d * armA.cross d := by
    rw [mul_assoc]
    exact mul_nonneg h.invInertia_a (mul_self_nonneg _)
  have hb : 0 ≤ c.b.invInertia * armB.cross d * armB.cross d := by
    rw [mul_assoc]
    exact mul_nonneg h.invInertia_b (mul_self_nonneg _)
  rw [resistance]
  linarith

theorem normSq_tangent (c : Constraint ℝ) : c.tangent.normSq = c.normal.normSq := by
  simp only [tangent, Vec.crossOut, Vec.normSq, Vec.dot]
  ring

end Constraint

/-! ## One row -/

namespace Row

variable {c : Constraint ℝ} {r r' : Row ℝ} {v v' : Velocity ℝ × Velocity ℝ}

/-- How fast the bodies part at the point. -/
noncomputable def normalVelocity (c : Constraint ℝ) (r : Row ℝ) (v : Velocity ℝ × Velocity ℝ) : ℝ :=
  (relativeVelocity r.armA r.armB v).dot c.normal

/-- How fast B slips along A at the point. -/
noncomputable def slip (c : Constraint ℝ) (r : Row ℝ) (v : Velocity ℝ × Velocity ℝ) : ℝ :=
  (relativeVelocity r.armA r.armB v).dot c.tangent

/-- The bodies part at least as fast as is asked for, and push only where they part no faster. -/
structure PushLaw (c : Constraint ℝ) (r : Row ℝ) (v : Velocity ℝ × Velocity ℝ) : Prop where
  push : 0 ≤ r.normalImpulse
  parting : r.bias ≤ r.normalVelocity c v
  complementary : r.normalImpulse * (r.normalVelocity c v - r.bias) = 0

/-- Friction is within its cone, and where the bodies slip it is at the bound that is against the
slip. -/
structure FrictionLaw (c : Constraint ℝ) (r : Row ℝ) (v : Velocity ℝ × Velocity ℝ) : Prop where
  hold : |r.tangentImpulse| ≤ c.friction * r.normalImpulse
  slip : r.slip c v = 0 ∨
    r.tangentImpulse = c.friction * r.normalImpulse ∧ r.slip c v < 0 ∨
    r.tangentImpulse = -(c.friction * r.normalImpulse) ∧ 0 < r.slip c v

/-- The masses are those of two bodies at the ends of the arms. -/
structure IsPrepared (a b : SolverBody ℝ) (normal : Vec ℝ) (r : Row ℝ) : Prop where
  normalMass : r.normalMass = invPositive (resistance a b r.armA r.armB normal)
  tangentMass : r.tangentMass = invPositive (resistance a b r.armA r.armB (normal.crossOut 1))

theorem normalVelocity_solveNormal (hn : c.normal.normSq = 1) (r : Row ℝ)
    (v : Velocity ℝ × Velocity ℝ) :
    (r.solveNormal c v).1.normalVelocity c (r.solveNormal c v).2 =
      r.normalVelocity c v + resistance c.a.toSolverBody c.b.toSolverBody r.armA r.armB c.normal *
        ((r.solveNormal c v).1.normalImpulse - r.normalImpulse) :=
  dot_relativeVelocity_applyImpulse hn _ _ r.armA r.armB _ v

/-- The normal row leaves behind what is asked of a push, whatever its impulse was. -/
theorem pushLaw_solveNormal (hr : r.IsPrepared c.a.toSolverBody c.b.toSolverBody c.normal)
    (hc : c.IsMovable) (hn : c.normal.normSq = 1) (v : Velocity ℝ × Velocity ℝ) :
    (r.solveNormal c v).1.PushLaw c (r.solveNormal c v).2 := by
  have hk := hc.resistance_pos r.armA r.armB c.normal
  obtain ⟨hpush, hgap, hzero⟩ :=
    complementary_max (x := r.normalImpulse) (g := r.normalVelocity c v - r.bias) hk
  -- The mass is one over the resistance, which is positive.
  have hmass := hr.normalMass.trans (if_pos hk)
  have himpulse : (r.solveNormal c v).1.normalImpulse = Max.max (r.normalImpulse +
      -(1 / resistance c.a.toSolverBody c.b.toSolverBody r.armA r.armB c.normal) *
        (r.normalVelocity c v - r.bias)) 0 := by
    rw [← hmass]
    exact Scalar.max_eq _ _
  rw [← himpulse, sub_add_eq_add_sub, ← r.normalVelocity_solveNormal hn v] at hgap hzero
  exact ⟨himpulse ▸ hpush, sub_nonneg.1 hgap, hzero⟩

/-- The friction row leaves behind what is asked of friction, whatever its impulse was. -/
theorem frictionLaw_of_solveFriction
    (hr : r.IsPrepared c.a.toSolverBody c.b.toSolverBody c.normal) (hc : c.IsMovable)
    (hn : c.normal.normSq = 1) (h : r.solveFriction c v = .ok (r', v')) : r'.FrictionLaw c v' := by
  have hk := hc.resistance_pos r.armA r.armB c.tangent
  have hmass := hr.tangentMass.trans (if_pos hk)
  obtain ⟨y, hy, h⟩ := bind_eq_ok_iff.1 h
  cases h
  refine ⟨abs_le.2 (clampWithin_bounds hy), ?_⟩
  have hanswer := dot_relativeVelocity_applyImpulse (c.normSq_tangent.trans hn) c.a.toSolverBody
    c.b.toSolverBody r.armA r.armB (y - r.tangentImpulse) v
  rw [hmass] at hy
  rw [slip, hanswer]
  exact slip_of_clampWithin hk hy

/-- Solving a row changes its impulses only. -/
theorem IsPrepared.solve {a b : SolverBody ℝ} {normal : Vec ℝ} (hr : r.IsPrepared a b normal)
    (h : r.solve c v = .ok (r', v')) : r'.IsPrepared a b normal := by
  obtain ⟨y, -, h⟩ := bind_eq_ok_iff.1 h
  cases h
  exact ⟨hr.normalMass, hr.tangentMass⟩

end Row

/-! ## One constraint -/

namespace Constraint

variable {c c' : Constraint ℝ} {rows rows' : List (Row ℝ)} {v v' : Velocity ℝ × Velocity ℝ}
  {vs vs' : Array (Velocity ℝ)}

/-- All rows have the masses of the bodies of the constraint. -/
def IsPrepared (c : Constraint ℝ) : Prop :=
  ∀ r ∈ c.rows, r.IsPrepared c.a.toSolverBody c.b.toSolverBody c.normal

/-- Rows are solved one after the other, and each leaves behind what is asked of a push, then what
is asked of friction, before the next one is solved. -/
inductive Lawful (c : Constraint ℝ) : List (Row ℝ) → Velocity ℝ × Velocity ℝ →
    List (Row ℝ) → Velocity ℝ × Velocity ℝ → Prop
  | nil (v : Velocity ℝ × Velocity ℝ) : Lawful c [] v [] v
  | cons {r r₁ r₂ : Row ℝ} {rows rows' : List (Row ℝ)} {v v₁ v₂ v' : Velocity ℝ × Velocity ℝ}
      (normal : r.solveNormal c v = (r₁, v₁)) (push : r₁.PushLaw c v₁)
      (tangent : r₁.solveFriction c v₁ = .ok (r₂, v₂)) (hold : r₂.FrictionLaw c v₂)
      (rest : Lawful c rows v₂ rows' v') : Lawful c (r :: rows) v (r₂ :: rows') v'

/-- Where friction is not negative no clamp faults, so the rows are solved to the last. -/
theorem lawful_solveRows (hc : c.IsMovable) (hn : c.normal.normSq = 1) (hf : 0 ≤ c.friction)
    (hrows : ∀ r ∈ rows, r.IsPrepared c.a.toSolverBody c.b.toSolverBody c.normal)
    (v : Velocity ℝ × Velocity ℝ) :
    ∃ rows' v', c.solveRows rows v = .ok (rows', v') ∧ c.Lawful rows v rows' v' := by
  induction rows generalizing v with
  | nil => exact ⟨[], v, rfl, .nil v⟩
  | cons r rows ih =>
    obtain ⟨hr, hrest⟩ := List.forall_mem_cons.1 hrows
    have hr₁ : (r.solveNormal c v).1.IsPrepared c.a.toSolverBody c.b.toSolverBody c.normal :=
      ⟨hr.normalMass, hr.tangentMass⟩
    have hfaults : FaultsOnly (fun _ ↦ False) (r.solve c v) :=
      r.faultsOnly_solve c v (hasLimits_of_nonneg hf)
    obtain ⟨⟨r₂, v₂⟩, hsolve⟩ := hfaults.exists_ok
    obtain ⟨rows', v', hrows', hlaw⟩ := ih hrest v₂
    refine ⟨r₂ :: rows', v', bind_eq_ok_iff.2 ⟨_, hsolve, bind_eq_ok_iff.2 ⟨_, hrows', rfl⟩⟩, ?_⟩
    exact .cons rfl (r.pushLaw_solveNormal hr hc hn v) hsolve
      (Row.frictionLaw_of_solveFriction hr₁ hc hn hsolve) hlaw

theorem isPrepared_prepare (c : Constraint ℝ) (threshold : ℝ) (pa pb : Placement ℝ)
    (v : Velocity ℝ × Velocity ℝ) : (c.prepare threshold pa pb v).IsPrepared := by
  rw [prepare]
  split
  · intro r hr
    obtain ⟨k, hk, rfl⟩ := List.mem_iff_getElem.1 hr
    rw [List.getElem_zipWith]
    exact ⟨rfl, rfl⟩
  · rintro r ⟨⟩

theorem isPrepared_of_solveRows {a b : SolverBody ℝ} {normal : Vec ℝ}
    (hrows : ∀ r ∈ rows, r.IsPrepared a b normal) (h : c.solveRows rows v = .ok (rows', v')) :
    ∀ r ∈ rows', r.IsPrepared a b normal := by
  induction rows generalizing v rows' v' with
  | nil =>
    cases h
    exact hrows
  | cons r rows ih =>
    obtain ⟨⟨r₁, v₁⟩, h₁, h⟩ := bind_eq_ok_iff.1 h
    obtain ⟨⟨rows₂, v₂⟩, h₂, h⟩ := bind_eq_ok_iff.1 h
    cases h
    obtain ⟨hr, hrest⟩ := List.forall_mem_cons.1 hrows
    exact List.forall_mem_cons.2 ⟨hr.solve h₁, ih hrest h₂⟩

theorem IsPrepared.solveVelocity (hc : c.IsPrepared) (h : c.solveVelocity vs = .ok (c', vs')) :
    c'.IsPrepared := by
  rw [Constraint.solveVelocity] at h
  split at h
  · cases h
    exact hc
  · obtain ⟨x, hx, h⟩ := bind_eq_ok_iff.1 h
    cases h
    exact isPrepared_of_solveRows hc hx

/-- Two round bodies that overlap, at a point where a step before has left a pull. -/
noncomputable def strained : Constraint ℝ where
  handle := ⟨0, 0⟩
  manifold := .single .circles 0 0 ⟨0, -1, 1, .first⟩
  a := ⟨⟨1, 1, 0⟩, 0, 1⟩
  b := ⟨⟨1, 1, 0⟩, 1, 1⟩
  friction := 1
  restitution := 0
  normal := 0
  rows := [⟨0, 0, -1, 1, 0, 0, 0⟩]

end Constraint

/-! ## All passes -/

namespace Solver

variable {s s' s₁ s₂ : Solver ℝ} {cs cs' : List (Constraint ℝ)} {ps : Array (Placement ℝ)}
  {vs vs' vs₀ : Array (Velocity ℝ)}

theorem isPrepared_prepare (h : s.prepare ps vs = .ok s') : ∀ c ∈ s'.constraints, c.IsPrepared := by
  intro c hc
  obtain ⟨cs, hcs, h⟩ := bind_eq_ok_iff.1 h
  cases h
  obtain ⟨c₀, -, hc₀⟩ := exists_of_mem_mapM hcs hc
  split at hc₀
  · cases hc₀
    exact c₀.isPrepared_prepare _ _ _ _
  · cases hc₀

theorem isPrepared_of_solveConstraints (hcs : ∀ c ∈ cs, c.IsPrepared)
    (h : solveConstraints cs vs = .ok (cs', vs')) : ∀ c ∈ cs', c.IsPrepared := by
  induction cs generalizing vs cs' vs' with
  | nil =>
    cases h
    exact hcs
  | cons c cs ih =>
    obtain ⟨⟨c₁, vs₁⟩, hc, h⟩ := bind_eq_ok_iff.1 h
    obtain ⟨⟨cs₁, vs₂⟩, hrest, h⟩ := bind_eq_ok_iff.1 h
    cases h
    obtain ⟨hprepared, hcs⟩ := List.forall_mem_cons.1 hcs
    exact List.forall_mem_cons.2 ⟨hprepared.solveVelocity hc, ih hcs hrest⟩

theorem isPrepared_of_velocityPasses {n : Nat} (hs : ∀ c ∈ s.constraints, c.IsPrepared)
    (h : velocityPasses n s vs = .ok (s', vs')) : ∀ c ∈ s'.constraints, c.IsPrepared := by
  induction n generalizing s vs with
  | zero =>
    cases h
    exact hs
  | succ n ih =>
    obtain ⟨⟨s₁, vs₁⟩, h₁, h⟩ := bind_eq_ok_iff.1 h
    obtain ⟨x, hx, h₁⟩ := bind_eq_ok_iff.1 h₁
    cases h₁
    exact ih (isPrepared_of_solveConstraints hs hx) h

/-- **Each row leaves the laws of contact behind.**  This is so in every pass, whatever velocities
the constraint finds.  As preparing a row keeps its impulses, they may be any to start with. -/
theorem lawful_velocityPasses (hp : s.prepare ps vs₀ = .ok s₁) {n : Nat}
    (hpasses : velocityPasses n s₁ vs = .ok (s₂, vs')) {c : Constraint ℝ}
    (hmem : c ∈ s₂.constraints) (hc : c.IsMovable) (hn : c.normal.normSq = 1)
    (hf : 0 ≤ c.friction) (us : Array (Velocity ℝ)) (hacts : c.Acts us.size) :
    ∃ v rows v', twoOf? us c.a.place c.b.place = some v ∧
      c.solveVelocity us = .ok ({ c with rows }, setTwo us c.a.place c.b.place v') ∧
      c.Lawful c.rows v rows v' := by
  have hprepared := isPrepared_of_velocityPasses (isPrepared_prepare hp) hpasses c hmem
  obtain ⟨v, htwo⟩ := hacts.exists_twoOf?
  obtain ⟨rows, v', hrows, hlaw⟩ := Constraint.lawful_solveRows hc hn hf hprepared v
  refine ⟨v, rows, v', htwo, ?_, hlaw⟩
  rw [Constraint.solveVelocity, htwo]
  exact bind_eq_ok_iff.2 ⟨_, hrows, rfl⟩

/-- A body strikes one that rests, at a point where a step before has left a pull. -/
theorem lawful_strained : ∃ (c : Constraint ℝ) (r r' : Row ℝ) (v' : Velocity ℝ × Velocity ℝ),
    (⟨.of 1 1 0 .default, [.strained]⟩ : Solver ℝ).prepare #[⟨⟨0, 1⟩, 0⟩, ⟨⟨1, 1⟩, 0⟩]
      #[⟨⟨1, 0⟩, 0⟩, ⟨0, 0⟩] = .ok ⟨.of 1 1 0 .default, [c]⟩ ∧
    c.rows = [r] ∧ r.normalImpulse < 0 ∧
    c.solveVelocity #[⟨⟨1, 0⟩, 0⟩, ⟨0, 0⟩] =
      .ok ({ c with rows := [r'] }, setTwo #[⟨⟨1, 0⟩, 0⟩, ⟨0, 0⟩] c.a.place c.b.place v') ∧
    c.Lawful [r] (⟨⟨1, 0⟩, 0⟩, ⟨0, 0⟩) [r'] v' := by
  obtain ⟨c, hc, hp⟩ : ∃ c, Constraint.strained.prepare 1 ⟨⟨0, 1⟩, 0⟩ ⟨⟨1, 1⟩, 0⟩
      (⟨⟨1, 0⟩, 0⟩, ⟨0, 0⟩) = c ∧
      (⟨.of 1 1 0 .default, [.strained]⟩ : Solver ℝ).prepare #[⟨⟨0, 1⟩, 0⟩, ⟨⟨1, 1⟩, 0⟩]
        #[⟨⟨1, 0⟩, 0⟩, ⟨0, 0⟩] = .ok ⟨.of 1 1 0 .default, [c]⟩ := ⟨_, rfl, rfl⟩
  rw [Constraint.prepare, if_pos (WorldManifold.isFinite_real _)] at hc
  have hmovable : c.IsMovable := by
    rw [← hc]
    exact ⟨zero_le_one, zero_le_one, zero_le_one, zero_le_one, .inl one_pos⟩
  have hunit : c.normal.normSq = 1 := by
    rw [← hc]
    exact Vec.normSq_normalizeOr (by simp [Vec.normSq, Vec.dot, Vec.right])
  have hfriction : 0 ≤ c.friction := by
    rw [← hc]
    exact zero_le_one
  have hacts : c.Acts 2 := by
    rw [← hc]
    exact ⟨Nat.zero_ne_one, Nat.two_pos, Nat.one_lt_two⟩
  obtain ⟨r, hr, hpull⟩ : ∃ r, c.rows = [r] ∧ r.normalImpulse = -1 := by
    rw [← hc]
    exact ⟨_, rfl, rfl⟩
  have hpasses : velocityPasses 0 ⟨.of 1 1 0 .default, [c]⟩ #[] = .ok (_, #[]) := rfl
  obtain ⟨v, rows, v', htwo, hsolve, hlaw⟩ := lawful_velocityPasses hp hpasses
    (List.mem_singleton_self c) hmovable hunit hfriction #[⟨⟨1, 0⟩, 0⟩, ⟨0, 0⟩] hacts
  have hv : v = (⟨⟨1, 0⟩, 0⟩, ⟨0, 0⟩) := by
    rw [← hc] at htwo
    exact (Option.some.inj htwo).symm
  rw [hr, hv] at hlaw
  obtain ⟨r', rfl⟩ : ∃ r', rows = [r'] := by
    cases hlaw with
    | cons _ _ _ _ rest =>
      cases rest
      exact ⟨_, rfl⟩
  exact ⟨c, r, r', v', hp, hr, hpull ▸ neg_one_lt_zero, hsolve, hlaw⟩

end Solver

end PlanarDynamics
