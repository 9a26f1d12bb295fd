import PlanarDynamics.Proofs.Real.Plane
import PlanarDynamics.Proofs.Solver.Solution

/-!
# The solver over the real numbers

Over the real numbers an impulse does not move a body without inverse mass and inertia, and the
bounds between which the solver clamps are in order: friction acts within bounds of opposite sign,
as normal impulses are not negative.
-/

namespace PlanarDynamics

/-! ## Friction -/

theorem hasLimits_of_nonneg {friction : ℝ} (h : 0 ≤ friction) : HasLimits friction := by
  intro x
  have hlimit : 0 ≤ friction * Scalar.max x 0 := by
    rw [Scalar.max_eq]
    exact mul_nonneg h (le_max_right _ _)
  exact (neg_nonpos.2 hlimit).trans hlimit

theorem Material.friction_ofSurface_nonneg (restitution friction : ℝ) :
    0 ≤ (ofSurface restitution friction).friction := by
  rw [ofSurface, Scalar.max_eq]
  exact le_max_right _ _

theorem Mixing.mix_nonneg (rule : Mixing) {x y : ℝ} (hx : 0 ≤ x) (hy : 0 ≤ y) :
    0 ≤ rule.mix x y := by
  cases rule with
  | geometricMean => exact Real.sqrt_nonneg _
  | average =>
    simp only [mix]
    positivity
  | min =>
    simp only [mix, Scalar.min_eq]
    exact le_min hx hy
  | max =>
    simp only [mix, Scalar.max_eq]
    exact hx.trans (le_max_left x y)
  | multiply => exact mul_nonneg hx hy

theorem Solver.exists_velocityPasses {s : Solver ℝ} (hs : ∀ c ∈ s.constraints, 0 ≤ c.friction)
    (n : Nat) (vs : Array (Velocity ℝ)) : ∃ s' vs', velocityPasses n s vs = .ok (s', vs') := by
  have hrow : ∀ (c : Constraint ℝ) (r : Row ℝ) v, 0 ≤ c.friction →
      FaultsOnly (fun _ ↦ False) (r.solve c v) :=
    fun c r v hc ↦ r.faultsOnly_solve c v (hasLimits_of_nonneg hc)
  obtain ⟨⟨s', vs'⟩, h⟩ := (faultsOnly_velocityPasses hrow hs n vs).exists_ok
  exact ⟨s', vs', h⟩

/-! ## Bodies that impulses do not move -/

/-- The body has no inverse mass and no inverse inertia. -/
structure SolverBody.IsFixed (b : SolverBody ℝ) : Prop where
  invMass : b.invMass = 0
  invInertia : b.invInertia = 0

namespace Constraint

variable {c c' : Constraint ℝ} {v v' v'' : Velocity ℝ × Velocity ℝ} {rows rows' : List (Row ℝ)}
  {vs vs' : Array (Velocity ℝ)} {k : Nat}

/-- From the velocities `v` to `v'`, bodies without inverse mass and inertia keep theirs. -/
structure Spares (c : Constraint ℝ) (v v' : Velocity ℝ × Velocity ℝ) : Prop where
  fst : c.a.IsFixed → v'.1 = v.1
  snd : c.b.IsFixed → v'.2 = v.2

theorem Spares.refl (c : Constraint ℝ) (v : Velocity ℝ × Velocity ℝ) : c.Spares v v :=
  ⟨fun _ ↦ rfl, fun _ ↦ rfl⟩

theorem Spares.trans (h : c.Spares v v') (h' : c.Spares v' v'') : c.Spares v v'' :=
  ⟨fun ha ↦ (h'.fst ha).trans (h.fst ha), fun hb ↦ (h'.snd hb).trans (h.snd hb)⟩

theorem spares_applyImpulse (c : Constraint ℝ) (armA armB p : Vec ℝ)
    (v : Velocity ℝ × Velocity ℝ) :
    c.Spares v (applyImpulse c.a.toSolverBody c.b.toSolverBody armA armB p v) where
  fst ha := by ext <;> simp [applyImpulse, ha.invMass, ha.invInertia]
  snd hb := by ext <;> simp [applyImpulse, hb.invMass, hb.invInertia]

theorem spares_solve {r r' : Row ℝ} (h : r.solve c v = .ok (r', v')) : c.Spares v v' := by
  obtain ⟨x, -, hx⟩ := bind_eq_ok_iff.1 h
  cases hx
  exact (c.spares_applyImpulse _ _ _ v).trans (c.spares_applyImpulse _ _ _ _)

theorem spares_solveRows (h : c.solveRows rows v = .ok (rows', v')) : c.Spares v v' := by
  induction rows generalizing v rows' v' with
  | nil =>
    cases h
    exact .refl c v
  | cons r rows ih =>
    obtain ⟨⟨r₁, v₁⟩, h₁, h⟩ := bind_eq_ok_iff.1 h
    obtain ⟨⟨rows₂, v₂⟩, h₂, h⟩ := bind_eq_ok_iff.1 h
    cases h
    exact (spares_solve h₁).trans (ih h₂)

theorem spares_foldl_warmStart (c : Constraint ℝ) (rows : List (Row ℝ))
    (v : Velocity ℝ × Velocity ℝ) : c.Spares v (rows.foldl (Row.warmStart c) v) := by
  induction rows generalizing v with
  | nil => exact .refl c v
  | cons r rows ih => exact (c.spares_applyImpulse _ _ _ v).trans (ih _)

/-- What a constraint does to its two bodies leaves those that are fixed, and all others. -/
theorem Spares.getElem?_setTwo (h : c.Spares v v') (htwo : twoOf? vs c.a.place c.b.place = some v)
    (ha : c.a.place = k → c.a.IsFixed) (hb : c.b.place = k → c.b.IsFixed) :
    (setTwo vs c.a.place c.b.place v')[k]? = vs[k]? :=
  getElem?_setTwo_of_twoOf? htwo (fun he ↦ h.fst (ha he)) fun he ↦ h.snd (hb he)

theorem getElem?_solveVelocity (h : c.solveVelocity vs = .ok (c', vs'))
    (ha : c.a.place = k → c.a.IsFixed) (hb : c.b.place = k → c.b.IsFixed) : vs'[k]? = vs[k]? := by
  rw [solveVelocity] at h
  split at h
  · cases h
    rfl
  next htwo =>
    obtain ⟨x, hx, h⟩ := bind_eq_ok_iff.1 h
    cases h
    exact (spares_solveRows hx).getElem?_setTwo htwo ha hb

theorem getElem?_warmStart (vs : Array (Velocity ℝ)) (ha : c.a.place = k → c.a.IsFixed)
    (hb : c.b.place = k → c.b.IsFixed) : (warmStart vs c)[k]? = vs[k]? := by
  rw [warmStart]
  split
  · rfl
  next htwo => exact (c.spares_foldl_warmStart c.rows _).getElem?_setTwo htwo ha hb

end Constraint

/-! ## Two discs -/

/-- Two bodies that are discs about their centers of mass, without friction or bounce.  A step
before has left a push between them. -/
noncomputable def Constraint.discs (a b : SolverBody ℝ) : Constraint ℝ where
  handle := ⟨0, 0⟩
  manifold := .single .circles 0 a.localCenter ⟨b.localCenter, 1, 0, .first⟩
  a := ⟨a, 0, 1⟩
  b := ⟨b, 1, 1⟩
  friction := 0
  restitution := 0
  normal := 0
  rows := [⟨0, 0, 1, 0, 0, 0, 0⟩]

theorem Anchor.apply_pose (b : Anchor ℝ) (p : Placement ℝ) :
    (b.pose p).apply b.localCenter = p.center := by
  ext <;> simp [pose, Pose.ofCenter, Pose.apply, Pose.rotate]

/-! ## A contact under strain -/

/-- A contact of the first two bodies, with one point at which a step before has left a pull, and
friction in spite of it. -/
noncomputable def Contact.strained : Contact ℝ where
  colliderA := 0
  colliderB := 1
  bodyA := 0
  bodyB := 1
  kind := .circles
  collide := PairKind.circles.collide
  manifold := .single .circles 0 0 ⟨0, -1, 1, .first⟩
  radiusA := 1
  radiusB := 1
  friction := Mixing.average.mix (Material.ofSurface 0 1).friction (Material.ofSurface 0 1).friction
  restitution := 0
  touching := true
  enabled := true
  sensor := false
  needsFiltering := false

theorem Contact.friction_strained_nonneg : 0 ≤ strained.friction :=
  Mixing.average.mix_nonneg (Material.friction_ofSurface_nonneg 0 1)
    (Material.friction_ofSurface_nonneg 0 1)

noncomputable def Registry.strained : Registry ℝ :=
  ((Registry.ofSettings .default).allocate .strained).2

theorem Registry.get?_strained : Registry.strained.get? ⟨0, 0⟩ = some .strained := rfl

end PlanarDynamics
