import PlanarDynamics.Proofs.Solver.Correction

/-!
# How the overlap of two circles settles

Two circles about the centers of mass of their bodies are pushed along the line of their centers,
which does not turn them, so a pass parts them by just what it asks for:
`Constraint.IsCentered.dist_corrected`.  That is no more than the overlap beyond the slop, so the
passes do not overshoot, and while the overlap is not tolerated it is at least a fixed amount, so
they get there: `Solver.settles_positionRun`.
-/

namespace PlanarDynamics

/-! ## What a pass asks for -/

namespace SolverSettings

/-- Passes remove overlap, but no more than there is, and tolerate a little. -/
structure IsGradual (s : SolverSettings ℝ) : Prop where
  baumgarte_pos : 0 < s.baumgarte
  baumgarte_le : s.baumgarte ≤ 1
  linearSlop : 0 < s.linearSlop
  maxLinearCorrection : 0 < s.maxLinearCorrection

variable {s : SolverSettings ℝ} {x : ℝ}

/-- The surfaces do not move beyond the slop. -/
theorem IsGradual.sub_amount_le (hs : s.IsGradual) (x : ℝ) :
    x - s.amount x ≤ Max.max x (-s.linearSlop) := by
  have hle : Min.min 0 (s.baumgarte * (x + s.linearSlop)) ≤ s.amount x := by
    rw [amount_eq hs.maxLinearCorrection.le]
    exact le_max_right _ _
  rcases le_total 0 (x + s.linearSlop) with hx | hx
  · rw [min_eq_left (mul_nonneg hs.baumgarte_pos.le hx)] at hle
    exact le_max_of_le_left (by linarith)
  · rw [min_eq_right (mul_nonpos_of_nonneg_of_nonpos hs.baumgarte_pos.le hx)] at hle
    have hpart := mul_le_mul_of_nonpos_right hs.baumgarte_le hx
    exact le_max_of_le_right (by linarith)

/-- The least by which a pass reduces an overlap that is not tolerated. -/
noncomputable def leastGain (s : SolverSettings ℝ) : ℝ :=
  Min.min s.maxLinearCorrection (s.baumgarte * s.linearSlop)

theorem IsGradual.leastGain_pos (hs : s.IsGradual) : 0 < s.leastGain :=
  lt_min hs.maxLinearCorrection (mul_pos hs.baumgarte_pos hs.linearSlop)

theorem IsGradual.amount_le (hs : s.IsGradual) (hx : x < -(3 * s.linearSlop)) :
    s.amount x ≤ -s.leastGain := by
  have hdeep : x + s.linearSlop ≤ -s.linearSlop := by linarith [hs.linearSlop]
  have hasked := mul_le_mul_of_nonneg_left hdeep hs.baumgarte_pos.le
  rw [mul_neg] at hasked
  rw [amount_eq hs.maxLinearCorrection.le, leastGain, ← max_neg_neg]
  exact max_le_max le_rfl ((min_le_right _ _).trans hasked)

end SolverSettings

/-! ## Sequences of separations -/

/-- Separations before each of a sequence of passes grow, but not beyond the slop, until the passes
are satisfied. -/
structure Settles (slop : ℝ) (separation : Nat → ℝ) (say : Nat → Bool) : Prop where
  le_succ : ∀ k, separation k ≤ separation (k + 1)
  succ_le : ∀ k, separation (k + 1) ≤ Max.max (separation k) (-slop)
  say_iff : ∀ k, say k = true ↔ -(3 * slop) ≤ separation k
  stays : ∀ j k, j ≤ k → say j = true → say k = true
  ends : ∃ k, say k = true

theorem settles_of_sub_amount {s : SolverSettings ℝ} (hs : s.IsGradual) {separation : Nat → ℝ}
    {say : Nat → Bool}
    (hstep : ∀ k, separation (k + 1) = separation k - s.amount (separation k))
    (hsay : ∀ k, say k = true ↔ -(3 * s.linearSlop) ≤ separation k) :
    Settles s.linearSlop separation say := by
  have hmono : Monotone separation := by
    refine monotone_nat_of_le_succ fun k ↦ ?_
    have hk := SolverSettings.amount_nonpos hs.maxLinearCorrection.le (separation k)
    rw [hstep]
    linarith
  refine ⟨fun k ↦ hmono k.le_succ, fun k ↦ hstep k ▸ hs.sub_amount_le _, hsay, ?_, ?_⟩
  · intro j k hjk hj
    exact (hsay k).2 (((hsay j).1 hj).trans (hmono hjk))
  · by_contra hnever
    have hdeep : ∀ k, separation k < -(3 * s.linearSlop) :=
      fun k ↦ not_le.1 fun hk ↦ hnever ⟨k, (hsay k).2 hk⟩
    -- Each pass gains at least `s.leastGain`, so in the end the separation is above every bound.
    have hgain : ∀ k : Nat, separation 0 + k * s.leastGain ≤ separation k := by
      intro k
      induction k with
      | zero => simp
      | succ k ih =>
        have hk := hs.amount_le (hdeep k)
        rw [hstep]
        push_cast
        linarith
    obtain ⟨n, hn⟩ := exists_nat_gt ((-(3 * s.linearSlop) - separation 0) / s.leastGain)
    rw [div_lt_iff₀ hs.leastGain_pos] at hn
    linarith [hgain n, hdeep n]

/-! ## Two circles -/

namespace Vec

variable {a b n : Vec ℝ} {d : ℝ}

/-- The midpoint is on the line of two points. -/
theorem cross_midpoint_sub (h : b - a = n * d) :
    (a.midpoint b - a).cross n = 0 ∧ (a.midpoint b - b).cross n = 0 := by
  have hx : b.x - a.x = n.x * d := congrArg Vec.x h
  have hy : b.y - a.y = n.y * d := congrArg Vec.y h
  simp only [midpoint, cross, sub_x, sub_y, add_x, add_y, mul_x, mul_y]
  constructor
  · linear_combination (n.y / 2) * hx - (n.x / 2) * hy
  · linear_combination (n.x / 2) * hy - (n.y / 2) * hx

end Vec

namespace Constraint

variable {c : Constraint ℝ} {s : SolverSettings ℝ} {v : Placement ℝ × Placement ℝ}

/-- The bodies are pushed along the line of their centers, where only their masses resist. -/
theorem IsCentered.dist_corrected (hc : c.IsCentered) (hs : 0 ≤ s.maxLinearCorrection)
    (hm : 0 < c.a.invMass + c.b.invMass) (hfar : 1e-10 ≤ v.2.center.dist v.1.center)
    (p : ManifoldPoint ℝ) :
    (c.corrected s p v).2.center.dist (c.corrected s p v).1.center =
      v.2.center.dist v.1.center - s.amount (c.gap v) := by
  obtain ⟨n, hn, hway, ho⟩ := hc.overlapAt_eq hfar p
  obtain ⟨hra, hrb⟩ := Vec.cross_midpoint_sub hway
  set x := c.impulseAt s (c.overlapAt p v) v with hx
  have hk : resistance c.a.toSolverBody c.b.toSolverBody
      (v.1.center.midpoint v.2.center - v.1.center)
      (v.1.center.midpoint v.2.center - v.2.center) n = c.a.invMass + c.b.invMass := by
    simp only [resistance, hra, hrb]
    ring
  have himpulse : x * (c.a.invMass + c.b.invMass) = -s.amount (c.gap v) := by
    rw [hx, ho, impulseAt, correctionImpulse, hk, if_pos hm, div_mul_cancel₀ _ hm.ne']
  have hapart : (c.corrected s p v).2.center - (c.corrected s p v).1.center =
      n * (v.2.center.dist v.1.center - s.amount (c.gap v)) := by
    rw [corrected, ← hx, ho, sub_eq_add_neg (v.2.center.dist _), ← himpulse]
    ext
    · have h := congrArg Vec.x hway
      simp only [pushApart, Vec.sub_x, Vec.add_x, Vec.mul_x] at h ⊢
      linear_combination h
    · have h := congrArg Vec.y hway
      simp only [pushApart, Vec.sub_y, Vec.add_y, Vec.mul_y] at h ⊢
      linear_combination h
  refine Vec.dist_eq_of_sub_eq hn ?_ hapart
  have hamount := SolverSettings.amount_nonpos hs (c.gap v)
  linarith [hfar.trans' (show (0 : ℝ) ≤ 1e-10 by norm_num)]

section

variable (hc : c.IsCentered) (hs : 0 ≤ s.maxLinearCorrection) (hm : 0 < c.a.invMass + c.b.invMass)
  (hfar : 1e-10 ≤ v.2.center.dist v.1.center) (p : ManifoldPoint ℝ) (k : Nat)

include hc hs hm hfar

/-- The circles stay far enough apart to have a direction. -/
theorem IsCentered.far_iterate : 1e-10 ≤
    ((c.corrected s p)^[k] v).2.center.dist ((c.corrected s p)^[k] v).1.center := by
  induction k with
  | zero => exact hfar
  | succ k ih =>
    have hamount := SolverSettings.amount_nonpos hs (c.gap ((c.corrected s p)^[k] v))
    rw [Function.iterate_succ_apply', hc.dist_corrected hs hm ih]
    linarith

theorem IsCentered.gap_iterate_succ : c.gap ((c.corrected s p)^[k + 1] v) =
    c.gap ((c.corrected s p)^[k] v) - s.amount (c.gap ((c.corrected s p)^[k] v)) := by
  have hfar' := hc.far_iterate hs hm hfar p k
  rw [Function.iterate_succ_apply', gap, hc.dist_corrected hs hm hfar', gap]
  ring

end

end Constraint

/-! ## One pass and all passes -/

namespace Solver

variable {step : TimeStep ℝ} {c : Constraint ℝ} {ps : Array (Placement ℝ)}
  {v : Placement ℝ × Placement ℝ}

theorem positionPass_of_isCentered (hs : 0 ≤ step.settings.maxLinearCorrection) (hc : c.IsCentered)
    (htwo : twoOf? ps c.a.place c.b.place = some v)
    (hfar : 1e-10 ≤ v.2.center.dist v.1.center) :
    (⟨step, [c]⟩ : Solver ℝ).positionPass ps =
      .ok (setTwo ps c.a.place c.b.place (c.corrected step.settings c.manifold.first v),
        decide (-3.0 * step.settings.linearSlop ≤ Scalar.min 0 (c.gap v))) := by
  have hpoints : c.manifold.points = [c.manifold.first] := by
    rw [Manifold.points, hc.count]
    rfl
  have hcorrect : Constraint.correct step.settings (ps, 0) c =
      .ok (setTwo ps c.a.place c.b.place (c.corrected step.settings c.manifold.first v),
        Scalar.min 0 (c.gap v)) := by
    rw [Constraint.correct, htwo]
    simp only [hpoints, List.foldlM_cons, Constraint.correctPoint_eq_ok hs,
      hc.separation_overlapAt hfar]
    rfl
  rw [positionPass, List.foldlM_cons, hcorrect]
  rfl

/-- Where some slop is tolerated, what counts is the separation that the pass has met. -/
theorem say_iff {slop x : ℝ} (hslop : 0 < slop) :
    decide (-3.0 * slop ≤ Scalar.min 0 x) = true ↔ -(3 * slop) ≤ x := by
  have hthree : (-3.0 : ℝ) * slop = -(3 * slop) := by norm_num
  rw [decide_eq_true_iff, Scalar.min_eq, hthree, le_min_iff]
  exact and_iff_right (by linarith)

/-- **The overlap of two circles goes down to what is tolerated.**  From pass to pass the separation
grows, but not beyond the slop, and the passes are satisfied from some pass on.  The bodies may have
any inertias, as they are not turned. -/
theorem settles_positionRun (hs : step.settings.IsGradual) (hc : c.IsCentered)
    (hm : 0 < c.a.invMass + c.b.invMass) (htwo : twoOf? ps c.a.place c.b.place = some v)
    (hfar : 1e-10 ≤ v.2.center.dist v.1.center) :
    ∃ (run : Nat → Array (Placement ℝ)) (say : Nat → Bool) (pair : Nat → Placement ℝ × Placement ℝ),
      (⟨step, [c]⟩ : Solver ℝ).PositionRun run say ∧ run 0 = ps ∧
      (∀ k, twoOf? (run k) c.a.place c.b.place = some (pair k) ∧
        (c.overlapAt c.manifold.first (pair k)).separation = c.gap (pair k)) ∧
      Settles step.settings.linearSlop (fun k ↦ c.gap (pair k)) say ∧
      ∃ n ps', positionPasses n ⟨step, [c]⟩ ps = .ok (ps', true) := by
  have hmax := hs.maxLinearCorrection.le
  set next := c.corrected step.settings c.manifold.first with hnext
  let run : Nat → Array (Placement ℝ) := fun k ↦ setTwo ps c.a.place c.b.place (next^[k] v)
  have hpair : ∀ k, twoOf? (run k) c.a.place c.b.place = some (next^[k] v) :=
    fun k ↦ twoOf?_setTwo htwo _
  have hfar' := hc.far_iterate hmax hm hfar c.manifold.first
  have hrun : (⟨step, [c]⟩ : Solver ℝ).PositionRun run fun k ↦
      decide (-3.0 * step.settings.linearSlop ≤ Scalar.min 0 (c.gap (next^[k] v))) := by
    intro k
    rw [positionPass_of_isCentered hmax hc (hpair k) (hfar' k), setTwo_setTwo, ← hnext,
      ← Function.iterate_succ_apply' next k v]
  have hsettles : Settles step.settings.linearSlop (fun k ↦ c.gap (next^[k] v)) _ :=
    settles_of_sub_amount hs (hc.gap_iterate_succ hmax hm hfar c.manifold.first)
      fun k ↦ say_iff hs.linearSlop
  have hzero : run 0 = ps := setTwo_of_twoOf? htwo
  refine ⟨run, _, fun k ↦ next^[k] v, hrun, hzero,
    fun k ↦ ⟨hpair k, hc.separation_overlapAt (hfar' k) _⟩, hsettles, ?_⟩
  obtain ⟨k, hk⟩ := hsettles.ends
  obtain ⟨m, solved, -, hpasses, hiff⟩ := hrun.positionPasses_eq_ok (k + 1) 0
  have hsolved : solved = true := hiff.2 ⟨k, k.lt_succ_self, by rwa [Nat.zero_add]⟩
  rw [hzero, hsolved] at hpasses
  exact ⟨k + 1, _, hpasses⟩

/-- A disc that overlaps a fixed one by its radius. -/
theorem discs_settles : ∃ (run : Nat → Array (Placement ℝ)) (say : Nat → Bool)
    (separation : Nat → ℝ),
    (⟨.of 1 1 0 .default, [.discs ⟨0, 0, 0⟩ ⟨1, 1, 0⟩]⟩ : Solver ℝ).PositionRun run say ∧
      run 0 = #[⟨0, 0⟩, ⟨⟨1, 0⟩, 0⟩] ∧ separation 0 = -1 ∧ Settles 0.005 separation say := by
  have hgradual : (TimeStep.of 1 1 0 .default : TimeStep ℝ).settings.IsGradual := by
    constructor <;> norm_num [TimeStep.of, SolverSettings.default]
  have hmass : 0 < (Constraint.discs ⟨0, 0, 0⟩ ⟨1, 1, 0⟩).a.invMass +
      (Constraint.discs ⟨0, 0, 0⟩ ⟨1, 1, 0⟩).b.invMass := by
    norm_num [Constraint.discs]
  have htwo : twoOf? #[(⟨0, 0⟩ : Placement ℝ), ⟨⟨1, 0⟩, 0⟩] 0 1 = some (⟨0, 0⟩, ⟨⟨1, 0⟩, 0⟩) := rfl
  have hfar : 1e-10 ≤ (⟨1, 0⟩ : Vec ℝ).dist 0 := by
    rw [Vec.dist_zero zero_le_one]
    norm_num
  obtain ⟨run, say, pair, hrun, hzero, hpair, hsettles, -⟩ :=
    settles_positionRun hgradual (Constraint.isCentered_discs _ _) hmass htwo hfar
  refine ⟨run, say, _, hrun, hzero, ?_, hsettles⟩
  have hfirst := (hpair 0).1
  rw [hzero] at hfirst
  have hstart : pair 0 = (⟨0, 0⟩, ⟨⟨1, 0⟩, 0⟩) := (Option.some.inj hfirst).symm
  simp only [hstart, Constraint.gap_discs _ _ zero_le_one]
  norm_num

end Solver

end PlanarDynamics
