import PlanarDynamics.Proofs.Real.Manifold
import PlanarDynamics.Proofs.Solver.Momentum

/-!
# What correcting positions does to bodies

A position pass takes one contact point after the other, as the points before it have left the
bodies, and moves the two bodies of the point apart: `Constraint.corrected`.  So whatever passes do
is a sequence of such pushes, each along the normal of its point and none the other way:
`Solver.PushedApart`.  From one push it follows for all of them that bodies which cannot be moved
stay, and that the masses of all bodies together keep their center.  Overlaps within the slop are
left alone.
-/

namespace PlanarDynamics

/-! ## What is asked for -/

namespace SolverSettings

/-- How far a pass is to move surfaces together, which is not positive. -/
def amount {α : Type} [Scalar α] (s : SolverSettings α) (separation : α) : α :=
  Scalar.clamp (-s.maxLinearCorrection) 0 (s.baumgarte * (separation + s.linearSlop))

variable {s : SolverSettings ℝ} {x : ℝ} (hs : 0 ≤ s.maxLinearCorrection)

include hs

theorem correction_eq_ok (x : ℝ) : Constraint.correction s x = .ok (s.amount x) :=
  if_pos (neg_nonpos.2 hs)

theorem amount_eq (x : ℝ) : s.amount x =
    Max.max (-s.maxLinearCorrection) (Min.min 0 (s.baumgarte * (x + s.linearSlop))) :=
  Scalar.clamp_eq (neg_nonpos.2 hs) _

theorem amount_nonpos (x : ℝ) : s.amount x ≤ 0 := by
  rw [amount_eq hs]
  exact max_le (neg_nonpos.2 hs) (min_le_left _ _)

/-- An overlap within the slop is left alone. -/
theorem amount_eq_zero (hb : 0 ≤ s.baumgarte) (hx : -s.linearSlop ≤ x) : s.amount x = 0 := by
  have hasked : 0 ≤ s.baumgarte * (x + s.linearSlop) :=
    mul_nonneg hb (neg_le_iff_add_nonneg.1 hx)
  rw [amount_eq hs, min_eq_left hasked, max_eq_right (neg_nonpos.2 hs)]

end SolverSettings

/-! ## One point -/

namespace Constraint

section

variable {α : Type} [Scalar α]

/-- What a position pass sees of a point of the constraint, with the two bodies at `v`. -/
def overlapAt (c : Constraint α) (p : ManifoldPoint α) (v : Placement α × Placement α) :
    Overlap α :=
  c.manifold.overlap p (c.a.pose v.1) c.a.radius (c.b.pose v.2) c.b.radius

/-- The impulse along the normal that corrects a point seen as `o`. -/
def impulseAt (c : Constraint α) (s : SolverSettings α) (o : Overlap α)
    (v : Placement α × Placement α) : α :=
  c.correctionImpulse (o.point - v.1.center) (o.point - v.2.center) o.normal
    (s.amount o.separation)

/-- Where the bodies are after an impulse along the normal of `o` has moved B, and its opposite
A. -/
def pushApart (c : Constraint α) (o : Overlap α) (x : α) (v : Placement α × Placement α) :
    Placement α × Placement α :=
  let p := o.normal * x
  (⟨v.1.center - p * c.a.invMass, v.1.angle - c.a.invInertia * (o.point - v.1.center).cross p⟩,
    ⟨v.2.center + p * c.b.invMass, v.2.angle + c.b.invInertia * (o.point - v.2.center).cross p⟩)

/-- Where the bodies are after a point has been corrected. -/
def corrected (c : Constraint α) (s : SolverSettings α) (p : ManifoldPoint α)
    (v : Placement α × Placement α) : Placement α × Placement α :=
  c.pushApart (c.overlapAt p v) (c.impulseAt s (c.overlapAt p v) v) v

end

variable {c : Constraint ℝ} {s : SolverSettings ℝ} {o : Overlap ℝ} {p : ManifoldPoint ℝ}
  {v : Placement ℝ × Placement ℝ} {x : ℝ}

/-- Real geometry is finite, so no point is passed over. -/
theorem correctPoint_eq_ok (hs : 0 ≤ s.maxLinearCorrection) (c : Constraint ℝ)
    (v : Placement ℝ × Placement ℝ) (least : ℝ) (p : ManifoldPoint ℝ) :
    correctPoint s c ⟨v.1, v.2, least⟩ p = .ok ⟨(c.corrected s p v).1, (c.corrected s p v).2,
      Scalar.min least (c.overlapAt p v).separation⟩ := by
  have hfinite := (c.overlapAt p v).isFinite_real
  have hc := SolverSettings.correction_eq_ok hs (c.overlapAt p v).separation
  rw [overlapAt] at hfinite hc
  simp only [correctPoint, if_pos hfinite, hc]
  rfl

/-! ### The impulse -/

theorem impulseAt_nonneg (hs : 0 ≤ s.maxLinearCorrection) (c : Constraint ℝ) (o : Overlap ℝ)
    (v : Placement ℝ × Placement ℝ) : 0 ≤ c.impulseAt s o v := by
  rw [impulseAt, correctionImpulse]
  split
  next hk => exact div_nonneg (neg_nonneg.2 (SolverSettings.amount_nonpos hs _)) hk.le
  · exact le_rfl

theorem pushApart_zero (c : Constraint ℝ) (o : Overlap ℝ) (v : Placement ℝ × Placement ℝ) :
    c.pushApart o 0 v = v := by
  refine Prod.ext ?_ ?_
  · ext <;> simp [pushApart, Vec.cross]
  · ext <;> simp [pushApart, Vec.cross]

theorem corrected_eq_self (hs : 0 ≤ s.maxLinearCorrection) (hb : 0 ≤ s.baumgarte)
    (ho : -s.linearSlop ≤ (c.overlapAt p v).separation) : c.corrected s p v = v := by
  rw [corrected, impulseAt, correctionImpulse, SolverSettings.amount_eq_zero hs hb ho, neg_zero,
    zero_div, ite_self, pushApart_zero]

/-! ### The two bodies -/

theorem pushApart_fst (ha : c.a.IsFixed) : (c.pushApart o x v).1 = v.1 := by
  ext <;> simp [pushApart, ha.invMass, ha.invInertia]

theorem pushApart_snd (hb : c.b.IsFixed) : (c.pushApart o x v).2 = v.2 := by
  ext <;> simp [pushApart, hb.invMass, hb.invInertia]

/-- Each body gives way by its inverse mass. -/
theorem moment_pushApart (ha : 0 < c.a.invMass) (hb : 0 < c.b.invMass) :
    (c.pushApart o x v).1.center / c.a.invMass + (c.pushApart o x v).2.center / c.b.invMass =
      v.1.center / c.a.invMass + v.2.center / c.b.invMass := by
  have ha := ha.ne'
  have hb := hb.ne'
  ext
  · simp only [pushApart, Vec.add_x, Vec.sub_x, Vec.mul_x, Vec.div_x]
    field_simp
    ring
  · simp only [pushApart, Vec.add_y, Vec.sub_y, Vec.mul_y, Vec.div_y]
    field_simp
    ring

/-! ### Two circles -/

/-- Two circles about the centers of mass of their bodies. -/
structure IsCentered (c : Constraint ℝ) : Prop where
  kind : c.manifold.kind = .circles
  count : c.manifold.count = 1
  localPoint : c.manifold.localPoint = c.a.localCenter
  first : c.manifold.first.localPoint = c.b.localCenter

/-- The distance between two circles about the centers of mass. -/
noncomputable def gap (c : Constraint ℝ) (v : Placement ℝ × Placement ℝ) : ℝ :=
  v.2.center.dist v.1.center - c.a.radius - c.b.radius

theorem IsCentered.overlapAt_eq (hc : c.IsCentered) (hfar : 1e-10 ≤ v.2.center.dist v.1.center)
    (p : ManifoldPoint ℝ) : ∃ n : Vec ℝ, n.normSq = 1 ∧
      v.2.center - v.1.center = n * v.2.center.dist v.1.center ∧
      c.overlapAt p v = ⟨n, v.1.center.midpoint v.2.center, c.gap v⟩ := by
  have ha : (c.a.pose v.1).apply c.manifold.localPoint = v.1.center := by
    rw [hc.localPoint, c.a.apply_pose]
  have hb : (c.b.pose v.2).apply c.manifold.first.localPoint = v.2.center := by
    rw [hc.first, c.b.apply_pose]
  obtain ⟨n, hn, hway, ho⟩ := Manifold.overlap_of_far (t := c.a.pose v.1) (u := c.b.pose v.2)
    hc.kind (by rwa [ha, hb]) p c.a.radius c.b.radius
  rw [ha, hb] at hway ho
  exact ⟨n, hn, hway, ho⟩

theorem IsCentered.separation_overlapAt (hc : c.IsCentered)
    (hfar : 1e-10 ≤ v.2.center.dist v.1.center) (p : ManifoldPoint ℝ) :
    (c.overlapAt p v).separation = c.gap v := by
  obtain ⟨n, -, -, ho⟩ := hc.overlapAt_eq hfar p
  rw [ho]

theorem isCentered_discs (a b : SolverBody ℝ) : (discs a b).IsCentered := ⟨rfl, rfl, rfl, rfl⟩

theorem gap_discs (a b : SolverBody ℝ) (hx : 0 ≤ x) :
    (discs a b).gap (⟨0, 0⟩, ⟨⟨x, 0⟩, 0⟩) = x - 1 - 1 :=
  congrArg (· - 1 - 1) (Vec.dist_zero hx)

end Constraint

/-! ## All bodies -/

/-- The sum of the centers of all bodies, each times its mass. -/
noncomputable def massMoment (bodies : Array (SolverBody ℝ)) (ps : Array (Placement ℝ)) :
    Vec ℝ where
  x := (List.zipWith (fun b p ↦ p.center.x / b.invMass) bodies.toList ps.toList).sum
  y := (List.zipWith (fun b p ↦ p.center.y / b.invMass) bodies.toList ps.toList).sum

namespace Solver

variable {s : Solver ℝ} {bodies : Array (SolverBody ℝ)} {ps ps' ps'' : Array (Placement ℝ)}
  {c : Constraint ℝ} {cs : List (Constraint ℝ)} {v : Placement ℝ × Placement ℝ} {solved : Bool}

/-- From the placements `ps` to `ps'`, the bodies of contact points have been pushed apart, any
number of times, by impulses along the normals from A to B that are not negative. -/
inductive PushedApart (s : Solver ℝ) : Array (Placement ℝ) → Array (Placement ℝ) → Prop
  | refl (ps : Array (Placement ℝ)) : PushedApart s ps ps
  | push {ps ps' : Array (Placement ℝ)} {c : Constraint ℝ} {p : ManifoldPoint ℝ}
      {v : Placement ℝ × Placement ℝ} (constraint : c ∈ s.constraints)
      (point : p ∈ c.manifold.points) (two : twoOf? ps c.a.place c.b.place = some v)
      (apart : 0 ≤ c.impulseAt s.step.settings (c.overlapAt p v) v)
      (rest : PushedApart s
        (setTwo ps c.a.place c.b.place (c.corrected s.step.settings p v)) ps') :
      PushedApart s ps ps'

namespace PushedApart

theorem trans (h : s.PushedApart ps ps') (h' : s.PushedApart ps' ps'') :
    s.PushedApart ps ps'' := by
  induction h with
  | refl _ => exact h'
  | push hc hp htwo hapart _ ih => exact .push hc hp htwo hapart (ih h')

theorem getElem?_of_isFixed (hk : ∀ c ∈ s.constraints, c.Knows bodies) {k : Nat} {b : SolverBody ℝ}
    (hb : bodies[k]? = some b) (hfixed : b.IsFixed) (h : s.PushedApart ps ps') :
    ps'[k]? = ps[k]? := by
  induction h with
  | refl _ => rfl
  | @push ps _ c p v hc _ htwo _ _ ih =>
    rw [ih]
    obtain ⟨ha, hb'⟩ := (hk c hc).isFixed hb hfixed
    exact getElem?_setTwo_of_twoOf? htwo (fun he ↦ Constraint.pushApart_fst (ha he))
      fun he ↦ Constraint.pushApart_snd (hb' he)

theorem massMoment_eq (hk : ∀ c ∈ s.constraints, c.Knows bodies)
    (hb : ∀ b ∈ bodies, 0 < b.invMass) (h : s.PushedApart ps ps') :
    massMoment bodies ps' = massMoment bodies ps := by
  induction h with
  | refl _ => rfl
  | @push ps _ c p v hc _ htwo _ _ ih =>
    obtain ⟨ha, hb'⟩ := hk c hc
    have hmoment : (c.corrected s.step.settings p v).1.center / c.a.invMass +
        (c.corrected s.step.settings p v).2.center / c.b.invMass =
          v.1.center / c.a.invMass + v.2.center / c.b.invMass :=
      Constraint.moment_pushApart (hb _ (Array.mem_of_getElem? ha))
        (hb _ (Array.mem_of_getElem? hb'))
    rw [← Array.getElem?_toList] at ha hb'
    rw [ih]
    refine Vec.ext ?_ ?_
    · refine (sum_zipWith_setTwo ha hb' htwo _).trans ?_
      exact add_eq_left.2 (sub_eq_zero.2 (congrArg Vec.x hmoment))
    · refine (sum_zipWith_setTwo ha hb' htwo _).trans ?_
      exact add_eq_left.2 (sub_eq_zero.2 (congrArg Vec.y hmoment))

end PushedApart

/-! ## One pass -/

section

variable (hs : 0 ≤ s.step.settings.maxLinearCorrection)

include hs

/-- The pass keeps the two bodies of a constraint aside while it corrects the points, which does not
matter. -/
theorem pushedApart_foldlM_correctPoint (hc : c ∈ s.constraints) {points : List (ManifoldPoint ℝ)}
    (hpoints : ∀ p ∈ points, p ∈ c.manifold.points) {least : ℝ} {r : Correction ℝ}
    (htwo : twoOf? ps c.a.place c.b.place = some v)
    (h : points.foldlM (Constraint.correctPoint s.step.settings c) ⟨v.1, v.2, least⟩ = .ok r) :
    s.PushedApart ps (setTwo ps c.a.place c.b.place (r.a, r.b)) := by
  induction points generalizing ps v least with
  | nil =>
    cases h
    rw [setTwo_of_twoOf? htwo]
    exact .refl ps
  | cons p points ih =>
    obtain ⟨hp, hpoints⟩ := List.forall_mem_cons.1 hpoints
    rw [List.foldlM_cons, Constraint.correctPoint_eq_ok hs] at h
    have hrest := ih hpoints (twoOf?_setTwo htwo (c.corrected s.step.settings p v)) h
    rw [setTwo_setTwo] at hrest
    exact .push hc hp htwo (Constraint.impulseAt_nonneg hs c _ v) hrest

theorem pushedApart_correct (hc : c ∈ s.constraints) {st st' : Array (Placement ℝ) × ℝ}
    (h : Constraint.correct s.step.settings st c = .ok st') : s.PushedApart st.1 st'.1 := by
  rw [Constraint.correct] at h
  split at h
  · cases h
    exact .refl _
  next htwo =>
    obtain ⟨r, hr, h⟩ := bind_eq_ok_iff.1 h
    cases h
    exact pushedApart_foldlM_correctPoint hs hc (fun p hp ↦ hp) htwo hr

theorem pushedApart_foldlM_correct (hcs : ∀ c ∈ cs, c ∈ s.constraints)
    {st st' : Array (Placement ℝ) × ℝ}
    (h : cs.foldlM (Constraint.correct s.step.settings) st = .ok st') :
    s.PushedApart st.1 st'.1 := by
  induction cs generalizing st with
  | nil =>
    cases h
    exact .refl _
  | cons c cs ih =>
    obtain ⟨hc, hcs⟩ := List.forall_mem_cons.1 hcs
    obtain ⟨st₁, h₁, h⟩ := bind_eq_ok_iff.1 h
    exact (pushedApart_correct hs hc h₁).trans (ih hcs h)

theorem pushedApart_positionPass (h : s.positionPass ps = .ok (ps', solved)) :
    s.PushedApart ps ps' := by
  obtain ⟨st, hst, h⟩ := bind_eq_ok_iff.1 h
  cases h
  exact pushedApart_foldlM_correct hs (fun c hc ↦ hc) hst

theorem exists_positionPass (ps : Array (Placement ℝ)) :
    ∃ st, s.positionPass ps = .ok st := by
  have hfaults : FaultsOnly (fun _ ↦ False) (s.positionPass ps) := by
    refine (faultsOnly_foldlM (fun st c _ ↦ ?_) _).bind fun x _ ↦ faultsOnly_ok _
    refine Constraint.faultsOnly_correct (fun separation ↦ ?_) st c
    rw [SolverSettings.correction_eq_ok hs]
    exact faultsOnly_ok _
  exact hfaults.exists_ok

end

/-! ### Overlaps within the slop -/

/-- No point overlaps by more than the slop. -/
def IsQuiet (s : Solver ℝ) (ps : Array (Placement ℝ)) : Prop :=
  ∀ c ∈ s.constraints, ∀ v, twoOf? ps c.a.place c.b.place = some v →
    ∀ p ∈ c.manifold.points, -s.step.settings.linearSlop ≤ (c.overlapAt p v).separation

section

variable (hs : 0 ≤ s.step.settings.maxLinearCorrection) (hb : 0 ≤ s.step.settings.baumgarte)

include hs hb

theorem foldlM_correctPoint_of_isQuiet {points : List (ManifoldPoint ℝ)}
    (hquiet : ∀ p ∈ points, -s.step.settings.linearSlop ≤ (c.overlapAt p v).separation)
    (least : ℝ) : ∃ least',
      points.foldlM (Constraint.correctPoint s.step.settings c) ⟨v.1, v.2, least⟩ =
        .ok ⟨v.1, v.2, least'⟩ := by
  induction points generalizing least with
  | nil => exact ⟨least, rfl⟩
  | cons p points ih =>
    obtain ⟨hp, hquiet⟩ := List.forall_mem_cons.1 hquiet
    rw [List.foldlM_cons, Constraint.correctPoint_eq_ok hs, Constraint.corrected_eq_self hs hb hp]
    exact ih hquiet _

theorem foldlM_correct_of_isQuiet (hquiet : s.IsQuiet ps) (hcs : ∀ c ∈ cs, c ∈ s.constraints)
    (least : ℝ) : ∃ least',
      cs.foldlM (Constraint.correct s.step.settings) (ps, least) = .ok (ps, least') := by
  induction cs generalizing least with
  | nil => exact ⟨least, rfl⟩
  | cons c cs ih =>
    obtain ⟨hc, hcs⟩ := List.forall_mem_cons.1 hcs
    have hstep : ∃ least',
        Constraint.correct s.step.settings (ps, least) c = .ok (ps, least') := by
      rw [Constraint.correct]
      cases htwo : twoOf? ps c.a.place c.b.place with
      | none => exact ⟨least, rfl⟩
      | some v =>
        obtain ⟨least', hl⟩ := foldlM_correctPoint_of_isQuiet hs hb (hquiet c hc v htwo) least
        refine ⟨least', bind_eq_ok_iff.2 ⟨_, hl, ?_⟩⟩
        rw [setTwo_of_twoOf? htwo]
        rfl
    obtain ⟨least₁, hl⟩ := hstep
    rw [List.foldlM_cons, hl]
    exact ih hcs least₁

theorem positionPass_of_isQuiet (hquiet : s.IsQuiet ps) :
    ∃ solved, s.positionPass ps = .ok (ps, solved) := by
  obtain ⟨least, hl⟩ := foldlM_correct_of_isQuiet hs hb hquiet (fun c hc ↦ hc) 0
  exact ⟨_, bind_eq_ok_iff.2 ⟨_, hl, rfl⟩⟩

end

/-! ## Any number of passes -/

/-- The placements before each of a sequence of passes, which go on also where one is satisfied, and
what the passes say. -/
def PositionRun {α : Type} [Scalar α] (s : Solver α) (run : Nat → Array (Placement α))
    (solved : Nat → Bool) : Prop :=
  ∀ k, s.positionPass (run k) = .ok (run (k + 1), solved k)

variable {run : Nat → Array (Placement ℝ)} {say : Nat → Bool}

theorem exists_positionRun (hs : 0 ≤ s.step.settings.maxLinearCorrection)
    (ps : Array (Placement ℝ)) : ∃ run say, s.PositionRun run say ∧ run 0 = ps := by
  choose pass hpass using exists_positionPass hs
  let next : Array (Placement ℝ) → Array (Placement ℝ) := fun ps ↦ (pass ps).1
  refine ⟨fun k ↦ next^[k] ps, fun k ↦ (pass (next^[k] ps)).2, fun k ↦ ?_, rfl⟩
  have hnext : next^[k + 1] ps = (pass (next^[k] ps)).1 := Function.iterate_succ_apply' next k ps
  show s.positionPass (next^[k] ps) = .ok (next^[k + 1] ps, (pass (next^[k] ps)).2)
  rw [hnext, hpass]

theorem PositionRun.pushedApart (hs : 0 ≤ s.step.settings.maxLinearCorrection)
    (h : s.PositionRun run say) (n : Nat) : s.PushedApart (run 0) (run n) := by
  induction n with
  | zero => exact .refl _
  | succ n ih => exact ih.trans (pushedApart_positionPass hs (h n))

theorem PositionRun.eq_of_isQuiet (hs : 0 ≤ s.step.settings.maxLinearCorrection)
    (hb : 0 ≤ s.step.settings.baumgarte) (h : s.PositionRun run say) (hquiet : s.IsQuiet (run 0))
    (n : Nat) : run n = run 0 := by
  induction n with
  | zero => rfl
  | succ n ih =>
    obtain ⟨solved, hpass⟩ := positionPass_of_isQuiet hs hb hquiet
    have hn := h n
    rw [ih, hpass] at hn
    exact (congrArg Prod.fst (Except.ok.inj hn)).symm

/-- The passes of a step stop at the first that is satisfied. -/
theorem PositionRun.positionPasses_eq_ok (h : s.PositionRun run say) (n k : Nat) :
    ∃ m solved, m ≤ n ∧ positionPasses n s (run k) = .ok (run (k + m), solved) ∧
      (solved = true ↔ ∃ j < n, say (k + j) = true) := by
  induction n generalizing k with
  | zero => exact ⟨0, false, le_rfl, rfl, by simp⟩
  | succ n ih =>
    rw [positionPasses, h k]
    cases hk : say k with
    | true => exact ⟨1, true, by omega, rfl, by simpa using ⟨0, by omega, hk⟩⟩
    | false =>
      obtain ⟨m, solved, hm, hpasses, hiff⟩ := ih (k + 1)
      refine ⟨m + 1, solved, by omega, ?_, hiff.trans ⟨?_, ?_⟩⟩
      · rw [Nat.add_right_comm] at hpasses
        exact hpasses
      · rintro ⟨j, hj, hsay⟩
        exact ⟨j + 1, by omega, by rwa [Nat.add_right_comm] at hsay⟩
      · rintro ⟨j, hj, hsay⟩
        cases j with
        | zero => cases hk.symm.trans hsay
        | succ j => exact ⟨j, by omega, by rwa [Nat.add_right_comm]⟩

/-- What some passes may make of the placements `ps`. -/
structure Corrects (s : Solver ℝ) (bodies : Array (SolverBody ℝ)) (ps ps' : Array (Placement ℝ)) :
    Prop where
  fixed : ∀ (k : Nat) (b : SolverBody ℝ), bodies[k]? = some b → b.IsFixed → ps'[k]? = ps[k]?
  moment : (∀ b ∈ bodies, 0 < b.invMass) → massMoment bodies ps' = massMoment bodies ps
  quiet : s.IsQuiet ps → ps' = ps
  apart : s.PushedApart ps ps'

/-- **Correcting positions moves no fixed body, keeps the center of all masses, leaves alone what
is within the slop, and pushes bodies apart only.**  Wherever the bodies of a point are found, they
are moved by an impulse along its normal that does not pull, and the rest is so after any number of
passes from any placements, and so after those of a step, which stop at one that is satisfied. -/
theorem corrects_positionRun (hk : ∀ c ∈ s.constraints, c.Knows bodies)
    (hs : 0 ≤ s.step.settings.maxLinearCorrection) (hb : 0 ≤ s.step.settings.baumgarte)
    (ps : Array (Placement ℝ)) :
    (∀ (c : Constraint ℝ) v least p, ∃ x, 0 ≤ x ∧
      c.correctPoint s.step.settings ⟨v.1, v.2, least⟩ p =
        .ok ⟨(c.pushApart (c.overlapAt p v) x v).1, (c.pushApart (c.overlapAt p v) x v).2,
          Scalar.min least (c.overlapAt p v).separation⟩) ∧
    ∃ run say, s.PositionRun run say ∧ run 0 = ps ∧ ∀ n, s.Corrects bodies ps (run n) ∧
      ∃ m solved, m ≤ n ∧ positionPasses n s ps = .ok (run m, solved) := by
  refine ⟨fun c v least p ↦ ⟨_, Constraint.impulseAt_nonneg hs c _ v,
    Constraint.correctPoint_eq_ok hs c v least p⟩, ?_⟩
  obtain ⟨run, say, hrun, rfl⟩ := exists_positionRun hs ps
  refine ⟨run, say, hrun, rfl, fun n ↦ ⟨?_, ?_⟩⟩
  · have hapart := hrun.pushedApart hs n
    exact ⟨fun k b hkb hfixed ↦ hapart.getElem?_of_isFixed hk hkb hfixed,
      fun hfree ↦ hapart.massMoment_eq hk hfree, fun hquiet ↦ hrun.eq_of_isQuiet hs hb hquiet n,
      hapart⟩
  · obtain ⟨m, solved, hm, hpasses, -⟩ := hrun.positionPasses_eq_ok n 0
    rw [Nat.zero_add] at hpasses
    exact ⟨m, solved, hm, hpasses⟩

/-- A disc that overlaps a fixed one, two discs of one mass, and two discs that only touch. -/
theorem discs_corrects :
    (∃ run say,
      (⟨.of 1 1 0 .default, [.discs ⟨0, 0, 0⟩ ⟨1, 1, 0⟩]⟩ : Solver ℝ).PositionRun run say ∧
      run 0 = #[⟨0, 0⟩, ⟨⟨1, 0⟩, 0⟩] ∧ ∀ n, (run n)[0]? = some ⟨0, 0⟩) ∧
    (∃ run say,
      (⟨.of 1 1 0 .default, [.discs ⟨1, 1, 0⟩ ⟨1, 1, 0⟩]⟩ : Solver ℝ).PositionRun run say ∧
      run 0 = #[⟨0, 0⟩, ⟨⟨1, 0⟩, 0⟩] ∧
      ∀ n, massMoment #[⟨1, 1, 0⟩, ⟨1, 1, 0⟩] (run n) = ⟨1, 0⟩) ∧
    ∃ run say,
      (⟨.of 1 1 0 .default, [.discs ⟨1, 1, 0⟩ ⟨1, 1, 0⟩]⟩ : Solver ℝ).PositionRun run say ∧
      ∀ n, run n = #[⟨0, 0⟩, ⟨⟨2, 0⟩, 0⟩] := by
  have hknows (a b : SolverBody ℝ) : ∀ c ∈ [Constraint.discs a b], c.Knows #[a, b] := by
    simpa using ⟨rfl, rfl⟩
  have hruns (a b : SolverBody ℝ) :=
    corrects_positionRun (s := ⟨.of 1 1 0 .default, [.discs a b]⟩) (hknows a b)
      (by norm_num [TimeStep.of, SolverSettings.default])
      (by norm_num [TimeStep.of, SolverSettings.default])
  refine ⟨?_, ?_, ?_⟩
  · obtain ⟨-, run, say, hrun, hzero, h⟩ := hruns ⟨0, 0, 0⟩ ⟨1, 1, 0⟩ #[⟨0, 0⟩, ⟨⟨1, 0⟩, 0⟩]
    exact ⟨run, say, hrun, hzero, fun n ↦ (h n).1.fixed 0 _ rfl ⟨rfl, rfl⟩⟩
  · obtain ⟨-, run, say, hrun, hzero, h⟩ := hruns ⟨1, 1, 0⟩ ⟨1, 1, 0⟩ #[⟨0, 0⟩, ⟨⟨1, 0⟩, 0⟩]
    refine ⟨run, say, hrun, hzero, fun n ↦ ((h n).1.moment (by simp)).trans ?_⟩
    ext <;> simp [massMoment]
  · obtain ⟨-, run, say, hrun, -, h⟩ := hruns ⟨1, 1, 0⟩ ⟨1, 1, 0⟩ #[⟨0, 0⟩, ⟨⟨2, 0⟩, 0⟩]
    refine ⟨run, say, hrun, fun n ↦ (h n).1.quiet ?_⟩
    intro c hc v htwo p _
    cases List.mem_singleton.1 hc
    have hv : v = (⟨0, 0⟩, ⟨⟨2, 0⟩, 0⟩) := (Option.some.inj htwo).symm
    have hfar : 1e-10 ≤ v.2.center.dist v.1.center := by
      rw [hv, Vec.dist_zero zero_le_two]
      norm_num
    rw [(Constraint.isCentered_discs _ _).separation_overlapAt hfar, hv,
      Constraint.gap_discs _ _ zero_le_two]
    norm_num [TimeStep.of, SolverSettings.default]

end Solver

end PlanarDynamics
