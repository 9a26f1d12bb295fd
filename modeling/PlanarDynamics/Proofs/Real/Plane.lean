import Mathlib.Analysis.SpecialFunctions.Complex.Arg
import PlanarDynamics.Pose

/-!
# The plane over the real numbers

The real numbers are a scalar, and over them the operations on vectors and poses are those of plane
geometry: rotations keep products and lengths, and a pose is undone by its inverse.
-/

namespace PlanarDynamics

open Classical in
/-- Real arithmetic is exact, and every number is finite. -/
noncomputable instance : Scalar ℝ where
  decLT := inferInstance
  decLE := inferInstance
  beq a b := decide (a = b)
  sqrt := Real.sqrt
  sin := Real.sin
  cos := Real.cos
  atan2 y x := Complex.arg ⟨x, y⟩
  pi := Real.pi
  isFinite _ := true
  cell x := max (-2 ^ 63) (min ⌊x⌋ (2 ^ 63 - 1))

namespace Scalar

@[simp] theorem isFinite_real (x : ℝ) : isFinite x = true := rfl

theorem min_eq (x y : ℝ) : Scalar.min x y = Min.min x y := by
  by_cases h : x < y
  · simp [Scalar.min, h, h.le]
  · simp [Scalar.min, h, isNumber, not_lt.1 h]

theorem max_eq (x y : ℝ) : Scalar.max x y = Max.max x y := by
  by_cases h : y < x
  · simp [Scalar.max, h, h.le]
  · simp [Scalar.max, h, isNumber, not_lt.1 h]

theorem clamp_eq {lo hi : ℝ} (h : lo ≤ hi) (x : ℝ) :
    Scalar.clamp lo hi x = Max.max lo (Min.min hi x) := by
  rw [Scalar.clamp]
  split
  next hlo => rw [max_eq_left ((min_le_right _ _).trans hlo.le)]
  next hlo =>
    split
    next hhi => rw [min_eq_left hhi.le, max_eq_right h]
    next hhi => rw [min_eq_right (not_lt.1 hhi), max_eq_right (not_lt.1 hlo)]

theorem epsilon_pos : (0 : ℝ) < epsilon := by
  simp only [epsilon]
  norm_num

/-- Cell numbers grow with coordinates. -/
theorem cell_mono {x y : ℝ} (h : x ≤ y) : cell x ≤ cell y :=
  max_le_max le_rfl (min_le_min (Int.floor_le_floor h) le_rfl)

end Scalar

namespace Vec

variable {a b c d : Vec ℝ} {r s θ : ℝ}

@[simp] theorem isFinite_real (v : Vec ℝ) : v.isFinite = true := rfl

/-! ## Products -/

theorem dot_comm (a b : Vec ℝ) : a.dot b = b.dot a := by
  simp only [dot]
  ring

theorem dot_add (a b c : Vec ℝ) : a.dot (b + c) = a.dot b + a.dot c := by
  simp only [dot, add_x, add_y]
  ring

theorem dot_sub (a b c : Vec ℝ) : a.dot (b - c) = a.dot b - a.dot c := by
  simp only [dot, sub_x, sub_y]
  ring

theorem dot_mul (a b : Vec ℝ) (s : ℝ) : a.dot (b * s) = a.dot b * s := by
  simp only [dot, mul_x, mul_y]
  ring

theorem dot_neg (a b : Vec ℝ) : a.dot (-b) = -a.dot b := by
  simp only [dot, neg_x, neg_y]
  ring

theorem neg_dot (a b : Vec ℝ) : (-a).dot b = -a.dot b := by
  simp only [dot, neg_x, neg_y]
  ring

theorem dot_perp (a b : Vec ℝ) : a.dot b.perp = b.cross a := by
  simp only [dot, perp, cross]
  ring

theorem perp_dot (a b : Vec ℝ) : a.perp.dot b = a.cross b := by
  rw [dot_comm, dot_perp]

theorem cross_sub (a b c : Vec ℝ) : a.cross (b - c) = a.cross b - a.cross c := by
  rw [← perp_dot, dot_sub, perp_dot, perp_dot]

theorem neg_cross (a b : Vec ℝ) : (-a).cross b = -a.cross b := by
  simp only [cross, neg_x, neg_y]
  ring

theorem cross_neg (a b : Vec ℝ) : a.cross (-b) = -a.cross b := by
  simp only [cross, neg_x, neg_y]
  ring

theorem normSq_neg (a : Vec ℝ) : (-a).normSq = a.normSq := by
  rw [normSq, neg_dot, dot_neg, neg_neg, normSq]

theorem normSq_perp (a : Vec ℝ) : a.perp.normSq = a.normSq := by
  simp only [normSq, dot, perp]
  ring

theorem normSq_mul (a : Vec ℝ) (s : ℝ) : (a * s).normSq = a.normSq * (s * s) := by
  simp only [normSq, dot, mul_x, mul_y]
  ring

theorem distSq_comm (a b : Vec ℝ) : a.distSq b = b.distSq a := by
  simp only [distSq, normSq, dot, sub_x, sub_y]
  ring

/-- A vector no longer than `r` reaches no further than `r` in any direction. -/
theorem dot_le_of_normSq_le (hd : d.normSq = 1) (hr : 0 ≤ r) (ha : a.normSq ≤ r * r) :
    d.dot a ≤ r := by
  have hcs : d.dot a * d.dot a + d.cross a * d.cross a = d.normSq * a.normSq := by
    simp only [dot, cross, normSq]
    ring
  rw [hd, one_mul] at hcs
  refine le_of_sq_le_sq ?_ hr
  nlinarith [mul_self_nonneg (d.cross a)]

/-! ## Rotations -/

theorem dot_rotate_rotate (a b : Vec ℝ) (θ : ℝ) : (a.rotate θ).dot (b.rotate θ) = a.dot b := by
  have h : Scalar.sin θ * Scalar.sin θ + Scalar.cos θ * Scalar.cos θ = 1 := by
    have := Real.sin_sq_add_cos_sq θ
    rw [sq, sq] at this
    exact this
  simp only [dot, rotate]
  linear_combination (a.x * b.x + a.y * b.y) * h

theorem dot_rotate (a b : Vec ℝ) (θ : ℝ) : a.dot (b.rotate θ) = (a.rotate (-θ)).dot b := by
  have hs : Scalar.sin (-θ) = -Scalar.sin θ := Real.sin_neg θ
  have hc : Scalar.cos (-θ) = Scalar.cos θ := Real.cos_neg θ
  simp only [dot, rotate, hs, hc]
  ring

theorem perp_rotate (a : Vec ℝ) (θ : ℝ) : (a.rotate θ).perp = a.perp.rotate θ := by
  ext
  · simp only [perp, rotate]
    ring
  · simp only [perp, rotate]
    ring

theorem cross_rotate_rotate (a b : Vec ℝ) (θ : ℝ) :
    (a.rotate θ).cross (b.rotate θ) = a.cross b := by
  rw [← dot_perp, perp_rotate, dot_rotate_rotate, dot_perp]

theorem rotate_zero (a : Vec ℝ) : a.rotate 0 = a := by
  have hs : Scalar.sin (0 : ℝ) = 0 := Real.sin_zero
  have hc : Scalar.cos (0 : ℝ) = 1 := Real.cos_zero
  ext
  · simp only [rotate, hs, hc, mul_one, mul_zero, sub_zero]
  · simp only [rotate, hs, hc, mul_one, mul_zero, zero_add]

theorem rotate_sub (a b : Vec ℝ) (θ : ℝ) : (a - b).rotate θ = a.rotate θ - b.rotate θ := by
  ext
  · simp only [rotate, sub_x, sub_y]
    ring
  · simp only [rotate, sub_x, sub_y]
    ring

theorem rotate_mul (a : Vec ℝ) (s θ : ℝ) : (a * s).rotate θ = a.rotate θ * s := by
  ext
  · simp only [rotate, mul_x, mul_y]
    ring
  · simp only [rotate, mul_x, mul_y]
    ring

theorem normSq_rotate (a : Vec ℝ) (θ : ℝ) : (a.rotate θ).normSq = a.normSq :=
  dot_rotate_rotate a a θ

theorem rotate_rotate (a : Vec ℝ) (θ φ : ℝ) : (a.rotate θ).rotate φ = a.rotate (θ + φ) := by
  have hs : Scalar.sin (θ + φ) = Scalar.sin θ * Scalar.cos φ + Scalar.cos θ * Scalar.sin φ :=
    Real.sin_add θ φ
  have hc : Scalar.cos (θ + φ) = Scalar.cos θ * Scalar.cos φ - Scalar.sin θ * Scalar.sin φ :=
    Real.cos_add θ φ
  ext
  · simp only [rotate, hs, hc]
    ring
  · simp only [rotate, hs, hc]
    ring

/-! ## Unit vectors -/

theorem normalizeOr_of_normSq (ha : a.normSq = 1) (b : Vec ℝ) : a.normalizeOr b = a := by
  have hsqrt : Scalar.sqrt (1 : ℝ) = 1 := Real.sqrt_one
  have hlong : ¬ (1 : ℝ) < 1e-20 := by norm_num
  have hone : a.normalize? = some (a * (1 / Scalar.sqrt a.normSq)) := by
    simp only [normalize?, ha, hlong]
    rfl
  rw [normalizeOr, hone, ha, hsqrt, Option.getD_some]
  ext
  · simp only [mul_x]
    ring
  · simp only [mul_y]
    ring

theorem norm_mul (ha : a.normSq = 1) (hs : 0 ≤ s) : (a * s).norm = s := by
  rw [norm, normSq_mul, ha, one_mul]
  exact Real.sqrt_mul_self hs

theorem mul_one_div (a : Vec ℝ) (hs : s ≠ 0) : a * s * (1 / s) = a := by
  ext
  · simp only [mul_x]
    field_simp
  · simp only [mul_y]
    field_simp

theorem normalize_mul (ha : a.normSq = 1) (hs : 0 < s) : (a * s).normalize = a := by
  have hnorm := norm_mul ha hs.le
  have hne : ((a * s).norm == 0) = false := by
    rw [hnorm]
    exact decide_eq_false hs.ne'
  rw [normalize, hne, hnorm, if_neg Bool.false_ne_true, mul_one_div a hs.ne']

theorem normalize?_mul (ha : a.normSq = 1) (hs : 1e-10 ≤ s) : (a * s).normalize? = some a := by
  have hpos : 0 < s := lt_of_lt_of_le (by norm_num) hs
  have hroot : Scalar.sqrt (a * s).normSq = s := norm_mul ha hpos.le
  have hlong : ¬ (a * s).normSq < 1e-20 := by
    rw [normSq_mul, ha, one_mul, not_lt]
    calc (1e-20 : ℝ) = 1e-10 * 1e-10 := by norm_num
      _ ≤ s * s := mul_self_le_mul_self (by norm_num) hs
  rw [normalize?, hroot, if_pos (by simp [hlong]), mul_one_div a hpos.ne']

theorem norm_pos (h : 0 < a.normSq) : 0 < a.norm := Real.sqrt_pos.2 h

/-- A vector that is not zero is a multiple of a unit vector. -/
theorem exists_unit (h : 0 < a.normSq) : ∃ n : Vec ℝ, n.normSq = 1 ∧ a = n * a.norm := by
  have hpos := norm_pos h
  have hsq : a.norm * a.norm = a.normSq := Real.mul_self_sqrt h.le
  refine ⟨a * (1 / a.norm), ?_, ?_⟩
  · rw [normSq_mul, ← hsq]
    field_simp
  · ext
    · simp only [mul_x]
      field_simp
    · simp only [mul_y]
      field_simp

/-- A vector that has a direction is a multiple of the unit vector along it. -/
theorem normalize?_eq_some (h : a.normalize? = some b) :
    b.normSq = 1 ∧ ∃ s : ℝ, 0 < s ∧ a = b * s := by
  simp only [normalize?] at h
  split at h
  next hc =>
    have hlong : ¬ a.normSq < 1e-20 := by simpa using (Bool.and_eq_true_iff.1 hc).2
    have hlong : 0 < a.normSq := lt_of_lt_of_le (by norm_num) (not_lt.1 hlong)
    obtain ⟨n, hn, ha⟩ := exists_unit hlong
    have hb : a * (1 / a.norm) = b := Option.some.inj h
    have hnb : n = b := by
      rw [← hb, ha, norm_mul hn (norm_pos hlong).le, mul_one_div n (norm_pos hlong).ne']
    exact hnb ▸ ⟨hn, a.norm, norm_pos hlong, ha⟩
  · cases h

theorem normSq_normalizeOr (hb : b.normSq = 1) : (a.normalizeOr b).normSq = 1 := by
  rw [normalizeOr]
  cases h : a.normalize? with
  | none => exact hb
  | some n => exact (normalize?_eq_some h).1

/-- A vector that is long enough has a direction. -/
theorem eq_normalizeOr_mul (h : 1e-10 ≤ a.norm) (b : Vec ℝ) : a = a.normalizeOr b * a.norm := by
  obtain ⟨n, hn, ha⟩ := exists_unit (a := a) (Real.sqrt_pos.1 (lt_of_lt_of_le (by norm_num) h))
  have hnormal : a.normalizeOr b = n := by
    rw [normalizeOr, ha, normalize?_mul hn h, Option.getD_some]
  rw [hnormal]
  exact ha

theorem dist_eq_of_sub_eq {n : Vec ℝ} (hn : n.normSq = 1) (hs : 0 ≤ s) (h : c - a = n * s) :
    c.dist a = s := by
  rw [dist, h, norm_mul hn hs]

theorem dist_zero (hs : 0 ≤ s) : (⟨s, 0⟩ : Vec ℝ).dist 0 = s :=
  dist_eq_of_sub_eq (n := .right) (by simp [normSq, dot, right]) hs (by ext <;> simp [right])

theorem dot_eq_of_eq_mul {n : Vec ℝ} (hn : n.normSq = 1) (h : a = n * s) : a.dot n = s := by
  rw [h, dot_comm, dot_mul, ← normSq, hn, one_mul]

end Vec

namespace Pose

variable (t u : Pose ℝ) (p q v : Vec ℝ)

theorem rotate_identity : identity.rotate v = v := v.rotate_zero

theorem apply_identity : identity.apply p = p := by
  rw [apply, rotate_identity]
  exact Vec.ext (add_zero _) (add_zero _)

theorem apply_sub_apply : t.apply p - t.apply q = t.rotate (p - q) := by
  rw [rotate, Vec.rotate_sub]
  ext
  · simp only [apply, rotate, Vec.sub_x, Vec.add_x]
    ring
  · simp only [apply, rotate, Vec.sub_y, Vec.add_y]
    ring

theorem dot_rotate : p.dot (t.rotate v) = (t.unrotate p).dot v :=
  Vec.dot_rotate p v t.rotation

theorem dot_rotate_rotate : (t.rotate p).dot (t.rotate q) = p.dot q :=
  Vec.dot_rotate_rotate p q t.rotation

theorem distSq_apply_apply : (t.apply p).distSq (t.apply q) = p.distSq q := by
  rw [Vec.distSq, apply_sub_apply, Vec.distSq]
  exact Vec.normSq_rotate _ _

theorem normSq_unrotate : (t.unrotate v).normSq = v.normSq :=
  Vec.normSq_rotate _ _

theorem rotate_unrotate : t.rotate (t.unrotate v) = v := by
  rw [rotate, unrotate, Vec.rotate_rotate, neg_add_cancel, Vec.rotate_zero]

/-- Going to local coordinates and back is going nowhere. -/
theorem apply_unapply : t.apply (t.unapply p) = p := by
  have h : Scalar.sin t.rotation * Scalar.sin t.rotation +
      Scalar.cos t.rotation * Scalar.cos t.rotation = 1 := by
    have := Real.sin_sq_add_cos_sq t.rotation
    rw [sq, sq] at this
    exact this
  ext
  · simp only [apply, unapply, rotate, Vec.rotate, Vec.add_x, Vec.sub_x, Vec.sub_y]
    linear_combination (p.x - t.position.x) * h
  · simp only [apply, unapply, rotate, Vec.rotate, Vec.add_y, Vec.sub_x, Vec.sub_y]
    linear_combination (p.y - t.position.y) * h

theorem rotate_relative : t.rotate ((t.relative u).rotate v) = u.rotate v := by
  simp only [rotate, relative, Vec.rotate_rotate, sub_add_cancel]

theorem apply_add : t.apply (p + q) = t.rotate p + t.apply q := by
  ext
  · simp only [apply, rotate, Vec.rotate, Vec.add_x, Vec.add_y]
    ring
  · simp only [apply, rotate, Vec.rotate, Vec.add_x, Vec.add_y]
    ring

theorem apply_relative : t.apply ((t.relative u).apply p) = u.apply p := by
  have hpos : t.apply (t.unapply u.position) = u.position := t.apply_unapply u.position
  have hrot : t.rotate ((t.relative u).rotate p) = u.rotate p := t.rotate_relative u p
  change t.apply ((t.relative u).rotate p + t.unapply u.position) = _
  rw [apply_add, hrot, hpos, apply]

end Pose

end PlanarDynamics
