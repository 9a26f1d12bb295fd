import PlanarDynamics.Proofs.Real.Bounds

/-!
# How often an accepted polygon winds around

`Polygon.ofVertices` asks for a left turn at each vertex, and a closed outline that turns left all
along need not be convex: a star turns left at each of its five points and crosses itself.  What
decides is the angle by which the outline turns in all, its `Outline.turning`.  An accepted polygon
lies behind its sides if and only if it goes, once or more, around an outline that turns by a full
circle.

An outline is followed as an endless path, over and over.  The sides of a path have headings, angles
that grow at each turn by less than `π`.

* `Path.TurnsLeft.behind`: where the headings grow by `2 * π` from one round to the next, the way
  from one end of a side around to the other first recedes from the side and then comes back to it.
* `Path.Behind.exists_round`: where all vertices lie behind all sides, no side heads strictly
  between two successive ones, and the sides that head the same way start at the same vertex.  So
  the headings, and the vertices, repeat with each full turn.
-/

namespace PlanarDynamics

/-! ## Headings of vectors -/

namespace Vec

variable {a b d e f x : Vec ℝ} {θ φ : ℝ} {z : ℤ}

/-- The angle of the turn from one vector to another, positive to the left. -/
noncomputable def turn (e f : Vec ℝ) : ℝ := Scalar.atan2 (e.cross f) (e.dot f)

/-- The vector points at an angle from the first axis. -/
structure Heads (e : Vec ℝ) (θ : ℝ) : Prop where
  x_eq : e.x = e.norm * Real.cos θ
  y_eq : e.y = e.norm * Real.sin θ

theorem norm_complex (x y : ℝ) : ‖(⟨x, y⟩ : ℂ)‖ = (⟨x, y⟩ : Vec ℝ).norm := by
  rw [Complex.norm_eq_sqrt_sq_add_sq]
  show √(x ^ 2 + y ^ 2) = √(x * x + y * y)
  rw [sq, sq]

theorem heads_atan2 (e : Vec ℝ) : e.Heads (Scalar.atan2 e.y e.x) := by
  have hcos := Complex.norm_mul_cos_arg ⟨e.x, e.y⟩
  have hsin := Complex.norm_mul_sin_arg ⟨e.x, e.y⟩
  rw [norm_complex] at hcos hsin
  exact ⟨hcos.symm, hsin.symm⟩

/-- The products of two vectors are the coordinates of a vector as long as both together. -/
theorem norm_dot_cross (e f : Vec ℝ) :
    (⟨e.dot f, e.cross f⟩ : Vec ℝ).norm = e.norm * f.norm := by
  have hsq : (⟨e.dot f, e.cross f⟩ : Vec ℝ).normSq = e.normSq * f.normSq := by
    simp only [normSq, dot, cross]
    ring
  have hnonneg : 0 ≤ e.normSq := add_nonneg (mul_self_nonneg _) (mul_self_nonneg _)
  show √_ = √_ * √_
  rw [hsq, Real.sqrt_mul hnonneg]

theorem norm_mul_cos_turn (e f : Vec ℝ) : e.norm * f.norm * Real.cos (e.turn f) = e.dot f := by
  rw [← norm_dot_cross, ← norm_complex]
  exact Complex.norm_mul_cos_arg ⟨e.dot f, e.cross f⟩

theorem norm_mul_sin_turn (e f : Vec ℝ) : e.norm * f.norm * Real.sin (e.turn f) = e.cross f := by
  rw [← norm_dot_cross, ← norm_complex]
  exact Complex.norm_mul_sin_arg ⟨e.dot f, e.cross f⟩

/-- A turn from a vector leads to another, if it is added to the heading of the first. -/
theorem Heads.turn (h : e.Heads θ) (he : 0 < e.norm) (f : Vec ℝ) : f.Heads (θ + e.turn f) := by
  have hcos := norm_mul_cos_turn e f
  have hsin := norm_mul_sin_turn e f
  simp only [dot, cross, h.x_eq, h.y_eq, mul_assoc, ← mul_add, ← mul_sub] at hcos hsin
  have hdot := mul_left_cancel₀ he.ne' hcos
  have hcross := mul_left_cancel₀ he.ne' hsin
  have hone := Real.sin_sq_add_cos_sq θ
  constructor
  · rw [Real.cos_add]
    linear_combination -f.x * hone - Real.cos θ * hdot + Real.sin θ * hcross
  · rw [Real.sin_add]
    linear_combination -f.y * hone - Real.sin θ * hdot - Real.cos θ * hcross

theorem Heads.cross_eq (he : e.Heads θ) (hf : f.Heads φ) :
    e.cross f = e.norm * f.norm * Real.sin (φ - θ) := by
  rw [cross, he.x_eq, he.y_eq, hf.x_eq, hf.y_eq, Real.sin_sub]
  ring

theorem Heads.dot_eq (he : e.Heads θ) (hf : f.Heads φ) :
    e.dot f = e.norm * f.norm * Real.cos (φ - θ) := by
  rw [dot, he.x_eq, he.y_eq, hf.x_eq, hf.y_eq, Real.cos_sub]
  ring

theorem Heads.of_add (h : e.Heads (θ + z * (2 * Real.pi))) : e.Heads θ := by
  refine ⟨?_, ?_⟩
  · rw [← Real.cos_add_int_mul_two_pi θ z]
    exact h.x_eq
  · rw [← Real.sin_add_int_mul_two_pi θ z]
    exact h.y_eq

theorem Heads.norm_mul_cross (he : e.Heads θ) (hf : f.Heads θ) (x : Vec ℝ) :
    e.norm * f.cross x = f.norm * e.cross x := by
  rw [cross, cross, he.x_eq, he.y_eq, hf.x_eq, hf.y_eq]
  ring

theorem turn_pos (h : 0 < e.cross f) : 0 < e.turn f := by
  have hne : Complex.arg ⟨e.dot f, e.cross f⟩ ≠ 0 := fun harg ↦
    h.ne' (Complex.arg_eq_zero_iff.1 harg).2
  exact lt_of_le_of_ne (Complex.arg_nonneg_iff.2 h.le) hne.symm

theorem turn_lt_pi (h : 0 < e.cross f) : e.turn f < Real.pi :=
  Complex.arg_lt_pi_iff.2 (.inr h.ne')

theorem norm_pos_of_cross_pos (h : 0 < e.cross f) : 0 < e.norm := by
  refine lt_of_le_of_ne (Real.sqrt_nonneg _) fun hzero ↦ ?_
  rw [← norm_mul_sin_turn, ← hzero] at h
  simp at h

/-- A point to the left of two directions, but not of a third that they enclose, is on the line of
the first. -/
theorem cross_eq_zero_of_enclosed (hab : 0 < a.cross b) (had : 0 < a.cross d) (hdb : 0 < d.cross b)
    (ha : 0 ≤ a.cross x) (hb : 0 ≤ b.cross x) (hd : d.cross x ≤ 0) : a.cross x = 0 := by
  have hsum : a.cross b * d.cross x = d.cross b * a.cross x + a.cross d * b.cross x := by
    simp only [cross]
    ring
  have hle := mul_nonneg hab.le (neg_nonneg.2 hd)
  have hlb := mul_nonneg had.le hb
  have hla := mul_nonneg hdb.le ha
  have hzero : d.cross b * a.cross x = 0 := by linarith
  exact (mul_eq_zero.1 hzero).resolve_left hdb.ne'

/-- On a line that two directions turn left into, only the origin is to the left of the one and not
of the other. -/
theorem eq_zero_of_cross (ha : 0 < a.cross d) (hb : 0 < b.cross d) (hd : d.cross x = 0)
    (hax : 0 ≤ a.cross x) (hbx : b.cross x ≤ 0) : x = 0 := by
  have hx : a.cross d * x.x = a.cross x * d.x := by
    simp only [cross] at hd ⊢
    linear_combination -a.x * hd
  have hy : a.cross d * x.y = a.cross x * d.y := by
    simp only [cross] at hd ⊢
    linear_combination -a.y * hd
  have hcross : a.cross d * b.cross x = a.cross x * b.cross d := by
    simp only [cross] at hx hy ⊢
    linear_combination b.x * hy - b.y * hx
  have hzero : a.cross x = 0 := by
    have hle := mul_nonneg ha.le (neg_nonneg.2 hbx)
    have hge := mul_nonneg hax hb.le
    exact (mul_eq_zero.1 (by linarith : a.cross x * b.cross d = 0)).resolve_right hb.ne'
  rw [hzero, zero_mul] at hx hy
  exact Vec.ext ((mul_eq_zero.1 hx).resolve_left ha.ne') ((mul_eq_zero.1 hy).resolve_left ha.ne')

end Vec

/-! ## Endless paths -/

namespace Path

variable {v : ℕ → Vec ℝ} {m n : ℕ}

/-- A side of an endless path. -/
noncomputable def run (v : ℕ → Vec ℝ) (i : ℕ) : Vec ℝ := v (i + 1) - v i

/-- The heading of a side: that of the first side, and all the turns on the way. -/
noncomputable def heading (v : ℕ → Vec ℝ) : ℕ → ℝ
  | 0 => Scalar.atan2 (run v 0).y (run v 0).x
  | i + 1 => heading v i + (run v i).turn (run v (i + 1))

theorem heading_succ (v : ℕ → Vec ℝ) (i : ℕ) :
    heading v (i + 1) = heading v i + (run v i).turn (run v (i + 1)) :=
  rfl

def TurnsLeft (v : ℕ → Vec ℝ) : Prop := ∀ i, 0 < (run v i).cross (run v (i + 1))

/-- All vertices lie to the left of all sides. -/
def Behind (v : ℕ → Vec ℝ) : Prop := ∀ i j, 0 ≤ (run v i).cross (v j - v i)

theorem periodic_run (hp : Function.Periodic v n) : Function.Periodic (run v) n := by
  intro i
  rw [run, run, hp i, add_right_comm, hp (i + 1)]

theorem heading_add (hp : Function.Periodic v n) (i : ℕ) :
    heading v (i + n) = heading v i + (heading v n - heading v 0) := by
  induction i with
  | zero =>
    rw [Nat.zero_add]
    ring
  | succ i ih =>
    rw [add_right_comm, heading_succ, heading_succ, ih, periodic_run hp, add_right_comm i n 1,
      periodic_run hp]
    ring

namespace TurnsLeft

variable (h : TurnsLeft v)

include h

theorem norm_pos (i : ℕ) : 0 < (run v i).norm := Vec.norm_pos_of_cross_pos (h i)

theorem heads (i : ℕ) : (run v i).Heads (heading v i) := by
  induction i with
  | zero => exact Vec.heads_atan2 _
  | succ i ih => exact ih.turn (h.norm_pos i) _

theorem strictMono : StrictMono (heading v) :=
  strictMono_nat_of_lt_succ fun i ↦ lt_add_of_pos_right _ (Vec.turn_pos (h i))

theorem heading_succ_lt (i : ℕ) : heading v (i + 1) < heading v i + Real.pi :=
  add_lt_add_right (Vec.turn_lt_pi (h i)) _

theorem heading_le (n : ℕ) : heading v n ≤ heading v 0 + n * Real.pi := by
  induction n with
  | zero => simp
  | succ n ih =>
    push_cast
    linarith [h.heading_succ_lt n]

/-- One side lies to the left of another if its heading does, up to full turns. -/
theorem cross_pos {i j : ℕ} (z : ℤ) (hlt : heading v i < heading v j + z * (2 * Real.pi))
    (hpi : heading v j + z * (2 * Real.pi) < heading v i + Real.pi) :
    0 < (run v i).cross (run v j) := by
  rw [(h.heads i).cross_eq (h.heads j), ← Real.sin_add_int_mul_two_pi _ z]
  have hsin := Real.sin_pos_of_pos_of_lt_pi (x := heading v j - heading v i + z * (2 * Real.pi))
    (by linarith) (by linarith)
  exact mul_pos (mul_pos (h.norm_pos i) (h.norm_pos j)) hsin

/-- A path that closes has turned by whole circles. -/
theorem exists_turns (hp : Function.Periodic v n) (hn : 0 < n) :
    ∃ k : ℕ, 0 < k ∧ heading v n - heading v 0 = k * (2 * Real.pi) := by
  have hrun : run v n = run v 0 := by simpa using periodic_run hp 0
  have hsq : (run v 0).norm * (run v 0).norm = (run v 0).dot (run v 0) :=
    Real.mul_self_sqrt (add_nonneg (mul_self_nonneg _) (mul_self_nonneg _))
  have hdot := (h.heads 0).dot_eq (h.heads n)
  rw [hrun, ← hsq] at hdot
  have hne : (run v 0).norm * (run v 0).norm ≠ 0 := (mul_pos (h.norm_pos 0) (h.norm_pos 0)).ne'
  obtain ⟨z, hz⟩ := (Real.cos_eq_one_iff _).1 (mul_eq_left₀ hne |>.1 hdot.symm)
  have hpos : 0 < (z : ℝ) * (2 * Real.pi) := by
    rw [hz]
    exact sub_pos.2 (h.strictMono hn)
  have hz' : 0 < z := Int.cast_pos.1 (pos_of_mul_pos_left hpos Real.two_pi_pos.le)
  lift z to ℕ using hz'.le
  exact ⟨z, Int.natCast_pos.1 hz', hz.symm⟩

/-! ### Once around -/

theorem cross_nonneg {i j : ℕ} (hle : heading v i ≤ heading v j)
    (hpi : heading v j ≤ heading v i + Real.pi) : 0 ≤ (run v i).cross (run v j) := by
  rw [(h.heads i).cross_eq (h.heads j)]
  exact mul_nonneg (mul_pos (h.norm_pos i) (h.norm_pos j)).le
    (Real.sin_nonneg_of_nonneg_of_le_pi (by linarith) (by linarith))

theorem cross_nonpos {i j : ℕ} (hle : heading v i + Real.pi ≤ heading v j)
    (hpi : heading v j ≤ heading v i + 2 * Real.pi) : (run v i).cross (run v j) ≤ 0 := by
  rw [(h.heads i).cross_eq (h.heads j), ← Real.sin_sub_two_pi]
  exact mul_nonpos_of_nonneg_of_nonpos (mul_pos (h.norm_pos i) (h.norm_pos j)).le
    (Real.sin_nonpos_of_nonpos_of_neg_pi_le (by linarith) (by linarith))

omit h in
theorem cross_succ (i k : ℕ) : (run v i).cross (v (i + (k + 1)) - v i) =
    (run v i).cross (v (i + k) - v i) + (run v i).cross (run v (i + k)) := by
  simp only [Vec.cross, run, Vec.sub_x, Vec.sub_y, ← add_assoc]
  ring

/-- Within a half turn from a side, the path recedes from it. -/
theorem behind_rising (i k : ℕ) (hpi : heading v (i + k) ≤ heading v i + Real.pi) :
    0 ≤ (run v i).cross (v (i + k) - v i) := by
  induction k with
  | zero =>
    simp [Vec.cross]
  | succ k ih =>
    have hlt : heading v (i + k) < heading v (i + (k + 1)) := h.strictMono (by omega)
    rw [cross_succ]
    exact add_nonneg (ih (hlt.le.trans hpi))
      (h.cross_nonneg (h.strictMono.monotone (by omega)) (hlt.le.trans hpi))

/-- Within a half turn before it closes, the path comes back to the side. -/
theorem behind_falling (hround : ∀ i, heading v (i + m) = heading v i + 2 * Real.pi)
    (hp : Function.Periodic v m) (i k : ℕ) (hk : k ≤ m)
    (hpi : heading v i + Real.pi ≤ heading v (i + k)) :
    0 ≤ (run v i).cross (v (i + k) - v i) := by
  -- The induction goes back from the end of the round.
  induction hk using Nat.decreasingInduction with
  | self => simp [Vec.cross, hp i]
  | of_succ k hk ih =>
    have hlt : heading v (i + k) < heading v (i + (k + 1)) := h.strictMono (by omega)
    have hle : heading v (i + k) ≤ heading v i + 2 * Real.pi := by
      rw [← hround]
      exact h.strictMono.monotone (by omega)
    have hsucc := ih (hpi.trans hlt.le)
    rw [cross_succ] at hsucc
    linarith [h.cross_nonpos hpi hle]

/-- A path that closes when it has turned by a full circle lies behind its sides. -/
theorem behind (hp : Function.Periodic v m) (hm : 0 < m)
    (hturn : heading v m - heading v 0 = 2 * Real.pi) : Behind v := by
  have hround : ∀ i, heading v (i + m) = heading v i + 2 * Real.pi := fun i ↦ by
    rw [heading_add hp, hturn]
  intro i j
  -- The vertex is met on the round that starts with the side.
  have hperiodic : Function.Periodic (fun k ↦ v (i + k)) m := by
    intro k
    show v (i + (k + m)) = v (i + k)
    rw [← add_assoc, hp]
  obtain ⟨k, hk, hj⟩ : ∃ k ≤ m, v j = v (i + k) := by
    have hle : i ≤ j + i * m := (Nat.le_mul_of_pos_right i hm).trans (Nat.le_add_left _ _)
    refine ⟨(j + i * m - i) % m, (Nat.mod_lt _ hm).le, ?_⟩
    rw [hperiodic.map_mod_nat, Nat.add_sub_cancel' hle]
    exact (hp.nat_mul i j).symm
  rw [hj]
  obtain hpi | hpi := le_total (heading v (i + k)) (heading v i + Real.pi)
  · exact h.behind_rising i k hpi
  · exact h.behind_falling hround hp i k hk hpi

end TurnsLeft

namespace Behind

variable (hb : Behind v) (h : TurnsLeft v)

include hb

theorem cross_stop_nonneg (i j : ℕ) : 0 ≤ (run v i).cross (v j - v (i + 1)) := by
  have hsub : (run v i).cross (v j - v (i + 1)) = (run v i).cross (v j - v i) := by
    simp only [run, Vec.cross, Vec.sub_x, Vec.sub_y]
    ring
  rw [hsub]
  exact hb i j

include h

/-- No side heads strictly between two successive ones. -/
theorem heading_succ_le {i j : ℕ} (z : ℤ)
    (hlt : heading v i < heading v j + z * (2 * Real.pi)) :
    heading v (i + 1) ≤ heading v j + z * (2 * Real.pi) := by
  by_contra hnot
  rw [not_le] at hnot
  have hpi := h.heading_succ_lt i
  have hleft : 0 < (run v i).cross (run v j) := h.cross_pos z hlt (hnot.trans hpi)
  have hright : 0 < (run v j).cross (run v (i + 1)) := by
    refine h.cross_pos (-z) ?_ ?_ <;> push_cast <;> linarith
  -- Both ends of the side in between would lie on the first of the two.
  have hzero : ∀ k, (run v j).cross (v k - v j) = 0 → (run v i).cross (v k - v (i + 1)) = 0 := by
    intro k hk
    refine Vec.cross_eq_zero_of_enclosed (h i) hleft hright (hb.cross_stop_nonneg i k)
      (hb (i + 1) k) ?_
    have hfront := hb j (i + 1)
    rw [Vec.cross_sub] at hk hfront ⊢
    linarith
  have hstart := hzero j (by simp [Vec.cross])
  have hstop := hzero (j + 1) (Vec.cross_self _)
  have hsum : (run v i).cross (run v j) =
      (run v i).cross (v (j + 1) - v (i + 1)) - (run v i).cross (v j - v (i + 1)) := by
    simp only [run, Vec.cross, Vec.sub_x, Vec.sub_y]
    ring
  rw [hsum, hstart, hstop] at hleft
  simp at hleft

/-- Sides that head the same way start at the same vertex. -/
theorem eq_of_heading {i j : ℕ} (z : ℤ)
    (heq : heading v (j + 1) = heading v (i + 1) + z * (2 * Real.pi)) : v (j + 1) = v (i + 1) := by
  have hheads : (run v (j + 1)).Heads (heading v (i + 1)) := by
    have := h.heads (j + 1)
    rw [heq] at this
    exact this.of_add
  have hline : (run v (i + 1)).cross (v (j + 1) - v (i + 1)) = 0 := by
    have hpar := hheads.norm_mul_cross (h.heads (i + 1)) (v (j + 1) - v (i + 1))
    have hge := hb (i + 1) (j + 1)
    have hle : (run v (j + 1)).cross (v (j + 1) - v (i + 1)) ≤ 0 := by
      have := hb (j + 1) (i + 1)
      rw [Vec.cross_sub] at this ⊢
      linarith
    have hnonneg := mul_nonneg (h.norm_pos (j + 1)).le hge
    have hnonpos := mul_nonneg (h.norm_pos (i + 1)).le (neg_nonneg.2 hle)
    have hmul : (run v (j + 1)).norm * (run v (i + 1)).cross (v (j + 1) - v (i + 1)) = 0 := by
      linarith
    exact (mul_eq_zero.1 hmul).resolve_left (h.norm_pos (j + 1)).ne'
  have hinto : 0 < (run v j).cross (run v (i + 1)) := by
    refine h.cross_pos z ?_ ?_ <;> rw [← heq]
    · exact h.strictMono (Nat.lt_succ_self j)
    · exact h.heading_succ_lt j
  have hbehind : (run v j).cross (v (j + 1) - v (i + 1)) ≤ 0 := by
    have := hb.cross_stop_nonneg j (i + 1)
    rw [Vec.cross_sub] at this ⊢
    linarith
  have hzero := Vec.eq_zero_of_cross (h i) hinto hline (hb.cross_stop_nonneg i (j + 1)) hbehind
  exact Vec.ext (sub_eq_zero.1 (congrArg Vec.x hzero)) (sub_eq_zero.1 (congrArg Vec.y hzero))

/-- From one full turn to the next, the headings repeat. -/
theorem heading_add_round (hm : heading v m = heading v 0 + 2 * Real.pi) (i : ℕ) :
    heading v (i + m) = heading v i + 2 * Real.pi := by
  induction i with
  | zero => rwa [Nat.zero_add]
  | succ i ih =>
    have hmono : ∀ k, heading v k < heading v (k + 1) := fun k ↦ h.strictMono (Nat.lt_succ_self k)
    rw [add_right_comm]
    apply le_antisymm
    · have hle := hb.heading_succ_le h (i := i + m) (j := i + 1) 1
      push_cast at hle
      linarith [hle (by linarith [hmono i])]
    · have hle := hb.heading_succ_le h (i := i) (j := i + m + 1) (-1)
      push_cast at hle
      linarith [hle (by linarith [hmono (i + m)])]

theorem heading_mul_round (hm : heading v m = heading v 0 + 2 * Real.pi) (k : ℕ) :
    heading v (k * m) = heading v 0 + k * (2 * Real.pi) := by
  induction k with
  | zero => simp
  | succ k ih =>
    rw [Nat.succ_mul, hb.heading_add_round h hm, ih]
    push_cast
    ring

/-- The first side that has turned by a full circle heads as the first side of all. -/
theorem exists_full_turn (hex : ∃ j, heading v 0 + 2 * Real.pi ≤ heading v j) :
    ∃ m, heading v m = heading v 0 + 2 * Real.pi := by
  classical
  have hpos : 0 < Nat.find hex := by
    rw [Nat.find_pos]
    linarith [Real.two_pi_pos]
  obtain ⟨i, hi⟩ := Nat.exists_eq_succ_of_ne_zero hpos.ne'
  have hbefore : heading v i < heading v 0 + 2 * Real.pi :=
    not_le.1 (Nat.find_min hex (by omega))
  have hge := Nat.find_spec hex
  rw [hi] at hge
  have hle := hb.heading_succ_le h (i := i) (j := 0) 1
  push_cast at hle
  exact ⟨i + 1, le_antisymm (by linarith [hle (by linarith)]) hge⟩

/-- From one full turn to the next, the vertices repeat. -/
theorem periodic_round (hp : Function.Periodic v n) (hn : 0 < n)
    (hm : heading v m = heading v 0 + 2 * Real.pi) : Function.Periodic v m := by
  intro i
  -- Seen one round of the path later, the vertex has a side before it.
  obtain ⟨k, rfl⟩ := Nat.exists_eq_succ_of_ne_zero hn.ne'
  have hsame : heading v (i + k + m + 1) = heading v (i + k + 1) + (1 : ℤ) * (2 * Real.pi) := by
    rw [add_right_comm, hb.heading_add_round h hm]
    push_cast
    ring
  have heq := hb.eq_of_heading h 1 hsame
  rw [← hp (i + m), ← hp i, Nat.succ_eq_add_one, ← add_assoc, ← add_assoc, add_right_comm i m k]
  exact heq

/-- A closed path that lies behind its sides goes around in rounds of a full turn each. -/
theorem exists_round (hp : Function.Periodic v n) (hn : 0 < n) :
    ∃ m k, n = k * m ∧ Function.Periodic v m ∧ heading v m - heading v 0 = 2 * Real.pi := by
  obtain ⟨k, hk, hturns⟩ := h.exists_turns hp hn
  have hlast : heading v 0 + 2 * Real.pi ≤ heading v n := by
    have hone : (1 : ℝ) ≤ k := by exact_mod_cast hk
    have hmul := mul_le_mul_of_nonneg_right hone Real.two_pi_pos.le
    linarith
  obtain ⟨m, hm⟩ := hb.exists_full_turn h ⟨n, hlast⟩
  refine ⟨m, k, h.strictMono.injective ?_, hb.periodic_round h hp hn hm, by linarith⟩
  rw [hb.heading_mul_round h hm]
  linarith

end Behind

end Path

/-! ## Outlines as paths -/

namespace Outline

variable {v : ℕ → Vec ℝ} {m n : ℕ}

/-- The vertices of a closed outline, over and over. -/
noncomputable def cycle (vertices : List (Vec ℝ)) (i : ℕ) : Vec ℝ :=
  vertices.getD (i % vertices.length) 0

/-- The angle by which a closed outline turns in all, from side to side. -/
noncomputable def turning (vertices : List (Vec ℝ)) : ℝ :=
  ((successive ((successive vertices).map fun c ↦ c.2 - c.1)).map fun c ↦ c.1.turn c.2).sum

theorem periodic_cycle (l : List (Vec ℝ)) : Function.Periodic (cycle l) l.length := by
  intro i
  rw [cycle, cycle, Nat.add_mod_right]

theorem map_cycle (l : List (Vec ℝ)) : (List.range l.length).map (cycle l) = l := by
  refine List.ext_getElem (by simp) fun i _ hi ↦ ?_
  simp [cycle, Nat.mod_eq_of_lt hi, hi]

theorem cycle_map_range (hp : Function.Periodic v n) (hn : 0 < n) :
    cycle ((List.range n).map v) = v := by
  funext i
  rw [cycle, List.length_map, List.length_range, ← hp.map_mod_nat i]
  simp [Nat.mod_lt i hn]

theorem successive_map_range {β : Type} {f : ℕ → β} (hf : f n = f 0) :
    successive ((List.range n).map f) = (List.range n).map fun i ↦ (f i, f (i + 1)) := by
  rw [successive_eq_zip]
  refine List.ext_getElem (by simp) fun i _ hi ↦ ?_
  rw [List.length_map, List.length_range] at hi
  simp only [List.getElem_zip, List.getElem_map, List.getElem_range, List.getElem_rotate,
    List.length_map, List.length_range, Prod.mk.injEq, true_and]
  obtain hlt | heq := Nat.lt_or_eq_of_le (Nat.succ_le_of_lt hi)
  · rw [Nat.mod_eq_of_lt hlt]
  · subst heq
    rw [Nat.mod_self]
    exact hf.symm

theorem periodic_pairs {β : Type} {f : ℕ → β} (hf : Function.Periodic f n) :
    Function.Periodic (fun i ↦ (f i, f (i + 1))) n := by
  intro i
  show (f (i + n), f (i + n + 1)) = (f i, f (i + 1))
  rw [hf, add_right_comm, hf]

theorem mem_successive_map_range {β : Type} {f : ℕ → β} (hf : Function.Periodic f n) (hn : 0 < n)
    (i : ℕ) : (f i, f (i + 1)) ∈ successive ((List.range n).map f) := by
  have hend : f n = f 0 := by simpa using hf 0
  rw [successive_map_range hend, ← (periodic_pairs hf).map_mod_nat i]
  exact List.mem_map.2 ⟨_, List.mem_range.2 (Nat.mod_lt i hn), rfl⟩

theorem successive_eq_cycle (l : List (Vec ℝ)) :
    successive l = (List.range l.length).map fun i ↦ (cycle l i, cycle l (i + 1)) := by
  have hend : cycle l l.length = cycle l 0 := by simpa using periodic_cycle l 0
  conv_lhs => rw [← map_cycle l]
  exact successive_map_range hend

theorem exists_cycle {l : List (Vec ℝ)} {x : Vec ℝ} (h : x ∈ l) : ∃ i, cycle l i = x := by
  rw [← map_cycle l] at h
  obtain ⟨i, -, hi⟩ := List.mem_map.1 h
  exact ⟨i, hi⟩

theorem exists_cycle_of_mem_successive {l : List (Vec ℝ)} {x y : Vec ℝ}
    (h : (x, y) ∈ successive l) : ∃ i, cycle l i = x ∧ cycle l (i + 1) = y := by
  rw [successive_eq_cycle] at h
  obtain ⟨i, -, hi⟩ := List.mem_map.1 h
  exact ⟨i, Prod.mk.inj hi⟩

/-- An outline of which a path goes around turns as the headings of the path grow. -/
theorem turning_eq (hp : Function.Periodic v n) :
    turning ((List.range n).map v) = Path.heading v n - Path.heading v 0 := by
  have hv : v n = v 0 := by simpa using hp 0
  have hrun : Path.run v n = Path.run v 0 := by simpa using Path.periodic_run hp 0
  have hsides : ((List.range n).map fun i ↦ (v i, v (i + 1))).map (fun c ↦ c.2 - c.1) =
      (List.range n).map (Path.run v) := by
    rw [List.map_map]
    rfl
  rw [turning, successive_map_range hv, hsides, successive_map_range hrun, List.map_map]
  clear hp hv hrun hsides
  induction n with
  | zero => simp
  | succ n ih =>
    rw [List.range_succ, List.map_append, List.sum_append, ih, Path.heading_succ]
    simp only [List.map_cons, List.map_nil, List.sum_singleton, Function.comp_apply]
    ring

theorem flatten_replicate (hp : Function.Periodic v m) (k : ℕ) :
    (List.replicate k ((List.range m).map v)).flatten = (List.range (k * m)).map v := by
  induction k with
  | zero => simp
  | succ k ih =>
    have hshift : ∀ i, v (m + i) = v i := fun i ↦ by rw [add_comm, hp]
    rw [List.replicate_succ, List.flatten_cons, ih, Nat.succ_mul, add_comm, List.range_add,
      List.map_append, List.map_map]
    simp [Function.comp_def, hshift]

end Outline

namespace Polygon

open Outline (cycle turning)

variable {vertices : List (Vec ℝ)} {p : Polygon ℝ}

theorem length_pos (p : Polygon ℝ) : 0 < p.vertices.length :=
  lt_of_lt_of_le (by decide) p.three_le_length

theorem turnsLeft_cycle (h : ofVertices vertices = .ok p) :
    Path.TurnsLeft (cycle p.vertices) := by
  intro i
  refine cross_pos_of_turnsLeft (turnsLeft_of_mem (ofVertices_eq_ok h).2
    (s := (_, _)) (t := (_, _)) ?_)
  rw [Outline.successive_eq_cycle]
  have hpairs := Outline.periodic_pairs (Outline.periodic_cycle p.vertices)
  exact Outline.mem_successive_map_range hpairs p.length_pos i

theorem separation_nonpos_iff (h : ofVertices vertices = .ok p) {s : Side ℝ} (hs : s ∈ p.sides)
    (x : Vec ℝ) : s.separation x ≤ 0 ↔ 0 ≤ (s.stop - s.start).cross (x - s.start) := by
  obtain ⟨-, k, hk, hrun⟩ := run_of_mem_sides h hs
  have hcross : (s.normal.perp * k).cross (x - s.start) = k * -s.separation x := by
    simp only [Vec.cross, Vec.perp, Vec.mul_x, Vec.mul_y, Side.separation, Vec.dot]
    ring
  rw [hrun, hcross, mul_nonneg_iff_of_pos_left hk, neg_nonneg]

theorem behind_cycle_iff (h : ofVertices vertices = .ok p) :
    Path.Behind (cycle p.vertices) ↔ ∀ s ∈ p.sides, ∀ v ∈ p.vertices, s.separation v ≤ 0 := by
  constructor
  · intro hb s hs v hv
    obtain ⟨i, hstart, hstop⟩ :=
      Outline.exists_cycle_of_mem_successive (Outline.mem_successive_of_mem_sides hs)
    obtain ⟨j, rfl⟩ := Outline.exists_cycle hv
    rw [separation_nonpos_iff h hs, ← hstart, ← hstop]
    exact hb i j
  · intro hb i j
    have hmem := Outline.mem_successive_map_range (Outline.periodic_cycle p.vertices) p.length_pos
    rw [Outline.map_cycle] at hmem
    obtain ⟨s, hs, hstart, hstop⟩ := Outline.exists_mem_sides p.length_normals (hmem i)
    have hle := hb s hs _ (Outline.mem_of_mem_successive (hmem j)).1
    rwa [separation_nonpos_iff h hs, hstart, hstop] at hle

/-- A polygon that goes around an outline which turns by a full circle lies behind its sides. -/
theorem behind_of_round (h : ofVertices vertices = .ok p) {k : ℕ} {l : List (Vec ℝ)}
    (hp : p.vertices = (List.replicate k l).flatten) (hl : turning l = 2 * Real.pi) :
    Path.Behind (cycle p.vertices) := by
  have hround := Outline.periodic_cycle l
  have hrounds : Function.Periodic (cycle l) (k * l.length) := by simpa using hround.nat_mul k
  have hpos := p.length_pos
  have hleft := turnsLeft_cycle h
  rw [← Outline.map_cycle l, Outline.flatten_replicate hround] at hp
  rw [hp, List.length_map, List.length_range] at hpos
  rw [hp, Outline.cycle_map_range hrounds hpos] at hleft ⊢
  refine hleft.behind hround (Nat.pos_of_mul_pos_left hpos) ?_
  rw [← Outline.turning_eq hround, Outline.map_cycle, hl]

/-- A polygon that lies behind its sides goes around an outline which turns by a full circle. -/
theorem exists_round (h : ofVertices vertices = .ok p) (hb : Path.Behind (cycle p.vertices)) :
    ∃ (k : ℕ) (l : List (Vec ℝ)), p.vertices = (List.replicate k l).flatten ∧
      turning l = 2 * Real.pi := by
  obtain ⟨m, k, hlen, hround, hturn⟩ := hb.exists_round (turnsLeft_cycle h)
    (Outline.periodic_cycle p.vertices) p.length_pos
  refine ⟨k, (List.range m).map (cycle p.vertices), ?_, ?_⟩
  · rw [Outline.flatten_replicate hround, ← hlen, Outline.map_cycle]
  · rw [Outline.turning_eq hround, hturn]

/-- At most four turns, each of less than a half circle, cannot make two circles. -/
theorem turning_of_length_le (h : ofVertices vertices = .ok p) (hlen : p.vertices.length ≤ 4) :
    turning p.vertices = 2 * Real.pi := by
  have hleft := turnsLeft_cycle h
  have hp := Outline.periodic_cycle p.vertices
  obtain ⟨k, hk, hturns⟩ := hleft.exists_turns hp p.length_pos
  have hturning := Outline.turning_eq hp
  rw [Outline.map_cycle, hturns] at hturning
  obtain ⟨n, hn⟩ := Nat.exists_eq_succ_of_ne_zero p.length_pos.ne'
  have hlt : (k : ℝ) * (2 * Real.pi) < 2 * (2 * Real.pi) := by
    have hsucc := hleft.heading_succ_lt n
    have hle := hleft.heading_le n
    have hthree : (n : ℝ) ≤ 3 := by exact_mod_cast (by omega : n ≤ 3)
    have hmul := mul_le_mul_of_nonneg_right hthree Real.pi_pos.le
    rw [hn] at hturns
    rw [← hturns]
    linarith
  have hone : k = 1 := by
    have : (k : ℝ) < 2 := lt_of_mul_lt_mul_right hlt Real.two_pi_pos.le
    have : k < 2 := by exact_mod_cast this
    omega
  rw [hturning, hone, Nat.cast_one, one_mul]

/-- An accepted polygon lies behind each of its sides if and only if it goes, once or more, around
an outline that turns by a full circle.  A polygon of at most four vertices always does. -/
theorem behind_sides_iff_round (h : ofVertices vertices = .ok p) :
    ((∀ s ∈ p.sides, ∀ v ∈ p.vertices, s.separation v ≤ 0) ↔
        ∃ (k : ℕ) (l : List (Vec ℝ)),
          p.vertices = (List.replicate k l).flatten ∧ turning l = 2 * Real.pi) ∧
      (p.vertices.length ≤ 4 → ∀ s ∈ p.sides, ∀ v ∈ p.vertices, s.separation v ≤ 0) := by
  rw [← behind_cycle_iff h]
  refine ⟨⟨exists_round h, ?_⟩, fun hlen ↦ ?_⟩
  · rintro ⟨k, l, hp, hl⟩
    exact behind_of_round h hp hl
  · exact behind_of_round (k := 1) h (by simp) (turning_of_length_le h hlen)

/-- A star of five points, which turns left at each of them and winds around twice. -/
theorem exists_star : ∃ p : Polygon ℝ,
    ofVertices [⟨0, 0⟩, ⟨2, 0⟩, ⟨-2, 3⟩, ⟨1, -1⟩, ⟨4, 3⟩] = .ok p ∧
      p.toOutline = ⟨[⟨0, 0⟩, ⟨2, 0⟩, ⟨-2, 3⟩, ⟨1, -1⟩, ⟨4, 3⟩],
        [⟨0, -1⟩, ⟨3 / 5, 4 / 5⟩, ⟨-4 / 5, -3 / 5⟩, ⟨4 / 5, -3 / 5⟩, ⟨-3 / 5, 4 / 5⟩]⟩ := by
  refine exists_ofVertices _ _ (by decide) rfl ?_ ?_ ?_
  · norm_num [signedArea, Outline.successive, Vec.cross]
  · simp only [Outline.successive, List.cons_append, List.nil_append, List.zip_cons_cons,
      List.zip_nil_left, List.forall_mem_cons]
    refine ⟨sideNormal?_eq 2 ?_ ?_ ?_ ?_, sideNormal?_eq 5 ?_ ?_ ?_ ?_,
      sideNormal?_eq 5 ?_ ?_ ?_ ?_, sideNormal?_eq 5 ?_ ?_ ?_ ?_, sideNormal?_eq 5 ?_ ?_ ?_ ?_,
      by simp⟩
    all_goals norm_num
  · norm_num [Outline.successive, Vec.cross]

theorem star_in_front : ∃ p : Polygon ℝ,
    ofVertices [⟨0, 0⟩, ⟨2, 0⟩, ⟨-2, 3⟩, ⟨1, -1⟩, ⟨4, 3⟩] = .ok p ∧
      (∃ s ∈ p.sides, ∃ v ∈ p.vertices, 0 < s.separation v) ∧
      ¬ ∃ (k : ℕ) (l : List (Vec ℝ)),
        p.vertices = (List.replicate k l).flatten ∧ turning l = 2 * Real.pi := by
  obtain ⟨p, hp, ho⟩ := exists_star
  have hfront : ∃ s ∈ p.sides, ∃ v ∈ p.vertices, 0 < s.separation v := by
    refine ⟨⟨0, 1, ⟨0, 0⟩, ⟨2, 0⟩, ⟨0, -1⟩⟩, ?_, ⟨1, -1⟩, ?_, ?_⟩
    · simp [ho, Outline.sides, Outline.successive]
    · simp [ho]
    · norm_num [Side.separation, Vec.dot]
  refine ⟨p, hp, hfront, fun hround ↦ ?_⟩
  obtain ⟨s, hs, v, hv, hpos⟩ := hfront
  exact hpos.not_ge ((behind_sides_iff_round hp).1.2 hround s hs v hv)

end Polygon

end PlanarDynamics
