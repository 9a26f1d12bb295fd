import PlanarDynamics.Proofs.Real.Outline

/-!
# Reference and incident sides

Of two convex outlines that overlap, one has a reference side, the side that the other comes
furthest in front of.  The other has an incident side, the one that faces most against the reference
side.  One end of the incident side is a deepest vertex.

The deepest vertex may still lie beside the reference side.  Then two sides bound the way out there,
the neighbour of the reference side and a side of the other outline, and the one that turns less
from the reference side is further in front.  The neighbour is not, so it is the other outline
that has a better side.  This is `Outline.Gap.exists_better`.  It is why a reference side that is
the best of both outlines always has a part of the incident side behind it.
-/

namespace PlanarDynamics

/-! ## Turns -/

namespace Vec

variable {n r g d m z : Vec ℝ}

/-- A product is made of the parts along a unit vector and across it. -/
theorem dot_eq_of_unit (hn : n.normSq = 1) (r z : Vec ℝ) :
    r.dot z = n.dot r * n.dot z + n.cross r * n.cross z := by
  simp only [normSq, dot] at hn
  simp only [dot, cross]
  linear_combination -(r.x * z.x + r.y * z.y) * hn

theorem cross_eq_of_unit (hn : n.normSq = 1) (r z : Vec ℝ) :
    r.cross z = n.dot r * n.cross z - n.cross r * n.dot z := by
  simp only [normSq, dot] at hn
  simp only [dot, cross]
  linear_combination -(r.x * z.y - r.y * z.x) * hn

theorem dot_lt_one (hn : n.normSq = 1) (hr : r.normSq = 1) (h : n.cross r ≠ 0) : n.dot r < 1 := by
  have hsq := dot_eq_of_unit hn r r
  rw [← normSq, hr] at hsq
  have hpos : 0 < n.cross r * n.cross r := mul_self_pos.2 h
  by_contra hn
  nlinarith

/-- Parallel unit vectors on the same side of a third vector are equal. -/
theorem eq_of_parallel (hr : r.normSq = 1) (hd : d.normSq = 1) (h : r.cross d = 0)
    (hne : d.cross g ≠ 0) (hside : 0 ≤ d.cross g * r.cross g) : r = d := by
  have hpar := eq_mul_of_cross_eq_zero hd h
  have hback : d.cross r = 0 := by rw [cross_anticomm, h, neg_zero]
  have hmul : d.cross g * r.cross g = d.cross g * d.cross g * r.dot d := by
    rw [cross_eq_of_unit hd r g, hback, dot_comm d r]
    ring
  have hpos : 0 ≤ r.dot d := by
    rw [hmul] at hside
    exact nonneg_of_mul_nonneg_right hside (mul_self_pos.2 hne)
  have hsq : r.dot d * r.dot d = 1 := by
    have hsq := dot_eq_of_unit hr d d
    rw [← normSq, hd, h] at hsq
    linarith
  have hone : r.dot d = 1 := by nlinarith
  rw [hpar, hone]
  ext
  · exact mul_one d.x
  · exact mul_one d.y

/-- Of a point behind a direction, less is behind a direction turned towards the point. -/
theorem dot_lt_dot_of_turn (hn : n.normSq = 1) (hr : r.normSq = 1) (hne : n.cross r ≠ 0)
    (hside : 0 ≤ n.cross r * n.cross z) (hz : n.dot z < 0) : n.dot z < r.dot z := by
  have hpos : 0 < (n.dot r - 1) * n.dot z :=
    mul_pos_of_neg_of_neg (sub_neg.2 (dot_lt_one hn hr hne)) hz
  rw [dot_eq_of_unit hn r z]
  linarith

/-- Of two directions turned the same way from a third, one is a sum of multiples of the third and
the other. -/
theorem between_or_between (h : 0 < n.cross r * n.cross m) :
    (∀ b, 0 ≤ n.dot b → 0 ≤ m.dot b → 0 ≤ r.dot b) ∨
      ∀ b, 0 ≤ n.dot b → 0 ≤ r.dot b → 0 ≤ m.dot b := by
  have hrm := cross_anticomm r m
  obtain ⟨hr, hm⟩ | ⟨hr, hm⟩ := pos_and_pos_or_neg_and_neg_of_mul_pos h
  · obtain hle | hle := le_total 0 (r.cross m)
    · exact .inl fun b hn hm' ↦ dot_nonneg_of_cross hm hr.le hle hn hm'
    · exact .inr fun b hn hr' ↦ dot_nonneg_of_cross hr hm.le (by linarith) hn hr'
  · rw [cross_anticomm] at hr hm
    rw [neg_neg_iff_pos] at hr hm
    obtain hle | hle := le_total 0 (r.cross m)
    · exact .inr fun b hn hr' ↦ dot_nonneg_of_cross hr hle hm.le hr' hn
    · exact .inl fun b hn hm' ↦ dot_nonneg_of_cross hm (by linarith) hr.le hm' hn

/-- A direction on the way from another to a third, which are less than a right angle apart, is
nearer to the third. -/
theorem dot_lt_dot_of_nearer (hr : r.normSq = 1) (hg : g.normSq = 1) (hd : d.normSq = 1)
    (hrg : r.cross g ≠ 0) (hrd : 0 ≤ r.cross g * r.cross d) (hgd : 0 ≤ r.cross g * g.cross d)
    (hpos : 0 < r.dot d) : r.dot d < g.dot d := by
  by_contra hle
  rw [not_lt] at hle
  have hσ : 0 < r.cross g * r.cross g := mul_self_pos.2 hrg
  have hsplit : r.cross g = r.cross d * g.dot d - r.dot d * g.cross d := by
    rw [cross_eq_of_unit hd r g, dot_comm d r, dot_comm d g, cross_anticomm d g,
      cross_anticomm d r]
    ring
  -- Scaled by the turn, both angles to the third direction count as positive.
  have hprod : r.cross g * r.cross d * g.dot d =
      r.cross g * r.cross g + r.dot d * (r.cross g * g.cross d) := by
    linear_combination (-r.cross g) * hsplit
  have hge : 0 < g.dot d := by
    have : 0 ≤ r.dot d * (r.cross g * g.cross d) := mul_nonneg hpos.le hgd
    exact pos_of_mul_pos_right (by linarith) hrd
  have hr' := dot_eq_of_unit hd r r
  have hg' := dot_eq_of_unit hd g g
  rw [← normSq, hr, dot_comm d r, cross_anticomm d r] at hr'
  rw [← normSq, hg, dot_comm d g, cross_anticomm d g] at hg'
  have hsq : (r.cross g * r.cross d) ^ 2 ≤ (r.cross g * g.cross d) ^ 2 := by
    have hdots : g.dot d * g.dot d ≤ r.dot d * r.dot d := mul_self_le_mul_self hge.le hle
    have : r.cross d * r.cross d ≤ g.cross d * g.cross d := by linarith
    have := mul_le_mul_of_nonneg_left this hσ.le
    linarith
  have hangle := le_of_sq_le_sq hsq hgd
  have := mul_le_mul hangle hle hge.le hgd
  linarith

/-! ## Segments -/

variable {p q x : Vec ℝ} {l : ℝ}

def OnSegment (p q x : Vec ℝ) : Prop := ∃ k : ℝ, 0 ≤ k ∧ k ≤ 1 ∧ x = p + (q - p) * k

theorem onSegment_left (p q : Vec ℝ) : OnSegment p q p := by
  refine ⟨0, le_rfl, zero_le_one, ?_⟩
  ext
  · simp only [add_x, mul_x, mul_zero, add_zero]
  · simp only [add_y, mul_y, mul_zero, add_zero]

theorem onSegment_right (p q : Vec ℝ) : OnSegment p q q := by
  refine ⟨1, zero_le_one, le_rfl, ?_⟩
  ext
  · simp only [add_x, mul_x, sub_x, mul_one, add_sub_cancel]
  · simp only [add_y, mul_y, sub_y, mul_one, add_sub_cancel]

theorem OnSegment.exists_dot (h : OnSegment p q x) :
    ∃ k : ℝ, 0 ≤ k ∧ k ≤ 1 ∧ ∀ d : Vec ℝ, d.dot x = d.dot p + k * (d.dot q - d.dot p) := by
  obtain ⟨k, hk, hk', rfl⟩ := h
  refine ⟨k, hk, hk', fun d ↦ ?_⟩
  rw [dot_add, dot_mul, dot_sub]
  ring

/-- A segment passes every level between those of its ends. -/
theorem exists_onSegment (hlt : d.dot q < d.dot p) (hq : d.dot q ≤ l) (hp : l ≤ d.dot p) :
    ∃ x, OnSegment p q x ∧ d.dot x = l := by
  have hpos : 0 < d.dot p - d.dot q := sub_pos.2 hlt
  refine ⟨p + (q - p) * ((d.dot p - l) / (d.dot p - d.dot q)), ⟨_, ?_, ?_, rfl⟩, ?_⟩
  · exact div_nonneg (sub_nonneg.2 hp) hpos.le
  · rw [div_le_one hpos]
    linarith
  · rw [dot_add, dot_mul, dot_sub]
    field_simp
    ring

end Vec

/-- The point is one of the ends of the side. -/
def Side.EndsAt (s : Side ℝ) (c : Vec ℝ) : Prop := s.start = c ∨ s.stop = c

/-- Seen along `s`, both ends of `e` are at or beyond one end of `s`. -/
def Side.Beside (s e : Side ℝ) : Prop :=
  (∀ x, e.EndsAt x → 0 ≤ (s.stop - s.start).dot (x - s.stop)) ∨
    ∀ x, e.EndsAt x → 0 ≤ (s.stop - s.start).dot (s.start - x)

namespace Outline

variable {o o' : Outline ℝ} {s t e f r : Side ℝ} {n v c : Vec ℝ} {m : ℝ}

theorem Convex.sides_ne_nil {turn : Vec ℝ → Vec ℝ → Prop} {t : Pose ℝ}
    (h : (o.place t).Convex turn) : o.sides ≠ [] := by
  obtain ⟨v, hv⟩ := List.exists_mem_of_ne_nil _ h.nonempty
  obtain ⟨s, hs, -⟩ := h.corner v hv
  rw [sides_place] at hs
  exact fun he ↦ by simp [he] at hs

theorem Convex.vertices_ne_nil {turn : Vec ℝ → Vec ℝ → Prop} {t : Pose ℝ}
    (h : (o.place t).Convex turn) : o.vertices ≠ [] :=
  fun he ↦ h.nonempty (by rw [Outline.place, he, List.map_nil])

/-! ## Neighbouring sides -/

theorem start_mem (h : s ∈ o.sides) : s.start ∈ o.vertices :=
  (mem_of_mem_successive (mem_successive_of_mem_sides h)).1

theorem stop_mem (h : s ∈ o.sides) : s.stop ∈ o.vertices :=
  (mem_of_mem_successive (mem_successive_of_mem_sides h)).2

/-- How far a side runs along a direction. -/
theorem Convex.exists_dot_run {turn : Vec ℝ → Vec ℝ → Prop} (h : o.Convex turn) (hs : s ∈ o.sides) :
    ∃ k : ℝ, 0 < k ∧ (∀ d : Vec ℝ, d.dot s.stop - d.dot s.start = s.normal.cross d * k) ∧
      ∀ d : Vec ℝ, d.cross s.stop - d.cross s.start = d.dot s.normal * k := by
  obtain ⟨k, hk, hrun⟩ := h.run s hs
  refine ⟨k, hk, fun d ↦ ?_, fun d ↦ ?_⟩
  · rw [← Vec.dot_sub, hrun, Vec.dot_mul, Vec.dot_perp]
  · have hx := congrArg Vec.x hrun
    have hy := congrArg Vec.y hrun
    simp only [Vec.sub_x, Vec.sub_y, Vec.mul_x, Vec.mul_y, Vec.perp] at hx hy
    simp only [Vec.cross, Vec.dot]
    linear_combination d.x * hy - d.y * hx

/-- A side runs to the left of its normal. -/
theorem Convex.cross_start_lt (h : o.Convex LeftTurn) (hs : s ∈ o.sides) :
    s.normal.cross s.start < s.normal.cross s.stop := by
  obtain ⟨k, hk, -, hcross⟩ := h.exists_dot_run hs
  have hcross := hcross s.normal
  rw [← Vec.normSq, h.unit s hs, one_mul] at hcross
  linarith

/-- A side that runs the other way is beside another if its nearer end is. -/
theorem Convex.beside_iff (h : o.Convex LeftTurn) (hs : s ∈ o.sides)
    (hdrop : s.normal.cross e.stop < s.normal.cross e.start) :
    s.Beside e ↔ s.normal.cross s.stop ≤ s.normal.cross e.stop ∨
      s.normal.cross e.start ≤ s.normal.cross s.start := by
  obtain ⟨k, hk, hrun⟩ := h.run s hs
  have hdot : ∀ p q : Vec ℝ, (s.stop - s.start).dot (p - q) =
      k * (s.normal.cross p - s.normal.cross q) := by
    intro p q
    rw [hrun, Vec.dot_comm, Vec.dot_mul, Vec.dot_perp, Vec.cross_sub, mul_comm]
  simp only [Side.Beside, hdot, mul_nonneg_iff_of_pos_left hk, sub_nonneg]
  constructor
  · rintro (hstop | hstart)
    · exact .inl (hstop _ (.inr rfl))
    · exact .inr (hstart _ (.inl rfl))
  · rintro (hstop | hstart)
    · refine .inl ?_
      rintro x (rfl | rfl)
      · exact hstop.trans hdrop.le
      · exact hstop
    · refine .inr ?_
      rintro x (rfl | rfl)
      · exact hstart
      · exact hdrop.le.trans hstart

/-- A side that starts on another one's line turns left from it. -/
theorem Convex.cross_nonneg_of_start (h : o.Convex LeftTurn) (he : e ∈ o.sides) (hf : f ∈ o.sides)
    (hz : e.separation f.start = 0) : 0 ≤ e.normal.cross f.normal := by
  obtain ⟨k, hk, hrun, -⟩ := h.exists_dot_run hf
  have hle := h.behind e he f.stop (stop_mem hf)
  have hrun := hrun e.normal
  rw [Side.separation, Vec.dot_sub] at hz hle
  rw [Vec.cross_anticomm] at hrun
  exact nonneg_of_mul_nonneg_left (by linarith) hk

/-- A side that ends on another one's line turns left to it. -/
theorem Convex.cross_nonneg_of_stop (h : o.Convex LeftTurn) (he : e ∈ o.sides) (hf : f ∈ o.sides)
    (hz : e.separation f.stop = 0) : 0 ≤ f.normal.cross e.normal := by
  obtain ⟨k, hk, hrun, -⟩ := h.exists_dot_run hf
  have hle := h.behind e he f.start (start_mem hf)
  have hrun := hrun e.normal
  rw [Side.separation, Vec.dot_sub] at hz hle
  exact nonneg_of_mul_nonneg_left (by linarith) hk

/-- A side is measured from either of its ends. -/
theorem Convex.separation_of_endsAt (h : o.Convex LeftTurn) (hs : s ∈ o.sides) (hc : s.EndsAt c)
    (u : Vec ℝ) : s.separation u = s.normal.dot u - s.normal.dot c := by
  rw [← Vec.dot_sub]
  rcases hc with rfl | rfl
  · rfl
  · exact h.separation_eq hs u

theorem mem_of_endsAt (hs : s ∈ o.sides) (hc : s.EndsAt c) : c ∈ o.vertices := by
  rcases hc with rfl | rfl
  · exact start_mem hs
  · exact stop_mem hs

theorem Convex.separation_eq_zero (h : o.Convex LeftTurn) (hs : s ∈ o.sides) (hc : s.EndsAt c) :
    s.separation c = 0 := by
  rw [h.separation_of_endsAt hs hc, sub_self]

/-- Whatever side ends at a vertex, another starts there with a left turn. -/
theorem Convex.exists_next (h : o.Convex LeftTurn) (he : e ∈ o.sides) :
    ∃ f ∈ o.sides, f.start = e.stop ∧ LeftTurn e.normal f.normal := by
  obtain ⟨s, hs, f, hf, hse, hfe, hturn⟩ := h.corner e.stop (stop_mem he)
  refine ⟨f, hf, hfe, ?_⟩
  -- The side that is said to end there has the same normal.
  have hes : 0 ≤ e.normal.cross s.normal :=
    h.cross_nonneg_of_stop hs he (h.separation_eq_zero hs (.inr hse))
  have hse' : 0 ≤ s.normal.cross e.normal :=
    h.cross_nonneg_of_stop he hs (h.separation_eq_zero he (.inr hse.symm))
  have hef : 0 ≤ e.normal.cross f.normal :=
    h.cross_nonneg_of_start he hf (h.separation_eq_zero he (.inr hfe.symm))
  have hz : e.normal.cross s.normal = 0 := by
    have := Vec.cross_anticomm e.normal s.normal
    linarith
  rw [Vec.eq_of_parallel (h.unit e he) (h.unit s hs) hz hturn.ne' (mul_nonneg hturn.le hef)]
  exact hturn

/-- Whatever side starts at a vertex, another ends there with a left turn. -/
theorem Convex.exists_previous (h : o.Convex LeftTurn) (he : e ∈ o.sides) :
    ∃ f ∈ o.sides, f.stop = e.start ∧ LeftTurn f.normal e.normal := by
  obtain ⟨f, hf, s, hs, hfe, hse, hturn⟩ := h.corner e.start (start_mem he)
  refine ⟨f, hf, hfe, ?_⟩
  have hes : 0 ≤ e.normal.cross s.normal :=
    h.cross_nonneg_of_start he hs (h.separation_eq_zero he (.inl hse.symm))
  have hse' : 0 ≤ s.normal.cross e.normal :=
    h.cross_nonneg_of_start hs he (h.separation_eq_zero hs (.inl hse))
  have hfe' : 0 ≤ f.normal.cross e.normal :=
    h.cross_nonneg_of_stop he hf (h.separation_eq_zero he (.inl hfe.symm))
  have hz : e.normal.cross s.normal = 0 := by
    have := Vec.cross_anticomm e.normal s.normal
    linarith
  have hne : s.normal.cross f.normal ≠ 0 := by
    rw [Vec.cross_anticomm]
    exact (neg_neg_of_pos hturn).ne
  have hside : 0 ≤ s.normal.cross f.normal * e.normal.cross f.normal := by
    rw [Vec.cross_anticomm s.normal, Vec.cross_anticomm e.normal, neg_mul_neg]
    exact mul_nonneg hturn.le hfe'
  rw [Vec.eq_of_parallel (h.unit e he) (h.unit s hs) hz hne hside]
  exact hturn

/-! ## The deepest vertex -/

/-- The vertex comes last along the direction. -/
def Deepest (o : Outline ℝ) (n v : Vec ℝ) : Prop := ∀ u ∈ o.vertices, n.dot v ≤ n.dot u

theorem Convex.exists_deepest {turn : Vec ℝ → Vec ℝ → Prop} (h : o.Convex turn) (n : Vec ℝ) :
    ∃ v ∈ o.vertices, o.Deepest n v := by
  obtain ⟨v, hv⟩ := List.exists_mem_of_ne_nil _ h.nonempty
  obtain ⟨w, hw, hmin⟩ :=
    Set.exists_min_image {u | u ∈ o.vertices} n.dot (List.finite_toSet _) ⟨v, hv⟩
  exact ⟨w, hw, hmin⟩

/-- A direction against which both sides at a vertex face is deepest there. -/
theorem Convex.deepest (h : o.Convex LeftTurn) (hs : s ∈ o.sides) (ht : t ∈ o.sides)
    (hst : t.start = s.stop) (hturn : LeftTurn s.normal t.normal) (hsn : s.normal.cross n ≤ 0)
    (htn : 0 ≤ t.normal.cross n) : o.Deepest n s.stop := by
  intro u hu
  have hbs := h.behind s hs u hu
  have hbt := h.behind t ht u hu
  rw [h.separation_of_endsAt hs (.inr rfl)] at hbs
  rw [h.separation_of_endsAt ht (.inl hst)] at hbt
  have hneg : 0 ≤ (-n).dot (s.stop - u) := by
    refine Vec.dot_nonneg_of_cross hturn ?_ ?_ ?_ ?_
    · rw [Vec.cross_neg]
      linarith
    · rw [Vec.neg_cross, Vec.cross_anticomm, neg_neg]
      exact htn
    · rw [Vec.dot_sub]
      linarith
    · rw [Vec.dot_sub]
      linarith
  rw [Vec.neg_dot, Vec.dot_sub] at hneg
  linarith

/-- The point is behind all sides and on none. -/
def Inside (o : Outline ℝ) (x : Vec ℝ) : Prop := ∀ s ∈ o.sides, s.separation x < 0

/-- An outline with a point inside behind a side has a vertex behind it. -/
theorem Convex.exists_separation_neg (h : o.Convex LeftTurn) {x : Vec ℝ} (hx : o.Inside x)
    (hs : s.separation x < 0) : ∃ v ∈ o.vertices, s.separation v < 0 := by
  obtain ⟨v, hv, hdeep⟩ := h.exists_deepest s.normal
  have hle := h.dot_le (d := -s.normal) (fun r hr ↦ (hx r hr).le) hv fun u hu ↦ by
    rw [Vec.neg_dot, Vec.neg_dot]
    exact neg_le_neg (hdeep u hu)
  refine ⟨v, hv, ?_⟩
  rw [Vec.neg_dot, Vec.neg_dot] at hle
  rw [Side.separation, Vec.dot_sub] at hs ⊢
  linarith

/-! ## The incident side -/

/-- A side that faces against the direction as much as any. -/
structure Faces (o : Outline ℝ) (n : Vec ℝ) (e : Side ℝ) : Prop where
  mem : e ∈ o.sides
  le : ∀ f ∈ o.sides, n.dot e.normal ≤ n.dot f.normal

namespace Faces

theorem dot_neg (he : o.Faces n e) (h : o.Convex LeftTurn) (hn : n.normSq = 1) :
    n.dot e.normal < 0 := by
  obtain ⟨v, hv, hdeep⟩ := h.exists_deepest n
  obtain ⟨s, t, hc, hturn, hs, ht⟩ := h.exists_corner (d := -n) hv fun u hu ↦ by
    rw [Vec.neg_dot, Vec.neg_dot]
    exact neg_le_neg (hdeep u hu)
  by_contra hge
  -- The direction would be in front of both sides at the deepest vertex, and they enclose it.
  have hpos : 0 ≤ (-n).dot n := by
    refine Vec.dot_nonneg_of_cross hturn hs ht ?_ ?_
    · rw [Vec.dot_comm]
      linarith [he.le s hc.incoming]
    · rw [Vec.dot_comm]
      linarith [he.le t hc.outgoing]
  rw [Vec.neg_dot, ← Vec.normSq, hn] at hpos
  linarith

/-- The incident side runs to the right of the direction. -/
theorem cross_stop_lt (he : o.Faces n e) (h : o.Convex LeftTurn) (hn : n.normSq = 1) :
    n.cross e.stop < n.cross e.start := by
  obtain ⟨k, hk, -, hcross⟩ := h.exists_dot_run he.mem
  have := mul_neg_of_neg_of_pos (he.dot_neg h hn) hk
  linarith [hcross n]

/-- If the incident side does not rise, its second end is deepest, and the next side rises. -/
theorem deepest_stop (he : o.Faces n e) (h : o.Convex LeftTurn) (hn : n.normSq = 1)
    (hle : e.normal.cross n ≤ 0) :
    o.Deepest n e.stop ∧ ∃ f ∈ o.sides, f.start = e.stop ∧ 0 < f.normal.cross n := by
  obtain ⟨f, hf, hfe, hturn⟩ := h.exists_next he.mem
  have hlt : 0 < f.normal.cross n := by
    by_contra hn'
    have hnear := Vec.dot_lt_dot_of_nearer (d := -n) (h.unit e he.mem) (h.unit f hf)
      ((Vec.normSq_neg n).trans hn) hturn.ne' ?_ ?_ ?_
    · rw [Vec.dot_neg, Vec.dot_neg, Vec.dot_comm, Vec.dot_comm f.normal] at hnear
      linarith [he.le f hf]
    · rw [Vec.cross_neg]
      exact mul_nonneg hturn.le (by linarith)
    · rw [Vec.cross_neg]
      exact mul_nonneg hturn.le (by linarith)
    · rw [Vec.dot_neg, Vec.dot_comm]
      linarith [he.dot_neg h hn]
  exact ⟨h.deepest he.mem hf hfe hturn hle hlt.le, f, hf, hfe, hlt⟩

/-- If the incident side does not fall, its first end is deepest, and the side before it falls. -/
theorem deepest_start (he : o.Faces n e) (h : o.Convex LeftTurn) (hn : n.normSq = 1)
    (hle : 0 ≤ e.normal.cross n) :
    o.Deepest n e.start ∧ ∃ f ∈ o.sides, f.stop = e.start ∧ f.normal.cross n < 0 := by
  obtain ⟨f, hf, hfe, hturn⟩ := h.exists_previous he.mem
  have hback : e.normal.cross f.normal < 0 := by
    rw [Vec.cross_anticomm]
    exact neg_neg_of_pos hturn
  have hlt : f.normal.cross n < 0 := by
    by_contra hn'
    have hnear := Vec.dot_lt_dot_of_nearer (d := -n) (h.unit e he.mem) (h.unit f hf)
      ((Vec.normSq_neg n).trans hn) hback.ne ?_ ?_ ?_
    · rw [Vec.dot_neg, Vec.dot_neg, Vec.dot_comm, Vec.dot_comm f.normal] at hnear
      linarith [he.le f hf]
    · rw [Vec.cross_neg]
      exact mul_nonneg_of_nonpos_of_nonpos hback.le (by linarith)
    · rw [Vec.cross_neg]
      exact mul_nonneg_of_nonpos_of_nonpos hback.le (by linarith)
    · rw [Vec.dot_neg, Vec.dot_comm]
      linarith [he.dot_neg h hn]
  rw [← hfe]
  exact ⟨h.deepest hf he.mem hfe.symm hturn hlt.le hle, f, hf, rfl, hlt⟩

/-- The incident side may be sought in local coordinates. -/
theorem place {u : Pose ℝ} (he : o.Faces (u.unrotate n) e) :
    (o.place u).Faces n (e.place u) := by
  refine ⟨?_, fun f hf ↦ ?_⟩
  · rw [sides_place]
    exact List.mem_map_of_mem he.mem
  · rw [sides_place] at hf
    obtain ⟨g, hg, rfl⟩ := List.mem_map.1 hf
    have hle := he.le g hg
    rw [← u.dot_rotate, ← u.dot_rotate] at hle
    exact hle

end Faces

/-! ## The reference side -/

/-- The side that another outline comes furthest in front of, and how far, or how little behind. -/
structure Gap (o o' : Outline ℝ) (s : Side ℝ) (m : ℝ) : Prop where
  mem : s ∈ o.sides
  le : ∀ v ∈ o'.vertices, m ≤ s.separation v
  attained : ∃ v ∈ o'.vertices, s.separation v = m
  greatest : ∀ r ∈ o.sides, ∃ v ∈ o'.vertices, r.separation v ≤ m

namespace Gap

theorem separation_eq (hg : o.Gap o' s m) (hv : v ∈ o'.vertices) (hdeep : o'.Deepest s.normal v) :
    s.separation v = m := by
  obtain ⟨u, hu, rfl⟩ := hg.attained
  have hle := hg.le v hv
  have hdeep := hdeep u hu
  simp only [Side.separation, Vec.dot_sub] at hle ⊢
  linarith

/-- A side that is clearly the best is the reference side. -/
theorem eq_of_lt (hg : o.Gap o' s m) (hr : r ∈ o.sides) (hv : v ∈ o'.vertices)
    (hle : ∀ u ∈ o'.vertices, r.separation v ≤ r.separation u)
    (hlt : ∀ f ∈ o.sides, f = r ∨ ∃ u ∈ o'.vertices, f.separation u < r.separation v) :
    s = r ∧ m = r.separation v := by
  obtain ⟨w, hw, hwm⟩ := hg.greatest r hr
  obtain rfl | ⟨u, hu, hul⟩ := hlt s hg.mem
  · exact ⟨rfl, (hg.le v hv).antisymm ((hle w hw).trans hwm)⟩
  · linarith [hg.le u hu, hle w hw]

/-- Where the deepest vertex lies beyond an end of the reference side, a side that leads further
away from there is better than the reference side, and nearest to that end. -/
theorem lt_separation (hg : o.Gap o' s m) (h : o.Convex LeftTurn) (h' : o'.Convex LeftTurn)
    (hm : m < 0) (hr : r ∈ o.sides) (hsc : s.EndsAt c) (hrc : r.EndsAt c) (hf : f ∈ o'.sides)
    (hfv : f.EndsAt v) (hdeep : o'.Deepest s.normal v)
    (hturn : 0 < s.normal.cross r.normal * f.normal.cross s.normal)
    (hbeyond : 0 ≤ s.normal.cross r.normal * (s.normal.cross v - s.normal.cross c)) :
    m < f.separation c ∧ ∀ u ∈ o.vertices, f.separation c ≤ f.separation u := by
  have hunit := h.unit s hg.mem
  have hdepth : s.normal.dot (v - c) = m := by
    rw [← hg.separation_eq (mem_of_endsAt hf hfv) hdeep, h.separation_of_endsAt hg.mem hsc,
      Vec.dot_sub]
  have hz : s.normal.dot (v - c) < 0 := hdepth.trans_lt hm
  have hfn : s.normal.cross (-f.normal) = f.normal.cross s.normal := by
    rw [Vec.cross_neg, ← Vec.cross_anticomm]
  rw [← hfn] at hturn
  rw [← Vec.cross_sub] at hbeyond
  obtain hbetween | hbetween := Vec.between_or_between hturn
  · -- The neighbour of the reference side would be better.
    have hne : s.normal.cross r.normal ≠ 0 := left_ne_zero_of_mul hturn.ne'
    have hlt := Vec.dot_lt_dot_of_turn hunit (h.unit r hr) hne hbeyond hz
    obtain ⟨u, hu, hle⟩ := hg.greatest r hr
    have hru := hbetween (u - v)
    have hbehind := h'.behind f hf u hu
    rw [h'.separation_of_endsAt hf hfv] at hbehind
    rw [h.separation_of_endsAt hr hrc] at hle
    simp only [Vec.dot_sub, Vec.neg_dot] at hru hlt hdepth
    linarith [hru (by linarith [hdeep u hu]) (by linarith)]
  · have hne : s.normal.cross (-f.normal) ≠ 0 := right_ne_zero_of_mul hturn.ne'
    have hside : 0 ≤ s.normal.cross (-f.normal) * s.normal.cross (v - c) := by
      have hprod := mul_nonneg hturn.le hbeyond
      have hsq : 0 < s.normal.cross r.normal * s.normal.cross r.normal :=
        mul_self_pos.2 (left_ne_zero_of_mul hturn.ne')
      exact nonneg_of_mul_nonneg_right (by linarith) hsq
    have hlt := Vec.dot_lt_dot_of_turn hunit ((Vec.normSq_neg _).trans (h'.unit f hf)) hne hside hz
    simp only [h'.separation_of_endsAt hf hfv]
    refine ⟨?_, fun u hu ↦ ?_⟩
    · rw [hdepth] at hlt
      simp only [Vec.neg_dot, Vec.dot_sub] at hlt
      linarith
    · have hcu := hbetween (c - u)
      have hbs := h.behind s hg.mem u hu
      have hbr := h.behind r hr u hu
      rw [h.separation_of_endsAt hg.mem hsc] at hbs
      rw [h.separation_of_endsAt hr hrc] at hbr
      simp only [Vec.dot_sub, Vec.neg_dot] at hcu
      linarith [hcu (by linarith) (by linarith)]

/-- Where the deepest vertex is the end of the incident side beyond an end of the reference side,
the incident side passes in front of that end, as the outlines overlap. -/
theorem separation_neg (hg : o.Gap o' s m) (h : o.Convex LeftTurn) (h' : o'.Convex LeftTurn)
    (hm : m < 0) (he : o'.Faces s.normal e) (hmeet : ∃ u ∈ o.vertices, e.separation u < 0)
    (hr : r ∈ o.sides) (hsc : s.EndsAt c) (hrc : r.EndsAt c) (hev : e.EndsAt v)
    (hdeep : o'.Deepest s.normal v) (hne : s.normal.cross r.normal ≠ 0)
    (hturn : 0 ≤ s.normal.cross r.normal * e.normal.cross s.normal)
    (hbeyond : 0 ≤ s.normal.cross r.normal * (s.normal.cross v - s.normal.cross c)) :
    e.separation c < 0 := by
  obtain hpar | hlt := hturn.eq_or_lt
  · -- The incident side is parallel to the reference side and all of it is deepest.
    have hz : s.normal.cross e.normal = 0 := by
      rw [Vec.cross_anticomm, neg_eq_zero]
      exact (mul_eq_zero.1 hpar.symm).resolve_left hne
    have hdepth := hg.separation_eq (mem_of_endsAt he.mem hev) hdeep
    rw [h.separation_of_endsAt hg.mem hsc] at hdepth
    rw [h'.separation_of_endsAt he.mem hev, ← Vec.dot_sub,
      Vec.dot_eq_of_unit (h.unit s hg.mem) e.normal, hz, zero_mul, add_zero, Vec.dot_sub]
    exact mul_neg_of_neg_of_pos (he.dot_neg h' (h.unit s hg.mem)) (by linarith)
  · obtain ⟨u, hu, hneg⟩ := hmeet
    exact ((hg.lt_separation h h' hm hr hsc hrc he.mem hev hdeep hlt hbeyond).2 u hu).trans_lt hneg

/-- The incident side crosses the end of the reference side's width behind the reference side. -/
theorem exists_crossing (hg : o.Gap o' s m) (h : o.Convex LeftTurn) (h' : o'.Convex LeftTurn)
    (he : o'.Faces s.normal e) (hsc : s.EndsAt c) (hneg : e.separation c < 0)
    (hstop : s.normal.cross e.stop ≤ s.normal.cross c)
    (hstart : s.normal.cross c ≤ s.normal.cross e.start) :
    ∃ x, Vec.OnSegment e.start e.stop x ∧ s.normal.cross x = s.normal.cross c ∧
      s.separation x ≤ 0 := by
  have hunit := h.unit s hg.mem
  have hface := he.dot_neg h' hunit
  have hdrop := he.cross_stop_lt h' hunit
  simp only [← Vec.perp_dot] at hstop hstart hdrop
  obtain ⟨x, hx, hxc⟩ := Vec.exists_onSegment hdrop hstop hstart
  simp only [Vec.perp_dot] at hxc
  refine ⟨x, hx, hxc, ?_⟩
  have hline : e.separation x = 0 := by
    obtain ⟨l, -, -, hdot⟩ := hx.exists_dot
    have hstop := h'.separation_eq_zero he.mem (.inr rfl)
    rw [Side.separation, Vec.dot_sub] at hstop ⊢
    rw [hdot, hstop, mul_zero, add_zero, sub_self]
  have hprod : e.normal.dot (c - x) = s.normal.dot e.normal * s.normal.dot (c - x) := by
    have hz : s.normal.cross (c - x) = 0 := by
      rw [Vec.cross_sub, hxc, sub_self]
    rw [Vec.dot_eq_of_unit hunit e.normal, hz, mul_zero, add_zero]
  rw [Side.separation, Vec.dot_sub] at hneg hline
  rw [Vec.dot_sub, Vec.dot_sub] at hprod
  rw [h.separation_of_endsAt hg.mem hsc]
  have hpos : 0 < s.normal.dot c - s.normal.dot x :=
    pos_of_mul_neg_right (by linarith) hface.le
  linarith

/-- An incident side that is not beside the reference side passes behind it. -/
theorem exists_within (hg : o.Gap o' s m) (h : o.Convex LeftTurn) (h' : o'.Convex LeftTurn)
    (hm : m < 0) (he : o'.Faces s.normal e) (hmeet : ∃ u ∈ o.vertices, e.separation u < 0)
    (hstop : s.normal.cross e.stop < s.normal.cross s.stop)
    (hstart : s.normal.cross s.start < s.normal.cross e.start) :
    ∃ x, Vec.OnSegment e.start e.stop x ∧ s.normal.cross s.start ≤ s.normal.cross x ∧
      s.normal.cross x ≤ s.normal.cross s.stop ∧ s.separation x ≤ 0 := by
  have hunit := h.unit s hg.mem
  have hwidth := h.cross_start_lt hg.mem
  obtain hrise | hfall := le_total 0 (e.normal.cross s.normal)
  · obtain ⟨hdeep, -⟩ := he.deepest_start h' hunit hrise
    obtain hin | hout := le_or_gt (s.normal.cross e.start) (s.normal.cross s.stop)
    · exact ⟨e.start, Vec.onSegment_left .., hstart.le, hin,
        (hg.separation_eq (start_mem he.mem) hdeep).trans_le hm.le⟩
    · obtain ⟨r, hr, hrs, hturn⟩ := h.exists_next hg.mem
      have hneg := hg.separation_neg h h' hm he hmeet hr (.inr rfl) (.inl hrs) (.inl rfl) hdeep
        hturn.ne' (mul_nonneg hturn.le hrise) (mul_nonneg hturn.le (by linarith))
      obtain ⟨x, hx, hxc, hxs⟩ :=
        hg.exists_crossing h h' he (.inr rfl) hneg hstop.le hout.le
      exact ⟨x, hx, by linarith, hxc.le, hxs⟩
  · obtain ⟨hdeep, -⟩ := he.deepest_stop h' hunit hfall
    obtain hin | hout := le_or_gt (s.normal.cross s.start) (s.normal.cross e.stop)
    · exact ⟨e.stop, Vec.onSegment_right .., hin, hstop.le,
        (hg.separation_eq (stop_mem he.mem) hdeep).trans_le hm.le⟩
    · obtain ⟨r, hr, hrs, hturn⟩ := h.exists_previous hg.mem
      have hback : s.normal.cross r.normal < 0 := by
        rw [Vec.cross_anticomm]
        exact neg_neg_of_pos hturn
      have hneg := hg.separation_neg h h' hm he hmeet hr (.inl rfl) (.inr hrs) (.inr rfl) hdeep
        hback.ne (mul_nonneg_of_nonpos_of_nonpos hback.le hfall)
        (mul_nonneg_of_nonpos_of_nonpos hback.le (by linarith))
      obtain ⟨x, hx, hxc, hxs⟩ :=
        hg.exists_crossing h h' he (.inl rfl) hneg hout.le hstart.le
      exact ⟨x, hx, hxc.ge, by linarith, hxs⟩

/-- An incident side beside the reference side belongs to an outline with a better side. -/
theorem exists_better (hg : o.Gap o' s m) (h : o.Convex LeftTurn) (h' : o'.Convex LeftTurn)
    (hm : m < 0) (he : o'.Faces s.normal e)
    (hbeside : s.normal.cross s.stop ≤ s.normal.cross e.stop ∨
      s.normal.cross e.start ≤ s.normal.cross s.start) :
    ∃ f ∈ o'.sides, ∀ u ∈ o.vertices, m < f.separation u := by
  have hunit := h.unit s hg.mem
  have hdrop := he.cross_stop_lt h' hunit
  -- It is enough to find a side that leads away from a deepest end of the incident side.
  have key : ∀ r c f v, r ∈ o.sides → s.EndsAt c → r.EndsAt c → f ∈ o'.sides → f.EndsAt v →
      o'.Deepest s.normal v → 0 < s.normal.cross r.normal * f.normal.cross s.normal →
        0 ≤ s.normal.cross r.normal * (s.normal.cross v - s.normal.cross c) →
          ∃ f ∈ o'.sides, ∀ u ∈ o.vertices, m < f.separation u := by
    intro r c f v hr hsc hrc hf hfv hdeep hturn hbeyond
    obtain ⟨hlt, hle⟩ := hg.lt_separation h h' hm hr hsc hrc hf hfv hdeep hturn hbeyond
    exact ⟨f, hf, fun u hu ↦ hlt.trans_le (hle u hu)⟩
  obtain hstop | hstart := hbeside
  · obtain ⟨r, hr, hrs, hturn⟩ := h.exists_next hg.mem
    obtain hfall | hrise := le_or_gt (e.normal.cross s.normal) 0
    · obtain ⟨hdeep, f, hf, hfe, hpos⟩ := he.deepest_stop h' hunit hfall
      exact key r s.stop f e.stop hr (.inr rfl) (.inl hrs) hf (.inl hfe) hdeep
        (mul_pos hturn hpos) (mul_nonneg hturn.le (by linarith))
    · obtain ⟨hdeep, -⟩ := he.deepest_start h' hunit hrise.le
      exact key r s.stop e e.start hr (.inr rfl) (.inl hrs) he.mem (.inl rfl) hdeep
        (mul_pos hturn hrise) (mul_nonneg hturn.le (by linarith))
  · obtain ⟨r, hr, hrs, hturn⟩ := h.exists_previous hg.mem
    have hback : s.normal.cross r.normal < 0 := by
      rw [Vec.cross_anticomm]
      exact neg_neg_of_pos hturn
    obtain hrise | hfall := le_or_gt 0 (e.normal.cross s.normal)
    · obtain ⟨hdeep, f, hf, hfe, hneg⟩ := he.deepest_start h' hunit hrise
      exact key r s.start f e.start hr (.inl rfl) (.inr hrs) hf (.inr hfe) hdeep
        (mul_pos_of_neg_of_neg hback hneg)
        (mul_nonneg_of_nonpos_of_nonpos hback.le (by linarith))
    · obtain ⟨hdeep, -⟩ := he.deepest_stop h' hunit hfall.le
      exact key r s.start e e.stop hr (.inl rfl) (.inr hrs) he.mem (.inr rfl) hdeep
        (mul_pos_of_neg_of_neg hback hfall)
        (mul_nonneg_of_nonpos_of_nonpos hback.le (by linarith))

end Gap

end Outline

end PlanarDynamics
