import PlanarDynamics.Proofs.Real.Acceptance
import PlanarDynamics.Shape.Basic

/-!
# Shapes and their bounds

A proper shape is what its constructors promise: a circle of a radius that is not negative, or a
convex polygon that `Polygon.ofVertices` has accepted.  The accepted polygons turn left at every
vertex, but may wind around more than once, so convexity is asked for besides.

`Shape.top` is how far a shape extends in a direction.  The bounding box of a shape is made of its
tops in the four axis directions, so boxes overlap if no axis direction separates the shapes.
-/

namespace PlanarDynamics

/-! ## Polygons and edges as convex outlines -/

theorem Vec.eq_perp_mul_of_crossOut {v n : Vec ℝ} {k : ℝ} (h : v.crossOut 1 = n * k) :
    v = n.perp * k := by
  have hx := congrArg Vec.x h
  have hy := congrArg Vec.y h
  simp only [Vec.crossOut, Vec.mul_x, Vec.mul_y] at hx hy
  ext
  · simp only [Vec.perp, Vec.mul_x]
    linarith
  · simp only [Vec.perp, Vec.mul_y]
    linarith

namespace Polygon

variable {p : Polygon ℝ}

theorem ofVertices_eq_ok {vertices : List (Vec ℝ)} (h : ofVertices vertices = .ok p) :
    sideNormals 0 (Outline.successive p.vertices) = .ok p.normals ∧
      reflexVertex? p.vertices = none := by
  obtain ⟨-, -, h⟩ := accept_eq_ok_iff.1 (accept_of_ofVertices h)
  obtain ⟨hv, hn, hr⟩ := acceptOrdered_eq_ok_iff.1 h
  rw [hv]
  exact ⟨hn, hr⟩

theorem sideNormal?_of_mem {ends : List (Vec ℝ × Vec ℝ)} {i : Nat} {normals : List (Vec ℝ)}
    (h : sideNormals i ends = .ok normals) {v w n : Vec ℝ} (hm : ((v, w), n) ∈ ends.zip normals) :
    sideNormal? v w = some n := by
  fun_induction sideNormals i ends generalizing normals with
  | case1 => simp at hm
  | case2 => cases h
  | case3 i v' w' rest n' hn ih =>
    cases hr : sideNormals (i + 1) rest with
    | error e =>
      rw [hr] at h
      cases h
    | ok ns =>
      rw [hr] at h
      cases h
      rw [List.zip_cons_cons, List.mem_cons] at hm
      obtain he | hm := hm
      · cases he
        exact hn
      · exact ih hr hm

/-- A side runs to the left of its normal. -/
theorem sideNormal?_eq_some {v w n : Vec ℝ} (h : sideNormal? v w = some n) :
    n.normSq = 1 ∧ ∃ k : ℝ, 0 < k ∧ w - v = n.perp * k := by
  obtain ⟨hn, k, hk, he⟩ := Vec.normalize?_eq_some h
  exact ⟨hn, k, hk, Vec.eq_perp_mul_of_crossOut he⟩

theorem cross_pos_of_turnsLeft {e f : Vec ℝ} (h : turnsLeft e f = true) : 0 < e.cross f := by
  have hlt : 1e-12 * e.norm * f.norm < e.cross f := by simpa [turnsLeft] using h
  have he : 0 ≤ e.norm := Real.sqrt_nonneg _
  have hf : 0 ≤ f.norm := Real.sqrt_nonneg _
  have hc : (0 : ℝ) ≤ 1e-12 := by norm_num
  exact (mul_nonneg (mul_nonneg hc he) hf).trans_lt hlt

theorem turnsLeft_of_mem {vertices : List (Vec ℝ)} (h : reflexVertex? vertices = none)
    {s t : Vec ℝ × Vec ℝ} (hm : (s, t) ∈ Outline.successive (Outline.successive vertices)) :
    turnsLeft (s.2 - s.1) (t.2 - t.1) = true := by
  refine reflexVertex?_eq_none_iff.1 h (s.2 - s.1, t.2 - t.1) ?_
  rw [steps, Outline.successive_map]
  exact List.mem_map_of_mem hm

theorem run_of_mem_sides {vertices : List (Vec ℝ)} (h : ofVertices vertices = .ok p) {s : Side ℝ}
    (hs : s ∈ p.sides) :
    s.normal.normSq = 1 ∧ ∃ k : ℝ, 0 < k ∧ s.stop - s.start = s.normal.perp * k :=
  sideNormal?_eq_some (sideNormal?_of_mem (ofVertices_eq_ok h).1 (Outline.mem_zip_of_mem_sides hs))

/-- A polygon that was accepted and lies behind its sides is a convex outline. -/
theorem convex {vertices : List (Vec ℝ)} (h : ofVertices vertices = .ok p)
    (hb : ∀ s ∈ p.sides, ∀ v ∈ p.vertices, s.separation v ≤ 0) :
    p.toOutline.Convex Outline.LeftTurn := by
  refine ⟨?_, fun s hs ↦ (run_of_mem_sides h hs).1, fun s hs ↦ (run_of_mem_sides h hs).2, hb,
    fun v hv ↦ ?_⟩
  · intro he
    have := p.three_le_length
    rw [he] at this
    simp at this
  · -- The side that starts at the vertex, and the one before it.
    obtain ⟨w, hw⟩ := Outline.exists_mem_successive_left hv
    obtain ⟨e, he⟩ := Outline.exists_mem_successive_right hw
    obtain ⟨s, hs, hsv, hsw⟩ :=
      Outline.exists_mem_sides p.length_normals (Outline.mem_of_mem_successive he).1
    obtain ⟨t, ht, htv, htw⟩ := Outline.exists_mem_sides p.length_normals hw
    refine ⟨s, hs, t, ht, ?_, htv, ?_⟩
    · rw [hsw]
      exact Outline.snd_eq_fst_of_mem_successive he
    · obtain ⟨k, hk, hrun⟩ := (run_of_mem_sides h hs).2
      obtain ⟨l, hl, hrun'⟩ := (run_of_mem_sides h ht).2
      have hcross := cross_pos_of_turnsLeft (turnsLeft_of_mem (ofVertices_eq_ok h).2 he)
      simp only at hcross
      rw [← hsv, ← hsw, ← htv, ← htw, hrun, hrun'] at hcross
      have hmul : (s.normal.perp * k).cross (t.normal.perp * l) =
          k * l * s.normal.cross t.normal := by
        simp only [Vec.cross, Vec.perp, Vec.mul_x, Vec.mul_y]
        ring
      rw [hmul] at hcross
      exact pos_of_mul_pos_right hcross (mul_pos hk hl).le

theorem sideNormal?_of_run {v w n : Vec ℝ} {k : ℝ} (hn : n.normSq = 1) (hk : 1 ≤ k)
    (h : w - v = n.perp * k) : sideNormal? v w = some n := by
  have hout : (w - v).crossOut 1 = n * k := by
    rw [h]
    ext
    · simp only [Vec.crossOut, Vec.perp, Vec.mul_x, Vec.mul_y]
      ring
    · simp only [Vec.crossOut, Vec.perp, Vec.mul_x, Vec.mul_y]
      ring
  rw [sideNormal?, hout, Vec.normalize?_mul hn (le_trans (by norm_num) hk)]

/-- The way from `v` to `w` has the length `k`, and the normal `n` on its right. -/
theorem sideNormal?_eq {v w n : Vec ℝ} (k : ℝ) (hn : n.x * n.x + n.y * n.y = 1) (hk : 1 ≤ k)
    (hx : w.x - v.x = -n.y * k) (hy : w.y - v.y = n.x * k) : sideNormal? v w = some n :=
  sideNormal?_of_run hn hk (Vec.ext hx hy)

theorem turnsLeft_of_sideNormal? {v w v' w' n n' : Vec ℝ} (h : sideNormal? v w = some n)
    (h' : sideNormal? v' w' = some n') (hlt : 1e-12 < n.cross n') :
    turnsLeft (w - v) (w' - v') = true := by
  obtain ⟨hn, k, hk, hrun⟩ := sideNormal?_eq_some h
  obtain ⟨hn', k', hk', hrun'⟩ := sideNormal?_eq_some h'
  have hcross : (n.perp * k).cross (n'.perp * k') = k * k' * n.cross n' := by
    simp only [Vec.cross, Vec.perp, Vec.mul_x, Vec.mul_y]
    ring
  have hnorm := Vec.norm_mul ((Vec.normSq_perp n).trans hn) hk.le
  have hnorm' := Vec.norm_mul ((Vec.normSq_perp n').trans hn') hk'.le
  rw [hrun, hrun', turnsLeft, hcross, hnorm, hnorm', Bool.not_eq_true', decide_eq_false_iff_not,
    not_le]
  linarith [mul_lt_mul_of_pos_left hlt (mul_pos hk hk')]

theorem sideNormals_of_forall {ends : List (Vec ℝ × Vec ℝ)} {normals : List (Vec ℝ)} (i : Nat)
    (hlen : normals.length = ends.length)
    (h : ∀ c ∈ ends.zip normals, sideNormal? c.1.1 c.1.2 = some c.2) :
    sideNormals i ends = .ok normals := by
  induction ends generalizing i normals with
  | nil =>
    rw [List.length_nil, List.length_eq_zero_iff] at hlen
    rw [hlen]
    rfl
  | cons e ends ih =>
    cases normals with
    | nil => cases hlen
    | cons n normals =>
      rw [List.zip_cons_cons, List.forall_mem_cons] at h
      simp only [sideNormals, h.1, ih (i + 1) (Nat.succ.inj hlen) h.2, Except.map]

/-- Vertices with a unit normal to the right of each side are accepted if the normals turn left. -/
theorem exists_ofVertices (vertices normals : List (Vec ℝ))
    (hcount : 3 ≤ vertices.length ∧ vertices.length ≤ 8) (hlen : normals.length = vertices.length)
    (harea : 1 ≤ signedArea vertices)
    (hside : ∀ c ∈ (Outline.successive vertices).zip normals, sideNormal? c.1.1 c.1.2 = some c.2)
    (hturn : ∀ c ∈ Outline.successive normals, 1e-12 < c.1.cross c.2) :
    ∃ p, ofVertices vertices = .ok p ∧ p.toOutline = ⟨vertices, normals⟩ := by
  have hlen' : normals.length = (Outline.successive vertices).length := by
    rw [hlen, Outline.length_successive]
  have hccw : ¬ signedArea vertices < 0 := by linarith
  have hreflex : reflexVertex? vertices = none := by
    rw [reflexVertex?_eq_none_iff, steps]
    intro c hc
    -- The sides and the normals are both read off the sides with their normals.
    have hends := List.map_fst_zip hlen'.ge
    have hnormals := List.map_snd_zip hlen'.le
    rw [← hends, Outline.successive_map, Outline.successive_map, List.map_map, List.mem_map] at hc
    obtain ⟨⟨x, y⟩, hxy, rfl⟩ := hc
    obtain ⟨hx, hy⟩ := Outline.mem_of_mem_successive hxy
    have hlt := hturn (x.2, y.2) <| by
      rw [← hnormals, Outline.successive_map]
      exact List.mem_map_of_mem hxy
    exact turnsLeft_of_sideNormal? (hside x hx) (hside y hy) hlt
  refine exists_ofVertices_of_accept (accept_eq_ok_iff.2 ⟨hcount, ?_, ?_⟩)
  · rw [abs_of_nonneg (not_lt.1 hccw)]
    exact le_trans (by norm_num) harea
  · rw [ordered, if_neg hccw]
    exact acceptOrdered_eq_ok_iff.2 ⟨rfl, sideNormals_of_forall 0 hlen' hside, hreflex⟩

end Polygon

namespace Edge

/-- An edge with a direction is a convex outline of two sides. -/
theorem convex {e : Edge ℝ} {o : Outline ℝ} (h : e.outline? = some o) :
    o.Convex Outline.UTurn ∧ o.vertices = [e.start, e.stop] := by
  obtain ⟨n, hn, rfl⟩ := Option.map_eq_some_iff.1 h
  obtain ⟨hunit, k, hk, hrun⟩ := Polygon.sideNormal?_eq_some (v := e.start) (w := e.stop) hn
  have hdot : n.dot e.stop = n.dot e.start := by
    have hz : n.dot (e.stop - e.start) = 0 := by
      rw [hrun, Vec.dot_mul, Vec.dot_perp, Vec.cross_self, zero_mul]
    rw [Vec.dot_sub] at hz
    linarith
  have hsides : ∀ s : Side ℝ, s ∈ Outline.sides ⟨[e.start, e.stop], [n, -n]⟩ ↔
      s = ⟨0, 1, e.start, e.stop, n⟩ ∨ s = ⟨1, 0, e.stop, e.start, -n⟩ := by
    intro s
    simp [Outline.sides, Outline.successive]
  have hback : e.start - e.stop = (-n).perp * k := by
    have hx := congrArg Vec.x hrun
    have hy := congrArg Vec.y hrun
    simp only [Vec.sub_x, Vec.sub_y, Vec.perp, Vec.mul_x, Vec.mul_y] at hx hy
    ext
    · simp only [Vec.sub_x, Vec.perp, Vec.mul_x, Vec.neg_y]
      linarith
    · simp only [Vec.sub_y, Vec.perp, Vec.mul_y, Vec.neg_x]
      linarith
  refine ⟨⟨by simp, fun s hs ↦ ?_, fun s hs ↦ ?_, fun s hs v hv ↦ ?_, fun v hv ↦ ?_⟩, rfl⟩
  · obtain rfl | rfl := (hsides s).1 hs
    · exact hunit
    · exact (Vec.normSq_neg n).trans hunit
  · obtain rfl | rfl := (hsides s).1 hs
    · exact ⟨k, hk, hrun⟩
    · exact ⟨k, hk, hback⟩
  · simp only [List.mem_cons, List.not_mem_nil, or_false] at hv
    obtain rfl | rfl := (hsides s).1 hs <;> obtain rfl | rfl := hv <;>
      simp [Side.separation, Vec.dot_sub, Vec.neg_dot, hdot]
  · simp only [List.mem_cons, List.not_mem_nil, or_false] at hv
    obtain rfl | rfl := hv
    · refine ⟨_, (hsides _).2 (.inr rfl), _, (hsides _).2 (.inl rfl), rfl, rfl, ?_⟩
      ext <;> simp
    · exact ⟨_, (hsides _).2 (.inl rfl), _, (hsides _).2 (.inr rfl), rfl, rfl, rfl⟩

end Edge

/-! ## How far shapes extend -/

theorem Pose.dot_apply (t : Pose ℝ) (d u : Vec ℝ) :
    d.dot (t.apply u) = (t.unrotate d).dot u + d.dot t.position := by
  rw [Pose.apply, Vec.dot_add, t.dot_rotate]

namespace Polygon

/-- The support of a polygon is a vertex, and none is further. -/
theorem support_mem (p : Polygon ℝ) (d : Vec ℝ) :
    p.support d ∈ p.vertices ∧ ∀ u ∈ p.vertices, u.dot d ≤ (p.support d).dot d := by
  have key : ∀ (vs : List (Vec ℝ)) (v : Vec ℝ),
      vs.foldl (fun best w ↦ if best.dot d < w.dot d then w else best) v ∈ v :: vs ∧
        ∀ u ∈ v :: vs, u.dot d ≤
          (vs.foldl (fun best w ↦ if best.dot d < w.dot d then w else best) v).dot d := by
    intro vs
    induction vs with
    | nil => simp
    | cons w vs ih =>
      intro v
      rw [List.foldl_cons]
      by_cases hlt : v.dot d < w.dot d
      · rw [if_pos hlt]
        obtain ⟨hmem, hmax⟩ := ih w
        refine ⟨List.mem_cons_of_mem _ hmem, fun u hu ↦ ?_⟩
        obtain rfl | hu := List.mem_cons.1 hu
        · exact hlt.le.trans (hmax w List.mem_cons_self)
        · exact hmax u hu
      · rw [if_neg hlt]
        obtain ⟨hmem, hmax⟩ := ih v
        refine ⟨?_, fun u hu ↦ ?_⟩
        · obtain he | hmem := List.mem_cons.1 hmem
          · rw [he]
            exact List.mem_cons_self
          · exact List.mem_cons_of_mem _ (List.mem_cons_of_mem _ hmem)
        · obtain rfl | hu := List.mem_cons.1 hu
          · exact hmax _ List.mem_cons_self
          · obtain rfl | hu := List.mem_cons.1 hu
            · exact (not_lt.1 hlt).trans (hmax v List.mem_cons_self)
            · exact hmax u (List.mem_cons_of_mem _ hu)
  cases hv : p.vertices with
  | nil =>
    have := p.three_le_length
    rw [hv] at this
    simp at this
  | cons v vs =>
    simp only [support, hv]
    exact key vs v

end Polygon

/-- The support of an edge is an end, and none is further. -/
theorem Edge.support_mem (e : Edge ℝ) (d : Vec ℝ) :
    e.support d ∈ [e.start, e.stop] ∧
      ∀ u ∈ [e.start, e.stop], u.dot d ≤ (e.support d).dot d := by
  simp only [support, List.mem_cons, List.not_mem_nil, or_false]
  split
  next h =>
    refine ⟨.inl rfl, ?_⟩
    rintro u (rfl | rfl)
    · exact le_rfl
    · exact h
  next h =>
    refine ⟨.inr rfl, ?_⟩
    rintro u (rfl | rfl)
    · exact (not_le.1 h).le
    · exact le_rfl

namespace Shape

/-- What the constructors of shapes promise, with convexity of polygons. -/
def Proper : Shape ℝ → Prop
  | circle c => 0 ≤ c.radius
  | polygon p => (∃ vertices, Polygon.ofVertices vertices = .ok p) ∧
      ∀ s ∈ p.sides, ∀ v ∈ p.vertices, s.separation v ≤ 0
  | edge _ => True

/-- How far a shape under a pose extends in a direction. -/
noncomputable def top (s : Shape ℝ) (t : Pose ℝ) (d : Vec ℝ) : ℝ := d.dot (s.extreme t d)

variable {t : Pose ℝ} {d : Vec ℝ}

/-- The extreme point of a circle lies straight ahead of its center. -/
theorem extreme_circle (hd : d.normSq = 1) (c : Circle ℝ) :
    (circle c).extreme t d = d * c.radius + t.apply c.center := by
  have hu : (t.unrotate d).normSq = 1 := (t.normSq_unrotate d).trans hd
  have hcomm : c.center + t.unrotate d * c.radius = t.unrotate d * c.radius + c.center :=
    Vec.ext (add_comm _ _) (add_comm _ _)
  have hturn : t.rotate (t.unrotate d * c.radius) = d * c.radius := by
    rw [Pose.rotate, Vec.rotate_mul, ← Pose.rotate, t.rotate_unrotate]
  rw [extreme, support, Circle.support, Vec.normalizeOr_of_normSq hu, hcomm, t.apply_add, hturn]

theorem top_circle (hd : d.normSq = 1) (c : Circle ℝ) :
    (circle c).top t d = d.dot (t.apply c.center) + c.radius := by
  rw [top, extreme_circle hd, Vec.dot_add, Vec.dot_mul, ← Vec.normSq, hd, one_mul, add_comm]

/-- A polygon extends as far as one of its vertices, and no vertex is further. -/
theorem top_polygon (p : Polygon ℝ) : ∃ v ∈ p.vertices,
    (polygon p).top t d = d.dot (t.apply v) ∧
      ∀ u ∈ p.vertices, d.dot (t.apply u) ≤ d.dot (t.apply v) := by
  obtain ⟨hmem, hmax⟩ := p.support_mem (t.unrotate d)
  refine ⟨_, hmem, rfl, fun u hu ↦ ?_⟩
  rw [t.dot_apply, t.dot_apply, Vec.dot_comm _ u, Vec.dot_comm _ (p.support _)]
  linarith [hmax u hu]

theorem top_edge (e : Edge ℝ) : ∃ v ∈ [e.start, e.stop], (edge e).top t d = d.dot (t.apply v) ∧
    ∀ u ∈ [e.start, e.stop], d.dot (t.apply u) ≤ d.dot (t.apply v) := by
  obtain ⟨hmem, hmax⟩ := e.support_mem (t.unrotate d)
  refine ⟨_, hmem, rfl, fun u hu ↦ ?_⟩
  rw [t.dot_apply, t.dot_apply, Vec.dot_comm _ u, Vec.dot_comm _ (e.support _)]
  linarith [hmax u hu]

/-! ## Bounding boxes -/

variable {a b : Shape ℝ} {u : Pose ℝ}

/-- No direction separates the two shapes. -/
def Inseparable (a : Shape ℝ) (t : Pose ℝ) (b : Shape ℝ) (u : Pose ℝ) : Prop :=
  ∀ d : Vec ℝ, d.normSq = 1 → 0 ≤ a.top t d + b.top u (-d)

theorem Inseparable.symm (h : Inseparable a t b u) : Inseparable b u a t := by
  intro d hd
  have hneg : (-d).normSq = 1 := (Vec.normSq_neg d).trans hd
  have hnn : -(-d) = d := by
    ext
    · exact neg_neg d.x
    · exact neg_neg d.y
  have := h (-d) hneg
  rw [hnn] at this
  linarith

/-- A box is in order. -/
theorem lower_le_upper_bounds (a : Shape ℝ) (t : Pose ℝ) :
    (a.bounds t).lower.x ≤ (a.bounds t).upper.x ∧ (a.bounds t).lower.y ≤ (a.bounds t).upper.y := by
  simp only [bounds, Box.spanning, Vec.min, Vec.max, Scalar.min_eq, Scalar.max_eq]
  exact ⟨min_le_max, min_le_max⟩

/-- The four sides of a box hold the shape. -/
theorem bounds_top (a : Shape ℝ) (t : Pose ℝ) :
    a.top t ⟨1, 0⟩ ≤ (a.bounds t).upper.x ∧ a.top t ⟨0, 1⟩ ≤ (a.bounds t).upper.y ∧
      (a.bounds t).lower.x ≤ -a.top t ⟨-1, 0⟩ ∧ (a.bounds t).lower.y ≤ -a.top t ⟨0, -1⟩ := by
  simp only [bounds, Box.spanning, Vec.min, Vec.max, Scalar.min_eq, Scalar.max_eq, top, Vec.dot]
  refine ⟨?_, ?_, ?_, ?_⟩
  · refine le_trans (le_of_eq ?_) (le_max_right _ _)
    ring
  · refine le_trans (le_of_eq ?_) (le_max_right _ _)
    ring
  · refine (min_le_left _ _).trans (le_of_eq ?_)
    ring
  · refine (min_le_left _ _).trans (le_of_eq ?_)
    ring

/-- Shapes that no direction separates have boxes that overlap. -/
theorem overlaps_bounds (h : Inseparable a t b u) :
    (a.bounds t).overlaps (b.bounds u) = true := by
  have key : ∀ {a b : Shape ℝ} {t u : Pose ℝ}, Inseparable a t b u →
      (b.bounds u).lower.x ≤ (a.bounds t).upper.x ∧
        (b.bounds u).lower.y ≤ (a.bounds t).upper.y := by
    intro a b t u h
    obtain ⟨hax, hay, -, -⟩ := bounds_top a t
    obtain ⟨-, -, hbx, hby⟩ := bounds_top b u
    have hx := h ⟨1, 0⟩ (by simp [Vec.normSq, Vec.dot])
    have hy := h ⟨0, 1⟩ (by simp [Vec.normSq, Vec.dot])
    have hnx : (-⟨1, 0⟩ : Vec ℝ) = ⟨-1, 0⟩ := by ext <;> simp
    have hny : (-⟨0, 1⟩ : Vec ℝ) = ⟨0, -1⟩ := by ext <;> simp
    rw [hnx] at hx
    rw [hny] at hy
    constructor <;> linarith
  obtain ⟨h₁, h₂⟩ := key h
  obtain ⟨h₃, h₄⟩ := key h.symm
  simp [Box.overlaps, h₁, h₂, h₃, h₄]

end Shape

end PlanarDynamics
