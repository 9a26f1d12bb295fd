import PlanarDynamics.Proofs.Real.Orientation

/-!
# The mass of a polygon

Area and inertia of a polygon are sums around its outline, and its centroid comes from a sum over
the triangles seen from the first vertex.  A quantity of sides that changes its sign with their
direction has the same sum over those triangles as around the outline (`Polygon.sum_fan`), so the
centroid is a sum around the outline too, and it makes no difference from which vertex on.

When a polygon is shifted, the term of a side changes by what the law of parallel axes adds up, and
by the difference of some quantity between its two ends.  Around the outline the differences cancel
(`Outline.sum_differences`).  `Polygon.moments_ofVertices` has both results.
-/

namespace PlanarDynamics

/-! ## Sums around an outline -/

namespace Outline

variable {β γ : Type}

theorem sum_add (f g : β → β → ℝ) (l : List β) :
    sum (fun v w ↦ f v w + g v w) l = sum f l + sum g l := by
  rw [sum, List.sum_map_add, ← sum, ← sum]

theorem sum_mul (c : ℝ) (f : β → β → ℝ) (l : List β) :
    sum (fun v w ↦ c * f v w) l = c * sum f l := by
  rw [sum, List.sum_map_mul_left, ← sum]

theorem sum_map (f : γ → γ → ℝ) (g : β → γ) (l : List β) :
    sum f (l.map g) = sum (fun v w ↦ f (g v) (g w)) l := by
  rw [sum, successive_map, List.map_map]
  rfl

/-- Around an outline every vertex is once a start and once an end, so differences cancel. -/
theorem sum_differences (g : β → ℝ) (l : List β) : sum (fun v w ↦ g w - g v) l = 0 := by
  have hlen : (l.rotate 1).length = l.length := l.length_rotate 1
  have hstarts : sum (fun v _ ↦ g v) l = (l.map g).sum := by
    conv_rhs => rw [← List.map_fst_zip hlen.ge, ← successive_eq_zip, List.map_map]
    rfl
  have hends : sum (fun _ w ↦ g w) l = (l.map g).sum := by
    rw [← ((List.rotate_perm l 1).map g).sum_eq]
    conv_rhs => rw [← List.map_snd_zip hlen.le, ← successive_eq_zip, List.map_map]
    rfl
  simp only [sub_eq_add_neg]
  rw [sum_add, sum_neg, hstarts, hends, add_neg_cancel]

theorem sum_eq_of_differences {f f' : β → β → ℝ} (g : β → ℝ)
    (h : ∀ v w, f' v w = f v w + (g w - g v)) (l : List β) : sum f' l = sum f l := by
  have hf : f' = fun v w ↦ f v w + (g w - g v) := by
    funext v w
    exact h v w
  rw [hf, sum_add, sum_differences, add_zero]

end Outline

theorem Vec.add_sub_add (a b t : Vec ℝ) : a + t - (b + t) = a - b := by
  ext
  · simp only [Vec.add_x, Vec.sub_x]
    ring
  · simp only [Vec.add_y, Vec.sub_y]
    ring

theorem Vec.eq_of_dot_eq {a b : Vec ℝ} (h : ∀ d : Vec ℝ, d.dot a = d.dot b) : a = b := by
  ext
  · simpa [Vec.dot] using h ⟨1, 0⟩
  · simpa [Vec.dot] using h ⟨0, 1⟩

namespace Polygon

open Outline (successive)

variable {t : Vec ℝ} {p q : Polygon ℝ}

/-! ## Moments as sums around the outline -/

/-- Six times the first moment along `d` of the triangle of a side and the origin. -/
noncomputable def moment (d v w : Vec ℝ) : ℝ := d.dot (v + w) * v.cross w

/-- Twelve times the second moment about the origin of the triangle of a side and the origin. -/
noncomputable def polar (v w : Vec ℝ) : ℝ := v.cross w * (v.normSq + v.dot w + w.normSq)

theorem secondMoment_eq_sum (p : Polygon ℝ) :
    p.secondMoment = Outline.sum polar p.vertices / 12 :=
  calc p.secondMoment
    _ = (successive p.vertices).foldl (fun sum e ↦ sum + polar e.1 e.2) (0 : ℝ) / 12.0 := rfl
    _ = Outline.sum polar p.vertices / 12 := by
      rw [Outline.foldl_eq_sum]
      norm_num

/-- The triangles of `v` and the sides of a way that starts at `a` make up the closed way that leads
from `v` to `a`, along all those sides, and back. -/
theorem sum_triangles {f : Vec ℝ → Vec ℝ → ℝ} (hf : ∀ v w, f w v = -f v w) (v a : Vec ℝ)
    (l : List (Vec ℝ)) :
    (((a :: l).zip l).map fun e ↦ f v e.1 + f e.1 e.2 + f e.2 v).sum =
      f v a + (((a :: l).zip (l ++ [v])).map fun e ↦ f e.1 e.2).sum := by
  induction l generalizing a with
  | nil => simp [hf v a]
  | cons b l ih =>
    -- The triangle ends with the way from `b` to `v`, and the rest starts with the way back.
    rw [List.zip_cons_cons, List.map_cons, List.sum_cons, ih b, List.cons_append,
      List.zip_cons_cons, List.map_cons, List.sum_cons, hf v b]
    ring

/-- Over the triangles seen from the first vertex, what the sides between them add cancels. -/
theorem sum_fan {f : Vec ℝ → Vec ℝ → ℝ} (hf : ∀ v w, f w v = -f v w) (l : List (Vec ℝ)) :
    ((fan l).map fun t ↦ f t.1 t.2.1 + f t.2.1 t.2.2 + f t.2.2 t.1).sum = Outline.sum f l := by
  cases l with
  | nil => rfl
  | cons v vs =>
    cases vs with
    | nil =>
      have hzero : f v v = 0 := self_eq_neg.1 (hf v v)
      simp [fan, Outline.sum, successive, hzero]
    | cons a vs =>
      simp only [fan, List.tail_cons, List.map_map, Outline.sum, successive, List.cons_append,
        List.zip_cons_cons, List.map_cons, List.sum_cons]
      exact sum_triangles hf v a vs

/-- Sums of vectors and of numbers that are taken together. -/
theorem foldl_sums {β : Type} (m : β → Vec ℝ) (a : β → ℝ) (d : Vec ℝ) (l : List β)
    (s : Vec ℝ × ℝ) :
    d.dot (l.foldl (fun s t ↦ (s.1 + m t, s.2 + a t)) s).1 =
        d.dot s.1 + (l.map fun t ↦ d.dot (m t)).sum ∧
      (l.foldl (fun s t ↦ (s.1 + m t, s.2 + a t)) s).2 = s.2 + (l.map a).sum := by
  induction l generalizing s with
  | nil => simp
  | cons t l ih =>
    obtain ⟨hvec, hnum⟩ := ih (s.1 + m t, s.2 + a t)
    rw [List.foldl_cons, List.map_cons, List.map_cons, List.sum_cons, List.sum_cons]
    refine ⟨hvec.trans ?_, hnum.trans (add_assoc _ _ _)⟩
    rw [Vec.dot_add, add_assoc]

/-- The signed area of a triangle. -/
noncomputable def triangleArea (t : Vec ℝ × Vec ℝ × Vec ℝ) : ℝ :=
  (t.2.1 - t.1).cross (t.2.2 - t.1) / 2.0

/-- The first moment of a triangle. -/
noncomputable def triangleMoment (t : Vec ℝ × Vec ℝ × Vec ℝ) : Vec ℝ :=
  (t.1 + t.2.1 + t.2.2) / (3.0 : ℝ) * triangleArea t

theorem triangleArea_eq (t : Vec ℝ × Vec ℝ × Vec ℝ) : triangleArea t =
    1 / 2 * (t.1.cross t.2.1 + t.2.1.cross t.2.2 + t.2.2.cross t.1) := by
  simp only [triangleArea, Vec.cross, Vec.sub_x, Vec.sub_y]
  norm_num
  ring

theorem dot_triangleMoment (d : Vec ℝ) (t : Vec ℝ × Vec ℝ × Vec ℝ) : d.dot (triangleMoment t) =
    1 / 6 * (moment d t.1 t.2.1 + moment d t.2.1 t.2.2 + moment d t.2.2 t.1) := by
  rw [triangleMoment, triangleArea_eq]
  simp only [moment, Vec.cross, Vec.dot, Vec.mul_x, Vec.mul_y, Vec.div_x, Vec.div_y, Vec.add_x,
    Vec.add_y]
  norm_num
  ring

theorem sum_triangleArea (l : List (Vec ℝ)) : ((fan l).map triangleArea).sum = signedArea l := by
  rw [funext triangleArea_eq, List.sum_map_mul_left,
    sum_fan fun v w ↦ Vec.cross_anticomm w v, signedArea_eq_sum]
  ring

theorem sum_triangleMoment (d : Vec ℝ) (l : List (Vec ℝ)) :
    ((fan l).map fun t ↦ d.dot (triangleMoment t)).sum = Outline.sum (moment d) l / 6 := by
  have hanti : ∀ v w, moment d w v = -moment d v w := fun v w ↦ by
    simp only [moment, Vec.cross, Vec.dot, Vec.add_x, Vec.add_y]
    ring
  rw [funext (dot_triangleMoment d), List.sum_map_mul_left, sum_fan hanti]
  ring

/-- The centroid is the first moment over the area. -/
theorem dot_centroid (p : Polygon ℝ) (d : Vec ℝ) :
    d.dot p.centroid = Outline.sum (moment d) p.vertices / 6 / signedArea p.vertices := by
  have hdiv : ∀ (a : Vec ℝ) (s : ℝ), d.dot (a / s) = d.dot a / s := fun a s ↦ by
    simp only [Vec.dot, Vec.div_x, Vec.div_y]
    ring
  have hzero : d.dot 0 = 0 := by simp [Vec.dot]
  have hfold : p.centroid =
      ((fan p.vertices).foldl (fun s t ↦ (s.1 + triangleMoment t, s.2 + triangleArea t)) (0, 0)).1 /
        ((fan p.vertices).foldl (fun s t ↦ (s.1 + triangleMoment t, s.2 + triangleArea t))
          (0, 0)).2 := rfl
  obtain ⟨hmoment, harea⟩ := foldl_sums triangleMoment triangleArea d (fan p.vertices) (0, 0)
  rw [hfold, hdiv, hmoment, harea, sum_triangleMoment, sum_triangleArea, hzero, zero_add, zero_add]

/-! ## Shifted polygons -/

theorem cross_add_add (v w t : Vec ℝ) :
    (v + t).cross (w + t) = v.cross w + (t.cross w - t.cross v) := by
  simp only [Vec.cross, Vec.add_x, Vec.add_y]
  ring

theorem moment_add_add (d v w t : Vec ℝ) :
    moment d (v + t) (w + t) = moment d v w + 3 * d.dot t * v.cross w +
      ((d.dot w + 2 * d.dot t) * t.cross w - (d.dot v + 2 * d.dot t) * t.cross v) := by
  simp only [moment, Vec.cross, Vec.dot, Vec.add_x, Vec.add_y]
  ring

theorem polar_add_add (v w t : Vec ℝ) :
    polar (v + t) (w + t) = polar v w + (4 * moment t v w + 6 * t.normSq * v.cross w) +
      (polar t (w + t) - polar t (v + t)) := by
  simp only [polar, moment, Vec.normSq, Vec.cross, Vec.dot, Vec.add_x, Vec.add_y]
  ring

theorem signedArea_map_add (vs : List (Vec ℝ)) (t : Vec ℝ) :
    signedArea (vs.map (· + t)) = signedArea vs := by
  rw [signedArea_eq_sum, signedArea_eq_sum, Outline.sum_map,
    Outline.sum_eq_of_differences _ fun v w ↦ cross_add_add v w t]

theorem sum_moment_map_add (d : Vec ℝ) (vs : List (Vec ℝ)) (t : Vec ℝ) :
    Outline.sum (moment d) (vs.map (· + t)) =
      Outline.sum (moment d) vs + 6 * d.dot t * signedArea vs := by
  rw [Outline.sum_map, Outline.sum_eq_of_differences (fun v ↦ (d.dot v + 2 * d.dot t) * t.cross v)
    fun v w ↦ moment_add_add d v w t, Outline.sum_add, Outline.sum_mul, signedArea_eq_sum]
  ring

theorem sum_polar_map_add (vs : List (Vec ℝ)) (t : Vec ℝ) :
    Outline.sum polar (vs.map (· + t)) =
      Outline.sum polar vs + (4 * Outline.sum (moment t) vs + 12 * t.normSq * signedArea vs) := by
  rw [Outline.sum_map, Outline.sum_eq_of_differences (fun v ↦ polar t (v + t))
    fun v w ↦ polar_add_add v w t, Outline.sum_add, Outline.sum_add, Outline.sum_mul,
    Outline.sum_mul, signedArea_eq_sum]
  ring

theorem centroid_of_shifted (hq : q.vertices = p.vertices.map (· + t))
    (harea : signedArea p.vertices ≠ 0) : q.centroid = p.centroid + t := by
  refine Vec.eq_of_dot_eq fun d ↦ ?_
  rw [Vec.dot_add, dot_centroid, dot_centroid, hq, signedArea_map_add, sum_moment_map_add]
  field_simp

theorem secondMoment_of_shifted (hq : q.vertices = p.vertices.map (· + t))
    (harea : signedArea p.vertices ≠ 0) :
    q.secondMoment =
      p.secondMoment + signedArea p.vertices * (2 * t.dot p.centroid + t.normSq) := by
  rw [secondMoment_eq_sum, secondMoment_eq_sum, dot_centroid, hq, sum_polar_map_add]
  field_simp
  ring

end Polygon

/-- Mass data before and after a shift, by the law of parallel axes. -/
structure MassData.Shifted (t : Vec ℝ) (m m' : MassData ℝ) : Prop where
  mass : m'.mass = m.mass
  center : m'.center = m.center + t
  inertia : m'.inertia = m.inertia + m.mass * (2 * t.dot m.center + t.normSq)

/-- The inertia about the center of mass does not depend on where that is. -/
theorem MassData.Shifted.central {t : Vec ℝ} {m m' : MassData ℝ} (h : m.Shifted t m') :
    m'.inertia - m'.mass * m'.center.normSq = m.inertia - m.mass * m.center.normSq := by
  rw [h.mass, h.center, h.inertia]
  simp only [Vec.normSq, Vec.dot, Vec.add_x, Vec.add_y]
  ring

namespace Polygon

variable {vs : List (Vec ℝ)} {t : Vec ℝ} {o : Outline ℝ} {p q : Polygon ℝ}

theorem shifted_massData (hq : q.vertices = p.vertices.map (· + t))
    (harea : 0 < signedArea p.vertices) (density : ℝ) :
    (p.massData density).Shifted t (q.massData density) where
  mass := by
    change q.area * density = p.area * density
    rw [area, area, hq, signedArea_map_add]
  center := centroid_of_shifted hq harea.ne'
  inertia := by
    change q.secondMoment * density = p.secondMoment * density + p.area * density * _
    rw [secondMoment_of_shifted hq harea.ne', area, Scalar.abs_eq, abs_of_pos harea]
    change _ = _ + _ * (2 * t.dot p.centroid + _)
    ring

/-! ## Which lists are accepted -/

theorem sideNormals_map_add (t : Vec ℝ) (i : ℕ) (ends : List (Vec ℝ × Vec ℝ)) :
    sideNormals i (ends.map (Prod.map (· + t) (· + t))) = sideNormals i ends := by
  induction ends generalizing i with
  | nil => rfl
  | cons e ends ih =>
    have hside : sideNormal? (e.1 + t) (e.2 + t) = sideNormal? e.1 e.2 := by
      rw [sideNormal?, Vec.add_sub_add, sideNormal?]
    simp only [List.map_cons, sideNormals, Prod.map, hside, ih]

theorem steps_map_add (vs : List (Vec ℝ)) (t : Vec ℝ) : steps (vs.map (· + t)) = steps vs := by
  rw [steps, Outline.successive_map, List.map_map, steps]
  exact List.map_congr_left fun e _ ↦ Vec.add_sub_add e.2 e.1 t

theorem reflexVertex?_map_add (vs : List (Vec ℝ)) (t : Vec ℝ) :
    reflexVertex? (vs.map (· + t)) = reflexVertex? vs := by
  rw [reflexVertex?_eq, reflexVertex?_eq, steps_map_add, List.length_map]

theorem acceptOrdered_map_add (vs : List (Vec ℝ)) (t : Vec ℝ) :
    acceptOrdered (vs.map (· + t)) =
      (acceptOrdered vs).map fun o ↦ ⟨o.vertices.map (· + t), o.normals⟩ := by
  rw [acceptOrdered, acceptOrdered, Outline.successive_map, sideNormals_map_add,
    reflexVertex?_map_add]
  cases sideNormals 0 (Outline.successive vs) with
  | error i => rfl
  | ok normals => cases reflexVertex? vs <;> rfl

theorem ordered_map_add (vs : List (Vec ℝ)) (t : Vec ℝ) :
    ordered (vs.map (· + t)) = (ordered vs).map (· + t) := by
  rw [ordered, signedArea_map_add, ordered]
  split
  · exact List.map_reverse.symm
  · rfl

/-- A shifted list gives the shifted polygon, or the same error. -/
theorem accept_map_add (vs : List (Vec ℝ)) (t : Vec ℝ) :
    accept (vs.map (· + t)) = (accept vs).map fun o ↦ ⟨o.vertices.map (· + t), o.normals⟩ := by
  rw [accept, accept, List.length_map, signedArea_map_add, ordered_map_add, acceptOrdered_map_add]
  split
  · rfl
  split
  · rfl
  · rfl

theorem acceptOrdered_rotate (h : acceptOrdered vs = .ok o) (k : ℕ) :
    acceptOrdered (vs.rotate k) = .ok ⟨o.vertices.rotate k, o.normals.rotate k⟩ := by
  obtain ⟨rfl, hnormals, hreflex⟩ := acceptOrdered_eq_ok_iff.1 h
  have hlen := length_of_sideNormals hnormals
  have hnormals' : sideNormals 0 (Outline.successive (o.vertices.rotate k)) =
      .ok (o.normals.rotate k) := by
    rw [Outline.successive_rotate]
    refine sideNormals_of_forall 0 (by rw [List.length_rotate, List.length_rotate, hlen]) ?_
    intro c hc
    rw [List.zip, ← List.zipWith_rotate_distrib _ _ _ _ hlen.symm, List.mem_rotate] at hc
    exact sideNormal?_of_mem hnormals hc
  have hreflex' : reflexVertex? (o.vertices.rotate k) = none := by
    rw [reflexVertex?_eq_none_iff] at hreflex ⊢
    intro c hc
    rw [steps, Outline.successive_rotate, List.map_rotate, Outline.successive_rotate,
      List.mem_rotate] at hc
    exact hreflex c hc
  exact acceptOrdered_eq_ok_iff.2 ⟨rfl, hnormals', hreflex'⟩

theorem signedArea_rotate (vs : List (Vec ℝ)) (k : ℕ) :
    signedArea (vs.rotate k) = signedArea vs := by
  rw [signedArea_eq_sum, signedArea_eq_sum, Outline.sum_rotate]

theorem exists_ordered_rotate (vs : List (Vec ℝ)) (k : ℕ) :
    ∃ j, ordered (vs.rotate k) = (ordered vs).rotate j := by
  rw [ordered, signedArea_rotate, ordered]
  split
  · exact ⟨_, List.reverse_rotate vs k⟩
  · exact ⟨k, rfl⟩

/-- An accepted list is accepted from any of its vertices on. -/
theorem exists_accept_rotate (h : accept vs = .ok o) (k : ℕ) :
    ∃ j, accept (vs.rotate k) = .ok ⟨o.vertices.rotate j, o.normals.rotate j⟩ := by
  obtain ⟨hcount, hlarge, h⟩ := accept_eq_ok_iff.1 h
  obtain ⟨j, hj⟩ := exists_ordered_rotate vs k
  refine ⟨j, accept_eq_ok_iff.2 ⟨?_, ?_, ?_⟩⟩
  · rwa [List.length_rotate]
  · rwa [signedArea_rotate]
  · rw [hj]
    exact acceptOrdered_rotate h j

/-! ## The law of parallel axes -/

theorem massData_of_rotated (hq : q.vertices ~r p.vertices) (density : ℝ) :
    q.massData density = p.massData density := by
  obtain ⟨k, hk⟩ := hq.symm
  have harea : signedArea q.vertices = signedArea p.vertices := by rw [← hk, signedArea_rotate]
  have hcentroid : q.centroid = p.centroid := Vec.eq_of_dot_eq fun d ↦ by
    rw [dot_centroid, dot_centroid, harea, ← hk, Outline.sum_rotate]
  have hsecond : q.secondMoment = p.secondMoment := by
    rw [secondMoment_eq_sum, secondMoment_eq_sum, ← hk, Outline.sum_rotate]
  rw [massData, area, harea, hcentroid, hsecond, massData, area]

/-- A list of vertices that is accepted is also accepted after a shift, and from any other of its
vertices on.  A shift changes the mass data of the polygon by the law of parallel axes, and where
the list starts does not change them. -/
theorem moments_ofVertices (h : ofVertices vs = .ok p) (density : ℝ) :
    (∀ t : Vec ℝ, ∃ q, ofVertices (vs.map (· + t)) = .ok q ∧
        q.toOutline = ⟨p.vertices.map (· + t), p.normals⟩ ∧
        (p.massData density).Shifted t (q.massData density) ∧
        q.centralInertia density = p.centralInertia density) ∧
      ∀ k : ℕ, ∃ q, ofVertices (vs.rotate k) = .ok q ∧ q.vertices ~r p.vertices ∧
        q.massData density = p.massData density ∧
        q.centralInertia density = p.centralInertia density := by
  have haccept := accept_of_ofVertices h
  constructor
  · intro t
    have hshift := accept_map_add vs t
    rw [haccept] at hshift
    obtain ⟨q, hq, ho⟩ := exists_ofVertices_of_accept hshift
    have hv : q.vertices = p.vertices.map (· + t) := congrArg Outline.vertices ho
    have harea : 0 < signedArea p.vertices := lt_of_lt_of_le (by norm_num) (signedArea_ofVertices h)
    have hm := shifted_massData hv harea density
    refine ⟨q, hq, ho, hm, ?_⟩
    rw [centralInertia, hm.central, centralInertia]
  · intro k
    obtain ⟨j, hj⟩ := exists_accept_rotate haccept k
    obtain ⟨q, hq, ho⟩ := exists_ofVertices_of_accept hj
    have hv : q.vertices ~r p.vertices := by
      rw [ho]
      exact List.IsRotated.forall p.vertices j
    have hm := massData_of_rotated hv density
    refine ⟨q, hq, hv, hm, ?_⟩
    rw [centralInertia, hm, centralInertia]

theorem moments_triangle : ∃ p q r : Polygon ℝ,
    ofVertices [⟨0, 0⟩, ⟨4, 0⟩, ⟨0, 3⟩] = .ok p ∧ p.massData 1 = ⟨6, ⟨4 / 3, 1⟩, 25⟩ ∧
    ofVertices [⟨1, 2⟩, ⟨5, 2⟩, ⟨1, 5⟩] = .ok q ∧ q.massData 1 = ⟨6, ⟨7 / 3, 3⟩, 95⟩ ∧
    ofVertices [⟨4, 0⟩, ⟨0, 3⟩, ⟨0, 0⟩] = .ok r ∧ r.massData 1 = ⟨6, ⟨4 / 3, 1⟩, 25⟩ ∧
    q.centralInertia 1 = p.centralInertia 1 ∧ r.centralInertia 1 = p.centralInertia 1 := by
  obtain ⟨p, hp, ho⟩ := exists_triangle
  have hm : p.massData 1 = ⟨6, ⟨4 / 3, 1⟩, 25⟩ := by
    have hv : p.vertices = [⟨0, 0⟩, ⟨4, 0⟩, ⟨0, 3⟩] := congrArg Outline.vertices ho
    ext <;> norm_num [massData, area, centroid, secondMoment, signedArea, fan, Outline.successive,
      hv, Scalar.abs, Vec.cross, Vec.dot, Vec.normSq]
  obtain ⟨hshift, hrotate⟩ := moments_ofVertices hp 1
  obtain ⟨q, hq, -, hqm, hqc⟩ := hshift ⟨1, 2⟩
  obtain ⟨r, hr, -, hrm, hrc⟩ := hrotate 1
  rw [hm] at hqm hrm
  have hlist : [⟨0, 0⟩, ⟨4, 0⟩, ⟨0, 3⟩].map (· + (⟨1, 2⟩ : Vec ℝ)) =
      [⟨1, 2⟩, ⟨5, 2⟩, ⟨1, 5⟩] := by
    simp only [List.map_cons, List.map_nil, List.cons.injEq, Vec.ext_iff, Vec.add_x, Vec.add_y]
    norm_num
  rw [hlist] at hq
  refine ⟨p, q, r, hp, hm, hq, MassData.ext hqm.mass ?_ ?_, hr, hrm, hqc, hrc⟩
  · rw [hqm.center]
    ext <;> norm_num
  · rw [hqm.inertia]
    norm_num [Vec.dot, Vec.normSq]

end Polygon

end PlanarDynamics
