import PlanarDynamics.Proofs.Real.Bounds

/-!
# The order of the vertices of a polygon

`Polygon.ofVertices` takes vertices in either order.  The signed area is a sum around the outline,
and backwards around it each term changes its sign.  So of a list and its reverse one has a positive
area, and that one is what every later check sees: `Polygon.oriented_ofVertices`.
-/

namespace PlanarDynamics

/-! ## Sums around an outline -/

namespace Outline

variable {β : Type}

theorem successive_rotate (l : List β) (k : ℕ) :
    successive (l.rotate k) = (successive l).rotate k := by
  have hlen : l.length = (l.rotate 1).length := (l.length_rotate 1).symm
  rw [successive_eq_zip, successive_eq_zip, List.rotate_rotate, Nat.add_comm, ← List.rotate_rotate]
  exact (List.zipWith_rotate_distrib Prod.mk l (l.rotate 1) k hlen).symm

/-- Backwards, each vertex is followed by the one that it follows. -/
theorem successive_reverse (l : List β) :
    successive l.reverse = ((successive l).map Prod.swap).reverse.rotate 1 := by
  have hback : (l.rotate 1).reverse.rotate 1 = l.reverse := by
    cases l with
    | nil => rfl
    | cons v vs => simp
  have hlen : (l.rotate 1).length = l.length := l.length_rotate 1
  have hlen' : (l.rotate 1).reverse.length = l.reverse.length := by
    rw [List.length_reverse, List.length_reverse, hlen]
  rw [successive_eq_zip, successive_eq_zip, List.zip_swap, List.zip, List.reverse_zipWith hlen,
    List.zipWith_rotate_distrib _ _ _ _ hlen', hback]

/-- The sum of a quantity over the sides of a closed outline. -/
noncomputable def sum (f : β → β → ℝ) (l : List β) : ℝ :=
  ((successive l).map fun e ↦ f e.1 e.2).sum

theorem foldl_eq_sum (f : β → β → ℝ) (l : List β) :
    (successive l).foldl (fun s e ↦ s + f e.1 e.2) 0 = sum f l := by
  rw [sum, List.sum_eq_foldl, List.foldl_map]

theorem sum_neg (f : β → β → ℝ) (l : List β) : sum (fun v w ↦ -f v w) l = -sum f l := by
  rw [sum, sum, List.sum_neg, List.map_map]
  rfl

theorem sum_rotate (f : β → β → ℝ) (l : List β) (k : ℕ) : sum f (l.rotate k) = sum f l := by
  rw [sum, successive_rotate, sum]
  exact ((List.rotate_perm _ k).map _).sum_eq

theorem sum_reverse (f : β → β → ℝ) (l : List β) :
    sum f l.reverse = sum (fun v w ↦ f w v) l := by
  have hperm : (successive l.reverse).Perm ((successive l).map Prod.swap) := by
    rw [successive_reverse]
    exact (List.rotate_perm _ 1).trans (List.reverse_perm _)
  rw [sum, (hperm.map _).sum_eq, List.map_map]
  rfl

end Outline

/-! ## Signed areas -/

namespace Polygon

variable {vs : List (Vec ℝ)} {p : Polygon ℝ}

theorem signedArea_eq_sum (vs : List (Vec ℝ)) : signedArea vs = Outline.sum Vec.cross vs / 2 :=
  calc signedArea vs
    _ = (Outline.successive vs).foldl (fun area e ↦ area + e.1.cross e.2) (0 : ℝ) / 2.0 := rfl
    _ = Outline.sum Vec.cross vs / 2 := by
      rw [Outline.foldl_eq_sum]
      norm_num

theorem signedArea_reverse (vs : List (Vec ℝ)) : signedArea vs.reverse = -signedArea vs := by
  have hneg : (fun v w : Vec ℝ ↦ w.cross v) = fun v w ↦ -v.cross w := by
    funext v w
    exact Vec.cross_anticomm w v
  rw [signedArea_eq_sum, signedArea_eq_sum, Outline.sum_reverse, hneg, Outline.sum_neg, neg_div]

/-! ## Either order -/

theorem ordered_eq_or (vs : List (Vec ℝ)) : ordered vs = vs ∨ ordered vs = vs.reverse := by
  rw [ordered]
  split
  · exact .inr rfl
  · exact .inl rfl

theorem signedArea_ordered (vs : List (Vec ℝ)) : signedArea (ordered vs) = |signedArea vs| := by
  rw [ordered]
  split
  next h => rw [signedArea_reverse, abs_of_neg h]
  next h => rw [abs_of_nonneg (not_lt.1 h)]

theorem ordered_reverse (h : signedArea vs ≠ 0) : ordered vs.reverse = ordered vs := by
  rw [ordered, ordered, signedArea_reverse, List.reverse_reverse]
  obtain hneg | hpos := lt_or_gt_of_ne h
  · rw [if_pos hneg, if_neg (neg_pos.2 hneg).not_gt]
  · rw [if_pos (neg_neg_of_pos hpos), if_neg hpos.not_gt]

theorem accept_reverse (vs : List (Vec ℝ)) : accept vs.reverse = accept vs := by
  have habs : |signedArea vs.reverse| = |signedArea vs| := by rw [signedArea_reverse, abs_neg]
  rw [accept, accept, List.length_reverse, Scalar.abs_eq, Scalar.abs_eq, habs]
  by_cases hsmall : |signedArea vs| < 1e-10
  · rw [if_pos hsmall, if_pos hsmall]
  · -- An area that is not small has a sign, so one of the two orders is taken for both.
    have hne : signedArea vs ≠ 0 := by
      intro hzero
      rw [hzero, abs_zero] at hsmall
      exact hsmall (by norm_num)
    rw [ordered_reverse hne]

theorem accept_ordered (vs : List (Vec ℝ)) : accept (ordered vs) = accept vs := by
  obtain h | h := ordered_eq_or vs
  · rw [h]
  · rw [h, accept_reverse]

theorem vertices_ofVertices (h : ofVertices vs = .ok p) : p.vertices = ordered vs :=
  (acceptOrdered_eq_ok_iff.1 (accept_eq_ok_iff.1 (accept_of_ofVertices h)).2.2).1

theorem signedArea_ofVertices (h : ofVertices vs = .ok p) : 1e-10 ≤ signedArea p.vertices := by
  rw [vertices_ofVertices h, signedArea_ordered]
  exact (accept_eq_ok_iff.1 (accept_of_ofVertices h)).2.1

/-! ## Normals -/

/-- The unit normal on the right of the way from `v` to `w`. -/
structure IsRightNormal (v w n : Vec ℝ) : Prop where
  unit : n.normSq = 1
  square : (w - v).dot n = 0
  right : (w - v).cross n < 0

theorem isRightNormal_of_sideNormal? {v w n : Vec ℝ} (h : sideNormal? v w = some n) :
    IsRightNormal v w n := by
  obtain ⟨hn, k, hk, hrun⟩ := sideNormal?_eq_some h
  refine ⟨hn, ?_, ?_⟩
  · rw [hrun, Vec.dot_comm, Vec.dot_mul, Vec.dot_perp, Vec.cross_self, zero_mul]
  · have hcross : (n.perp * k).cross n = -(n.normSq * k) := by
      simp only [Vec.cross, Vec.perp, Vec.mul_x, Vec.mul_y, Vec.normSq, Vec.dot]
      ring
    rw [hrun, hcross, hn, one_mul]
    exact neg_neg_of_pos hk

/-- A list of vertices and its reverse give the same polygon or the same error.  The vertices of
the polygon are one of the two, those with a positive area around them; each normal is on the right
of its side; and from its own vertices the polygon is made again. -/
theorem oriented_ofVertices (vs : List (Vec ℝ)) :
    ofVertices vs.reverse = ofVertices vs ∧
      ∀ p, ofVertices vs = .ok p →
        (p.vertices = vs ∨ p.vertices = vs.reverse) ∧ 0 < signedArea p.vertices ∧
        (∀ i < p.vertices.length, ∃ v w n, p.vertices[i]? = some v ∧
          p.vertices[(i + 1) % p.vertices.length]? = some w ∧ p.normals[i]? = some n ∧
          IsRightNormal v w n) ∧
        ofVertices p.vertices = .ok p := by
  refine ⟨ofVertices_eq_of_accept (accept_reverse vs), fun p hp ↦ ?_⟩
  have hv := vertices_ofVertices hp
  refine ⟨?_, ?_, fun i hi ↦ ?_, ?_⟩
  · rw [hv]
    exact ordered_eq_or vs
  · exact lt_of_lt_of_le (by norm_num) (signedArea_ofVertices hp)
  · have hnext : (i + 1) % p.vertices.length < p.vertices.length := Nat.mod_lt _ (by omega)
    have hnormal : i < p.normals.length := by rw [p.length_normals]; exact hi
    refine ⟨_, _, _, List.getElem?_eq_getElem hi, List.getElem?_eq_getElem hnext,
      List.getElem?_eq_getElem hnormal, isRightNormal_of_sideNormal? ?_⟩
    refine sideNormal?_of_mem (ofVertices_eq_ok hp).1 (List.mem_iff_getElem?.2 ⟨i, ?_⟩)
    rw [Outline.successive_eq_zip]
    simp [List.getElem?_zip_eq_some, hi]
  · rw [← hp, hv]
    exact ofVertices_eq_of_accept (accept_ordered vs)

/-- A triangle with sides of the lengths 4, 5 and 3. -/
theorem exists_triangle : ∃ p : Polygon ℝ, ofVertices [⟨0, 0⟩, ⟨4, 0⟩, ⟨0, 3⟩] = .ok p ∧
    p.toOutline = ⟨[⟨0, 0⟩, ⟨4, 0⟩, ⟨0, 3⟩], [⟨0, -1⟩, ⟨3 / 5, 4 / 5⟩, ⟨-1, 0⟩]⟩ := by
  refine exists_ofVertices _ _ (by decide) rfl ?_ ?_ ?_
  · norm_num [signedArea, Outline.successive, Vec.cross]
  · simp only [Outline.successive, List.cons_append, List.nil_append, List.zip_cons_cons,
      List.zip_nil_left, List.forall_mem_cons]
    refine ⟨sideNormal?_eq 4 ?_ ?_ ?_ ?_, sideNormal?_eq 5 ?_ ?_ ?_ ?_,
      sideNormal?_eq 3 ?_ ?_ ?_ ?_, by simp⟩
    all_goals norm_num
  · norm_num [Outline.successive, Vec.cross]

/-- A clockwise triangle is turned around. -/
theorem oriented_triangle : ∃ p : Polygon ℝ, ofVertices [⟨0, 3⟩, ⟨4, 0⟩, ⟨0, 0⟩] = .ok p ∧
    p.vertices = [⟨0, 0⟩, ⟨4, 0⟩, ⟨0, 3⟩] ∧ 0 < signedArea p.vertices ∧
    (∃ v w n, p.vertices[1]? = some v ∧ p.vertices[2]? = some w ∧ p.normals[1]? = some n ∧
      IsRightNormal v w n) ∧
    ofVertices p.vertices = .ok p := by
  obtain ⟨p, hp, ho⟩ := exists_triangle
  have hv : p.vertices = [⟨0, 0⟩, ⟨4, 0⟩, ⟨0, 3⟩] := congrArg Outline.vertices ho
  have hok : ofVertices [⟨0, 3⟩, ⟨4, 0⟩, ⟨0, 0⟩] = .ok p :=
    (oriented_ofVertices [⟨0, 0⟩, ⟨4, 0⟩, ⟨0, 3⟩]).1.trans hp
  obtain ⟨-, harea, hnormals, hself⟩ := (oriented_ofVertices _).2 p hok
  refine ⟨p, hok, hv, harea, ?_, hself⟩
  have h := hnormals 1 (by rw [hv]; decide)
  rwa [hv] at h ⊢

end Polygon

end PlanarDynamics
