import PlanarDynamics.Proofs.Real.Outline

/-!
# Which vertices make a polygon

`Polygon.ofVertices` returns a polygon with proofs about it.  Its checks are read off here once, as
`Polygon.accept`, which returns the outline of the polygon and needs no proofs: over the real
numbers every vertex is finite, and a polygon is known by its outline.
-/

namespace PlanarDynamics

theorem Scalar.abs_eq (x : ℝ) : Scalar.abs x = |x| := by
  rw [Scalar.abs]
  split
  next h => rw [abs_of_neg h]
  next h => rw [abs_of_nonneg (not_lt.1 h)]

namespace Polygon

open Outline (successive)

variable {vs ws : List (Vec ℝ)} {o : Outline ℝ} {p : Polygon ℝ}

/-! ## Left turns -/

/-- The sides of an outline as vectors. -/
noncomputable def steps (vs : List (Vec ℝ)) : List (Vec ℝ) :=
  (successive vs).map fun e ↦ e.2 - e.1

theorem reflexVertex?_eq (vs : List (Vec ℝ)) : reflexVertex? vs =
    ((successive (steps vs)).zipIdx.find? fun c ↦ !turnsLeft c.1.1 c.1.2).map
      fun c ↦ (c.2 + 1) % vs.length :=
  rfl

theorem reflexVertex?_eq_none_iff : reflexVertex? vs = none ↔
    ∀ c ∈ successive (steps vs), turnsLeft c.1 c.2 = true := by
  rw [reflexVertex?_eq, Option.map_eq_none_iff, List.find?_eq_none]
  constructor
  · intro h c hc
    obtain ⟨i, hi⟩ := List.mem_iff_getElem?.1 hc
    simpa using h _ (List.mk_mem_zipIdx_iff_getElem?.2 hi)
  · intro h c hc
    simpa using h c.1 (List.fst_mem_of_mem_zipIdx hc)

/-! ## Accepted outlines -/

/-- The vertices in counter-clockwise order. -/
noncomputable def ordered (vs : List (Vec ℝ)) : List (Vec ℝ) :=
  if signedArea vs < 0 then vs.reverse else vs

/-- The outline of vertices in counter-clockwise order, if it turns left at each of them. -/
noncomputable def acceptOrdered (vs : List (Vec ℝ)) : Except Error (Outline ℝ) :=
  match sideNormals 0 (successive vs) with
  | .error i => .error (.degenerate (.shortSide i))
  | .ok normals =>
    match reflexVertex? vs with
    | some i => .error (.degenerate (.reflexVertex i))
    | none => .ok ⟨vs, normals⟩

/-- The outline of the polygon with the given vertices. -/
noncomputable def accept (vs : List (Vec ℝ)) : Except Error (Outline ℝ) :=
  if ¬ (3 ≤ vs.length ∧ vs.length ≤ 8) then .error (.degenerate (.vertexCount vs.length))
  else if Scalar.abs (signedArea vs) < 1e-10 then .error (.degenerate .noArea)
  else acceptOrdered (ordered vs)

theorem acceptOrdered_eq_ok_iff : acceptOrdered vs = .ok o ↔ o.vertices = vs ∧
    sideNormals 0 (successive vs) = .ok o.normals ∧ reflexVertex? vs = none := by
  rw [acceptOrdered]
  constructor
  · intro h
    split at h
    · cases h
    next normals hn =>
      split at h
      · cases h
      next hr =>
        cases h
        exact ⟨rfl, hn, hr⟩
  · rintro ⟨rfl, hn, hr⟩
    rw [hn, hr]

theorem accept_eq_ok_iff : accept vs = .ok o ↔ (3 ≤ vs.length ∧ vs.length ≤ 8) ∧
    1e-10 ≤ |signedArea vs| ∧ acceptOrdered (ordered vs) = .ok o := by
  rw [accept, Scalar.abs_eq]
  constructor
  · intro h
    split at h
    · cases h
    next hcount =>
      split at h
      · cases h
      next hlarge => exact ⟨not_not.1 hcount, not_lt.1 hlarge, h⟩
  · rintro ⟨hcount, hlarge, h⟩
    rw [if_neg (not_not.2 hcount), if_neg (not_lt.2 hlarge), h]

theorem map_ofVertices (vs : List (Vec ℝ)) : (ofVertices vs).map (·.toOutline) = accept vs := by
  have hfinite : vs.any (!·.isFinite) = false := by
    rw [List.any_eq_false]
    exact fun v _ ↦ by simp
  unfold ofVertices accept
  split
  · rfl
  rw [hfinite, if_neg Bool.false_ne_true]
  split
  · rfl
  dsimp only
  -- What is matched on also occurs in proofs, so each case is given the name of the ordered list.
  split
  next i hi =>
    have hi : sideNormals 0 (successive (ordered vs)) = .error i := hi
    rw [acceptOrdered, hi]
    rfl
  next normals hn =>
    have hn : sideNormals 0 (successive (ordered vs)) = .ok normals := hn
    rw [acceptOrdered, hn]
    split
    next i hi =>
      have hi : reflexVertex? (ordered vs) = some i := hi
      rw [hi]
      rfl
    next hr =>
      have hr : reflexVertex? (ordered vs) = none := hr
      rw [hr]
      rfl

theorem accept_of_ofVertices (h : ofVertices vs = .ok p) : accept vs = .ok p.toOutline := by
  rw [← map_ofVertices, h]
  rfl

theorem exists_ofVertices_of_accept (h : accept vs = .ok o) :
    ∃ p, ofVertices vs = .ok p ∧ p.toOutline = o := by
  rw [← map_ofVertices] at h
  cases hp : ofVertices vs with
  | error e =>
    rw [hp] at h
    cases h
  | ok p =>
    rw [hp] at h
    exact ⟨p, rfl, Except.ok.inj h⟩

/-- A polygon is known by its outline. -/
theorem map_toOutline_inj {x y : Except Error (Polygon ℝ)}
    (h : x.map (·.toOutline) = y.map (·.toOutline)) : x = y := by
  cases x with
  | error e =>
    cases y with
    | error e' => exact congrArg Except.error (Except.error.inj h)
    | ok q => cases h
  | ok p =>
    cases y with
    | error e' => cases h
    | ok q =>
      have ho : p.toOutline = q.toOutline := Except.ok.inj h
      exact congrArg Except.ok (Polygon.ext (congrArg (·.vertices) ho) (congrArg (·.normals) ho))

theorem ofVertices_eq_of_accept (h : accept vs = accept ws) : ofVertices vs = ofVertices ws :=
  map_toOutline_inj (by rw [map_ofVertices, map_ofVertices, h])

end Polygon

end PlanarDynamics
