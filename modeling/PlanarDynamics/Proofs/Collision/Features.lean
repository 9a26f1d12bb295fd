import PlanarDynamics.Proofs.Real.Region
import PlanarDynamics.Proofs.Collision.Cut

/-!
# Contact points are told apart

A contact point is known from step to step by the two features that make it, packed into one word.
The word determines the features, `FeaturePair.key_inj`.  A cut gives the point that it makes the
reference vertex that it was made at, and the two cuts are made at different vertices; so the points
of a manifold have different features whatever arithmetic does, and
`Collision.labelled_polygons_edgePolygon` says what they are.
-/

namespace PlanarDynamics

/-! ## Packed features -/

theorem Feature.code_lt (f : Feature) : f.code.toNat < 2 ^ 8 := by
  cases f <;> decide

theorem Feature.code_inj {f g : Feature} (h : f.code.toNat = g.code.toNat) : f = g := by
  cases f <;> cases g
  case vertex.vertex | face.face => rfl
  case vertex.face | face.vertex => exact absurd h (by decide)

namespace FeaturePair

/-- A word that ends in `i` zeros, joined with one of at most `i` digits, is their sum. -/
theorem or_shiftLeft {a i : Nat} (h : a < 2 ^ i) (b : Nat) : a ||| b <<< i = a + b * 2 ^ i := by
  rw [Nat.or_comm, ← Nat.shiftLeft_add_eq_or_of_lt h, Nat.shiftLeft_eq, Nat.add_comm]

/-- A byte moved up by at most three bytes loses nothing. -/
theorem toNat_shiftLeft_byte {a k : UInt32} (h : a.toNat < 2 ^ 8) (hk : k.toNat ≤ 24) :
    (a <<< k).toNat = a.toNat <<< k.toNat := by
  have hpow : 2 ^ k.toNat ≤ 2 ^ 24 := Nat.pow_le_pow_right (by decide) hk
  have hlt : a.toNat * 2 ^ k.toNat < 2 ^ 32 := by
    calc a.toNat * 2 ^ k.toNat
      _ < 2 ^ 8 * 2 ^ 24 := Nat.mul_lt_mul_of_lt_of_le h hpow (by decide)
      _ = 2 ^ 32 := by decide
  rw [UInt32.toNat_shiftLeft, Nat.mod_eq_of_lt (by omega : k.toNat < 32), Nat.shiftLeft_eq,
    Nat.mod_eq_of_lt hlt]

theorem toNat_key (id : FeaturePair) : id.key.toNat =
    id.indexA.toNat + id.indexB.toNat * 2 ^ 8 + id.featureA.code.toNat * 2 ^ 16
      + id.featureB.code.toNat * 2 ^ 24 := by
  have hA := id.indexA.toNat_lt
  have hB : id.indexB.toUInt32.toNat < 2 ^ 8 := id.indexB.toNat_lt
  have hfA := id.featureA.code_lt
  have hfB := id.featureB.code_lt
  have hbytes : id.key.toNat = id.indexA.toNat ||| id.indexB.toNat <<< 8
      ||| id.featureA.code.toNat <<< 16 ||| id.featureB.code.toNat <<< 24 := by
    rw [key, UInt32.toNat_or, UInt32.toNat_or, UInt32.toNat_or, toNat_shiftLeft_byte hB (by decide),
      toNat_shiftLeft_byte hfA (by decide), toNat_shiftLeft_byte hfB (by decide)]
    rfl
  rw [UInt8.toNat_toUInt32] at hB
  have hindices : id.indexA.toNat + id.indexB.toNat * 2 ^ 8 < 2 ^ 16 := by omega
  have hthree : id.indexA.toNat + id.indexB.toNat * 2 ^ 8 + id.featureA.code.toNat * 2 ^ 16 <
      2 ^ 24 := by
    omega
  rw [hbytes, or_shiftLeft hA, or_shiftLeft hindices, or_shiftLeft hthree]

/-- Each part of a pair has a byte of its own in the key. -/
theorem key_inj {a b : FeaturePair} : a.key = b.key ↔ a = b := by
  refine ⟨fun h ↦ ?_, congrArg key⟩
  have hkey := congrArg UInt32.toNat h
  rw [toNat_key, toNat_key] at hkey
  have hA := a.indexA.toNat_lt
  have hB := a.indexB.toNat_lt
  have hA' := b.indexA.toNat_lt
  have hB' := b.indexB.toNat_lt
  have hf := a.featureA.code_lt
  have hf' := b.featureA.code_lt
  ext1
  · exact UInt8.toNat_inj.mp (by omega)
  · exact Feature.code_inj (by omega)
  · exact UInt8.toNat_inj.mp (by omega)
  · exact Feature.code_inj (by omega)

theorem swap_inj {a b : FeaturePair} : a.swap = b.swap ↔ a = b :=
  ⟨fun h ↦ congrArg swap h, congrArg swap⟩

/-- The pair is a side of one shape and a vertex of the other, where the first shape has `k` sides
and vertices and the second has `n`. -/
structure Names (k n : Nat) (id : FeaturePair) : Prop where
  features : id.featureA = .face ∧ id.featureB = .vertex ∨
    id.featureA = .vertex ∧ id.featureB = .face
  indexA_lt : id.indexA.toNat < k
  indexB_lt : id.indexB.toNat < n

theorem Names.swap {k n : Nat} {id : FeaturePair} (h : id.Names k n) : id.swap.Names n k where
  features := h.features.symm.imp And.symm And.symm
  indexA_lt := h.indexB_lt
  indexB_lt := h.indexA_lt

end FeaturePair

/-! ## Manifolds as they are made -/

namespace Manifold

variable {α : Type} [Scalar α]

/-- The points have different keys and no impulses yet. -/
structure Pristine (m : Manifold α) : Prop where
  distinct : m.points.Pairwise fun p q ↦ p.id.key ≠ q.id.key
  unloaded : ∀ p ∈ m.points, p.normalImpulse = 0 ∧ p.tangentImpulse = 0

/-- The points are as they are made by two shapes with `k` and `n` vertices. -/
structure Labelled (k n : Nat) (m : Manifold α) : Prop extends m.Pristine where
  names : ∀ p ∈ m.points, p.id.Names k n

theorem labelled_of_isEmpty {m : Manifold α} (h : m.isEmpty = true) (k n : Nat) :
    m.Labelled k n := by
  have hnone := points_of_isEmpty h
  refine ⟨⟨?_, ?_⟩, ?_⟩ <;> rw [hnone]
  · exact .nil
  · exact nofun
  · exact nofun

end Manifold

/-! ## Cuts -/

namespace Collision

variable {α : Type} [Scalar α]

section Cut

variable {p q p' q' : ClipPoint α} {d : Vec α} {l : α} {i j k n : Nat}

/-- What holds of the ends of a segment and of the point made by a cut holds of what is left. -/
theorem Cut.both {P : ClipPoint α → Prop} (h : Cut p q d l i p' q') (hp : P p) (hq : P q)
    (hcrossing : P (p.crossing q d l i)) : P p' ∧ P q' := by
  cases h with
  | whole => exact ⟨hp, hq⟩
  | start => exact ⟨hp, hcrossing⟩
  | stop => exact ⟨hq, hcrossing⟩

/-- The reference vertex that a point is made at. -/
def ClipPoint.MadeAt (i : Nat) (p : ClipPoint α) : Prop :=
  p.id.featureA = .vertex ∧ p.id.indexA = i.toUInt8

omit [Scalar α] in
theorem not_madeAt_of_face (h : p.id.featureA = .face) : ¬ p.MadeAt i :=
  fun hm ↦ absurd (h.symm.trans hm.1) (by decide)

/-- Points that are told apart are so after a cut at another vertex than they were made at. -/
theorem Cut.id_ne (h : Cut p q d l i p' q') (hne : p.id ≠ q.id) (hp : ¬ p.MadeAt i)
    (hq : ¬ q.MadeAt i) : p'.id ≠ q'.id := by
  have hcrossing : (p.crossing q d l i).MadeAt i := ⟨rfl, rfl⟩
  cases h with
  | whole => exact hne
  | start =>
    intro heq
    rw [ClipPoint.MadeAt, ← heq] at hcrossing
    exact hp hcrossing
  | stop =>
    intro heq
    rw [ClipPoint.MadeAt, ← heq] at hcrossing
    exact hq hcrossing

theorem Cut.not_madeAt (h : Cut p q d l i p' q') (hij : i.toUInt8 ≠ j.toUInt8)
    (hp : ¬ p.MadeAt j) (hq : ¬ q.MadeAt j) : ¬ p'.MadeAt j ∧ ¬ q'.MadeAt j :=
  h.both (P := fun c ↦ ¬ c.MadeAt j) hp hq fun hx ↦ hij hx.2

theorem Cut.names (h : Cut p q d l i p' q') (hi : i.toUInt8.toNat < k) (hp : p.id.Names k n)
    (hq : q.id.Names k n) : p'.id.Names k n ∧ q'.id.Names k n :=
  h.both (P := fun c ↦ c.id.Names k n) hp hq ⟨.inr ⟨rfl, rfl⟩, hi, hp.indexB_lt⟩

end Cut

theorem toNat_toUInt8 {i : Nat} (hi : i < 256) : i.toUInt8.toNat = i :=
  UInt8.toNat_ofNat_of_lt hi

variable {o o' : Outline α} {t u : Pose α}

/-- The outline has at least two vertices, and no more than a byte can number. -/
structure Numbered (o : Outline α) : Prop where
  two_le : 2 ≤ o.vertices.length
  le : o.vertices.length ≤ 256

omit [Scalar α] in
theorem Numbered.index {s : Side α} (h : Numbered o) (hs : s ∈ o.sides) :
    s.index.toUInt8.toNat < o.vertices.length ∧ s.next.toUInt8.toNat < o.vertices.length ∧
      s.index.toUInt8 ≠ s.next.toUInt8 := by
  have hi := (Outline.index_of_mem_sides hs).1
  have hn := Outline.next_lt_of_mem_sides hs
  have hle := h.le
  have hne := Outline.index_ne_next hs h.two_le
  rw [Ne, ← UInt8.toNat_inj, toNat_toUInt8 (by omega), toNat_toUInt8 (by omega)]
  exact ⟨hi, hn, hne⟩

/-- The two points that remain of a side have features of their own. -/
theorem Remains.names {s e : Side α} {p q : ClipPoint α} (ho : Numbered o) (ho' : Numbered o')
    (hs : s ∈ o.sides) (h : Remains s t o' u e p q) :
    p.id.Names o.vertices.length o'.vertices.length ∧
      q.id.Names o.vertices.length o'.vertices.length ∧ p.id ≠ q.id := by
  obtain ⟨p', q', hfirst, hsecond⟩ := h.cuts
  obtain ⟨hsi, hsn, hsne⟩ := ho.index hs
  obtain ⟨hei, hen, hene⟩ := ho'.index (mem_of_incidentSide? h.incident)
  -- At first both points are vertices of the incident side against the reference side.
  obtain ⟨hp', hq'⟩ := hfirst.names hsi ⟨.inl ⟨rfl, rfl⟩, hsi, hei⟩ ⟨.inl ⟨rfl, rfl⟩, hsi, hen⟩
  obtain ⟨hp, hq⟩ := hsecond.names hsn hp' hq'
  have hne' := hfirst.id_ne (fun h ↦ hene (congrArg FeaturePair.indexB h))
    (not_madeAt_of_face rfl) (not_madeAt_of_face rfl)
  obtain ⟨hmp, hmq⟩ := hfirst.not_madeAt hsne (not_madeAt_of_face rfl)
    (not_madeAt_of_face rfl)
  exact ⟨hp, hq, hsecond.id_ne hne' hmp hmq⟩

/-- The points made with one reference side. -/
theorem labelled_clipAgainst {s : Side α} {kind : ManifoldKind}
    {label : FeaturePair → FeaturePair} {k n : Nat} (ho : Numbered o) (ho' : Numbered o')
    (hs : s ∈ o.sides) (hinj : ∀ {i j}, label i = label j ↔ i = j)
    (hlabel : ∀ {i : FeaturePair}, i.Names o.vertices.length o'.vertices.length →
      (label i).Names k n) :
    (clipAgainst s t o' u kind label).Labelled k n := by
  cases hempty : (clipAgainst s t o' u kind label).isEmpty with
  | true => exact Manifold.labelled_of_isEmpty hempty k n
  | false =>
    obtain ⟨e, p, q, hremains, -, hpoints⟩ := exists_remains hempty
    obtain ⟨hp, hq, hne⟩ := hremains.names ho ho' hs
    have hpair : [p, q].Pairwise fun c c' ↦ (label c.id).key ≠ (label c'.id).key := by
      rw [List.pairwise_pair, Ne, FeaturePair.key_inj, hinj]
      exact hne
    refine ⟨⟨?_, ?_⟩, ?_⟩ <;> rw [hpoints]
    · exact List.pairwise_map.mpr (hpair.filter _)
    · rw [List.forall_mem_map]
      exact fun _ _ ↦ ⟨rfl, rfl⟩
    · rw [List.forall_mem_map]
      intro c hc
      have hc := List.mem_of_mem_filter hc
      rw [List.mem_pair] at hc
      rcases hc with rfl | rfl
      · exact hlabel hp
      · exact hlabel hq

theorem labelled_outlines (ho : Numbered o) (ho' : Numbered o') :
    (outlines o t o' u).Labelled o.vertices.length o'.vertices.length := by
  have hnone := Manifold.labelled_of_isEmpty (α := α) (m := .empty) rfl
    o.vertices.length o'.vertices.length
  rw [outlines]
  split
  next s m s' m' hsep hsep' =>
    split
    · exact hnone
    split
    · exact hnone
    split
    · exact labelled_clipAgainst ho' ho (mem_of_greatestSeparation? hsep') FeaturePair.swap_inj
        FeaturePair.Names.swap
    · exact labelled_clipAgainst ho ho' (mem_of_greatestSeparation? hsep) Iff.rfl id
  next => exact hnone

omit [Scalar α] in
theorem numbered_polygon (a : Polygon α) : Numbered a.toOutline :=
  ⟨Nat.le_of_succ_le a.three_le_length, a.length_le_eight.trans (by decide)⟩

theorem length_outline? {e : Edge α} (h : e.outline? = some o) : o.vertices.length = 2 := by
  obtain ⟨n, -, rfl⟩ := Option.map_eq_some_iff.mp h
  rfl

theorem labelled_edgePolygon (e : Edge α) (b : Polygon α) :
    (edgePolygon e t b u).Labelled 2 b.vertices.length := by
  rw [edgePolygon]
  split
  next => exact Manifold.labelled_of_isEmpty rfl _ _
  next o ho =>
    have hlength := length_outline? ho
    exact hlength ▸ labelled_outlines ⟨hlength.ge, by omega⟩ (numbered_polygon b)

/-- A cut point is there only if the ends lie on different sides. -/
theorem length_clip_le (hsign : ∀ x y : α, x ≤ 0 → y ≤ 0 → ¬ x * y < 0) (p q : ClipPoint α)
    (d : Vec α) (l : α) (i : Nat) : (clip p q d l i).length ≤ 2 := by
  rw [clip]
  by_cases hp : d.dot p.point - l ≤ 0 <;> by_cases hq : d.dot q.point - l ≤ 0
  · simp [hp, hq, hsign _ _ hp hq]
  all_goals
    simp only [hp, hq, if_true, if_false]
    split <;> simp

/-- **Contact points are told apart.** For all polygons and edges under all poses the points of a
contact have different keys and no impulses.  Each is named by a side of one shape and a vertex of
the other, with numbers that they have.  Of arithmetic nothing is asked, and only that no product of
numbers up to zero is negative for a cut to leave at most two points. -/
theorem labelled_polygons_edgePolygon (a b : Polygon α) (e : Edge α) (t u : Pose α) :
    (polygons a t b u).Labelled a.vertices.length b.vertices.length ∧
    (edgePolygon e t b u).Labelled 2 b.vertices.length ∧
    ((∀ x y : α, x ≤ 0 → y ≤ 0 → ¬ x * y < 0) →
      ∀ (p q : ClipPoint α) (d : Vec α) (l : α) (i : Nat), (clip p q d l i).length ≤ 2) :=
  ⟨labelled_outlines (numbered_polygon a) (numbered_polygon b), labelled_edgePolygon e b,
    length_clip_le⟩

/-- Squares one on the other, and an edge under one of them. -/
theorem labelled_squares : ∃ a b : Polygon ℝ,
    Polygon.ofVertices [⟨0, -1⟩, ⟨1, -1⟩, ⟨1, 0⟩, ⟨0, 0⟩] = .ok a ∧
    Polygon.ofVertices [⟨0, 0⟩, ⟨1, 0⟩, ⟨1, 1⟩, ⟨0, 1⟩] = .ok b ∧
    (polygons a .identity b .identity).isEmpty = false ∧
    (edgePolygon ⟨⟨1, 0⟩, ⟨0, 0⟩⟩ .identity b .identity).isEmpty = false ∧
    (polygons a .identity b .identity).Labelled a.vertices.length b.vertices.length ∧
    (edgePolygon ⟨⟨1, 0⟩, ⟨0, 0⟩⟩ .identity b .identity).Labelled 2 b.vertices.length ∧
    ∀ (p q : ClipPoint ℝ) (d : Vec ℝ) (l : ℝ) (i : Nat), (clip p q d l i).length ≤ 2 := by
  obtain ⟨a, b, ha, hb, -, -, hpolygons, hedge⟩ := exists_standing_square
  obtain ⟨hab, heb, hclip⟩ :=
    labelled_polygons_edgePolygon a b ⟨⟨1, 0⟩, ⟨0, 0⟩⟩ .identity .identity
  exact ⟨a, b, ha, hb, hpolygons, hedge, hab, heb,
    hclip fun _ _ hx hy ↦ (mul_nonneg_of_nonpos_of_nonpos hx hy).not_gt⟩

end Collision

end PlanarDynamics
