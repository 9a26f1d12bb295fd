import PlanarDynamics.Proofs.Real.Region
import PlanarDynamics.Proofs.Real.Manifold
import PlanarDynamics.Proofs.Collision.Cut

/-!
# Where the points of outlines in contact are

A manifold of two outlines is told in local coordinates, the normal and the plane in those of the
outline with the reference side and the points in those of the other.  Which outline has the
reference side, and in what order the cuts leave the points, varies.  `Collision.clips_outlines`
says what it comes to in the world: the points lie on one incident side, between the ends of the
reference side and not in front of it, and what is seen as separation is their distance from the
reference side.
-/

namespace PlanarDynamics

/-! ## Segments -/

namespace Vec

variable {p q p' q' x d : Vec ℝ} {l : ℝ}

/-- A segment holds the segments between its points. -/
theorem OnSegment.trans (hx : OnSegment p' q' x) (hp : OnSegment p q p') (hq : OnSegment p q q') :
    OnSegment p q x := by
  obtain ⟨i, hi, hi', rfl⟩ := hp
  obtain ⟨j, hj, hj', rfl⟩ := hq
  obtain ⟨k, hk, hk', rfl⟩ := hx
  refine ⟨i * (1 - k) + j * k, ?_, ?_, ?_⟩
  · have := mul_nonneg hi (sub_nonneg.2 hk')
    have := mul_nonneg hj hk
    linarith
  · have := mul_le_mul_of_nonneg_right hi' (sub_nonneg.2 hk')
    have := mul_le_mul_of_nonneg_right hj' hk
    linarith
  · ext
    · simp only [add_x, mul_x, sub_x]
      ring
    · simp only [add_y, mul_y, sub_y]
      ring

/-- A segment with its ends on different sides of a level reaches it at the crossing. -/
theorem onSegment_crossing (h : (d.dot p - l) * (d.dot q - l) < 0) :
    OnSegment p q (crossing p q d l) ∧ d.dot (crossing p q d l) = l := by
  have hne : d.dot p - l - (d.dot q - l) ≠ 0 := by
    intro hz
    rw [sub_eq_zero.1 hz] at h
    exact (mul_self_nonneg (d.dot q - l)).not_gt h
  refine ⟨⟨_, ?_, ?_, rfl⟩, ?_⟩
  · rcases mul_neg_iff.1 h with ⟨hp, hq⟩ | ⟨hp, hq⟩
    · exact (div_pos hp (by linarith)).le
    · exact (div_pos_of_neg_of_neg hp (by linarith)).le
  · rcases mul_neg_iff.1 h with ⟨hp, hq⟩ | ⟨hp, hq⟩
    · rw [div_le_one (by linarith)]
      linarith
    · rw [div_le_one_of_neg (by linarith)]
      linarith
  · rw [crossing, dot_add, dot_mul, dot_sub]
    field_simp
    ring

end Vec

/-! ## Contact points -/

/-- The point of the side `E` lies between the ends of the side `S` and not in front of it. -/
structure Side.Bears (S E : Side ℝ) (x : Vec ℝ) : Prop where
  onSegment : Vec.OnSegment E.start E.stop x
  after_start : 0 ≤ (S.stop - S.start).dot (x - S.start)
  before_stop : (S.stop - S.start).dot (x - S.stop) ≤ 0
  behind : S.separation x ≤ 0

namespace Collision

/-- What is left after a cut are points of the segment within the half-plane. -/
theorem Cut.within {p q p' q' : ClipPoint ℝ} {d : Vec ℝ} {l : ℝ} {i : Nat}
    (h : Cut p q d l i p' q') :
    (Vec.OnSegment p.point q.point p'.point ∧ d.dot p'.point ≤ l) ∧
      Vec.OnSegment p.point q.point q'.point ∧ d.dot q'.point ≤ l := by
  have hleft := Vec.onSegment_left p.point q.point
  have hright := Vec.onSegment_right p.point q.point
  cases h with
  | whole hp hq => exact ⟨⟨hleft, sub_nonpos.1 hp⟩, hright, sub_nonpos.1 hq⟩
  | start hp hcross =>
    obtain ⟨hseg, hlevel⟩ := Vec.onSegment_crossing hcross
    exact ⟨⟨hleft, sub_nonpos.1 hp⟩, hseg, hlevel.le⟩
  | stop hq hcross =>
    obtain ⟨hseg, hlevel⟩ := Vec.onSegment_crossing hcross
    exact ⟨⟨hright, sub_nonpos.1 hq⟩, hseg, hlevel.le⟩

variable {o o' : Outline ℝ} {turn turn' : Vec ℝ → Vec ℝ → Prop} {t u : Pose ℝ} {s e : Side ℝ}

/-- What is left after both cuts lies on the incident side, between the ends of the reference
side. -/
theorem Remains.within {p q c : ClipPoint ℝ} (ho : o.Convex turn) (hs : s ∈ o.sides)
    (h : Remains s t o' u e p q) (hc : c ∈ [p, q]) :
    Vec.OnSegment (e.place u).start (e.place u).stop c.point ∧
      (s.place t).normal.perp.dot (s.place t).start ≤ (s.place t).normal.perp.dot c.point ∧
      (s.place t).normal.perp.dot c.point ≤ (s.place t).normal.perp.dot (s.place t).stop := by
  obtain ⟨p', q', hfirst, hsecond⟩ := h.cuts
  rw [rotate_tangent ho hs] at hfirst hsecond
  obtain ⟨⟨hp, hpl⟩, hq, hql⟩ := hfirst.within
  rw [Vec.neg_dot, neg_le_neg_iff] at hpl hql
  have hboth : Vec.OnSegment p'.point q'.point c.point ∧
      (s.place t).normal.perp.dot c.point ≤ (s.place t).normal.perp.dot (s.place t).stop := by
    rcases List.mem_pair.1 hc with rfl | rfl
    · exact hsecond.within.1
    · exact hsecond.within.2
  exact ⟨hboth.1.trans hp hq, (le_min hpl hql).trans (hboth.1.min_dot_le _), hboth.2⟩

theorem place_mem_sides (hs : s ∈ o.sides) : s.place t ∈ (o.place t).sides := by
  rw [Outline.sides_place]
  exact List.mem_map_of_mem hs

theorem localNormal_eq (ho : o.Convex turn) (hs : s ∈ o.sides) :
    (s.stop - s.start).normalize.crossOut 1 = s.normal := by
  rw [← Pose.rotate_identity (s.stop - s.start).normalize, rotate_tangent ho hs, Vec.crossOut_perp]
  exact Pose.rotate_identity s.normal

/-- The contact points with the reference side `s`. -/
theorem exists_bears {kind : ManifoldKind} {label : FeaturePair → FeaturePair}
    (ho : o.Convex turn) (hp : (o.place t).Convex turn) (hs : s ∈ o.sides)
    (h : (clipAgainst s t o' u kind label).isEmpty = false) :
    ∃ E, (o'.place u).Faces (s.place t).normal E ∧
      ∀ p ∈ (clipAgainst s t o' u kind label).points,
        (s.place t).Bears E (u.apply p.localPoint) := by
  obtain ⟨e, p, q, hremains, -, hpoints⟩ := exists_remains h
  obtain ⟨k, hk, hrun⟩ := hp.run _ (place_mem_sides hs)
  have hdot : ∀ x y : Vec ℝ, ((s.place t).stop - (s.place t).start).dot (x - y) =
      ((s.place t).normal.perp.dot x - (s.place t).normal.perp.dot y) * k := by
    intro x y
    rw [hrun, Vec.dot_comm, Vec.dot_mul, Vec.dot_comm, Vec.dot_sub]
  have hne : o'.sides ≠ [] := List.ne_nil_of_mem (mem_of_incidentSide? hremains.incident)
  obtain ⟨e', he', hfaces⟩ := exists_faces hne (u.unrotate (t.rotate s.normal))
  obtain rfl : e = e' := Option.some_inj.1 (hremains.incident.symm.trans he')
  refine ⟨e.place u, hfaces.place, ?_⟩
  rw [hpoints, List.forall_mem_map]
  intro c hc
  obtain ⟨hmem, hbehind⟩ := List.mem_filter.1 hc
  obtain ⟨hseg, hstart, hstop⟩ := hremains.within ho hs hmem
  rw [rotate_tangent ho hs, Vec.crossOut_perp, decide_eq_true_eq, ← Vec.dot_sub] at hbehind
  change (s.place t).Bears (e.place u) (u.apply (u.unapply c.point))
  rw [u.apply_unapply]
  refine ⟨hseg, ?_, ?_, hbehind⟩
  · rw [hdot]
    exact mul_nonneg (sub_nonneg.2 hstart) hk.le
  · rw [hdot]
    exact mul_nonpos_of_nonpos_of_nonneg (sub_nonpos.2 hstop) hk.le

/-! ## The reference side -/

/-- The side `S` of `o` has `o'` at the distance `m` in front of it, and no side of either outline
has the other one in front of it by more than that and a little. -/
structure Reference (o o' : Outline ℝ) (S : Side ℝ) (m : ℝ) : Prop extends o.Gap o' S m where
  other : ∀ r ∈ o'.sides, ∃ v ∈ o.vertices, r.separation v ≤ m + referenceTolerance

/-- The two ways to a contact. -/
theorem exists_reference_of_contact (ho : (o.place t).Convex turn) (ho' : (o'.place u).Convex turn')
    (h : (outlines o t o' u).isEmpty = false) :
    (∃ s m, s ∈ o.sides ∧ Reference (o.place t) (o'.place u) (s.place t) m ∧
      outlines o t o' u = clipAgainst s t o' u .faceA id) ∨
    ∃ s m, s ∈ o'.sides ∧ Reference (o'.place u) (o.place t) (s.place u) m ∧
      outlines o t o' u = clipAgainst s u o t .faceB .swap := by
  obtain ⟨s, m, hsep, hs, hg⟩ := exists_gap (t := t) (u := u) ho.sides_ne_nil ho'.vertices_ne_nil
  obtain ⟨s', m', hsep', hs', hg'⟩ :=
    exists_gap (t := u) (u := t) ho'.sides_ne_nil ho.vertices_ne_nil
  have htol := referenceTolerance_pos
  simp only [outlines, hsep, hsep'] at h ⊢
  split at h
  next => cases h
  next hm =>
    split at h
    next => cases h
    next hm' =>
      rw [if_neg hm, if_neg hm']
      split
      next hlt =>
        refine .inr ⟨s', m', hs', ⟨hg', fun r hr ↦ ?_⟩, rfl⟩
        obtain ⟨v, hv, hle⟩ := hg.greatest r hr
        exact ⟨v, hv, by linarith⟩
      next hle =>
        refine .inl ⟨s, m, hs, ⟨hg, fun r hr ↦ ?_⟩, rfl⟩
        obtain ⟨v, hv, hle'⟩ := hg'.greatest r hr
        exact ⟨v, hv, by linarith⟩

/-! ## In the world -/

/-- The manifold of the reference side `s` in the world, which has the outward normal of the side
or, if the side is one of the second shape, the inward normal. -/
theorem inWorld_reference (ho : o.Convex turn) (hp : (o.place t).Convex turn) (hs : s ∈ o.sides)
    {m : Manifold ℝ} (hne : m.isEmpty = false) (hnormal : m.localNormal = s.normal)
    (hpoint : m.localPoint = s.center) :
    (m.kind = .faceA → (m.inWorld t 0 u 0).normal = (s.place t).normal ∧
      (m.inWorld t 0 u 0).points.map WorldPoint.separation =
        m.points.map fun p ↦ (s.place t).separation (u.apply p.localPoint)) ∧
    (m.kind = .faceB → (m.inWorld u 0 t 0).normal = -(s.place t).normal ∧
      (m.inWorld u 0 t 0).points.map WorldPoint.separation =
        m.points.map fun p ↦ (s.place t).separation (u.apply p.localPoint)) := by
  have hunit : (t.rotate s.normal).normSq = 1 := hp.unit _ (place_mem_sides hs)
  have hcenter : ∀ x, (x - t.apply s.center).dot (t.rotate s.normal) - 0 - 0 =
      (s.place t).separation x := by
    intro x
    rw [sub_zero, sub_zero, ← t.apply_unapply x, t.apply_sub_apply, t.dot_rotate_rotate,
      dot_sub_center ho hs, Outline.separation_place]
  constructor
  · intro hkind
    simp only [Manifold.inWorld, hne, hkind, hnormal, hpoint, Bool.false_eq_true, if_false,
      List.map_map]
    refine ⟨rfl, List.map_congr_left fun p _ ↦ ?_⟩
    exact (Manifold.dot_facePoints hunit _ _ 0 0).trans (hcenter _)
  · intro hkind
    simp only [Manifold.inWorld, hne, hkind, hnormal, hpoint, Bool.false_eq_true, if_false,
      List.map_map]
    refine ⟨rfl, List.map_congr_left fun p _ ↦ ?_⟩
    exact (Manifold.dot_facePoints hunit _ _ 0 0).trans (hcenter _)

/-- The points of `m`, in the frame of `u`, and `w`, which is what is seen of `m` in the world, are
those of the reference side `S` of `o` and the incident side `E` of `o'`. -/
structure Clipped (o o' : Outline ℝ) (u : Pose ℝ) (S E : Side ℝ) (m : Manifold ℝ)
    (w : WorldManifold ℝ) : Prop where
  reference : ∃ d, Reference o o' S d
  outward : ∀ v ∈ o.vertices, S.separation v ≤ 0
  incident : o'.Faces S.normal E
  bears : ∀ p ∈ m.points, S.Bears E (u.apply p.localPoint)
  unit : w.normal.normSq = 1
  separations :
    w.points.map WorldPoint.separation = m.points.map fun p ↦ S.separation (u.apply p.localPoint)
  nonpos : ∀ p ∈ w.points, p.separation ≤ 0

/-- A contact of the outlines: either of them has the reference side, and the normal leads from the
first to the second. -/
inductive Clips (o : Outline ℝ) (t : Pose ℝ) (o' : Outline ℝ) (u : Pose ℝ) (m : Manifold ℝ)
    (w : WorldManifold ℝ) : Prop
  | faceA (S E : Side ℝ) (kind : m.kind = .faceA)
      (clipped : Clipped (o.place t) (o'.place u) u S E m w) (normal : w.normal = S.normal)
  | faceB (S E : Side ℝ) (kind : m.kind = .faceB)
      (clipped : Clipped (o'.place u) (o.place t) t S E m w) (normal : w.normal = -S.normal)

/-- What is seen of the points in the world. -/
theorem clipped_of_bears {S E : Side ℝ} {m : Manifold ℝ} {w : WorldManifold ℝ} {d : ℝ}
    (ho : o.Convex turn) (href : Reference o o' S d) (hfaces : o'.Faces S.normal E)
    (hbears : ∀ p ∈ m.points, S.Bears E (u.apply p.localPoint))
    (hnormal : w.normal.normSq = S.normal.normSq)
    (hseparations : w.points.map WorldPoint.separation =
      m.points.map fun p ↦ S.separation (u.apply p.localPoint)) : Clipped o o' u S E m w where
  reference := ⟨d, href⟩
  outward := ho.behind S href.mem
  incident := hfaces
  bears := hbears
  unit := hnormal.trans (ho.unit S href.mem)
  separations := hseparations
  nonpos := by
    intro p hp
    have hmem : p.separation ∈ w.points.map WorldPoint.separation := List.mem_map_of_mem hp
    rw [hseparations] at hmem
    obtain ⟨q, hq, heq⟩ := List.mem_map.1 hmem
    exact heq ▸ (hbears q hq).behind

theorem clips_outlines (ho : o.Convex turn) (hp : (o.place t).Convex turn)
    (ho' : o'.Convex turn') (hp' : (o'.place u).Convex turn')
    (h : (outlines o t o' u).isEmpty = false) :
    Clips o t o' u (outlines o t o' u) ((outlines o t o' u).inWorld t 0 u 0) := by
  rcases exists_reference_of_contact hp hp' h with ⟨s, d, hs, href, heq⟩ | ⟨s, d, hs, href, heq⟩
  · rw [heq] at h ⊢
    obtain ⟨E, hfaces, hbears⟩ := exists_bears ho hp hs h
    obtain ⟨-, -, -, -, hframe, -⟩ := exists_remains h
    have hlocal := hframe.localNormal.trans (localNormal_eq ho hs)
    obtain ⟨hnormal, hseparations⟩ :=
      (inWorld_reference (u := u) ho hp hs h hlocal hframe.localPoint).1 hframe.kind
    exact .faceA _ E hframe.kind
      (clipped_of_bears hp href hfaces hbears (congrArg Vec.normSq hnormal) hseparations) hnormal
  · rw [heq] at h ⊢
    obtain ⟨E, hfaces, hbears⟩ := exists_bears ho' hp' hs h
    obtain ⟨-, -, -, -, hframe, -⟩ := exists_remains h
    have hlocal := hframe.localNormal.trans (localNormal_eq ho' hs)
    obtain ⟨hnormal, hseparations⟩ :=
      (inWorld_reference (u := t) ho' hp' hs h hlocal hframe.localPoint).2 hframe.kind
    have hlength := (congrArg Vec.normSq hnormal).trans (Vec.normSq_neg _)
    exact .faceB _ E hframe.kind (clipped_of_bears hp' href hfaces hbears hlength hseparations)
      hnormal

/-- **Contact points are where they should be.** For convex polygons and an edge, under any poses,
the side that a contact refers to is as good as any of both shapes, but for a little.  Every point
lies on one side of the other shape, between the ends of the reference side.  Seen in the world, the
normal is a unit vector out of the first shape, and the separations are the distances of the points
from the reference side, of which none is positive. -/
theorem clips_polygons_edgePolygon {b : Polygon ℝ} (hb : (Shape.polygon b).Proper) (t u : Pose ℝ) :
    (∀ a : Polygon ℝ, (Shape.polygon a).Proper → (polygons a t b u).isEmpty = false →
      Clips a.toOutline t b.toOutline u (polygons a t b u)
        ((polygons a t b u).inWorld t (Shape.polygon a).radius u (Shape.polygon b).radius)) ∧
    ∀ a : Edge ℝ, (edgePolygon a t b u).isEmpty = false →
      ∃ o, a.outline? = some o ∧ Clips o t b.toOutline u (edgePolygon a t b u)
        ((edgePolygon a t b u).inWorld t (Shape.edge a).radius u (Shape.polygon b).radius) := by
  obtain ⟨⟨_, hok⟩, hbehind⟩ := hb
  have hcb := Polygon.convex hok hbehind
  have hpb := hcb.place u fun _ _ h ↦ h.rotate u
  constructor
  · rintro a ⟨⟨_, hoka⟩, hbehinda⟩ h
    have hca := Polygon.convex hoka hbehinda
    exact clips_outlines hca (hca.place t fun _ _ h ↦ h.rotate t) hcb hpb h
  · intro a h
    rw [edgePolygon] at h ⊢
    split at h
    next => cases h
    next o ho =>
      have hca := (Edge.convex ho).1
      exact ⟨o, ho, clips_outlines hca (hca.place t fun _ _ h ↦ h.rotate t) hcb hpb h⟩

/-- A square that stands on another one, and on an edge. -/
theorem clips_squares : ∃ a b : Polygon ℝ,
    Polygon.ofVertices [⟨0, -1⟩, ⟨1, -1⟩, ⟨1, 0⟩, ⟨0, 0⟩] = .ok a ∧
    Polygon.ofVertices [⟨0, 0⟩, ⟨1, 0⟩, ⟨1, 1⟩, ⟨0, 1⟩] = .ok b ∧
    (Shape.polygon a).Proper ∧ (Shape.polygon b).Proper ∧
    (polygons a .identity b .identity).isEmpty = false ∧
    (edgePolygon ⟨⟨1, 0⟩, ⟨0, 0⟩⟩ .identity b .identity).isEmpty = false ∧
    Clips a.toOutline .identity b.toOutline .identity (polygons a .identity b .identity)
      ((polygons a .identity b .identity).inWorld .identity 0 .identity 0) ∧
    ∃ o, (⟨⟨1, 0⟩, ⟨0, 0⟩⟩ : Edge ℝ).outline? = some o ∧
      Clips o .identity b.toOutline .identity
        (edgePolygon ⟨⟨1, 0⟩, ⟨0, 0⟩⟩ .identity b .identity)
        ((edgePolygon ⟨⟨1, 0⟩, ⟨0, 0⟩⟩ .identity b .identity).inWorld .identity 0 .identity 0) := by
  obtain ⟨a, b, hoka, hokb, ha, hb, hpolygons, hedge⟩ := exists_standing_square
  obtain ⟨hab, heb⟩ := clips_polygons_edgePolygon hb .identity .identity
  exact ⟨a, b, hoka, hokb, ha, hb, hpolygons, hedge, hab a ha hpolygons, heb _ hedge⟩

end Collision

end PlanarDynamics
