import Mathlib.Analysis.Convex.Topology
import Mathlib.Analysis.LocallyConvex.Separation
import PlanarDynamics.Proofs.Real.Overlap

/-!
# The points of shapes

The core of a shape is the convex hull of its corners.  Polygons and edges are all core, and a
circle is what lies within its radius of its core.

Convex sets without a common point are apart along some direction.  So shapes that no direction
separates have a common point, and as colliding outlines are such shapes, a contact of polygons, or
of an edge and a polygon, is never one of shapes that are apart: `Collision.cores_meet`.
-/

namespace PlanarDynamics

/-! ## Convex hulls -/

namespace Vec

variable {k l : List (Vec ℝ)} {c d p q x : Vec ℝ}

/-- The coordinates as a pair. -/
def toProd (v : Vec ℝ) : ℝ × ℝ := (v.x, v.y)

/-- The convex hull of some points. -/
def hull (l : List (Vec ℝ)) : Set (Vec ℝ) :=
  {x | x.toProd ∈ convexHull ℝ (toProd '' {v | v ∈ l})}

theorem mem_hull (h : x ∈ l) : x ∈ hull l :=
  subset_convexHull ℝ _ ⟨x, h, rfl⟩

/-- A half-plane that holds some points holds their hull. -/
theorem dot_le_of_mem_hull {m : ℝ} (h : ∀ v ∈ l, d.dot v ≤ m) (hx : x ∈ hull l) :
    d.dot x ≤ m := by
  have hlin : IsLinearMap ℝ fun p : ℝ × ℝ ↦ d.x * p.1 + d.y * p.2 := by
    constructor
    · intro p q
      simp only [Prod.fst_add, Prod.snd_add]
      ring
    · intro k p
      simp only [Prod.smul_fst, Prod.smul_snd, smul_eq_mul]
      ring
  refine convexHull_min ?_ (convex_halfSpace_le hlin m) hx
  rintro _ ⟨v, hv, rfl⟩
  exact h v hv

theorem OnSegment.mem_hull (h : OnSegment p q x) (hp : p ∈ hull l) (hq : q ∈ hull l) :
    x ∈ hull l := by
  obtain ⟨k, hk, hk', rfl⟩ := h
  have hmem := (convex_convexHull ℝ (toProd '' {v | v ∈ l})).add_smul_sub_mem hp hq ⟨hk, hk'⟩
  have hpoint : toProd (p + (q - p) * k) = p.toProd + k • (q.toProd - p.toProd) := by
    ext
    · simp only [toProd, add_x, mul_x, sub_x, Prod.fst_add, Prod.smul_fst, Prod.fst_sub,
        smul_eq_mul]
      ring
    · simp only [toProd, add_y, mul_y, sub_y, Prod.snd_add, Prod.smul_snd, Prod.snd_sub,
        smul_eq_mul]
      ring
  show toProd (p + (q - p) * k) ∈ convexHull ℝ (toProd '' {v | v ∈ l})
  rw [hpoint]
  exact hmem

/-- Hulls without a common point are apart along some direction. -/
theorem exists_apart (hl : l ≠ []) (hk : k ≠ []) (h : ∀ x ∈ hull l, x ∉ hull k) :
    ∃ d : Vec ℝ, d.normSq = 1 ∧ ∀ v ∈ l, ∀ w ∈ k, d.dot v < d.dot w := by
  have hfin : ∀ l : List (Vec ℝ), (toProd '' {v | v ∈ l}).Finite := fun l ↦
    (List.finite_toSet l).image toProd
  have hdisj : Disjoint (convexHull ℝ (toProd '' {v | v ∈ l}))
      (convexHull ℝ (toProd '' {v | v ∈ k})) := by
    rw [Set.disjoint_left]
    intro y hy hy'
    exact h ⟨y.1, y.2⟩ hy hy'
  obtain ⟨f, m, m', hf, hm, hf'⟩ := geometric_hahn_banach_compact_closed
    (convex_convexHull ℝ _) ((hfin l).isCompact_convexHull ℝ) (convex_convexHull ℝ _)
    ((hfin k).isClosed_convexHull ℝ) hdisj
  -- The functional is the product with some vector, which is not zero.
  set d : Vec ℝ := ⟨f (1, 0), f (0, 1)⟩ with hd
  have hdot : ∀ v : Vec ℝ, f v.toProd = d.dot v := by
    intro v
    have hv : v.toProd = v.x • ((1, 0) : ℝ × ℝ) + v.y • ((0, 1) : ℝ × ℝ) := by
      ext <;> simp [toProd]
    rw [hv, map_add, map_smul, map_smul, smul_eq_mul, smul_eq_mul, dot_comm, dot]
  have hapart : ∀ v ∈ l, ∀ w ∈ k, d.dot v < d.dot w := by
    intro v hv w hw
    rw [← hdot, ← hdot]
    exact (hf _ (mem_hull hv)).trans (hm.trans (hf' _ (mem_hull hw)))
  obtain ⟨v, hv⟩ := List.exists_mem_of_ne_nil l hl
  obtain ⟨w, hw⟩ := List.exists_mem_of_ne_nil k hk
  have hpos : 0 < d.normSq := by
    refine (add_nonneg (mul_self_nonneg d.x) (mul_self_nonneg d.y)).lt_of_ne fun hz ↦ ?_
    obtain ⟨hx, hy⟩ := mul_self_add_mul_self_eq_zero.1 hz.symm
    have := hapart v hv w hw
    simp only [dot, hx, hy, zero_mul, add_zero, lt_irrefl] at this
  obtain ⟨n, hn, hdn⟩ := exists_unit hpos
  refine ⟨n, hn, fun v hv w hw ↦ ?_⟩
  have hlt := hapart v hv w hw
  rw [hdn, dot_comm, dot_mul, dot_comm _ w, dot_mul, dot_comm v, dot_comm w] at hlt
  exact lt_of_mul_lt_mul_right hlt (norm_pos hpos).le

theorem eq_of_mem_hull_singleton (h : x ∈ hull [p]) : x = p := by
  have hset : toProd '' {v | v ∈ [p]} = {p.toProd} := by simp
  have hmem : x.toProd ∈ convexHull ℝ (toProd '' {v | v ∈ [p]}) := h
  rw [hset, convexHull_singleton, Set.mem_singleton_iff, toProd, toProd, Prod.mk.injEq] at hmem
  exact Vec.ext hmem.1 hmem.2

/-! ## Nearest points -/

/-- Of the points of a set, `q` is the one nearest to `c`, and its distance that of the set. -/
structure Nearest (K : Set (Vec ℝ)) (c q : Vec ℝ) : Prop where
  mem : q ∈ K
  dist_le : ∀ p ∈ K, c.dist q ≤ c.dist p

/-- A point of a hull is the nearest to `c` if no corner lies from it in the direction of `c`. -/
theorem nearest_hull (hq : q ∈ hull l) (h : ∀ v ∈ l, (c - q).dot (v - q) ≤ 0) :
    Nearest (hull l) c q := by
  refine ⟨hq, fun p hp ↦ Real.sqrt_le_sqrt ?_⟩
  have hle : (c - q).dot p ≤ (c - q).dot q := by
    refine dot_le_of_mem_hull (fun v hv ↦ ?_) hp
    have := h v hv
    rw [dot_sub] at this
    linarith
  have hexp : (c - p).normSq = (c - q).normSq + (p - q).normSq -
      ((c - q).dot p - (c - q).dot q) - ((c - q).dot p - (c - q).dot q) := by
    simp only [normSq, dot, sub_x, sub_y]
    ring
  have hsq : 0 ≤ (p - q).normSq := add_nonneg (mul_self_nonneg _) (mul_self_nonneg _)
  linarith

end Vec

/-- A point behind all sides of a polygon is one of its points. -/
theorem Outline.Convex.mem_hull {o : Outline ℝ} (h : o.Convex LeftTurn) {x : Vec ℝ}
    (hx : ∀ s ∈ o.sides, s.separation x ≤ 0) : x ∈ Vec.hull o.vertices := by
  by_contra hout
  obtain ⟨d, -, hd⟩ := Vec.exists_apart (k := [x]) h.nonempty (List.cons_ne_nil x []) <| by
    intro y hy hyx
    rw [Vec.eq_of_mem_hull_singleton hyx] at hy
    exact hout hy
  obtain ⟨v, hv, hmax⟩ := h.exists_deepest (-d)
  have hle := h.dot_le hx hv (d := d) fun u hu ↦ by
    have := hmax u hu
    rw [Vec.neg_dot, Vec.neg_dot] at this
    linarith
  exact (hd v hv x List.mem_cons_self).not_ge hle

/-! ## Cores -/

namespace Shape

variable {a b : Shape ℝ} {t u : Pose ℝ} {c q : Vec ℝ}

/-- The points that span the core of a shape. -/
def corners : Shape ℝ → List (Vec ℝ)
  | circle c => [c.center]
  | polygon p => p.vertices
  | edge e => [e.start, e.stop]

/-- The core of a shape under a pose: all of a polygon or an edge, and the center of a circle. -/
def core (a : Shape ℝ) (t : Pose ℝ) : Set (Vec ℝ) := Vec.hull (a.corners.map t.apply)

theorem corners_ne_nil (a : Shape ℝ) : a.corners ≠ [] := by
  cases a with
  | circle c => exact List.cons_ne_nil _ _
  | polygon p =>
    intro h
    have := p.three_le_length
    rw [show p.vertices = [] from h] at this
    simp at this
  | edge e => exact List.cons_ne_nil _ _

theorem mem_core (h : q ∈ a.corners) : t.apply q ∈ a.core t :=
  Vec.mem_hull (List.mem_map_of_mem h)

/-- Nearest points may be sought in local coordinates. -/
theorem nearest_core (hq : t.apply q ∈ a.core t) (h : ∀ v ∈ a.corners, (c - q).dot (v - q) ≤ 0) :
    Vec.Nearest (a.core t) (t.apply c) (t.apply q) := by
  refine Vec.nearest_hull hq fun w hw ↦ ?_
  obtain ⟨v, hv, rfl⟩ := List.mem_map.1 hw
  rw [t.apply_sub_apply, t.apply_sub_apply, t.dot_rotate_rotate]
  exact h v hv

/-- Shapes that reach no further than their corners have a common point if no direction separates
them. -/
theorem Inseparable.exists_common (h : Inseparable a t b u)
    (ha : ∀ d, ∃ v ∈ a.corners, a.top t d = d.dot (t.apply v))
    (hb : ∀ d, ∃ v ∈ b.corners, b.top u d = d.dot (u.apply v)) :
    (a.core t ∩ b.core u).Nonempty := by
  by_contra hn
  obtain ⟨d, hd, hapart⟩ := Vec.exists_apart (l := a.corners.map t.apply)
    (k := b.corners.map u.apply) (by simpa using a.corners_ne_nil)
    (by simpa using b.corners_ne_nil) fun x hx hx' ↦ hn ⟨x, hx, hx'⟩
  obtain ⟨v, hv, hav⟩ := ha d
  obtain ⟨w, hw, hbw⟩ := hb (-d)
  have hlt := hapart _ (List.mem_map_of_mem hv) _ (List.mem_map_of_mem hw)
  have hle := h d hd
  rw [hav, hbw, Vec.neg_dot] at hle
  linarith

end Shape

/-! ## Contacts of outlines -/

namespace Collision

variable {turn : Vec ℝ → Vec ℝ → Prop} {a b : Polygon ℝ} {o : Outline ℝ}

theorem exists_square {y z : ℝ} (h : z = y + 1) : ∃ a : Polygon ℝ,
    Polygon.ofVertices [⟨0, y⟩, ⟨1, y⟩, ⟨1, z⟩, ⟨0, z⟩] = .ok a ∧
      a.toOutline = ⟨[⟨0, y⟩, ⟨1, y⟩, ⟨1, z⟩, ⟨0, z⟩], [⟨0, -1⟩, ⟨1, 0⟩, ⟨0, 1⟩, ⟨-1, 0⟩]⟩ := by
  subst h
  refine Polygon.exists_ofVertices _ _ (by simp) rfl ?_ ?_ ?_
  · norm_num [Polygon.signedArea, Outline.successive, Vec.cross]
    linarith
  · simp only [Outline.successive, List.cons_append, List.nil_append, List.zip_cons_cons,
      List.zip_nil_left, List.forall_mem_cons]
    refine ⟨Polygon.sideNormal?_eq 1 ?_ ?_ ?_ ?_, Polygon.sideNormal?_eq 1 ?_ ?_ ?_ ?_,
      Polygon.sideNormal?_eq 1 ?_ ?_ ?_ ?_, Polygon.sideNormal?_eq 1 ?_ ?_ ?_ ?_, by simp⟩
    all_goals norm_num
  · norm_num [Outline.successive, Vec.cross]

theorem proper_square {y z : ℝ} (h : z = y + 1) {vertices : List (Vec ℝ)}
    (hok : Polygon.ofVertices vertices = .ok a)
    (ha : a.toOutline = ⟨[⟨0, y⟩, ⟨1, y⟩, ⟨1, z⟩, ⟨0, z⟩],
      [⟨0, -1⟩, ⟨1, 0⟩, ⟨0, 1⟩, ⟨-1, 0⟩]⟩) : (Shape.polygon a).Proper := by
  subst h
  refine ⟨⟨_, hok⟩, ?_⟩
  rw [ha]
  norm_num [Outline.sides, Outline.successive, Side.separation, Vec.dot]

/-- A square has a contact with an outline below it that has a level side along its base. -/
theorem isEmpty_outlines_square {S : Side ℝ} (ho : o.Convex turn)
    (hb : b.toOutline = ⟨[⟨0, 0⟩, ⟨1, 0⟩, ⟨1, 1⟩, ⟨0, 1⟩], [⟨0, -1⟩, ⟨1, 0⟩, ⟨0, 1⟩, ⟨-1, 0⟩]⟩)
    (hS : S ∈ o.sides) (hstart : S.start = ⟨1, 0⟩) (hstop : S.stop = ⟨0, 0⟩)
    (hnormal : S.normal = ⟨0, 1⟩)
    (hbest : ∀ r ∈ o.sides, r = S ∨ ∃ v ∈ b.vertices, r.separation v < 0) :
    (outlines o .identity b.toOutline .identity).isEmpty = false := by
  have hbase : (⟨0, 0⟩ : Vec ℝ) ∈ b.vertices := by simp [hb]
  have hbehind : ∀ r ∈ b.sides, r.separation ⟨0, 0⟩ ≤ 0 := by
    rw [hb]
    norm_num [Outline.sides, Outline.successive, Side.separation, Vec.dot]
  have hsb : b.toOutline.sides ≠ [] := by simp [hb, Outline.sides, Outline.successive]
  have hzero : S.separation ⟨0, 0⟩ = 0 := by
    norm_num [Side.separation, hstart, hnormal, Vec.dot]
  obtain ⟨s, m, hsep, hs, hg⟩ := exists_gap (t := .identity) (u := .identity)
    (List.ne_nil_of_mem hS) (List.ne_nil_of_mem hbase)
  obtain ⟨s', m', hsep', -, hg'⟩ := exists_gap (t := .identity) (u := .identity) hsb
    (List.ne_nil_of_mem (Outline.stop_mem hS))
  obtain ⟨e, hinc, hfaces⟩ :=
    exists_faces hsb (Pose.identity.unrotate (Pose.identity.rotate s.normal))
  have hfaces : (b.toOutline.place .identity).Faces (s.place .identity).normal
      (e.place .identity) := hfaces.place
  simp only [Outline.place_identity] at hg hg' hfaces
  -- The side along the base is the reference side.
  obtain ⟨hs', hm⟩ := hg.eq_of_lt (r := S) (v := ⟨0, 0⟩) hS hbase (by
      rw [hzero, hb]
      norm_num [Side.separation, hstart, hnormal, Vec.dot]) (by
      rw [hzero]
      exact hbest)
  rw [hzero] at hm
  have hm' : m' ≤ 0 := by
    refine (hg'.le ⟨0, 0⟩ (hstop ▸ Outline.stop_mem hS)).trans (hbehind _ hg'.mem)
  have htol := referenceTolerance_pos
  have hfirst : ¬ m + referenceTolerance < m' := by linarith
  simp only [outlines, hsep, hsep', if_neg hm.not_gt, if_neg hm'.not_gt, if_neg hfirst]
  -- And the base is the incident side.
  rw [hs', hnormal] at hfaces
  have he : e.place .identity = ⟨0, 1, ⟨0, 0⟩, ⟨1, 0⟩, ⟨0, -1⟩⟩ := by
    have hle := hfaces.le ⟨0, 1, ⟨0, 0⟩, ⟨1, 0⟩, ⟨0, -1⟩⟩
      (by simp [hb, Outline.sides, Outline.successive])
    have hmem := hfaces.mem
    simp only [hb, Outline.sides, Outline.successive, List.cons_append, List.nil_append,
      List.zip_cons_cons, List.zip_nil_left, List.zipIdx_cons, List.zipIdx_nil, List.map_cons,
      List.map_nil, List.mem_cons, List.not_mem_nil, or_false] at hmem
    rcases hmem with h | h | h | h
    · exact h
    · norm_num [h, Vec.dot] at hle
    · norm_num [h, Vec.dot] at hle
    · norm_num [h, Vec.dot] at hle
  refine isEmpty_clipAgainst_of_within ho hs hinc hs' he (x := ⟨0, 0⟩) ?_ ?_ ?_
    (Vec.onSegment_left _ _) ?_ ?_ hzero.le
  all_goals norm_num [hnormal, hstart, hstop, Vec.cross]

/-- A square that stands on another one, and on an edge. -/
theorem exists_standing_square : ∃ a b : Polygon ℝ,
    Polygon.ofVertices [⟨0, -1⟩, ⟨1, -1⟩, ⟨1, 0⟩, ⟨0, 0⟩] = .ok a ∧
    Polygon.ofVertices [⟨0, 0⟩, ⟨1, 0⟩, ⟨1, 1⟩, ⟨0, 1⟩] = .ok b ∧
    (Shape.polygon a).Proper ∧ (Shape.polygon b).Proper ∧
    (polygons a .identity b .identity).isEmpty = false ∧
    (edgePolygon ⟨⟨1, 0⟩, ⟨0, 0⟩⟩ .identity b .identity).isEmpty = false := by
  obtain ⟨a, hoka, hoa⟩ := exists_square (neg_add_cancel (1 : ℝ)).symm
  obtain ⟨b, hokb, hob⟩ := exists_square (zero_add (1 : ℝ)).symm
  have hpa := proper_square (neg_add_cancel (1 : ℝ)).symm hoka hoa
  have hpb := proper_square (zero_add (1 : ℝ)).symm hokb hob
  refine ⟨a, b, hoka, hokb, hpa, hpb, ?_, ?_⟩
  · refine isEmpty_outlines_square (S := ⟨2, 3, ⟨1, 0⟩, ⟨0, 0⟩, ⟨0, 1⟩⟩)
      (Polygon.convex hoka hpa.2) hob ?_ rfl rfl rfl ?_
    · simp [hoa, Outline.sides, Outline.successive]
    · rw [hoa, hob]
      norm_num [Outline.sides, Outline.successive, Side.separation, Vec.dot]
  · have hnormal : (⟨⟨1, 0⟩, ⟨0, 0⟩⟩ : Edge ℝ).normal? = some ⟨0, 1⟩ :=
      Polygon.sideNormal?_eq 1 (by norm_num) le_rfl (by norm_num) (by norm_num)
    have houtline : (⟨⟨1, 0⟩, ⟨0, 0⟩⟩ : Edge ℝ).outline? =
        some ⟨[⟨1, 0⟩, ⟨0, 0⟩], [⟨0, 1⟩, -⟨0, 1⟩]⟩ := by
      rw [Edge.outline?, hnormal]
      rfl
    simp only [edgePolygon, houtline]
    refine isEmpty_outlines_square (S := ⟨0, 1, ⟨1, 0⟩, ⟨0, 0⟩, ⟨0, 1⟩⟩) (Edge.convex houtline).1
      hob ?_ rfl rfl rfl ?_
    · simp [Outline.sides, Outline.successive]
    · rw [hob]
      norm_num [Outline.sides, Outline.successive, Side.separation, Vec.dot]

/-- **Outlines that touch have a common point.** For convex polygons and an edge, under any poses, a
contact is found only where the shapes meet, if only in a point of their boundaries. -/
theorem cores_meet {b : Polygon ℝ} (hb : (Shape.polygon b).Proper) (t u : Pose ℝ) :
    (∀ a : Polygon ℝ, (Shape.polygon a).Proper → (polygons a t b u).isEmpty = false →
      ((Shape.polygon a).core t ∩ (Shape.polygon b).core u).Nonempty) ∧
    ∀ a : Edge ℝ, (edgePolygon a t b u).isEmpty = false →
      ((Shape.edge a).core t ∩ (Shape.polygon b).core u).Nonempty := by
  obtain ⟨⟨_, hok⟩, hbehind⟩ := hb
  have hconvex := Polygon.convex hok hbehind
  have hpolygon : ∀ (p : Polygon ℝ) (t : Pose ℝ) (d : Vec ℝ), ∃ v ∈ (Shape.polygon p).corners,
      (Shape.polygon p).top t d = d.dot (t.apply v) := by
    intro p t d
    obtain ⟨v, hv, htop, -⟩ := Shape.top_polygon (t := t) (d := d) p
    exact ⟨v, hv, htop⟩
  constructor
  · rintro a ⟨⟨_, hoka⟩, hbehinda⟩ h
    have hapart := inseparable_polygons (Polygon.convex hoka hbehinda) hconvex h
    exact hapart.exists_common (hpolygon a t) (hpolygon b u)
  · intro a h
    have hapart := inseparable_edgePolygon hconvex h
    refine hapart.exists_common (fun d ↦ ?_) (hpolygon b u)
    obtain ⟨v, hv, htop, -⟩ := Shape.top_edge (t := t) (d := d) a
    exact ⟨v, hv, htop⟩

/-- A square that stands on another one, and on an edge. -/
theorem cores_meet_squares : ∃ a b : Polygon ℝ,
    Polygon.ofVertices [⟨0, -1⟩, ⟨1, -1⟩, ⟨1, 0⟩, ⟨0, 0⟩] = .ok a ∧
    Polygon.ofVertices [⟨0, 0⟩, ⟨1, 0⟩, ⟨1, 1⟩, ⟨0, 1⟩] = .ok b ∧
    (Shape.polygon a).Proper ∧ (Shape.polygon b).Proper ∧
    (polygons a .identity b .identity).isEmpty = false ∧
    (edgePolygon ⟨⟨1, 0⟩, ⟨0, 0⟩⟩ .identity b .identity).isEmpty = false ∧
    ((Shape.polygon a).core .identity ∩ (Shape.polygon b).core .identity).Nonempty ∧
    ((Shape.edge ⟨⟨1, 0⟩, ⟨0, 0⟩⟩).core .identity ∩ (Shape.polygon b).core .identity).Nonempty := by
  obtain ⟨a, b, hoka, hokb, hpa, hpb, hpolygons, hedge⟩ := exists_standing_square
  obtain ⟨hmeet, hmeet'⟩ := cores_meet hpb .identity .identity
  exact ⟨a, b, hoka, hokb, hpa, hpb, hpolygons, hedge, hmeet a hpa hpolygons, hmeet' _ hedge⟩

end Collision

end PlanarDynamics
