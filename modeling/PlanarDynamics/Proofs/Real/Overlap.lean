import PlanarDynamics.Proofs.Real.Incident
import PlanarDynamics.Proofs.Real.Collision

/-!
# Polygons that overlap

Two convex polygons with a common inner point have no separating side, so one of them gets a
reference side, the other an incident side, and the incident side is cut to the reference side's
width.  Nothing is left of it just if it lies beside the reference side, and that is possible only
for a reference side that is not the best of both polygons.  Such a side is taken within
`referenceTolerance` of the best.

So an overlap of any depth may be overlooked, but in one order of the polygons only:
`Collision.isEmpty_polygons_iff_overlooked`.
-/

namespace PlanarDynamics

/-! ## Cutting a segment -/

namespace Vec

theorem crossOut_perp (n : Vec ℝ) : n.perp.crossOut 1 = n := by
  ext
  · simp only [crossOut, perp, one_mul]
  · simp only [crossOut, perp, neg_mul, one_mul, neg_neg]

variable {p q x d : Vec ℝ} {j k l : ℝ}

theorem OnSegment.symm (h : OnSegment p q x) : OnSegment q p x := by
  obtain ⟨k, hk, hk', rfl⟩ := h
  refine ⟨1 - k, by linarith, by linarith, ?_⟩
  ext
  · simp only [add_x, mul_x, sub_x]
    ring
  · simp only [add_y, mul_y, sub_y]
    ring

theorem onSegment_of_le (hj : 0 < j) (hk : 0 ≤ k) (hkj : k ≤ j) :
    OnSegment p (p + (q - p) * j) (p + (q - p) * k) := by
  refine ⟨k / j, div_nonneg hk hj.le, (div_le_one hj).2 hkj, ?_⟩
  ext
  · simp only [add_x, mul_x, sub_x]
    field_simp
    ring
  · simp only [add_y, mul_y, sub_y]
    field_simp
    ring

/-- The point of the line through `p` and `q` at the level `l`. -/
noncomputable def crossing (p q d : Vec ℝ) (l : ℝ) : Vec ℝ :=
  p + (q - p) * ((d.dot p - l) / (d.dot p - l - (d.dot q - l)))

theorem crossing_comm (h : d.dot q ≠ d.dot p) : crossing p q d l = crossing q p d l := by
  have hp : d.dot p - l - (d.dot q - l) ≠ 0 := fun hz ↦ h (by linarith)
  have hq : d.dot q - l - (d.dot p - l) ≠ 0 := fun hz ↦ h (by linarith)
  rw [crossing, crossing]
  ext
  · simp only [add_x, mul_x, sub_x]
    field_simp
    ring
  · simp only [add_y, mul_y, sub_y]
    field_simp
    ring

/-- The part of a segment below a level ends at the crossing. -/
theorem OnSegment.below (h : OnSegment p q x) (hp : d.dot p < l) (hq : l < d.dot q)
    (hx : d.dot x ≤ l) : OnSegment p (crossing p q d l) x := by
  obtain ⟨k, hk, -, rfl⟩ := h
  rw [dot_add, dot_mul, dot_sub] at hx
  refine onSegment_of_le ?_ hk ?_
  · exact div_pos_of_neg_of_neg (by linarith) (by linarith)
  · rw [le_div_iff_of_neg (by linarith)]
    linarith

/-- A segment that reaches into a strip has a point within, not on its upper edge. -/
theorem exists_onSegment_within {m : ℝ} (hml : m < l) (hp : m < d.dot p) (hq : d.dot q < l) :
    ∃ y, OnSegment p q y ∧ m ≤ d.dot y ∧ d.dot y < l := by
  rcases le_or_gt m (d.dot q) with hin | hout
  · exact ⟨q, onSegment_right p q, hin, hq⟩
  · obtain ⟨y, hy, hym⟩ := exists_onSegment (hout.trans hp) hout.le hp.le
    exact ⟨y, hy, hym.ge, hym.trans_lt hml⟩

/-- A segment is nowhere lower than both of its ends. -/
theorem OnSegment.min_dot_le (h : OnSegment p q x) (d : Vec ℝ) :
    Min.min (d.dot p) (d.dot q) ≤ d.dot x := by
  obtain ⟨k, hk, hk', hdot⟩ := h.exists_dot
  rw [hdot]
  obtain hle | hle := le_total (d.dot p) (d.dot q)
  · rw [min_eq_left hle]
    linarith [mul_nonneg hk (sub_nonneg.2 hle)]
  · rw [min_eq_right hle]
    linarith [mul_nonneg (sub_nonneg.2 hk') (sub_nonneg.2 hle)]

end Vec

namespace Collision

section Clip

variable {p q : ClipPoint ℝ} {d : Vec ℝ} {l : ℝ} {i : Nat}

theorem clip_eq_self (hp : d.dot p.point ≤ l) (hq : d.dot q.point ≤ l) :
    clip p q d l i = [p, q] := by
  have hprod : ¬ (d.dot p.point - l) * (d.dot q.point - l) < 0 :=
    not_lt.2 (mul_nonneg_of_nonpos_of_nonpos (sub_nonpos.2 hp) (sub_nonpos.2 hq))
  simp only [clip, sub_nonpos, if_pos hp, if_pos hq, if_neg hprod]
  rfl

/-- What is not within the half-plane, but for an end on its edge, is lost. -/
theorem clip_ne_pair (hp : l ≤ d.dot p.point) (hq : l ≤ d.dot q.point)
    (hne : d.dot q.point ≠ d.dot p.point) (p' q' : ClipPoint ℝ) : clip p q d l i ≠ [p', q'] := by
  have hprod : ¬ (d.dot p.point - l) * (d.dot q.point - l) < 0 :=
    not_lt.2 (mul_nonneg (sub_nonneg.2 hp) (sub_nonneg.2 hq))
  intro h
  have hlen := congrArg List.length h
  simp only [clip, sub_nonpos, if_neg hprod, List.length_append, List.length_nil,
    List.length_cons] at hlen
  split at hlen
  next hp' =>
    split at hlen
    next hq' => exact hne (by linarith)
    · simp at hlen
  · split at hlen <;> simp at hlen

/-- A segment with an end inside the half-plane keeps all that is within. -/
theorem clip_eq_pair (h : d.dot p.point < l ∨ d.dot q.point < l) :
    ∃ p' q', clip p q d l i = [p', q'] ∧ ∀ x, Vec.OnSegment p.point q.point x → d.dot x ≤ l →
      Vec.OnSegment p'.point q'.point x := by
  obtain hp | hp := le_or_gt (d.dot p.point) l
  · obtain hq | hq := le_or_gt (d.dot q.point) l
    · exact ⟨p, q, clip_eq_self hp hq, fun x hx _ ↦ hx⟩
    · have hp' : d.dot p.point < l := h.resolve_right (not_lt.2 hq.le)
      have hprod : (d.dot p.point - l) * (d.dot q.point - l) < 0 :=
        mul_neg_of_neg_of_pos (sub_neg.2 hp') (sub_pos.2 hq)
      simp only [clip, sub_nonpos, if_pos hp, if_neg (not_le.2 hq), if_pos hprod]
      exact ⟨p, _, rfl, fun x hx hxl ↦ hx.below hp' hq hxl⟩
  · have hq : d.dot q.point < l := h.resolve_left (not_lt.2 hp.le)
    have hprod : (d.dot p.point - l) * (d.dot q.point - l) < 0 :=
      mul_neg_of_pos_of_neg (sub_pos.2 hp) (sub_neg.2 hq)
    simp only [clip, sub_nonpos, if_neg (not_le.2 hp), if_pos hq.le, if_pos hprod]
    refine ⟨q, _, rfl, fun x hx hxl ↦ ?_⟩
    have hbelow := hx.symm.below hq hp hxl
    rw [← Vec.crossing_comm (hq.trans hp).ne] at hbelow
    exact hbelow

end Clip

/-! ## The incident side -/

variable {o o' : Outline ℝ} {turn : Vec ℝ → Vec ℝ → Prop} {t u : Pose ℝ} {s e : Side ℝ} {m : ℝ}

/-- The search for the side that faces most against a direction keeps the best so far. -/
theorem exists_foldl_lowers (n : Vec ℝ) (l : List (Side ℝ)) (e₀ : Side ℝ) :
    ∃ e, l.foldl (fun best s ↦
        if Scalar.lowers (n.dot s.normal) best.2 then (s, some (n.dot s.normal)) else best)
          (e₀, some (n.dot e₀.normal)) = (e, some (n.dot e.normal)) ∧
      e ∈ e₀ :: l ∧ ∀ f ∈ e₀ :: l, n.dot e.normal ≤ n.dot f.normal := by
  induction l generalizing e₀ with
  | nil => exact ⟨e₀, rfl, List.mem_cons_self, by simp⟩
  | cons s l ih =>
    rw [List.foldl_cons]
    simp only [Scalar.lowers, decide_eq_true_eq]
    by_cases hlt : n.dot s.normal < n.dot e₀.normal
    · rw [if_pos hlt]
      obtain ⟨e, he, hmem, hle⟩ := ih s
      refine ⟨e, he, List.mem_cons_of_mem _ hmem, fun f hf ↦ ?_⟩
      rcases List.mem_cons.1 hf with rfl | hf
      · exact (hle s List.mem_cons_self).trans hlt.le
      · exact hle f hf
    · rw [if_neg hlt]
      obtain ⟨e, he, hmem, hle⟩ := ih e₀
      refine ⟨e, he, ?_, fun f hf ↦ ?_⟩
      · rcases List.mem_cons.1 hmem with rfl | hmem
        · exact List.mem_cons_self
        · exact List.mem_cons_of_mem _ (List.mem_cons_of_mem _ hmem)
      · rcases List.mem_cons.1 hf with rfl | hf
        · exact hle _ List.mem_cons_self
        rcases List.mem_cons.1 hf with rfl | hf
        · exact (hle e₀ List.mem_cons_self).trans (not_lt.1 hlt)
        · exact hle f (List.mem_cons_of_mem _ hf)

theorem exists_faces (ho : o.sides ≠ []) (n : Vec ℝ) :
    ∃ e, incidentSide? o n = some e ∧ o.Faces n e := by
  cases hsides : o.sides with
  | nil => exact absurd hsides ho
  | cons s₀ rest =>
    obtain ⟨e, he, hmem, hle⟩ := exists_foldl_lowers n rest s₀
    refine ⟨e, ?_, hsides ▸ hmem, hsides ▸ hle⟩
    -- The first side lowers the bound, as there is none yet.
    have hfirst : Scalar.lowers (n.dot s₀.normal) none = true := rfl
    simp only [incidentSide?, hsides, List.foldl_cons, hfirst, if_true, he]

/-! ## What is left of the incident side -/

theorem isEmpty_push (M : Manifold ℝ) (p : ManifoldPoint ℝ) : (M.push p).isEmpty = false := by
  rw [Manifold.push, Manifold.push?]
  split
  · rfl
  · rfl
  next h0 h1 =>
    rw [Option.getD_none, Manifold.isEmpty, beq_eq_false_iff_ne]
    exact h0

/-- Of some points, those that are kept are added. -/
theorem isEmpty_foldl_push {β : Type} {keep : β → Prop} [DecidablePred keep]
    {f : β → ManifoldPoint ℝ} {cs : List β} {M : Manifold ℝ}
    (h : M.isEmpty = false ∨ ∃ c ∈ cs, keep c) :
    (cs.foldl (fun M c ↦ if keep c then M.push (f c) else M) M).isEmpty = false := by
  induction cs generalizing M with
  | nil => simpa using h
  | cons c cs ih =>
    rw [List.foldl_cons]
    refine ih ?_
    split
    · exact .inl (isEmpty_push ..)
    next hc =>
      refine h.imp_right ?_
      rintro ⟨c', hc', hkeep⟩
      obtain rfl | hc' := List.mem_cons.1 hc'
      · exact absurd hkeep hc
      · exact ⟨c', hc', hkeep⟩

theorem rotate_tangent (ho : o.Convex turn) (hs : s ∈ o.sides) :
    t.rotate (s.stop - s.start).normalize = (s.place t).normal.perp := by
  obtain ⟨k, hk, hrun⟩ := ho.run s hs
  have hunit : s.normal.perp.normSq = 1 := (Vec.normSq_perp _).trans (ho.unit s hs)
  rw [hrun, Vec.normalize_mul hunit hk]
  exact (Vec.perp_rotate s.normal t.rotation).symm

/-! The reference side `S` and the incident side `E` are those in the world. -/

variable {S E : Side ℝ} {kind : ManifoldKind} {label : FeaturePair → FeaturePair}

/-- Nothing is left of an incident side beside the reference side. -/
theorem isEmpty_clipAgainst_of_beside (ho : o.Convex turn) (hs : s ∈ o.sides)
    (hinc : incidentSide? o' (u.unrotate (t.rotate s.normal)) = some e) (hS : s.place t = S)
    (hE : e.place u = E) (hwidth : S.normal.cross S.start < S.normal.cross S.stop)
    (hdrop : S.normal.cross E.stop < S.normal.cross E.start)
    (hbeside : S.normal.cross S.stop ≤ S.normal.cross E.stop ∨
      S.normal.cross E.start ≤ S.normal.cross S.start) :
    (clipAgainst s t o' u kind label).isEmpty = true := by
  subst hS hE
  simp only [← Vec.perp_dot] at hwidth hdrop hbeside
  simp only [clipAgainst, hinc, rotate_tangent ho hs]
  obtain hstop | hstart := hbeside
  · rw [clip_eq_self]
    · dsimp only
      split
      next hpair =>
        exact absurd hpair (clip_ne_pair (hstop.trans hdrop.le) hstop hdrop.ne _ _)
      · rfl
    · rw [Vec.neg_dot, neg_le_neg_iff]
      exact (hwidth.trans_le (hstop.trans hdrop.le)).le
    · rw [Vec.neg_dot, neg_le_neg_iff]
      exact (hwidth.trans_le hstop).le
  · split
    next hpair =>
      refine absurd hpair (clip_ne_pair ?_ ?_ ?_ _ _)
      · rw [Vec.neg_dot, neg_le_neg_iff]
        exact hstart
      · rw [Vec.neg_dot, neg_le_neg_iff]
        exact (hdrop.trans_le hstart).le
      · rw [Vec.neg_dot, Vec.neg_dot, ne_eq, neg_inj]
        exact hdrop.ne
    · rfl

/-- Something is left of an incident side that passes behind the reference side. -/
theorem isEmpty_clipAgainst_of_within (ho : o.Convex turn) (hs : s ∈ o.sides)
    (hinc : incidentSide? o' (u.unrotate (t.rotate s.normal)) = some e) (hS : s.place t = S)
    (hE : e.place u = E) (hwidth : S.normal.cross S.start < S.normal.cross S.stop)
    (hstop : S.normal.cross E.stop < S.normal.cross S.stop)
    (hstart : S.normal.cross S.start < S.normal.cross E.start) {x : Vec ℝ}
    (hx : Vec.OnSegment E.start E.stop x) (hxstart : S.normal.cross S.start ≤ S.normal.cross x)
    (hxstop : S.normal.cross x ≤ S.normal.cross S.stop) (hxs : S.separation x ≤ 0) :
    (clipAgainst s t o' u kind label).isEmpty = false := by
  simp only [← Vec.perp_dot] at hwidth hstop hstart hxstart hxstop
  -- The point `y` is what the second cut finds inside, and `x` is left by both cuts.
  obtain ⟨y, hy, hystart, hystop⟩ := Vec.exists_onSegment_within hwidth hstart hstop
  have hcut : ∀ {z}, S.normal.perp.dot S.start ≤ S.normal.perp.dot z →
      (-S.normal.perp).dot z ≤ -S.normal.perp.dot S.start := by
    intro z hz
    rw [Vec.neg_dot]
    exact neg_le_neg hz
  subst hS hE
  simp only [clipAgainst, hinc, rotate_tangent ho hs]
  obtain ⟨p₁, q₁, hclip₁, hseg₁⟩ := clip_eq_pair (i := s.index)
    (p := ⟨u.apply e.start, ⟨s.index.toUInt8, .face, e.index.toUInt8, .vertex⟩⟩)
    (q := ⟨u.apply e.stop, ⟨s.index.toUInt8, .face, e.next.toUInt8, .vertex⟩⟩)
    (d := -(s.place t).normal.perp) (l := -(s.place t).normal.perp.dot (t.apply s.start)) <| by
      rw [Vec.neg_dot, neg_lt_neg_iff]
      exact .inl hstart
  obtain ⟨p₂, q₂, hclip₂, hseg₂⟩ := clip_eq_pair (i := s.next) (p := p₁) (q := q₁)
    (d := (s.place t).normal.perp) (l := (s.place t).normal.perp.dot (t.apply s.stop)) <|
      min_lt_iff.1 (((hseg₁ y hy (hcut hystart)).min_dot_le _).trans_lt hystop)
  simp only [hclip₁, hclip₂]
  refine isEmpty_foldl_push (.inr ?_)
  have hbehind : (s.place t).normal.dot x ≤ (s.place t).normal.dot (s.place t).start := by
    rw [Side.separation, Vec.dot_sub] at hxs
    linarith
  have hleft := hseg₂ x (hseg₁ x hx (hcut hxstart)) hxstop
  simp only [Vec.crossOut_perp, sub_nonpos]
  obtain hp | hq := min_le_iff.1 ((hleft.min_dot_le _).trans hbehind)
  · exact ⟨p₂, by simp, hp⟩
  · exact ⟨q₂, by simp, hq⟩

/-! ## Reference sides of outlines that overlap -/

/-- Of two outlines with a common inner point, the first has a reference side and the second an
incident side.  Nothing is left of the incident side just if it is beside the reference side, and
then the second outline has a better reference side. -/
theorem exists_reference (ho : o.Convex Outline.LeftTurn) (ho' : o'.Convex Outline.LeftTurn)
    {x : Vec ℝ} (hx : (o.place t).Inside x) (hx' : (o'.place u).Inside x) :
    ∃ s m e, greatestSeparation? o t o' u = some (s, m) ∧ m < 0 ∧
      incidentSide? o' (u.unrotate (t.rotate s.normal)) = some e ∧
      (∀ kind label, (clipAgainst s t o' u kind label).isEmpty = true ↔
        (s.place t).Beside (e.place u)) ∧
      ((s.place t).Beside (e.place u) →
        ∀ s' m', greatestSeparation? o' u o t = some (s', m') → m < m') := by
  have hp := ho.place t fun _ _ h ↦ h.rotate t
  have hp' := ho'.place u fun _ _ h ↦ h.rotate u
  obtain ⟨s, m, hsep, hs, hg⟩ := exists_gap (t := t) (u := u) hp.sides_ne_nil hp'.vertices_ne_nil
  obtain ⟨e, hinc, hfaces⟩ := exists_faces hp'.sides_ne_nil (u.unrotate (t.rotate s.normal))
  have hfaces : (o'.place u).Faces (s.place t).normal (e.place u) := hfaces.place
  have hm : m < 0 := by
    obtain ⟨v, hv, hneg⟩ := hp'.exists_separation_neg hx' (hx _ hg.mem)
    exact (hg.le v hv).trans_lt hneg
  have hwidth := hp.cross_start_lt hg.mem
  have hdrop := hfaces.cross_stop_lt hp' (hp.unit _ hg.mem)
  have hiff := hp.beside_iff hg.mem hdrop
  refine ⟨s, m, e, hsep, hm, hinc, fun kind label ↦ ?_, fun hbeside s' m' hsep' ↦ ?_⟩
  · rw [hiff]
    refine ⟨fun hempty ↦ ?_, isEmpty_clipAgainst_of_beside ho hs hinc rfl rfl hwidth hdrop⟩
    by_contra hn
    rw [not_or, not_le, not_le] at hn
    obtain ⟨y, hy, hstart, hstop, hbehind⟩ := hg.exists_within hp hp' hm hfaces
      (hp.exists_separation_neg hx (hx' _ hfaces.mem)) hn.1 hn.2
    rw [isEmpty_clipAgainst_of_within ho hs hinc rfl rfl hwidth hn.1 hn.2 hy hstart hstop
      hbehind] at hempty
    cases hempty
  · obtain ⟨f, hf, hlt⟩ := hg.exists_better hp hp' hm hfaces (hiff.1 hbeside)
    obtain ⟨s'', m'', hsep'', -, hg'⟩ :=
      exists_gap (t := u) (u := t) hp'.sides_ne_nil hp.vertices_ne_nil
    rw [hsep'] at hsep''
    cases hsep''
    obtain ⟨v, hv, hle⟩ := hg'.greatest f hf
    exact (hlt v hv).trans_le hle

/-- The second polygon has the better reference side, but not by enough, and its incident side is
beside the reference side of the first. -/
def Overlooked (a : Polygon ℝ) (t : Pose ℝ) (b : Polygon ℝ) (u : Pose ℝ) : Prop :=
  ∃ s m s' m' e, greatestSeparation? a.toOutline t b.toOutline u = some (s, m) ∧
    greatestSeparation? b.toOutline u a.toOutline t = some (s', m') ∧
    m < m' ∧ m' ≤ m + referenceTolerance ∧
    incidentSide? b.toOutline (u.unrotate (t.rotate s.normal)) = some e ∧
    (s.place t).Beside (e.place u)

/-! ## An overlap that is overlooked -/

theorem exists_wedge : ∃ a : Polygon ℝ,
    Polygon.ofVertices [⟨0, 0⟩, ⟨-4, 0⟩, ⟨-4, -3⟩] = .ok a ∧
      a.toOutline = ⟨[⟨0, 0⟩, ⟨-4, 0⟩, ⟨-4, -3⟩], [⟨0, 1⟩, ⟨-1, 0⟩, ⟨3 / 5, -4 / 5⟩]⟩ := by
  refine Polygon.exists_ofVertices _ _ (by decide) rfl ?_ ?_ ?_
  · norm_num [Polygon.signedArea, Outline.successive, Vec.cross]
  · simp only [Outline.successive, List.cons_append, List.nil_append, List.zip_cons_cons,
      List.zip_nil_left, List.forall_mem_cons]
    refine ⟨Polygon.sideNormal?_eq 4 ?_ ?_ ?_ ?_, Polygon.sideNormal?_eq 3 ?_ ?_ ?_ ?_,
      Polygon.sideNormal?_eq 5 ?_ ?_ ?_ ?_, by simp⟩
    all_goals norm_num
  · norm_num [Outline.successive, Vec.cross]

theorem exists_block : ∃ b : Polygon ℝ,
    Polygon.ofVertices [⟨-9999, 199⟩, ⟨0, -1⟩, ⟨1, -1⟩, ⟨1, 199⟩] = .ok b ∧
      b.toOutline = ⟨[⟨-9999, 199⟩, ⟨0, -1⟩, ⟨1, -1⟩, ⟨1, 199⟩],
        [⟨-200 / 10001, -9999 / 10001⟩, ⟨0, -1⟩, ⟨1, 0⟩, ⟨0, 1⟩]⟩ := by
  refine Polygon.exists_ofVertices _ _ (by decide) rfl ?_ ?_ ?_
  · norm_num [Polygon.signedArea, Outline.successive, Vec.cross]
  · simp only [Outline.successive, List.cons_append, List.nil_append, List.zip_cons_cons,
      List.zip_nil_left, List.forall_mem_cons]
    refine ⟨Polygon.sideNormal?_eq 10001 ?_ ?_ ?_ ?_, Polygon.sideNormal?_eq 1 ?_ ?_ ?_ ?_,
      Polygon.sideNormal?_eq 200 ?_ ?_ ?_ ?_, Polygon.sideNormal?_eq 10000 ?_ ?_ ?_ ?_, by simp⟩
    all_goals norm_num
  · norm_num [Outline.successive, Vec.cross]

section Block

variable {a b : Polygon ℝ} {S E : Side ℝ}
  (hoa : a.toOutline = ⟨[⟨0, 0⟩, ⟨-4, 0⟩, ⟨-4, -3⟩], [⟨0, 1⟩, ⟨-1, 0⟩, ⟨3 / 5, -4 / 5⟩]⟩)
  (hob : b.toOutline = ⟨[⟨-9999, 199⟩, ⟨0, -1⟩, ⟨1, -1⟩, ⟨1, 199⟩],
    [⟨-200 / 10001, -9999 / 10001⟩, ⟨0, -1⟩, ⟨1, 0⟩, ⟨0, 1⟩]⟩)

include hob

/-- The level side of the block faces down most. -/
theorem eq_of_faces_block (he : b.toOutline.Faces ⟨0, 1⟩ E) :
    E = ⟨1, 2, ⟨0, -1⟩, ⟨1, -1⟩, ⟨0, -1⟩⟩ := by
  rw [hob] at he
  have hle := he.le ⟨1, 2, ⟨0, -1⟩, ⟨1, -1⟩, ⟨0, -1⟩⟩ (by simp [Outline.sides, Outline.successive])
  have hmem := he.mem
  simp only [Outline.sides, Outline.successive, List.cons_append, List.nil_append,
    List.zip_cons_cons, List.zip_nil_left, List.zipIdx_cons, List.zipIdx_nil, List.map_cons,
    List.map_nil, List.mem_cons, List.not_mem_nil, or_false] at hmem
  rcases hmem with rfl | rfl | rfl | rfl
  · norm_num [Vec.dot] at hle
  · rfl
  · norm_num [Vec.dot] at hle
  · norm_num [Vec.dot] at hle

include hoa

/-- The reference side of the wedge is its top. -/
theorem eq_of_gap_wedge (hg : a.toOutline.Gap b.toOutline S m) :
    S = ⟨0, 1, ⟨0, 0⟩, ⟨-4, 0⟩, ⟨0, 1⟩⟩ ∧ m = -1 := by
  rw [hoa, hob] at hg
  have hS := hg.eq_of_lt (r := ⟨0, 1, ⟨0, 0⟩, ⟨-4, 0⟩, ⟨0, 1⟩⟩) (v := ⟨0, -1⟩)
    (by simp [Outline.sides, Outline.successive]) (by simp)
    (by norm_num [Side.separation, Vec.dot])
    (by norm_num [Outline.sides, Outline.successive, Side.separation, Vec.dot])
  refine ⟨hS.1, hS.2.trans ?_⟩
  norm_num [Side.separation, Vec.dot]

/-- The reference side of the block is the tilted one. -/
theorem eq_of_gap_block (hg : b.toOutline.Gap a.toOutline S m) : m = -9999 / 10001 := by
  rw [hoa, hob] at hg
  have hS := hg.eq_of_lt (v := ⟨0, 0⟩)
    (r := ⟨0, 1, ⟨-9999, 199⟩, ⟨0, -1⟩, ⟨-200 / 10001, -9999 / 10001⟩⟩)
    (by simp [Outline.sides, Outline.successive]) (by simp)
    (by norm_num [Side.separation, Vec.dot])
    (by norm_num [Outline.sides, Outline.successive, Side.separation, Vec.dot])
  refine hS.2.trans ?_
  norm_num [Side.separation, Vec.dot]

theorem overlooked_block : Overlooked a .identity b .identity := by
  have hsa : a.toOutline.sides ≠ [] := by simp [hoa, Outline.sides, Outline.successive]
  have hsb : b.toOutline.sides ≠ [] := by simp [hob, Outline.sides, Outline.successive]
  obtain ⟨s, m, hsep, -, hg⟩ :=
    exists_gap (t := .identity) (u := .identity) hsa (by simp [hob] : b.toOutline.vertices ≠ [])
  obtain ⟨s', m', hsep', -, hg'⟩ :=
    exists_gap (t := .identity) (u := .identity) hsb (by simp [hoa] : a.toOutline.vertices ≠ [])
  obtain ⟨e, hinc, hfaces⟩ :=
    exists_faces hsb (Pose.identity.unrotate (Pose.identity.rotate s.normal))
  have hfaces : (b.toOutline.place .identity).Faces (s.place .identity).normal
      (e.place .identity) := hfaces.place
  simp only [Outline.place_identity] at hg hg' hfaces
  obtain ⟨hs, rfl⟩ := eq_of_gap_wedge hoa hob hg
  obtain rfl := eq_of_gap_block hoa hob hg'
  rw [hs] at hfaces
  have he := eq_of_faces_block hob hfaces
  refine ⟨s, _, s', _, e, hsep, hsep', ?_, ?_, hinc, ?_⟩
  · norm_num
  · norm_num [referenceTolerance]
  · rw [hs, he]
    refine .inr ?_
    rintro x (rfl | rfl)
    · norm_num [Vec.dot]
    · norm_num [Vec.dot]

end Block

/-! ## Contact of polygons that overlap -/

theorem referenceTolerance_pos : (0 : ℝ) < referenceTolerance := by
  rw [referenceTolerance]
  norm_num

/-- **Polygons that overlap** have a contact point, unless the first polygon's reference side is
taken in place of a slightly better one and the incident side is beside it.  Then they have one with
the polygons exchanged. -/
theorem isEmpty_polygons_iff_overlooked {a b : Polygon ℝ} (ha : (Shape.polygon a).Proper)
    (hb : (Shape.polygon b).Proper) {x : Vec ℝ} (hxa : (a.toOutline.place t).Inside x)
    (hxb : (b.toOutline.place u).Inside x) :
    ((polygons a t b u).isEmpty = true ↔ Overlooked a t b u) ∧
      ((polygons a t b u).isEmpty = true → (polygons b u a t).isEmpty = false) := by
  obtain ⟨⟨_, hoka⟩, hbehinda⟩ := ha
  obtain ⟨⟨_, hokb⟩, hbehindb⟩ := hb
  have hca := Polygon.convex hoka hbehinda
  have hcb := Polygon.convex hokb hbehindb
  obtain ⟨s, m, e, hsep, hm, hinc, hiff, hlt⟩ := exists_reference hca hcb hxa hxb
  obtain ⟨s', m', e', hsep', hm', -, hiff', hlt'⟩ := exists_reference hcb hca hxb hxa
  have htol := referenceTolerance_pos
  have hempty : (polygons a t b u).isEmpty = true ↔
      m < m' ∧ m' ≤ m + referenceTolerance ∧ (s.place t).Beside (e.place u) := by
    simp only [polygons, outlines, hsep, hsep', if_neg hm.not_gt, if_neg hm'.not_gt]
    split
    next hbetter =>
      -- The side taken is the best of both, so the incident side is not beside it.
      rw [hiff']
      refine ⟨fun hbeside ↦ ?_, fun h ↦ absurd h.2.1 (not_le.2 hbetter)⟩
      linarith [hlt' hbeside s m hsep]
    next hbetter =>
      rw [hiff]
      exact ⟨fun hbeside ↦ ⟨hlt hbeside s' m' hsep', not_lt.1 hbetter, hbeside⟩, fun h ↦ h.2.2⟩
  refine ⟨hempty.trans ⟨?_, ?_⟩, fun h ↦ ?_⟩
  · rintro ⟨hmm, hle, hbeside⟩
    exact ⟨s, m, s', m', e, hsep, hsep', hmm, hle, hinc, hbeside⟩
  · rintro ⟨s₁, m₁, s₂, m₂, e₁, h₁, h₂, hmm, hle, he₁, hbeside⟩
    rw [hsep] at h₁
    rw [hsep'] at h₂
    cases h₁
    cases h₂
    rw [hinc] at he₁
    cases he₁
    exact ⟨hmm, hle, hbeside⟩
  · have hmm := (hempty.1 h).1
    have hfirst : ¬ m' + referenceTolerance < m := by linarith
    simp only [polygons, outlines, hsep, hsep', if_neg hm.not_gt, if_neg hm'.not_gt,
      if_neg hfirst]
    rw [Bool.eq_false_iff, ne_eq, hiff']
    exact fun hbeside ↦ (hlt' hbeside s m hsep).not_gt hmm

/-- A wedge, and a block whose base is level beside the top of the wedge and tilted over the wedge,
one unit deep in it.  They have a contact in one order only. -/
theorem isEmpty_wedge_block : ∃ a b : Polygon ℝ,
    Polygon.ofVertices [⟨0, 0⟩, ⟨-4, 0⟩, ⟨-4, -3⟩] = .ok a ∧
    Polygon.ofVertices [⟨-9999, 199⟩, ⟨0, -1⟩, ⟨1, -1⟩, ⟨1, 199⟩] = .ok b ∧
    (Shape.polygon a).Proper ∧ (Shape.polygon b).Proper ∧
    (a.toOutline.place .identity).Inside ⟨-2, -1 / 2⟩ ∧
    (b.toOutline.place .identity).Inside ⟨-2, -1 / 2⟩ ∧
    (polygons a .identity b .identity).isEmpty = true ∧
    (polygons b .identity a .identity).isEmpty = false := by
  obtain ⟨a, hoka, hoa⟩ := exists_wedge
  obtain ⟨b, hokb, hob⟩ := exists_block
  have hpa : (Shape.polygon a).Proper := by
    refine ⟨⟨_, hoka⟩, ?_⟩
    rw [hoa]
    norm_num [Outline.sides, Outline.successive, Side.separation, Vec.dot]
  have hpb : (Shape.polygon b).Proper := by
    refine ⟨⟨_, hokb⟩, ?_⟩
    rw [hob]
    norm_num [Outline.sides, Outline.successive, Side.separation, Vec.dot]
  have hxa : (a.toOutline.place .identity).Inside ⟨-2, -1 / 2⟩ := by
    rw [hoa, Outline.place_identity]
    norm_num [Outline.Inside, Outline.sides, Outline.successive, Side.separation, Vec.dot]
  have hxb : (b.toOutline.place .identity).Inside ⟨-2, -1 / 2⟩ := by
    rw [hob, Outline.place_identity]
    norm_num [Outline.Inside, Outline.sides, Outline.successive, Side.separation, Vec.dot]
  obtain ⟨hiff, hexchanged⟩ := isEmpty_polygons_iff_overlooked hpa hpb hxa hxb
  have hempty := hiff.2 (overlooked_block hoa hob)
  exact ⟨a, b, hoka, hokb, hpa, hpb, hxa, hxb, hempty, hexchanged hempty⟩

end Collision

end PlanarDynamics
