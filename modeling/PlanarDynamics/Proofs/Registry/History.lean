import PlanarDynamics.Proofs.Collision.Features
import PlanarDynamics.Proofs.Collision.Mirror
import PlanarDynamics.Proofs.Registry.State

/-!
# The history of contact points

When a contact is updated, its points are found anew and get the impulses of those points of the
old manifold that have the same features.  As no rule finds two points with the same features, and
neither writing impulses nor carrying them over touches features, the points of a manifold are told
apart at all times.  So a point gets the impulses of one point at most, and gives its own to one at
most: `Registry.inherits_run`.
-/

namespace PlanarDynamics

variable {α : Type} [Scalar α]

/-! ## Carrying impulses over -/

namespace Manifold

variable {m old : Manifold α}

/-- No two points have the same features. -/
def Distinct (m : Manifold α) : Prop := m.points.Pairwise fun p q ↦ p.id ≠ q.id

theorem Pristine.toDistinct (h : m.Pristine) : m.Distinct :=
  h.distinct.imp fun hne he ↦ hne (congrArg FeaturePair.key he)

theorem distinct_empty : (empty : Manifold α).Distinct := .nil

theorem distinct_bare_iff : m.bare.Distinct ↔ m.Distinct := by
  rw [Distinct, points_bare, List.pairwise_map]
  exact Iff.rfl

theorem Distinct.carryFrom (h : m.Distinct) (old : Manifold α) : (m.carryFrom old).Distinct := by
  rw [← distinct_bare_iff, bare_carryFrom, distinct_bare_iff]
  exact h

theorem Distinct.writeImpulses (h : m.Distinct) (i : ContactImpulse α) :
    (m.writeImpulses i).Distinct := by
  rw [← distinct_bare_iff, bare_writeImpulses, distinct_bare_iff]
  exact h

omit [Scalar α] in
/-- Points that are told apart are found by their features. -/
theorem Distinct.find?_eq_some (h : old.Distinct) {q : ManifoldPoint α} (hq : q ∈ old.points) :
    old.find? q.id = some q := by
  rw [Distinct] at h
  rw [find?]
  generalize old.points = ps at h hq
  induction ps with
  | nil => cases hq
  | cons p ps ih =>
    obtain ⟨hp, hps⟩ := List.pairwise_cons.1 h
    rcases List.mem_cons.1 hq with rfl | hq
    · exact List.find?_cons_of_pos (by simp)
    · rw [List.find?_cons_of_neg (by simpa using hp q hq)]
      exact ih hps hq

omit [Scalar α] in
theorem mapPoints_congr {f g : ManifoldPoint α → ManifoldPoint α}
    (h : ∀ p ∈ m.points, f p = g p) : m.mapPoints f = m.mapPoints g := by
  match hcount : m.count with
  | 0 => simp [mapPoints, hcount]
  | 1 =>
    simp only [points, hcount, List.take_succ_cons, List.take_zero, List.forall_mem_singleton] at h
    simp [mapPoints, hcount, h]
  | n + 2 =>
    simp only [points, hcount, List.take_succ_cons, List.take_nil, List.forall_mem_cons] at h
    simp [mapPoints, hcount, h.1, h.2.1]

/-- The manifold is `fresh` with the impulses of `old`.  Where a point has the features of one of
`old` it has its impulses, elsewhere none; and no two points have the same features, so that none
shares its history with another. -/
structure Inherits (m old fresh : Manifold α) : Prop where
  kept : ∀ p ∈ m.points, ∀ q ∈ old.points, q.id = p.id →
    p.normalImpulse = q.normalImpulse ∧ p.tangentImpulse = q.tangentImpulse
  new : ∀ p ∈ m.points, (∀ q ∈ old.points, q.id ≠ p.id) →
    p.normalImpulse = 0 ∧ p.tangentImpulse = 0
  once : m.Distinct
  rest : m.clearImpulses = fresh

theorem id_inherit (old : Manifold α) (p : ManifoldPoint α) : (old.inherit p).id = p.id := by
  rw [inherit]
  split <;> rfl

theorem setImpulses_inherit (old : Manifold α) (p : ManifoldPoint α) (x y : α) :
    (old.inherit p).setImpulses x y = p.setImpulses x y := by
  rw [inherit]
  split <;> rfl

theorem clearImpulses_carryFrom (m old : Manifold α) :
    (m.carryFrom old).clearImpulses = m.clearImpulses := by
  rw [clearImpulses, carryFrom, mapPoints_mapPoints]
  exact mapPoints_congr fun p _ ↦ old.setImpulses_inherit p 0 0

theorem Pristine.clearImpulses_eq (h : m.Pristine) : m.clearImpulses = m := by
  refine (mapPoints_congr fun p hp ↦ ?_).trans m.mapPoints_id
  obtain ⟨hn, ht⟩ := h.unloaded p hp
  exact ManifoldPoint.ext rfl hn.symm ht.symm rfl

theorem Pristine.inherits_carryFrom (h : m.Pristine) (hold : old.Distinct) :
    (m.carryFrom old).Inherits old m where
  kept p hp q hq hid := by
    rw [carryFrom, points_mapPoints] at hp
    obtain ⟨p₀, -, rfl⟩ := List.mem_map.1 hp
    rw [id_inherit] at hid
    rw [inherit, ← hid, hold.find?_eq_some hq]
    exact ⟨rfl, rfl⟩
  new p hp hnew := by
    rw [carryFrom, points_mapPoints] at hp
    obtain ⟨p₀, -, rfl⟩ := List.mem_map.1 hp
    rw [id_inherit] at hnew
    have hnone : old.find? p₀.id = none := List.find?_eq_none.2 (by simpa using hnew)
    rw [inherit, hnone]
    exact ⟨rfl, rfl⟩
  once := h.toDistinct.carryFrom old
  rest := (m.clearImpulses_carryFrom old).trans h.clearImpulses_eq

/-- Where there is no history, there is nothing to carry over. -/
theorem Pristine.carryFrom_empty (h : m.Pristine) : m.carryFrom .empty = m := by
  refine Eq.trans ?_ h.clearImpulses_eq
  rfl

theorem pristine_empty : (empty : Manifold α).Pristine :=
  (labelled_of_isEmpty rfl 0 0).toPristine

theorem pristine_single (kind : ManifoldKind) (n x y : Vec α) (id : FeaturePair) :
    (single kind n x (.fresh y id)).Pristine := by
  have hpoints : (single kind n x (.fresh y id)).points = [.fresh y id] := rfl
  refine ⟨?_, ?_⟩ <;> rw [hpoints]
  · exact List.pairwise_singleton _ _
  · rw [List.forall_mem_singleton]
    exact ⟨rfl, rfl⟩

end Manifold

/-! ## What the rules find -/

namespace Collision

open PlanarDynamics.Manifold

theorem pristine_circles (a : Circle α) (t : Pose α) (b : Circle α) (u : Pose α) :
    (circles a t b u).Pristine := by
  simp only [circles]
  split
  · exact pristine_empty
  · exact pristine_single ..

theorem pristine_polygonCircle (a : Polygon α) (t : Pose α) (b : Circle α) (u : Pose α) :
    (polygonCircle a t b u).Pristine := by
  simp only [polygonCircle]
  repeat' split
  all_goals simp only [pristine_empty, pristine_single]

theorem pristine_edgeCircle (a : Edge α) (t : Pose α) (b : Circle α) (u : Pose α) :
    (edgeCircle a t b u).Pristine := by
  simp only [edgeCircle]
  repeat' split
  all_goals simp only [pristine_empty, pristine_single]

end Collision

/-- The points that a rule finds are told apart and have no impulses yet. -/
theorem PairKind.pristine_collide (k : PairKind) (a : Shape α) (t : Pose α) (b : Shape α)
    (u : Pose α) : (k.collide a t b u).Pristine := by
  unfold collide
  split
  · exact Collision.pristine_circles ..
  · exact Collision.pristine_polygonCircle ..
  · exact (Collision.labelled_outlines (Collision.numbered_polygon _)
      (Collision.numbered_polygon _)).toPristine
  · exact Collision.pristine_edgeCircle ..
  · exact (Collision.labelled_edgePolygon _ _).toPristine
  · exact Manifold.pristine_empty

/-! ## One contact -/

namespace Contact

variable {c : Contact α}

/-- The contact has a rule of the standard table, and its points are told apart. -/
structure Traceable (c : Contact α) : Prop where
  collide : ∃ k : PairKind, c.collide = k.collide
  distinct : c.manifold.Distinct

theorem Traceable.pristine_evaluateFinite (h : c.Traceable) (shapeA : Shape α) (poseA : Pose α)
    (shapeB : Shape α) (poseB : Pose α) :
    (c.evaluateFinite shapeA poseA shapeB poseB).Pristine := by
  obtain ⟨k, hk⟩ := h.collide
  rw [evaluateFinite]
  split
  · rw [evaluate, hk]
    exact k.pristine_collide ..
  · exact Manifold.pristine_empty

theorem Traceable.change (h : c.Traceable) (how : Change α) : (c.change how).Traceable := by
  refine ⟨c.collide_change how ▸ h.collide, ?_⟩
  cases how with
  | update shapeA poseA shapeB poseB =>
    change (c.update shapeA poseA shapeB poseB).1.manifold.Distinct
    simp only [update]
    split
    · exact Manifold.distinct_empty
    · exact (h.pristine_evaluateFinite shapeA poseA shapeB poseB).toDistinct.carryFrom c.manifold
  | writeImpulses i => exact h.distinct.writeImpulses i
  | setEnabled | flag | unflag => exact h.distinct

/-- An update carries the impulses over. -/
theorem Traceable.inherits_update (h : c.Traceable) (hs : c.sensor = false) (shapeA : Shape α)
    (poseA : Pose α) (shapeB : Shape α) (poseB : Pose α) :
    (c.update shapeA poseA shapeB poseB).1.manifold.Inherits c.manifold
      (c.evaluateFinite shapeA poseA shapeB poseB) := by
  rw [manifold_update hs]
  exact (h.pristine_evaluateFinite shapeA poseA shapeB poseB).inherits_carryFrom h.distinct

/-- The first update of a contact finds nothing to carry over. -/
theorem Traceable.manifold_update_of_fresh (h : c.Traceable) (hfresh : c.Fresh)
    (hs : c.sensor = false) (shapeA : Shape α) (poseA : Pose α) (shapeB : Shape α)
    (poseB : Pose α) : (c.update shapeA poseA shapeB poseB).1.manifold =
      c.evaluateFinite shapeA poseA shapeB poseB := by
  rw [manifold_update hs, hfresh.manifold]
  exact (h.pristine_evaluateFinite shapeA poseA shapeB poseB).carryFrom_empty

end Contact

/-! ## All contacts of a run -/

namespace Registry

variable {r : Registry α}

theorem traceable_of_build (hr : r.rules = .standard) {a b : ColliderId × Collider α}
    {c : Contact α} (hb : r.build a b = .ok c) : c.Traceable where
  collide := by
    obtain ⟨x, y, rule, hfound, hcollide⟩ := exists_rule_of_build hb
    rw [hr] at hfound
    exact ⟨rule.kind, hcollide.trans (RuleTable.collide_of_standard hfound)⟩
  distinct := by
    rw [(of_build_eq_ok hb).1.manifold]
    exact Manifold.distinct_empty

theorem traceable_run (friction restitution : Mixing) (requests : List (Request α)) {h : Handle}
    {c : Contact α} (hc : ((empty .standard friction restitution).run requests).get? h = some c) :
    c.Traceable := by
  have hbuild : ∀ (r : Registry α) a b c, (empty .standard friction restitution).SameRules r →
      r.build a b = .ok c → c.Traceable :=
    fun r a b c hsame hb ↦ traceable_of_build hsame.1 hb
  refine forall_run_of_sameRules hbuild (fun c how hc ↦ hc.change how)
    (fun c _ _ hc ↦ ⟨hc.collide, hc.distinct⟩) (wf_empty .standard friction restitution)
    ⟨rfl, rfl, rfl⟩ (fun h c hc ↦ ?_) requests h c hc
  simp [empty, get?] at hc

theorem get?_act_change {h : Handle} {c : Contact α} (hc : r.get? h = some c)
    (how : Contact.Change α) : (r.act (.change h how)).get? h = some (c.change how) := by
  rw [act, get?_modify, if_pos rfl, hc]
  rfl

/-- **Impulses are carried over without loss, invention or duplication.** Whatever has been done to
a registry with the standard rules, an update of a contact that is not a sensor leaves what is found
anew, or nothing if that has points and is not finite, with the impulses of those points that were
there just before, under the same features.  A contact that is reset has no points, and what its
next update finds has no impulses. -/
theorem inherits_run (friction restitution : Mixing) (requests : List (Request α)) (h : Handle) :
    let r := (empty (.standard : RuleTable α) friction restitution).run requests
    (∀ c, r.get? h = some c → c.sensor = false → ∀ shapeA poseA shapeB poseB,
      let found := c.evaluate shapeA poseA shapeB poseB
      ∃ c', (r.act (.change h (.update shapeA poseA shapeB poseB))).get? h = some c' ∧
        c'.manifold.Inherits c.manifold
          (if found.isEmpty || c.isFinite found poseA poseB then found else .empty)) ∧
    ∀ a b r', r.reset h a b = .ok r' → ∃ c, r'.get? h = some c ∧ c.manifold = .empty ∧
      (c.sensor = false → ∀ shapeA poseA shapeB poseB,
        let found := c.evaluate shapeA poseA shapeB poseB
        (c.update shapeA poseA shapeB poseB).1.manifold =
          if found.isEmpty || c.isFinite found poseA poseB then found else .empty) := by
  intro r
  refine ⟨fun c hc hs shapeA poseA shapeB poseB ↦ ?_, fun a b r' hreset ↦ ?_⟩
  · exact ⟨_, get?_act_change hc (.update shapeA poseA shapeB poseB),
      (traceable_run friction restitution requests hc).inherits_update hs ..⟩
  · obtain ⟨-, old, c, hold, -, hb, rfl⟩ := reset_eq_ok_iff.1 hreset
    have hrules := (sameRules_run (empty .standard friction restitution) requests).1
    have hfresh := (of_build_eq_ok hb).1
    refine ⟨c, by rw [get?_rebind hold, if_pos rfl], hfresh.manifold, fun hs _ _ _ _ ↦ ?_⟩
    exact (traceable_of_build hrules hb).manifold_update_of_fresh hfresh hs ..

/-- Two discs: their contact is updated, solved, updated again, and at last reset. -/
theorem inherits_discs : ∃ (a b : ColliderId × Collider ℝ) (c c' : Contact ℝ) (r' : Registry ℝ),
    let h : Handle := ⟨0, 0⟩
    let touch : Request ℝ := .change h (.update a.2.shape .identity b.2.shape .identity)
    let r := (empty (.standard : RuleTable ℝ) .max .max).run
      [.create a b, touch, .change h (.writeImpulses ⟨⟨3, 1⟩, ⟨0, 0⟩, 1⟩)]
    r.get? h = some c ∧ c.sensor = false ∧ c.manifold.points = [⟨0, 3, 1, .first⟩] ∧
      (r.act touch).get? h = some c' ∧ c'.manifold.points = [⟨0, 3, 1, .first⟩] ∧
      r.reset h a b = .ok r' ∧ ∃ c'', r'.get? h = some c'' ∧ c''.manifold = .empty := by
  let disc : Shape ℝ := .circle ⟨1, 0⟩
  let a : ColliderId × Collider ℝ := (0, ⟨disc, .default, .default, false, some 0⟩)
  let b : ColliderId × Collider ℝ := (1, ⟨disc, .default, .default, false, some 1⟩)
  let r₀ : Registry ℝ := empty .standard .max .max
  obtain ⟨c₀, hb, hcollide, hs⟩ : ∃ c, r₀.build a b = .ok c ∧
      c.collide = PairKind.circles.collide ∧ c.sensor = false := ⟨_, rfl, rfl, rfl⟩
  have hfind : r₀.find? 0 1 = none := by simp [r₀, find?, empty]
  have hcreate : r₀.create a b = .ok (⟨0, 0⟩, r₀.enroll c₀) :=
    create_eq_ok_iff.2 ⟨by decide, .inr ⟨hfind, c₀, hb, rfl, rfl⟩⟩
  have hget : (r₀.act (.create a b)).get? ⟨0, 0⟩ = some c₀ := by
    rw [act, hcreate]
    rfl
  have hfound : c₀.evaluateFinite disc .identity disc .identity =
      .single .circles 0 0 (.fresh 0 .first) := by
    have hnear : ¬ ((1 : ℝ) + 1) * (1 + 1) <
        (Pose.identity.apply 0).distSq (Pose.identity.apply 0) := by
      norm_num [Vec.distSq, Vec.normSq, Vec.dot]
    have hcircles : c₀.evaluate disc .identity disc .identity =
        .single .circles 0 0 (.fresh 0 .first) := by
      rw [Contact.evaluate, hcollide]
      exact if_neg hnear
    rw [Contact.evaluateFinite, hcircles]
    rfl
  let c₁ := (c₀.update disc .identity disc .identity).1
  let c := c₁.change (.writeImpulses ⟨⟨3, 1⟩, ⟨0, 0⟩, 1⟩)
  let requests : List (Request ℝ) := [.create a b,
    .change ⟨0, 0⟩ (.update disc .identity disc .identity),
    .change ⟨0, 0⟩ (.writeImpulses ⟨⟨3, 1⟩, ⟨0, 0⟩, 1⟩)]
  have hc : (r₀.run requests).get? ⟨0, 0⟩ = some c :=
    get?_act_change (get?_act_change hget (.update disc .identity disc .identity)) _
  have hpoints : c.manifold.points = [⟨0, 3, 1, .first⟩] := by
    have hfirst : c₁.manifold = .single .circles 0 0 (.fresh 0 .first) := by
      rw [Contact.manifold_update hs, hfound, (of_build_eq_ok hb).1.manifold]
      exact (Manifold.pristine_single ..).carryFrom_empty
    change (c₁.manifold.writeImpulses _).points = _
    rw [hfirst]
    rfl
  obtain ⟨hinherits, hreset⟩ := inherits_run .max .max requests ⟨0, 0⟩
  -- The one point found by the second update has the features of the one that was solved.
  obtain ⟨c', hc', hinherits⟩ := hinherits c hc hs disc .identity disc .identity
  have hpoints' : c'.manifold.points = [⟨0, 3, 1, .first⟩] := by
    have hcleared := congrArg Manifold.points (hinherits.rest.trans hfound)
    rw [Manifold.clearImpulses, Manifold.points_mapPoints] at hcleared
    obtain ⟨p, hp, hpoint⟩ := List.map_eq_singleton_iff.1 hcleared
    have hplace : p.localPoint = 0 := congrArg ManifoldPoint.localPoint hpoint
    have hid : p.id = .first := congrArg ManifoldPoint.id hpoint
    obtain ⟨hn, ht⟩ := hinherits.kept p (hp ▸ List.mem_singleton_self p) ⟨0, 3, 1, .first⟩
      (hpoints ▸ List.mem_singleton_self _) hid.symm
    rw [hp, List.singleton_inj]
    exact ManifoldPoint.ext hplace hn ht hid
  have hreset' : (r₀.run requests).reset ⟨0, 0⟩ a b =
      .ok ((r₀.run requests).rebind ⟨0, 0⟩ c c₀) := by
    obtain ⟨hrules, hfriction, hrestitution⟩ := sameRules_run r₀ requests
    refine reset_eq_ok_iff.2 ⟨by decide, c, c₀, hc, .inl (of_build_eq_ok hb).2.1.symm, ?_, rfl⟩
    rw [build, hrules, hfriction, hrestitution]
    exact hb
  obtain ⟨c'', hc'', hempty, -⟩ := hreset a b _ hreset'
  exact ⟨a, b, c, c', _, hc, hs, hpoints, hc', hpoints', hreset', c'', hc'', hempty⟩

end Registry

end PlanarDynamics
