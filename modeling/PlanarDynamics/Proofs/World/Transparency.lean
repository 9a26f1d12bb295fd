import PlanarDynamics.Proofs.Collision.Mirror
import PlanarDynamics.Proofs.Real.Collision
import PlanarDynamics.Proofs.Real.Manifold
import PlanarDynamics.Proofs.World.Sensor

/-!
# The grid loses nothing

A step looks for touching colliders only among pairs whose boxes are found to overlap, keeps boxes
for longer than they are exact, and keeps contacts for as long as the grid reports no change.  Over
the real numbers none of this shows: the pairs with a contact that touches are those that come out
if every two colliders are tried with the rule for their shapes.
-/

namespace PlanarDynamics

namespace World

section

variable {α σ : Type} [Scalar α] {w : World α σ} {p : Pair}

/-! ## Trying every two colliders -/

/-- The colliders of a pair may touch, and the rule for their shapes finds that they do. -/
def Collides (w : World α σ) (p : Pair) : Prop :=
  w.mayTouch p.lo p.hi = true ∧ ∃ (a b : Collider α) (i j : BodyId) (x y : Body α) (r : Rule α),
    w.colliders[p.lo]? = some a ∧ w.colliders[p.hi]? = some b ∧
    a.body = some i ∧ b.body = some j ∧ w.bodies[i]? = some x ∧ w.bodies[j]? = some y ∧
    RuleTable.standard.rule? a.kind b.kind = some r ∧
    (r.manifold a.shape x.pose b.shape y.pose).isEmpty = false

theorem collides_iff {a b : Collider α} {i j : BodyId} {x y : Body α} {r : Rule α}
    (ha : w.colliders[p.lo]? = some a) (hb : w.colliders[p.hi]? = some b) (hi : a.body = some i)
    (hj : b.body = some j) (hx : w.bodies[i]? = some x) (hy : w.bodies[j]? = some y)
    (hr : RuleTable.standard.rule? a.kind b.kind = some r) :
    w.Collides p ↔ w.mayTouch p.lo p.hi = true ∧
      (r.manifold a.shape x.pose b.shape y.pose).isEmpty = false := by
  constructor
  · rintro ⟨hm, a', b', i', j', x', y', r', ha', hb', hi', hj', hx', hy', hr', he⟩
    cases ha.symm.trans ha'
    cases hb.symm.trans hb'
    cases hi.symm.trans hi'
    cases hj.symm.trans hj'
    cases hx.symm.trans hx'
    cases hy.symm.trans hy'
    cases hr.symm.trans hr'
    exact ⟨hm, he⟩
  · rintro ⟨hm, he⟩
    exact ⟨hm, a, b, i, j, x, y, r, ha, hb, hi, hj, hx, hy, hr, he⟩

/-- A contact touches after an update exactly if it was not put aside and its new manifold has
points. -/
theorem touches_refreshed_iff (hw : w.Wf) : w.refreshed.Touches p ↔
    ∃ h c, w.contacts.get? h = some c ∧ c.pair = p ∧ w.refuses c = false ∧
      (w.renewed c).touching = true := by
  constructor
  · rintro ⟨h, c', hc', hp, ht⟩
    have hr := get?_refreshed hw h
    rw [hc', Option.map_some, eq_comm, Option.bind_eq_some_iff] at hr
    obtain ⟨c, hc, he⟩ := hr
    split at he
    · cases he
    next hn =>
      have he := Option.some.inj he
      refine ⟨h, c, hc, ?_, by simpa using hn, ?_⟩
      · rw [← hp, ← Contact.pair_eq_of_base (base_renewed (w := w) c), he]
        rfl
      · rw [he]
        exact ht
  · rintro ⟨h, c, hc, hp, hn, ht⟩
    have hr := get?_refreshed hw h
    rw [hc, Option.bind_some, if_neg (by simp [hn]), Option.map_eq_some_iff] at hr
    obtain ⟨c', hc', he⟩ := hr
    refine ⟨h, c', hc', ?_, ?_⟩
    · rw [← hp, ← Contact.pair_eq_of_base (base_renewed (w := w) c), ← he]
      rfl
    · rw [← ht, ← he]
      rfl

/-- Shapes of different kinds have the same rule in either order, once as it expects them. -/
theorem rule?_standard_swap {x y : ShapeKind} {k : PairKind} {f : Collide α} (hne : x ≠ y)
    (h : (RuleTable.standard (α := α)).rule? x y = some ⟨k, f, true⟩) :
    (RuleTable.standard (α := α)).rule? y x = some ⟨k, f, false⟩ := by
  rw [RuleTable.mirrored_standard x y hne, h]
  rfl

end

variable {σ : Type} {w w' : World ℝ σ} {p : Pair} {x y : ℝ}

/-! ## Contacts over the real numbers -/

/-- Nothing is dropped for want of a finite number. -/
theorem evaluateFinite_eq (c : Contact ℝ) (a : Shape ℝ) (t : Pose ℝ) (b : Shape ℝ) (u : Pose ℝ) :
    c.evaluateFinite a t b u = c.collide a t b u := by
  simp [Contact.evaluateFinite, Contact.evaluate, Contact.isFinite]

/-- The contact of a pair whose colliders may touch tells after its update what the rule finds. -/
theorem touching_renewed_iff (hw : w.Wf) {h : Handle} {c : Contact ℝ}
    (hc : w.contacts.get? h = some c) (ha : w.Allows c.pair) :
    (w.renewed c).touching = true ↔ w.Collides c.pair := by
  obtain ⟨a, b, x, y, hA, hB, hx, hy, hj⟩ := hw.exists_sides hc
  have htouch : (w.renewed c).touching = !(c.collide a.shape x.pose b.shape y.pose).isEmpty := by
    simp only [renewed, updated, hx, hy, hA, hB, Contact.update, evaluateFinite_eq]
  rw [htouch, Bool.not_eq_true']
  by_cases hle : c.colliderA ≤ c.colliderB
  · have hpair : c.pair = ⟨c.colliderA, c.colliderB, hle⟩ := dif_pos hle
    rw [hpair] at ha ⊢
    rw [collides_iff hA hB hj.bodyA hj.bodyB hx hy hj.rule]
    exact (and_iff_right ha).symm
  · -- The colliders stand in the other order, so their kinds differ and the rule is turned around.
    have hpair : c.pair = ⟨c.colliderB, c.colliderA, Nat.le_of_not_le hle⟩ := dif_neg hle
    have hswap := rule?_standard_swap (fun he ↦ hle (hj.ordered he)) hj.rule
    rw [hpair] at ha ⊢
    rw [collides_iff hB hA hj.bodyB hj.bodyA hy hx hswap]
    exact (and_iff_right ha).symm

/-! ## Touching pairs -/

/-- The pair consists of a polygon and a circle whose center is outside the polygon by less than
counts. -/
def Marginal (w : World ℝ σ) (p : Pair) : Prop :=
  ∃ (a b : Collider ℝ) (i j : BodyId) (x y : Body ℝ),
    w.colliders[p.lo]? = some a ∧ w.colliders[p.hi]? = some b ∧
    a.body = some i ∧ b.body = some j ∧ w.bodies[i]? = some x ∧ w.bodies[j]? = some y ∧
    Shape.Marginal a.shape x.pose b.shape y.pose

/-- A pair that collides is near. -/
theorem Collides.mem_near (h : w.Collides p) (hw : w.Reachable)
    (hproper : ∀ (i : ColliderId) (c : Collider ℝ), w.colliders[i]? = some c → c.shape.Proper)
    (hm : ¬ w.Marginal p) : p ∈ w.near := by
  obtain ⟨hmay, a, b, i, j, x, y, r, ha, hb, hi, hj, hx, hy, hr, he⟩ := h
  obtain ⟨hscale, hmargin⟩ := measures_nonneg hw
  refine mem_near_of_inseparable hscale hmargin (Allows.lo_ne_hi hmay) ha hb hi hj hx hy ?_
  refine Shape.inseparable_of_manifold (hproper _ a ha) (hproper _ b hb) (fun hs ↦ hm ?_) hr he
  exact ⟨a, b, i, j, x, y, ha, hb, hi, hj, hx, hy, hs⟩

/-- What the first half of a step changes does not matter to whether colliders touch. -/
theorem collides_updatePairs_iff (hw : w.Wf) : w.updatePairs.Collides p ↔ w.Collides p := by
  have hs := (paired_updatePairs hw).scene
  have hg := sameButGrid_regrid (w := w)
  rw [Collides, Collides, mayTouch, mayTouch, hs.bodies, hs.colliders, hg.bodies, hg.colliders]

/-- Nothing touches that does not collide. -/
theorem Sound.collides_of_touches (hw : w.Sound) (h : w.updatePairs.refreshed.Touches p) :
    w.Collides p := by
  have hwf := wf_updatePairs hw.wf
  obtain ⟨i, c, hc, rfl, hr, ht⟩ := (touches_refreshed_iff hwf).1 h
  have ha := (allows_of_get?_updatePairs hw.wf hw.tracks hc hr).1
  rw [← collides_updatePairs_iff hw.wf]
  exact (touching_renewed_iff hwf hc ((allows_updatePairs hw.wf _).2 ha)).1 ht

/-- A pair that collides touches, if it is found to be near. -/
theorem Sound.touches_of_collides (hw : w.Sound) (h : w.Collides p) (hp : p ∈ w.near) :
    w.updatePairs.refreshed.Touches p := by
  have hwf := wf_updatePairs hw.wf
  have ha : w.Allows p := h.1
  have hrule : w.HasRule p := by
    obtain ⟨-, a, b, -, -, -, -, r, hA, hB, -, -, -, -, hr, -⟩ := h
    exact ⟨a, b, hA, hB, by simp [hr]⟩
  obtain ⟨i, c, hc, rfl⟩ := live_updatePairs_of_near hw.wf hw.tracks hp ha hrule
  have ha' := (allows_updatePairs hw.wf _).2 ha
  refine (touches_refreshed_iff hwf).2 ⟨i, c, hc, rfl, refuses_eq_false_iff.2 (.inr ha'), ?_⟩
  exact (touching_renewed_iff hwf hc ha').2 ((collides_updatePairs_iff hw.wf).2 h)

/-- The rest of a step leaves what touches. -/
theorem Sound.touches_step (hw : w.Sound) (h : w.Collides p) (hp : p ∈ w.near) {dt : ℝ}
    (hdt : Valid dt) (hs : w.step dt = .ok w') : w'.Touches p := by
  obtain ⟨i, c, hc, hcp, hr, ht⟩ :=
    (touches_refreshed_iff (wf_updatePairs hw.wf)).1 (hw.touches_of_collides h hp)
  obtain ⟨c', hc', hs⟩ := exists_get?_step hw.wf hdt hs hc hr
  exact ⟨i, c', hc', (pair_of_status_renewed hs).trans hcp,
    (Contact.touching_eq_of_status hs).trans ht⟩

theorem isEmpty_circles_onAxis (hxy : |x - y| ≤ 2) :
    (Collision.circles ⟨1, 0⟩ (.onAxis x) ⟨1, 0⟩ (.onAxis y)).isEmpty = false := by
  have hclose : ¬ (1 + 1) * (1 + 1) < (Vec.distSq ⟨x, 0⟩ ⟨y, 0⟩ : ℝ) := by
    obtain ⟨h₁, h₂⟩ := abs_le.1 hxy
    simp only [Vec.distSq, Vec.normSq, Vec.dot, Vec.sub_x, Vec.sub_y]
    nlinarith
  rw [Collision.circles, Pose.onAxis_apply_zero, Pose.onAxis_apply_zero, if_neg hclose]
  rfl

/-- Discs that overlap collide. -/
theorem HasDiscs.collides (h : w.HasDiscs) (hp : w.PosedAt x y) (hxy : |x - y| ≤ 2) :
    w.Collides (.of 0 1) := by
  obtain ⟨b₀, hb₀, hx⟩ := Option.map_eq_some_iff.1 hp.1
  obtain ⟨b₁, hb₁, hy⟩ := Option.map_eq_some_iff.1 hp.2
  refine (collides_iff h.still h.loose rfl rfl hb₀ hb₁ rfl).2 ⟨h.allows, ?_⟩
  rw [hx, hy]
  exact isEmpty_circles_onAxis hxy

theorem HasDiscs.proper (h : w.HasDiscs) (i : ColliderId) (c : Collider ℝ)
    (hc : w.colliders[i]? = some c) : c.shape.Proper := by
  have hi : i < 2 := h.size ▸ (Array.getElem?_eq_some_iff.1 hc).1
  obtain rfl | rfl : i = 0 ∨ i = 1 := Nat.le_one_iff_eq_zero_or_eq_one.1 (Nat.le_of_lt_succ hi)
  · cases h.still.symm.trans hc
    exact zero_le_one
  · cases h.loose.symm.trans hc
    exact zero_le_one

/-- **The touching pairs are those that touch.** In any step of a world that a caller can bring
about, with proper shapes, over the real numbers: once the contacts are up to date, a pair has a
contact that touches exactly if its colliders may touch and the rule for their shapes, in its order
and under the current poses, finds a manifold with points.  Only marginal pairs are excepted. -/
theorem touches_iff_collides (hw : w.Reachable)
    (hproper : ∀ (i : ColliderId) (c : Collider ℝ), w.colliders[i]? = some c → c.shape.Proper) :
    ∃ w', w.updatePairs.updateContacts = .ok w' ∧
      ∀ p, ¬ w'.Marginal p → (w'.Touches p ↔ w'.Collides p) := by
  have hwf := wf_updatePairs hw.sound.wf
  refine ⟨w.updatePairs.refreshed, updateContacts_eq hwf, fun p hm ↦ ?_⟩
  have hb := bodies_updated hw.sound.wf
  have hc := colliders_updated hw.sound.wf
  have hcoll : w.updatePairs.refreshed.Collides p ↔ w.Collides p := by
    rw [Collides, Collides, mayTouch, mayTouch, hb, hc]
  have hmarg : ¬ w.Marginal p := by
    rw [Marginal, hb, hc] at hm
    exact hm
  rw [hcoll]
  exact ⟨hw.sound.collides_of_touches,
    fun hp ↦ hw.sound.touches_of_collides hp (hp.mem_near hw hproper hmarg)⟩

/-- Two discs that overlap touch once the contacts are up to date. -/
theorem discs_touch : ∃ w w' : World ℝ Unit, w.Reachable ∧ w.HasDiscs ∧
    w.updatePairs.updateContacts = .ok w' ∧ w'.Touches (.of 0 1) := by
  obtain ⟨w₀, h₀⟩ := exists_ofSettings_default Unit
  obtain ⟨w, h⟩ : ∃ w, w₀.run (discs 0 1) = .ok w :=
    exists_run_of_sensors h₀ (by simp [discs, Action.addsSensors, Collider.disc])
  have hw : w.Reachable := ⟨_, _, w₀, h₀, h⟩
  obtain ⟨hd, hp, -⟩ := run_discs h₀ h
  obtain ⟨w', hw', hall⟩ := touches_iff_collides hw hd.proper
  cases (updateContacts_eq (wf_updatePairs hw.sound.wf)).symm.trans hw'
  have hb := bodies_updated hw.sound.wf
  have hd' := hd.congr (colliders_updated hw.sound.wf) hb
  refine ⟨w, _, hw, hd, hw', (hall _ ?_).2 (hd'.collides (hp.congr hb) (by norm_num))⟩
  rintro ⟨a, b, _, _, _, _, ha, hb, -, -, -, -, hm⟩
  cases hd'.still.symm.trans ha
  cases hd'.loose.symm.trans hb
  exact hm

end World

end PlanarDynamics
