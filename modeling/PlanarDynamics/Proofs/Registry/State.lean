import PlanarDynamics.Proofs.Registry.Reachable

/-!
# What a contact says of itself

Whether its colliders touch, whether it is to be solved, and where: a contact says this by flags and
by its manifold, and evaluation, sensors, forgetting and the solver all write to one or the other.
`Contact.Faithful` is what keeps them together, and every change of a contact keeps it
(`Contact.Faithful.change`).  So it holds of the contacts of every run, with the poses under which
each was last evaluated: `Registry.faithful_run`.
-/

namespace PlanarDynamics

variable {α : Type} [Scalar α]

/-! ## Manifolds without impulses -/

namespace Manifold

/-- The manifold without the impulses at its points. -/
def bare (m : Manifold α) : Manifold α :=
  { m with first := m.first.setImpulses 0 0, second := m.second.setImpulses 0 0 }

theorem points_bare (m : Manifold α) : m.bare.points = m.points.map (·.setImpulses 0 0) := by
  simp [points, bare, List.map_take]

theorem bare_carryFrom (m old : Manifold α) : (m.carryFrom old).bare = m.bare := by
  have hpoint : ∀ p : ManifoldPoint α, (old.inherit p).setImpulses 0 0 = p.setImpulses 0 0 := by
    intro p
    rw [inherit]
    split <;> rfl
  have hpoints : ∀ (q : Prop) [Decidable q] (p : ManifoldPoint α),
      (if q then old.inherit p else p).setImpulses 0 0 = p.setImpulses 0 0 := by
    intro q _ p
    split
    · exact hpoint p
    · rfl
  simp only [bare, carryFrom, mapPoints, hpoints]

theorem bare_writeImpulses (m : Manifold α) (i : ContactImpulse α) :
    (m.writeImpulses i).bare = m.bare := by
  have hpoint : ∀ (q : Prop) [Decidable q] (imp : PointImpulse α) (p : ManifoldPoint α),
      (if q then p.setImpulses imp.normal imp.tangent else p).setImpulses 0 0 =
        p.setImpulses 0 0 := by
    intro q _ imp p
    split <;> rfl
  simp only [bare, writeImpulses, hpoint]

theorem writeImpulses_empty (i : ContactImpulse α) :
    (empty : Manifold α).writeImpulses i = empty := by
  simp [writeImpulses, empty, withoutPoints]

/-- Where the points are in the world does not depend on impulses. -/
theorem inWorld_bare (m : Manifold α) (poseA : Pose α) (radiusA : α) (poseB : Pose α)
    (radiusB : α) :
    m.bare.inWorld poseA radiusA poseB radiusB = m.inWorld poseA radiusA poseB radiusB := by
  have hempty : m.bare.isEmpty = m.isEmpty := rfl
  have hkind : m.bare.kind = m.kind := rfl
  simp only [inWorld, hempty, hkind, points_bare, List.map_map, ← List.map_drop]
  rfl

end Manifold

/-- A transition tells whether there was a touch before, and whether there is one after. -/
theorem Transition.of_iff (before after : Bool) :
    (of before after = .began ↔ before = false ∧ after = true) ∧
      (of before after = .ended ↔ before = true ∧ after = false) ∧
      (of before after = .persisted ↔ before = true ∧ after = true) ∧
      (of before after = .idle ↔ before = false ∧ after = false) := by
  cases before <;> cases after <;> decide

namespace Contact

variable {c : Contact α} {last : Option (Pose α × Pose α)}

theorem isFinite_bare (c : Contact α) (m : Manifold α) (poseA poseB : Pose α) :
    c.isFinite m.bare poseA poseB = c.isFinite m poseA poseB := by
  simp only [isFinite, m.inWorld_bare, m.points_bare, List.all_map]
  rfl

/-! ## One contact -/

/-- What is found counts if it is finite. -/
theorem isEmpty_evaluateFinite_iff {shapeA shapeB : Shape α} {poseA poseB : Pose α} :
    (c.evaluateFinite shapeA poseA shapeB poseB).isEmpty = false ↔
      (c.evaluate shapeA poseA shapeB poseB).isEmpty = false ∧
        c.isFinite (c.evaluate shapeA poseA shapeB poseB) poseA poseB = true := by
  simp only [evaluateFinite]
  split
  next hm =>
    rw [Bool.or_eq_true] at hm
    constructor
    · intro he
      exact ⟨he, hm.resolve_left (by simp [he])⟩
    · exact And.left
  next hm =>
    constructor
    · rintro ⟨⟩
    · rintro ⟨-, hf⟩
      simp [hf] at hm

theorem isFinite_evaluateFinite {shapeA shapeB : Shape α} {poseA poseB : Pose α}
    (h : (c.evaluateFinite shapeA poseA shapeB poseB).isEmpty = false) :
    c.isFinite (c.evaluateFinite shapeA poseA shapeB poseB) poseA poseB = true := by
  obtain ⟨-, hf⟩ := isEmpty_evaluateFinite_iff.1 h
  rw [evaluateFinite, if_pos (by simp [hf])]
  exact hf

/-- An update tells how the touching has changed. -/
theorem transition_update (c : Contact α) (shapeA : Shape α) (poseA : Pose α)
    (shapeB : Shape α) (poseB : Pose α) : (c.update shapeA poseA shapeB poseB).2 =
      .of c.touching (c.update shapeA poseA shapeB poseB).1.touching := rfl

theorem touching_update_iff (c : Contact α) (shapeA : Shape α) (poseA : Pose α)
    (shapeB : Shape α) (poseB : Pose α) :
    (c.update shapeA poseA shapeB poseB).1.touching = true ↔
      (c.evaluateFinite shapeA poseA shapeB poseB).isEmpty = false :=
  iff_of_eq (Bool.not_eq_true' _)

theorem manifold_update (hs : c.sensor = false) (shapeA : Shape α) (poseA : Pose α)
    (shapeB : Shape α) (poseB : Pose α) : (c.update shapeA poseA shapeB poseB).1.manifold =
      (c.evaluateFinite shapeA poseA shapeB poseB).carryFrom c.manifold :=
  if_neg (by simp [hs])

/-- A contact that an update leaves touching is finite under the poses of the update. -/
theorem isFinite_update (hs : c.sensor = false) {shapeA shapeB : Shape α} {poseA poseB : Pose α}
    (ht : (c.update shapeA poseA shapeB poseB).1.touching = true) :
    (c.update shapeA poseA shapeB poseB).1.isFinite
      (c.update shapeA poseA shapeB poseB).1.manifold poseA poseB = true := by
  change c.isFinite _ poseA poseB = true
  rw [manifold_update hs, ← isFinite_bare, Manifold.bare_carryFrom, isFinite_bare]
  exact isFinite_evaluateFinite ((c.touching_update_iff shapeA poseA shapeB poseB).1 ht)

/-- The flags of a contact say what is so of its manifold, which was finite under the poses `last`
if it has points. -/
structure Faithful (last : Option (Pose α × Pose α)) (c : Contact α) : Prop where
  count_le : c.manifold.count ≤ 2
  touching_iff : c.sensor = false → (c.touching = true ↔ c.manifold.isEmpty = false)
  sensor : c.sensor = true → c.manifold = .empty ∧ c.isSolvable = false
  finite : c.sensor = false → c.touching = true → ∃ poseA poseB, last = some (poseA, poseB) ∧
    c.isFinite c.manifold poseA poseB = true

omit [Scalar α] in
theorem not_isSolvable_of_sensor (h : c.sensor = true) : c.isSolvable = false := by
  simp [isSolvable, h]

theorem Fresh.faithful (h : c.Fresh) (last : Option (Pose α × Pose α)) : c.Faithful last where
  count_le := by
    rw [h.manifold]
    exact Nat.zero_le 2
  touching_iff _ := by simp [h.touching, h.manifold, Manifold.isEmpty, Manifold.empty,
    Manifold.withoutPoints]
  sensor hs := ⟨h.manifold, not_isSolvable_of_sensor hs⟩
  finite _ ht := by
    rw [h.touching] at ht
    cases ht

theorem faithful_update (hroom : ∀ a poseA b poseB, (c.collide a poseA b poseB).count ≤ 2)
    (shapeA : Shape α) (poseA : Pose α) (shapeB : Shape α) (poseB : Pose α) :
    (c.update shapeA poseA shapeB poseB).1.Faithful (some (poseA, poseB)) := by
  have heval : (c.evaluateFinite shapeA poseA shapeB poseB).count ≤ 2 := by
    rw [evaluateFinite]
    split
    · exact hroom shapeA poseA shapeB poseB
    · exact Nat.zero_le 2
  cases hs : c.sensor with
  | true =>
    have hm : (c.update shapeA poseA shapeB poseB).1.manifold = .empty := if_pos hs
    have hs' : (c.update shapeA poseA shapeB poseB).1.sensor = true := hs
    refine ⟨?_, ?_, fun _ ↦ ⟨hm, not_isSolvable_of_sensor hs'⟩, ?_⟩
    · rw [hm]
      exact Nat.zero_le 2
    · rw [hs']
      rintro ⟨⟩
    · rw [hs']
      rintro ⟨⟩
  | false =>
    have hm := manifold_update hs shapeA poseA shapeB poseB
    have hs' : (c.update shapeA poseA shapeB poseB).1.sensor = false := hs
    refine ⟨?_, fun _ ↦ ?_, ?_, fun _ ht ↦ ⟨poseA, poseB, rfl, isFinite_update hs ht⟩⟩
    · rw [hm]
      exact heval
    · rw [touching_update_iff, hm]
      rfl
    · rw [hs']
      rintro ⟨⟩

/-- The poses under which a change evaluates the contact, if it does. -/
def Change.poses? : Change α → Option (Pose α × Pose α)
  | .update _ poseA _ poseB => some (poseA, poseB)
  | _ => none

theorem Faithful.change (h : c.Faithful last)
    (hroom : ∀ a poseA b poseB, (c.collide a poseA b poseB).count ≤ 2) (how : Change α) :
    (c.change how).Faithful (how.poses?.or last) := by
  cases how with
  | update shapeA poseA shapeB poseB => exact faithful_update hroom shapeA poseA shapeB poseB
  | writeImpulses i =>
    refine ⟨h.count_le, h.touching_iff, fun hs ↦ ⟨?_, not_isSolvable_of_sensor hs⟩,
      fun hs ht ↦ ?_⟩
    · change c.manifold.writeImpulses i = .empty
      rw [(h.sensor hs).1, Manifold.writeImpulses_empty]
    · obtain ⟨poseA, poseB, hlast, hfinite⟩ := h.finite hs ht
      refine ⟨poseA, poseB, hlast, ?_⟩
      change c.isFinite (c.manifold.writeImpulses i) poseA poseB = true
      rw [← isFinite_bare, Manifold.bare_writeImpulses, isFinite_bare, hfinite]
  | setEnabled enabled =>
    exact ⟨h.count_le, h.touching_iff, fun hs ↦ ⟨(h.sensor hs).1, not_isSolvable_of_sensor hs⟩,
      h.finite⟩
  | flag => exact ⟨h.count_le, h.touching_iff, h.sensor, h.finite⟩
  | unflag => exact ⟨h.count_le, h.touching_iff, h.sensor, h.finite⟩

theorem Faithful.mix (h : c.Faithful last) (friction restitution : Mixing) (a b : Material α) :
    (c.mix friction restitution a b).Faithful last :=
  ⟨h.count_le, h.touching_iff, h.sensor, h.finite⟩

@[simp] theorem collide_change (c : Contact α) (how : Change α) :
    (c.change how).collide = c.collide := by
  cases how <;> rfl

end Contact

/-! ## All contacts of a run -/

/-- No rule of the table finds more points than there is room for. -/
def RuleTable.HasRoom (t : RuleTable α) : Prop :=
  ∀ x y rule, t.rule? x y = some rule →
    ∀ a poseA b poseB, (rule.collide a poseA b poseB).count ≤ 2

namespace Registry

variable {r : Registry α} {last : Handle → Option (Pose α × Pose α)}

/-- The poses under which a request evaluates the contact of a handle, if it does. -/
def Request.poses? (h : Handle) : Request α → Option (Pose α × Pose α)
  | .change h' how => if h' = h then how.poses? else none
  | _ => none

/-- The poses under which requests have last evaluated the contact of a handle. -/
def lastPoses (h : Handle) (requests : List (Request α)) : Option (Pose α × Pose α) :=
  requests.foldl (fun last q ↦ (q.poses? h).or last) none

/-- A contact is built with a rule of the table. -/
theorem exists_rule_of_build {a b : ColliderId × Collider α} {c : Contact α}
    (hb : r.build a b = .ok c) :
    ∃ x y rule, r.rules.rule? x y = some rule ∧ c.collide = rule.collide := by
  obtain ⟨rule, x, y, hfound, -, hc⟩ := exists_ofRule_of_build hb
  obtain ⟨i, j, -, -, rfl⟩ := Contact.ofRule_eq_ok_iff.1 hc
  exact ⟨_, _, rule, hfound, rfl⟩

theorem count_collide_of_build (hr : r.rules.HasRoom) {a b : ColliderId × Collider α}
    {c : Contact α} (hb : r.build a b = .ok c) (x : Shape α) (poseA : Pose α) (y : Shape α)
    (poseB : Pose α) : (c.collide x poseA y poseB).count ≤ 2 := by
  obtain ⟨_, _, rule, hfound, hcollide⟩ := exists_rule_of_build hb
  rw [hcollide]
  exact hr _ _ _ hfound x poseA y poseB

/-- All contacts are faithful, and their rules leave them room. -/
def Faithful (last : Handle → Option (Pose α × Pose α)) (r : Registry α) : Prop :=
  ∀ h c, r.get? h = some c → c.Faithful (last h) ∧
    ∀ a poseA b poseB, (c.collide a poseA b poseB).count ≤ 2

theorem Faithful.act (h : r.Faithful last) (hwf : r.Wf) (hroom : r.rules.HasRoom) (q : Request α) :
    (r.act q).Faithful fun h ↦ (q.poses? h).or (last h) := by
  intro i c hc
  obtain ⟨hold, hq⟩ | ⟨a, b, hb⟩ | ⟨old, hold, ⟨how, rfl, rfl⟩ | ⟨_, a, b, rfl, rfl⟩⟩ :=
    (outcome_act r q).origin hwf hc
  · have hnone : q.poses? i = none := by
      cases q with
      | change i' how => exact if_neg fun he ↦ hq how (by rw [he])
      | _ => rfl
    show c.Faithful ((q.poses? i).or (last i)) ∧ _
    rw [hnone]
    exact h i c hold
  · exact ⟨(of_build_eq_ok hb).1.faithful _, count_collide_of_build hroom hb⟩
  · obtain ⟨hfaithful, hfinds⟩ := h i old hold
    have hposes : (Request.change i how).poses? i = how.poses? := if_pos rfl
    show (old.change how).Faithful (((Request.change i how).poses? i).or (last i)) ∧ _
    rw [hposes, Contact.collide_change]
    exact ⟨hfaithful.change hfinds how, hfinds⟩
  · obtain ⟨hfaithful, hfinds⟩ := h i old hold
    exact ⟨hfaithful.mix _ _ a b, hfinds⟩

theorem Faithful.run (h : r.Faithful last) (hwf : r.Wf) (hroom : r.rules.HasRoom)
    (requests : List (Request α)) :
    (r.run requests).Faithful fun h ↦
      requests.foldl (fun last q ↦ (q.poses? h).or last) (last h) := by
  induction requests generalizing r last with
  | nil => exact h
  | cons q qs ih =>
    have ho := outcome_act r q
    exact ih (h.act hwf hroom q) (ho.wf hwf) (ho.sameRules.1.symm ▸ hroom)

/-- **Flags and manifolds agree after every run.** -/
theorem faithful_run {rules : RuleTable α} (hroom : rules.HasRoom) (friction restitution : Mixing)
    (requests : List (Request α)) :
    ((empty rules friction restitution).run requests).Faithful (lastPoses · requests) := by
  refine Faithful.run (fun h c hc ↦ ?_) (wf_empty rules friction restitution) hroom requests
  simp [empty, get?] at hc

end Registry

end PlanarDynamics
