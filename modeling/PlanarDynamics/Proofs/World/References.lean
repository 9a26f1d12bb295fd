import PlanarDynamics.Proofs.World.Requests

/-!
# References that hold

Bodies list their colliders and colliders name their bodies; contacts name both, and keep a rule for
the shapes of their colliders.  Nothing but the operations themselves keeps these in step.  Here it
is shown that they do (`World.Reachable.coherent`): a collider is on the list of its own body, once,
and on no other; a contact joins colliders of two bodies by the rule that is made for their shapes;
and a manifold has no more points than there is room for.
-/

namespace PlanarDynamics

/-! ## Points of a manifold -/

section Points

variable {α : Type} [Scalar α]

namespace Manifold

omit [Scalar α] in
theorem count_push_le {m : Manifold α} (hm : m.count ≤ 2) (p : ManifoldPoint α) :
    (m.push p).count ≤ 2 := by
  rw [push, push?]
  split
  · exact Nat.le_succ 1
  · exact Nat.le_refl 2
  · exact hm

theorem count_empty_le : (empty : Manifold α).count ≤ 2 := Nat.zero_le 2

theorem count_single_le (kind : ManifoldKind) (n v : Vec α) (p : ManifoldPoint α) :
    (single kind n v p).count ≤ 2 := count_push_le (Nat.zero_le 2) p

end Manifold

namespace Collision

open PlanarDynamics.Manifold

theorem count_circles_le (a : Circle α) (poseA : Pose α) (b : Circle α) (poseB : Pose α) :
    (circles a poseA b poseB).count ≤ 2 := by
  simp only [circles]
  split
  · exact count_empty_le
  · exact count_single_le ..

theorem count_polygonCircle_le (a : Polygon α) (poseA : Pose α) (b : Circle α) (poseB : Pose α) :
    (polygonCircle a poseA b poseB).count ≤ 2 := by
  simp only [polygonCircle]
  repeat' split
  all_goals simp only [count_empty_le, count_single_le]

theorem count_edgeCircle_le (a : Edge α) (poseA : Pose α) (b : Circle α) (poseB : Pose α) :
    (edgeCircle a poseA b poseB).count ≤ 2 := by
  simp only [edgeCircle]
  repeat' split
  all_goals simp only [count_empty_le, count_single_le]

theorem count_clipAgainst_le (s : Side α) (pose : Pose α) (o : Outline α) (pose' : Pose α)
    (kind : ManifoldKind) (label : FeaturePair → FeaturePair) :
    (clipAgainst s pose o pose' kind label).count ≤ 2 := by
  have hstep : ∀ (m : Manifold α) (p : Prop) [Decidable p] (q : ManifoldPoint α), m.count ≤ 2 →
      (if p then m.push q else m).count ≤ 2 := by
    intro m p _ q hm
    split
    · exact count_push_le hm q
    · exact hm
  simp only [clipAgainst]
  split
  · exact count_empty_le
  · split
    · split
      · exact hstep _ _ _ (hstep _ _ _ (Nat.zero_le 2))
      · exact count_empty_le
    · exact count_empty_le

theorem count_outlines_le (a : Outline α) (poseA : Pose α) (b : Outline α) (poseB : Pose α) :
    (outlines a poseA b poseB).count ≤ 2 := by
  simp only [outlines]
  repeat' split
  all_goals simp only [count_empty_le, count_clipAgainst_le]

end Collision

namespace PairKind

/-- No rule finds more points than a manifold has room for. -/
theorem count_collide_le (k : PairKind) (a : Shape α) (poseA : Pose α) (b : Shape α)
    (poseB : Pose α) : (k.collide a poseA b poseB).count ≤ 2 := by
  unfold collide
  split
  · exact Collision.count_circles_le ..
  · exact Collision.count_polygonCircle_le ..
  · exact Collision.count_outlines_le ..
  · exact Collision.count_edgeCircle_le ..
  · rw [Collision.edgePolygon]
    split
    · exact Manifold.count_empty_le
    · exact Collision.count_outlines_le ..
  · exact Manifold.count_empty_le

/-! ## Rules and shapes -/

/-- The shapes that the rule for a pair of kinds is made for, in its order. Of all others it says
that they do not touch. -/
inductive Handles : PairKind → Shape α → Shape α → Prop where
  | circles (a b : Circle α) : Handles .circles (.circle a) (.circle b)
  | polygonCircle (a : Polygon α) (b : Circle α) : Handles .polygonCircle (.polygon a) (.circle b)
  | polygons (a b : Polygon α) : Handles .polygons (.polygon a) (.polygon b)
  | edgeCircle (a : Edge α) (b : Circle α) : Handles .edgeCircle (.edge a) (.circle b)
  | edgePolygon (a : Edge α) (b : Polygon α) : Handles .edgePolygon (.edge a) (.polygon b)

/-- The standard table has each rule under the kinds of shapes that it is made for. -/
theorem handles_of_rule {a b : Shape α} {k : PairKind} {f : Collide α}
    (h : RuleTable.standard.rule? a.kind b.kind = some ⟨k, f, true⟩) :
    k.Handles a b ∧ f = k.collide := by
  cases a <;> cases b <;>
    simp [RuleTable.standard, RuleTable.register, RuleTable.empty, Shape.kind] at h
  all_goals
    obtain ⟨rfl, rfl⟩ := h
    exact ⟨by constructor, rfl⟩

end PairKind

namespace Contact

variable {c : Contact α}

theorem Joins.handles {a b : Collider α} (h : c.Joins .standard a b) :
    c.kind.Handles a.shape b.shape ∧ c.collide = c.kind.collide :=
  PairKind.handles_of_rule h.rule

/-- The manifold has room for its points, as long as the rule finds no more than that. -/
def HasRoom (c : Contact α) : Prop :=
  (∀ a poseA b poseB, (c.collide a poseA b poseB).count ≤ 2) → c.manifold.count ≤ 2

theorem Fresh.hasRoom (h : c.Fresh) : c.HasRoom := by
  intro _
  rw [h.manifold]
  exact Manifold.count_empty_le

theorem HasRoom.change (h : c.HasRoom) (how : Change α) : (c.change how).HasRoom := by
  cases how with
  | update shapeA poseA shapeB poseB =>
    intro hrule
    have heval : (c.evaluateFinite shapeA poseA shapeB poseB).count ≤ 2 := by
      rw [evaluateFinite]
      split
      · exact hrule shapeA poseA shapeB poseB
      · exact Manifold.count_empty_le
    simp only [Contact.change, update]
    split
    · exact Manifold.count_empty_le
    · exact heval
  | writeImpulses i =>
    intro hrule
    exact h hrule
  | _ => exact h

end Contact

theorem Registry.Reachable.hasRoom {r : Registry α} {h : Handle} {c : Contact α}
    (hr : r.Reachable) (hc : r.get? h = some c) : c.HasRoom := by
  obtain ⟨rules, friction, restitution, requests, rfl⟩ := hr
  refine forall_run (fun r a b c _ hb ↦ (of_build_eq_ok hb).1.hasRoom)
    (fun c how hc ↦ hc.change how) (fun c _ _ _ hc ↦ hc) (wf_empty rules friction restitution) rfl
    (fun h c hc ↦ ?_) requests h c hc
  simp [empty, get?] at hc

end Points

namespace World

variable {α σ : Type} [Scalar α] {w w' : World α σ}

/-! ## Lists of colliders -/

/-- The bodies have kept their lists of colliders. -/
def SameLists (bodies bodies' : Array (Body α)) : Prop :=
  ∀ i : Nat, (bodies'[i]?).map (·.colliders) = (bodies[i]?).map (·.colliders)

omit [Scalar α] in
theorem SameRoster.sameLists {bodies bodies' : Array (Body α)} (h : SameRoster bodies bodies') :
    SameLists bodies bodies' := by
  intro i
  have hi := congrArg (Option.map Prod.snd) (h i)
  simpa only [Option.map_map, Function.comp_def] using hi

omit [Scalar α] in
theorem sameLists_modify (bodies : Array (Body α)) (j : Nat) {f : Body α → Body α}
    (hf : ∀ b, (f b).colliders = b.colliders) : SameLists bodies (bodies.modify j f) := fun i ↦
  map_getElem?_modify hf bodies i j

/-- Whoever is on the list of a body exists and names the body, and stands after those that were
attached before. -/
structure Roster (w : World α σ) : Prop where
  listed : ∀ (i : BodyId) (b : Body α), w.bodies[i]? = some b → ∀ k ∈ b.colliders,
    ∃ c, w.colliders[k]? = some c ∧ c.body = some i
  ascending : ∀ (i : BodyId) (b : Body α), w.bodies[i]? = some b → b.colliders.Pairwise (· < ·)

namespace Roster

omit [Scalar α] in
theorem lt_size (h : w.Roster) {i : BodyId} {b : Body α} (hb : w.bodies[i]? = some b)
    {k : ColliderId} (hk : k ∈ b.colliders) : k < w.colliders.size := by
  obtain ⟨c, hc, -⟩ := h.listed i b hb k hk
  exact (Array.getElem?_eq_some_iff.1 hc).1

omit [Scalar α] in
/-- Lists stay as they are, and colliders keep their bodies. -/
theorem of_sameLists (h : w.Roster) (hb : SameLists w.bodies w'.bodies)
    (hc : ∀ (i : ColliderId) (c : Collider α), w.colliders[i]? = some c →
      ∃ c' : Collider α, w'.colliders[i]? = some c' ∧ c'.body = c.body) : w'.Roster := by
  have hold : ∀ (i : BodyId) (b' : Body α), w'.bodies[i]? = some b' →
      ∃ b, w.bodies[i]? = some b ∧ b.colliders = b'.colliders := by
    intro i b' hb'
    have hi := hb i
    rw [hb', Option.map_some, eq_comm, Option.map_eq_some_iff] at hi
    exact hi
  constructor
  · intro i b' hb' k hk
    obtain ⟨b, hb, he⟩ := hold i b' hb'
    obtain ⟨c, hc₀, hci⟩ := h.listed i b hb k (he ▸ hk)
    obtain ⟨c', hc', hbody⟩ := hc k c hc₀
    exact ⟨c', hc', hbody.trans hci⟩
  · intro i b' hb'
    obtain ⟨b, hb, he⟩ := hold i b' hb'
    rw [← he]
    exact h.ascending i b hb

omit [Scalar α] in
theorem addBody (h : w.Roster) (b : Body α) : (w.addBody b).2.Roster := by
  have hold : ∀ (i : BodyId) (b' : Body α), (w.addBody b).2.bodies[i]? = some b' →
      w.bodies[i]? = some b' ∨ b'.colliders = [] := by
    intro i b' hb'
    simp only [World.addBody, Array.getElem?_push] at hb'
    split at hb'
    · cases hb'
      exact .inr rfl
    · exact .inl hb'
  constructor
  · intro i b' hb' k hk
    rcases hold i b' hb' with hb | hnil
    · exact h.listed i b' hb k hk
    · rw [hnil] at hk
      cases hk
  · intro i b' hb'
    rcases hold i b' hb' with hb | hnil
    · exact h.ascending i b' hb
    · rw [hnil]
      exact .nil

/-- The new collider has the greatest number, and its body puts it last. -/
theorem addCollider (h : w.Roster) {b : BodyId} {c : Collider α} {i : ColliderId}
    (he : w.addCollider b c = .ok (i, w')) : w'.Roster := by
  by_cases hb : b < w.bodies.size
  · simp only [World.addCollider, hb, if_true, Except.ok.injEq, Prod.mk.injEq] at he
    obtain ⟨-, rfl⟩ := he
    suffices hmid : ({ w with
        grid := w.syncBox w.colliders.size { c with body := some b }
        colliders := w.colliders.push { c with body := some b }
        bodies := w.bodies.modify b fun body ↦
          { body with colliders := body.colliders ++ [w.colliders.size] } } : World α σ).Roster from
      hmid.of_sameLists (sameRoster_refreshMass b).sameLists fun k x hx ↦ ⟨x, hx, rfl⟩
    have hold : ∀ (j : BodyId) (y : Body α), (w.bodies.modify b fun body ↦
        { body with colliders := body.colliders ++ [w.colliders.size] })[j]? = some y →
        w.bodies[j]? = some y ∨ j = b ∧
          ∃ x, w.bodies[j]? = some x ∧ y.colliders = x.colliders ++ [w.colliders.size] := by
      intro j y hy
      rw [Array.getElem?_modify] at hy
      split at hy
      next hj =>
        obtain ⟨x, hx, rfl⟩ := Option.map_eq_some_iff.1 hy
        exact .inr ⟨hj.symm, x, hx, rfl⟩
      · exact .inl hy
    constructor
    · intro j y hy k hk
      rcases hold j y hy with hx | ⟨rfl, x, hx, hlist⟩
      · obtain ⟨a, ha, haj⟩ := h.listed j y hx k hk
        exact ⟨a, getElem?_push_of_some ha _, haj⟩
      · rw [hlist, List.mem_append, List.mem_singleton] at hk
        rcases hk with hk | rfl
        · obtain ⟨a, ha, haj⟩ := h.listed j x hx k hk
          exact ⟨a, getElem?_push_of_some ha _, haj⟩
        · exact ⟨_, Array.getElem?_push_size, rfl⟩
    · intro j y hy
      rcases hold j y hy with hx | ⟨-, x, hx, hlist⟩
      · exact h.ascending j y hx
      · rw [hlist, List.pairwise_append]
        refine ⟨h.ascending j x hx, List.pairwise_singleton .., fun k hk l hl ↦ ?_⟩
        rw [List.mem_singleton.1 hl]
        exact h.lt_size hx hk
  · simp [World.addCollider, hb] at he

end Roster

theorem sameLists_setKind {i : BodyId} {k : BodyKind} (h : w.setKind i k = .ok w') :
    SameLists w.bodies w'.bodies := by
  simp only [setKind] at h
  split at h
  · cases h
  next b hb =>
    split at h
    · cases h
      exact fun _ ↦ rfl
    · cases h
      rw [(rechecked_foldl b.colliders).bodies]
      intro j
      rw [(sameRoster_refreshMass i).sameLists j]
      exact sameLists_modify w.bodies i (fun b ↦ changeKind_colliders b k) j

theorem Roster.step (h : w.Roster) (hw : w.Wf) {dt : α} (hs : w.step dt = .ok w') : w'.Roster := by
  by_cases hdt : Valid dt
  · have hm := moved_step hw hdt hs
    refine h.of_sameLists ?_ fun i c hc ↦ ⟨c, ?_, rfl⟩
    · rw [← bodies_updated hw]
      exact hm.roster.sameLists
    · rw [hm.colliders, colliders_updated hw, hc]
  · cases (step_of_not_valid hdt).symm.trans hs
    exact h

/-- Only the two ways of adding something touch the lists. -/
theorem Roster.act (h : w.Roster) (hw : w.Wf) {a : Action α σ} (ha : w.act a = .ok w') :
    w'.Roster := by
  have hsame : a.isStep = false → SameLists w.bodies w'.bodies → w'.Roster := fun hstep hb ↦
    h.of_sameLists hb fun i c hc ↦ by
      obtain ⟨c', hc', hbody, -⟩ := (edits_act hw hstep ha).colliders i c hc
      exact ⟨c', hc', hbody⟩
  cases a with
  | addBody b =>
    cases ha
    exact h.addBody b
  | addCollider b c =>
    cases ha
    cases hx : w.addCollider b c with
    | error e => exact h
    | ok x => exact h.addCollider (i := x.1) hx
  | setFilter i f =>
    refine hsame rfl ?_
    cases ha
    simp only [setFilter]
    split <;> exact fun _ ↦ rfl
  | setMaterial i m =>
    refine hsame rfl ?_
    cases ha
    simp only [setMaterial, bind, Except.bind, pure, Except.pure]
    split
    · exact fun _ ↦ rfl
    · split
      · exact fun _ ↦ rfl
      · dsimp only [Except.toOption, Option.getD_some]
        split
        next b _ =>
          exact (sameRoster_refreshMass (w := { w with colliders := _, contacts := _ }) b).sameLists
        · exact fun _ ↦ rfl
  | setKind i k =>
    refine hsame rfl ?_
    cases ha
    cases hx : w.setKind i k with
    | error e => exact fun _ ↦ rfl
    | ok x => exact sameLists_setKind hx
  | editBody i f =>
    refine hsame rfl ?_
    cases ha
    exact sameLists_modify w.bodies i fun _ ↦ rfl
  | changeSettings s =>
    cases ha
    exact ⟨h.listed, h.ascending⟩
  | setListener l =>
    cases ha
    exact ⟨h.listed, h.ascending⟩
  | step dt => exact h.step hw ha

/-! ## Bodies of a contact -/

/-- A contact begins between colliders of different bodies. -/
theorem Begun.bodyA_ne_bodyB {p : Pair} {c : Contact α} (h : w.Begun p c) : c.bodyA ≠ c.bodyB := by
  obtain ⟨a, b, ha, hb, hj⟩ := h.joins
  obtain ⟨i, d, f, j, e, g, hi, hj', hne, -⟩ := mayTouch_iff.1 (allows_pair.1 (h.pair ▸ h.allows))
  obtain ⟨a', x, ha', hai, -⟩ := standing_eq_some_iff.1 hi
  obtain ⟨b', y, hb', hbj, -⟩ := standing_eq_some_iff.1 hj'
  cases ha.symm.trans ha'
  cases hb.symm.trans hb'
  cases hj.bodyA.symm.trans hai
  cases hj.bodyB.symm.trans hbj
  exact hne

/-- The bodies of each contact differ. -/
def TwoBodied (w : World α σ) : Prop :=
  ∀ h c, w.contacts.get? h = some c → c.bodyA ≠ c.bodyB

theorem bodies_ne_of_base {c c' : Contact α} (h : c'.base = c.base) (hne : c.bodyA ≠ c.bodyB) :
    c'.bodyA ≠ c'.bodyB := by
  simp only [Contact.base, Contact.mk.injEq] at h
  rw [h.2.2.1, h.2.2.2.1]
  exact hne

theorem TwoBodied.updatePairs (h : w.TwoBodied) (hw : w.Wf) : w.updatePairs.TwoBodied := by
  intro i c hc
  rcases (paired_updatePairs hw).origin i c hc with ⟨hc, -⟩ | ⟨hb, -⟩
  · rw [sameButGrid_regrid.contacts] at hc
    exact h i c hc
  · exact hb.bodyA_ne_bodyB

theorem TwoBodied.act (h : w.TwoBodied) (hw : w.Wf) {a : Action α σ} (ha : w.act a = .ok w') :
    w'.TwoBodied := by
  intro i c' hc'
  cases a using Action.step_or_change with
  | step dt =>
    by_cases hdt : Valid dt
    · obtain ⟨c, hc, -, hs⟩ := get?_step_eq_some hw hdt ha hc'
      refine bodies_ne_of_base ?_ (h.updatePairs hw i c hc)
      exact (Contact.base_eq_of_status hs).trans (base_renewed c)
    · cases (step_of_not_valid hdt).symm.trans ha
      exact h i c' hc'
  | change a hstep =>
    obtain ⟨c, hc, hs⟩ := (edits_act hw hstep ha).get?_eq_some hc'
    exact bodies_ne_of_base (Edits.base_eq hs) (h i c hc)

/-! ## All references of a world -/

/-- What a world refers to by number is there, and what refers to each other agrees. -/
structure Coherent (w : World α σ) : Prop where
  /-- A collider is on the list of its body, once, and on no other list. -/
  attached : ∀ (k : ColliderId) (c : Collider α), w.colliders[k]? = some c →
    ∃ (i : BodyId) (b : Body α), c.body = some i ∧ w.bodies[i]? = some b ∧ b.colliders.count k = 1 ∧
      ∀ (j : BodyId) (b' : Body α), w.bodies[j]? = some b' → k ∈ b'.colliders → j = i
  /-- A list has colliders only, in the order in which they were attached. -/
  listed : ∀ (i : BodyId) (b : Body α), w.bodies[i]? = some b →
    b.colliders.Pairwise (· < ·) ∧ ∀ k ∈ b.colliders, k < w.colliders.size
  /-- A contact knows its colliders and their bodies, and its rule is made for their shapes. -/
  joined : ∀ h c, w.contacts.get? h = some c → ∃ a b : Collider α,
    w.colliders[c.colliderA]? = some a ∧ w.colliders[c.colliderB]? = some b ∧
    a.body = some c.bodyA ∧ b.body = some c.bodyB ∧ c.bodyA ≠ c.bodyB ∧
    c.radiusA = a.shape.radius ∧ c.radiusB = b.shape.radius ∧
    c.sensor = (a.isSensor || b.isSensor) ∧
    c.kind.Handles a.shape b.shape ∧ c.collide = c.kind.collide
  /-- A manifold has room for its points. -/
  room : ∀ h c, w.contacts.get? h = some c → c.manifold.count ≤ 2
  /-- The slots to be used next are there. -/
  free : ∀ i ∈ w.contacts.free, i < w.contacts.slots.size

theorem Wf.count_le (hw : w.Wf) (hr : w.contacts.Reachable) {h : Handle} {c : Contact α}
    (hc : w.contacts.get? h = some c) : c.manifold.count ≤ 2 := by
  obtain ⟨a, b, -, -, hj⟩ := hw.joins h c hc
  refine hr.hasRoom hc fun shapeA poseA shapeB poseB ↦ ?_
  rw [hj.handles.2]
  exact c.kind.count_collide_le shapeA poseA shapeB poseB

omit [Scalar α] in
theorem lt_size_of_mem_free {r : Registry α} (hr : r.Wf) {i : Nat} (hi : i ∈ r.free) :
    i < r.slots.size := by
  obtain ⟨g, hg⟩ := (hr.mem_free_iff i).1 hi
  exact (Array.getElem?_eq_some_iff.1 hg).1

theorem Reachable.roster (hw : w.Reachable) : w.Roster := by
  refine hw.induct (fun s w h₀ ↦ ?_) fun w w' a hwf h ha ↦ h.act hwf ha
  obtain ⟨-, rfl⟩ := ofSettings_eq_ok_iff.1 h₀
  constructor <;> simp

theorem Reachable.twoBodied (hw : w.Reachable) : w.TwoBodied := by
  refine hw.induct (fun s w h₀ h c hc ↦ ?_) fun w w' a hwf h ha ↦ h.act hwf ha
  rw [(ofSettings_eq_ok h₀).1] at hc
  cases hc

/-- **The references of a world hold**, whatever has happened to it. -/
theorem Reachable.coherent (hw : w.Reachable) : w.Coherent := by
  have hwf := hw.sound.wf
  have hroster := hw.roster
  constructor
  · intro k c hc
    obtain ⟨i, b, hci, hb, hk⟩ := hwf.owned k c hc
    refine ⟨i, b, hci, hb, ?_, fun j b' hb' hk' ↦ ?_⟩
    · exact List.count_eq_one_of_mem ((hroster.ascending i b hb).imp Nat.ne_of_lt) hk
    · obtain ⟨c', hc', hcj⟩ := hroster.listed j b' hb' k hk'
      cases hc.symm.trans hc'
      exact Option.some.inj (hcj.symm.trans hci)
  · intro i b hb
    exact ⟨hroster.ascending i b hb, fun k hk ↦ hroster.lt_size hb hk⟩
  · intro h c hc
    obtain ⟨a, b, ha, hb, hj⟩ := hwf.joins h c hc
    exact ⟨a, b, ha, hb, hj.bodyA, hj.bodyB, hw.twoBodied h c hc, hj.radiusA, hj.radiusB, hj.sensor,
      hj.handles⟩
  · intro h c hc
    exact hwf.count_le hw.contacts hc
  · intro i hi
    exact lt_size_of_mem_free hwf.registry hi

end World

end PlanarDynamics
