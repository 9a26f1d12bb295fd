import PlanarDynamics.Proofs.World.Nearness
import PlanarDynamics.Proofs.Solver.Coasting

/-!
# Worlds of sensors

Sensors notice what they overlap and push nothing away.  A step in which nothing is to be solved
moves each body by itself and never fails, so a world of sensors can be run for ever.
-/

namespace PlanarDynamics

theorem exists_mapM_eq_ok {β γ ε : Type} {f : β → Except ε γ} {l : List β}
    (h : ∀ x ∈ l, ∃ y, f x = .ok y) : ∃ ys, l.mapM f = .ok ys := by
  induction l with
  | nil => exact ⟨[], rfl⟩
  | cons x l ih =>
    obtain ⟨y, hy⟩ := h x List.mem_cons_self
    obtain ⟨ys, hys⟩ := ih fun z hz ↦ h z (List.mem_cons_of_mem _ hz)
    exact ⟨y :: ys, by rw [List.mapM_cons, hy, hys]; rfl⟩

/-! ## Islands without contacts -/

namespace Island

theorem reach_singleton (isStatic : BodyId → Bool) (i : BodyId) (unseen : List BodyId) :
    reach isStatic [] [i] unseen = [i] := by
  rw [reach]
  split
  · rw [reach]
  · simp only [neighbours, List.filter_nil, List.map_nil, pushAll]
    rw [reach]

/-- Without links, an island is a single body. -/
theorem of_mem_collect {isStatic : BodyId → Bool} {seeds unseen : List BodyId} {island : Island}
    (h : island ∈ collect isStatic [] seeds unseen) :
    island.contacts = [] ∧ ∀ i ∈ island.bodies, i ∈ seeds := by
  induction seeds generalizing unseen with
  | nil => cases h
  | cons seed seeds ih =>
    have hrest : ∀ {unseen}, island ∈ collect isStatic [] seeds unseen →
        island.contacts = [] ∧ ∀ i ∈ island.bodies, i ∈ seed :: seeds := fun h ↦
      ⟨(ih h).1, fun i hi ↦ List.mem_cons_of_mem _ ((ih h).2 i hi)⟩
    rw [collect] at h
    split at h
    · exact hrest h
    · obtain rfl | h := List.mem_cons.1 h
      · refine ⟨rfl, fun i hi ↦ ?_⟩
        rw [reach_singleton, ofReached, List.mem_append, List.mem_filter, List.mem_filter,
          ← and_or_left, List.mem_singleton] at hi
        exact hi.1 ▸ List.mem_cons_self
      · exact hrest h

end Island

namespace World

variable {α σ : Type} [Scalar α] {w w' : World α σ}

/-! ## Runs -/

/-- All colliders are sensors. -/
def Sensory (w : World α σ) : Prop :=
  ∀ (i : ColliderId) (c : Collider α), w.colliders[i]? = some c → c.isSensor = true

/-- Bodies that no contact holds can always move. -/
theorem exists_move (h : Island.links w.bodies w.contacts = []) (dt : α) :
    ∃ w', w.move dt = .ok w' := by
  obtain ⟨solutions, hs⟩ : ∃ ss, (Island.partition w.bodies w.contacts).mapM
      (·.solve w.bodies w.contacts
        (TimeStep.of dt w.previousDt w.settings.gravity w.settings.solver)) = .ok ss := by
    refine exists_mapM_eq_ok fun island hi ↦ ?_
    rw [Island.partition_eq, h] at hi
    obtain ⟨hc, hb⟩ := Island.of_mem_collect hi
    exact Island.exists_solve _ _ hc fun i hi ↦ List.mem_range.1 (hb i hi)
  exact ⟨_, by simp only [move, hs]; rfl⟩

namespace Sensory

/-- Contacts of sensors are not to be solved. -/
theorem links_eq_nil (h : w.Sensory) (hw : w.Wf) : Island.links w.bodies w.contacts = [] := by
  rw [Island.links, List.filterMap_eq_nil_iff]
  rintro ⟨i, c⟩ hmem
  obtain ⟨a, b, ha, -, hj⟩ := hw.joins i c (Registry.mem_entries.1 hmem)
  have hs : c.sensor = true := by rw [hj.sensor, h _ a ha, Bool.true_or]
  exact if_neg (by simp [Contact.isSolvable, hs])

theorem exists_step (h : w.Sensory) (hw : w.Wf) (dt : α) :
    ∃ w', w.step dt = .ok w' ∧ w'.Sensory := by
  by_cases hdt : Valid dt
  · have hw₁ := wf_updatePairs hw
    have hs : w.updatePairs.refreshed.Sensory := by
      rw [Sensory, colliders_updated hw]
      exact h
    obtain ⟨w', hm⟩ := exists_move (hs.links_eq_nil (wf_refreshed hw₁)) dt
    refine ⟨w', ?_, ?_⟩
    · rw [step_of_valid hdt, updateContacts_eq hw₁]
      simp only [bind, Except.bind]
      exact hm
    · rw [Sensory, (moved_move hm).colliders]
      exact hs
  · exact ⟨w, step_of_not_valid hdt, h⟩

end Sensory

end World

/-- The action adds no collider other than a sensor. -/
def Action.addsSensors {α σ : Type} : Action α σ → Bool
  | .addCollider _ c => c.isSensor
  | _ => true

namespace World

variable {α σ : Type} [Scalar α] {w w' : World α σ}

theorem Sensory.exists_act (h : w.Sensory) (hw : w.Wf) {a : Action α σ}
    (ha : a.addsSensors = true) : ∃ w', w.act a = .ok w' ∧ w'.Sensory := by
  cases a using Action.step_or_change with
  | step dt => exact h.exists_step hw dt
  | change a hstep =>
    obtain ⟨w', hw'⟩ : ∃ w', w.act a = .ok w' := by
      cases a with
      | step dt => cases hstep
      | _ => exact ⟨_, rfl⟩
    refine ⟨w', hw', fun i c' hc' ↦ ?_⟩
    obtain hi | ⟨b, c, rfl, rfl⟩ := (frame_act hstep hw').colliders i c' hc'
    · have hc := Array.getElem?_eq_getElem hi
      obtain ⟨c'', hc'', -, -, hs⟩ := (edits_act hw hstep hw').colliders i _ hc
      rw [hc''] at hc'
      cases hc'
      rw [hs]
      exact h i _ hc
    · exact ha

/-- **A run without other colliders than sensors goes through.** -/
theorem exists_run_of_sensors {s : WorldSettings α} {w₀ : World α σ} (h₀ : ofSettings s = .ok w₀)
    {actions : List (Action α σ)} (ha : ∀ a ∈ actions, a.addsSensors = true) :
    ∃ w, w₀.run actions = .ok w := by
  have hrun : ∀ (as : List (Action α σ)) (w : World α σ), (∀ a ∈ as, a.addsSensors = true) →
      w.Sensory → w.Wf → ∃ w', w.run as = .ok w' := by
    intro as
    induction as with
    | nil => exact fun w _ _ _ ↦ ⟨w, rfl⟩
    | cons a as ih =>
      intro w ha hs hw
      obtain ⟨w₁, hact, hs₁⟩ := hs.exists_act hw (ha a List.mem_cons_self)
      obtain ⟨w', hr⟩ := ih w₁ (fun b hb ↦ ha b (List.mem_cons_of_mem _ hb)) hs₁ (wf_act hw hact)
      exact ⟨w', run_cons.2 ⟨w₁, hact, hr⟩⟩
  refine hrun actions w₀ ha (fun i c hc ↦ ?_) (wf_ofSettings h₀)
  obtain ⟨-, rfl⟩ := ofSettings_eq_ok_iff.1 h₀
  simp at hc

end World

/-! ## Two discs

The smallest world in which something happens: a disc on a body that stays and a disc on a body that
can move, both on the first axis of the plane. -/

theorem Body.pose_resetMass (b : Body ℝ) (parts : List (MassData ℝ)) :
    (b.resetMass parts).pose = b.pose := by
  simp only [resetMass]
  split
  · ext <;> simp [pose, Pose.ofCenter]
  · ext <;> simp [pose, Pose.ofCenter, withoutMass, Vec.rotate]

/-- A disc of radius 1 about the origin. -/
noncomputable def Shape.disc : Shape ℝ := .circle ⟨1, 0⟩

/-- A sensor in the form of a disc. -/
noncomputable def Collider.disc (body : Option BodyId) : Collider ℝ :=
  ⟨.disc, .default, .default, true, body⟩

@[simp] theorem Collider.shape_disc (body : Option BodyId) : (disc body).shape = .disc := rfl

/-- The pose of a body that stands on the first axis. -/
def Pose.onAxis (x : ℝ) : Pose ℝ := ⟨⟨x, 0⟩, 0⟩

@[simp] theorem Pose.onAxis_apply_zero (x : ℝ) : (onAxis x).apply 0 = ⟨x, 0⟩ := by
  ext <;> simp [apply, rotate, onAxis, Vec.rotate]

theorem extreme_disc {d : Vec ℝ} (hd : d.normSq = 1) (x : ℝ) :
    Shape.disc.extreme (.onAxis x) d = ⟨x + d.x, d.y⟩ := by
  have hrot : ∀ v : Vec ℝ, v.rotate 0 = v := fun v ↦ by
    ext <;> simp [Vec.rotate, Scalar.cos, Scalar.sin]
  simp only [Shape.disc, Shape.extreme, Shape.support, Circle.support, Pose.onAxis, Pose.apply,
    Pose.rotate, Pose.unrotate, neg_zero, hrot, Vec.normalizeOr_of_normSq hd]
  ext
  · simp [add_comm]
  · simp

theorem bounds_disc (x : ℝ) :
    Shape.disc.bounds (.onAxis x) = ⟨⟨x - 1, -1⟩, ⟨x + 1, 1⟩⟩ := by
  have hd : ∀ a b : ℝ, a * a + b * b = 1 → (⟨a, b⟩ : Vec ℝ).normSq = 1 := fun a b h ↦ h
  rw [Shape.bounds, extreme_disc (hd _ _ (by norm_num)), extreme_disc (hd _ _ (by norm_num)),
    extreme_disc (hd _ _ (by norm_num)), extreme_disc (hd _ _ (by norm_num))]
  simp only [Box.spanning, Vec.min, Vec.max, Scalar.min_eq, Scalar.max_eq]
  rw [min_eq_left (by linarith), min_eq_left (by norm_num), max_eq_right (by linarith),
    max_eq_right (by norm_num)]
  rfl

/-- The box of a disc that was last brought up to date with the disc at `x`. -/
def Box.aroundDisc (m x : ℝ) : Box ℝ := ⟨⟨x - 1 - m, -1 - m⟩, ⟨x + 1 + m, 1 + m⟩⟩

theorem contains_aroundDisc {m x y : ℝ} (hm : 0 ≤ m) :
    (Box.aroundDisc m x).contains (Shape.disc.bounds (.onAxis y)) = true ↔
      |y - x| ≤ m := by
  rw [bounds_disc, Box.contains_iff, abs_le]
  simp only [Box.aroundDisc]
  constructor
  · rintro ⟨⟨h₁, -⟩, h₂, -⟩
    constructor <;> linarith
  · rintro ⟨h₁, h₂⟩
    refine ⟨⟨?_, ?_⟩, ?_, ?_⟩ <;> linarith

theorem grow_bounds_disc (m x : ℝ) :
    (Shape.disc.bounds (.onAxis x)).grow m = .aroundDisc m x := by
  rw [bounds_disc]
  rfl

namespace World

variable {σ : Type} {w w' : World ℝ σ} {x y z : ℝ}

theorem exists_ofSettings_default (σ : Type) : ∃ w : World ℝ σ, ofSettings .default = .ok w :=
  ⟨_, ofSettings_eq_ok_iff.2 ⟨by norm_num [WorldSettings.default], rfl⟩⟩

theorem margin_default (h : ofSettings .default = .ok w) : w.grid.margin = 1 / 10 := by
  obtain ⟨-, rfl⟩ := ofSettings_eq_ok_iff.1 h
  rw [Scalar.max_eq]
  norm_num [WorldSettings.default]

/-- A disc on a body that stays, and one on a body that can move. -/
noncomputable def discs (x y : ℝ) : List (Action ℝ σ) :=
  [.addBody (.ofKind .static ⟨x, 0⟩), .addBody (.ofKind .dynamic ⟨y, 0⟩),
    .addCollider 0 (.disc none),
    .addCollider 1 (.disc none)]

/-- The discs are there, and no other colliders. -/
structure HasDiscs (w : World ℝ σ) : Prop where
  size : w.colliders.size = 2
  still : w.colliders[0]? = some (Collider.disc (some 0))
  loose : w.colliders[1]? = some (Collider.disc (some 1))
  static : w.bodies[0]?.map Body.kind = some .static
  dynamic : w.bodies[1]?.map Body.kind = some .dynamic

/-- Where the bodies of the discs are. -/
def PosedAt (w : World ℝ σ) (x y : ℝ) : Prop :=
  w.bodies[0]?.map Body.pose = some (.onAxis x) ∧ w.bodies[1]?.map Body.pose = some (.onAxis y)

theorem PosedAt.congr (h : w.PosedAt x y) (hb : w'.bodies = w.bodies) : w'.PosedAt x y := by
  rw [PosedAt, hb]
  exact h

/-- Where the boxes of the discs are. -/
def BoxedAt (w : World ℝ σ) (x y : ℝ) : Prop :=
  w.grid.box? 0 = some (.aroundDisc w.grid.margin x) ∧
    w.grid.box? 1 = some (.aroundDisc w.grid.margin y)

theorem pose_ofKind (k : BodyKind) (x : ℝ) : (Body.ofKind k (⟨x, 0⟩ : Vec ℝ)).pose = .onAxis x := by
  ext <;> simp [Body.pose, Body.ofKind, Pose.ofCenter, Pose.onAxis, Vec.rotate]

/-- Attaching a collider leaves kinds and poses, and gives the collider a box of its own. -/
theorem act_addCollider (hw : w.Wf) {b : BodyId} {body : Body ℝ} {c : Collider ℝ}
    (hb : w.bodies[b]? = some body) (h : w.act (.addCollider b c) = .ok w') :
    w'.colliders = w.colliders.push { c with body := some b } ∧
      (∀ i : BodyId, w'.bodies[i]?.map Body.kind = w.bodies[i]?.map Body.kind ∧
        w'.bodies[i]?.map Body.pose = w.bodies[i]?.map Body.pose) ∧
      w'.grid.margin = w.grid.margin ∧
      w'.grid.box? w.colliders.size = some ((c.shape.bounds body.pose).grow w.grid.margin) ∧
      ∀ i, i ≠ w.colliders.size → w'.grid.box? i = w.grid.box? i := by
  have hlt := (Array.getElem?_eq_some_iff.1 hb).1
  have hnone : w.grid.box? w.colliders.size = none := by
    rw [Option.eq_none_iff_forall_not_mem]
    exact fun box hbox ↦ Nat.lt_irrefl _ (hw.box_lt _ box hbox)
  simp only [act, addCollider, if_pos hlt] at h
  cases h
  refine ⟨rfl, fun i ↦ ?_, (margin_syncBox _ _).1, ?_, fun i hi ↦ box?_syncBox_of_ne hi _⟩
  · have hkind := resetMass_kind (α := ℝ)
    simp only [Except.map, Except.toOption, Option.getD_some, refreshMass, Array.getElem?_modify]
    split
    · constructor
      · rw [Option.map_map, Option.map_map]
        exact congrArg (Option.map · _) (funext fun b ↦ hkind _ _)
      · rw [Option.map_map, Option.map_map]
        exact congrArg (Option.map · _) (funext fun b ↦ Body.pose_resetMass _ _)
    · exact ⟨rfl, rfl⟩
  · simp only [Except.map, Except.toOption, Option.getD_some, refreshMass]
    rw [box?_syncBox_self, hnone, Option.bind_some, hb, Option.bind_some]
    exact if_pos rfl

theorem run_discs {s : WorldSettings ℝ} {w₀ : World ℝ σ} (h₀ : ofSettings s = .ok w₀)
    (h : w₀.run (discs x y) = .ok w) : w.HasDiscs ∧ w.PosedAt x y ∧ w.BoxedAt x y := by
  have hw₀ := wf_ofSettings h₀
  obtain ⟨-, rfl⟩ := ofSettings_eq_ok_iff.1 h₀
  simp only [discs, run_cons] at h
  obtain ⟨w₁, h₁, w₂, h₂, w₃, h₃, w₄, h₄, h⟩ := h
  cases h
  have hw₂ := wf_act (wf_act hw₀ h₁) h₂
  have hw₃ := wf_act hw₂ h₃
  cases h₁
  cases h₂
  obtain ⟨hc₃, hb₃, hm₃, hbox₃, -⟩ := act_addCollider hw₂ rfl h₃
  obtain ⟨body, hbody, hpose⟩ :=
    Option.map_eq_some_iff.1 ((hb₃ 1).2.trans (congrArg some (pose_ofKind .dynamic y)))
  obtain ⟨hc, hb, hm, hbox, hold⟩ := act_addCollider hw₃ hbody h₄
  refine ⟨⟨?_, ?_, ?_, (hb 0).1.trans (hb₃ 0).1, (hb 1).1.trans (hb₃ 1).1⟩, ⟨?_, ?_⟩, ?_, ?_⟩
  · rw [hc, hc₃]
    rfl
  · rw [hc, hc₃]
    rfl
  · rw [hc, hc₃]
    rfl
  · exact (hb 0).2.trans ((hb₃ 0).2.trans (congrArg some (pose_ofKind .static x)))
  · exact (hb 1).2.trans ((hb₃ 1).2.trans (congrArg some (pose_ofKind .dynamic y)))
  · rw [hold 0 (by rw [hc₃]; exact Nat.zero_ne_one), hm, hm₃, ← grow_bounds_disc,
      ← pose_ofKind .static]
    exact hbox₃
  · have hsize : w₃.colliders.size = 1 := by
      rw [hc₃]
      rfl
    rw [hsize, hpose] at hbox
    rw [hbox, hm, ← grow_bounds_disc, Collider.shape_disc]

/-- The body of a caller's choice, at rest on the first axis. -/
noncomputable def resting (x : ℝ) : BodyState ℝ := (Body.ofKind .static ⟨x, 0⟩).toBodyState

/-- Puts the discs elsewhere. -/
noncomputable def placing (x y : ℝ) : List (Action ℝ σ) :=
  [.editBody 0 fun _ ↦ resting x, .editBody 1 fun _ ↦ resting y]

theorem run_placing (hd : w.HasDiscs) (h : w.run (placing x y) = .ok w') :
    w'.HasDiscs ∧ w'.PosedAt x y ∧ w'.grid = w.grid ∧ w'.contacts = w.contacts := by
  simp only [placing, run_cons] at h
  obtain ⟨w₁, h₁, w₂, h₂, h⟩ := h
  cases h
  cases h₁
  cases h₂
  obtain ⟨b₀, hb₀, hk₀⟩ := Option.map_eq_some_iff.1 hd.static
  obtain ⟨b₁, hb₁, hk₁⟩ := Option.map_eq_some_iff.1 hd.dynamic
  have h₀ : ((w.editBody 0 fun _ ↦ resting x).editBody 1 fun _ ↦ resting y).bodies[0]? =
      some { b₀ with toBodyState := resting x } := by
    simp [editBody, Array.getElem?_modify, hb₀]
  have h₁ : ((w.editBody 0 fun _ ↦ resting x).editBody 1 fun _ ↦ resting y).bodies[1]? =
      some { b₁ with toBodyState := resting y } := by
    simp [editBody, Array.getElem?_modify, hb₁]
  refine ⟨⟨hd.size, hd.still, hd.loose, ?_, ?_⟩, ⟨?_, ?_⟩, rfl, rfl⟩
  · rw [h₀]
    exact congrArg some hk₀
  · rw [h₁]
    exact congrArg some hk₁
  · rw [h₀]
    exact congrArg some (pose_ofKind .static x)
  · rw [h₁]
    exact congrArg some (pose_ofKind .static y)

namespace HasDiscs

theorem allows (h : w.HasDiscs) : w.Allows (.of 0 1) := by
  obtain ⟨b₀, hb₀, hk₀⟩ := Option.map_eq_some_iff.1 h.static
  obtain ⟨b₁, hb₁, hk₁⟩ := Option.map_eq_some_iff.1 h.dynamic
  refine mayTouch_iff.2 ⟨0, _, .default, 1, _, .default,
    standing_eq_some_iff.2 ⟨_, b₀, h.still, rfl, hb₀, rfl, rfl⟩,
    standing_eq_some_iff.2 ⟨_, b₁, h.loose, rfl, hb₁, rfl, rfl⟩, by decide, ?_, by decide⟩
  simp [Body.isDynamic, hk₁]

theorem hasRule (h : w.HasDiscs) : w.HasRule (.of 0 1) :=
  ⟨_, _, h.still, h.loose, by
    simp [rule?_standard_eq_none_iff, Collider.kind, Collider.disc, Shape.disc, Shape.kind]⟩

theorem congr (h : w.HasDiscs) (hc : w'.colliders = w.colliders) (hb : w'.bodies = w.bodies) :
    w'.HasDiscs :=
  ⟨hc ▸ h.size, hc ▸ h.still, hc ▸ h.loose, hb ▸ h.static, hb ▸ h.dynamic⟩

protected theorem step (h : w.HasDiscs) (hw : w.Wf) {dt : ℝ} (hdt : Valid dt)
    (hs : w.step dt = .ok w') : w'.HasDiscs := by
  have hm := moved_step hw hdt hs
  have hc := hm.colliders.trans (colliders_updated hw)
  have hk : ∀ i : BodyId, w'.bodies[i]?.map Body.kind = w.bodies[i]?.map Body.kind := by
    intro i
    rw [hm.roster.kind, bodies_updated hw]
  exact ⟨hc ▸ h.size, hc ▸ h.still, hc ▸ h.loose, (hk 0).trans h.static, (hk 1).trans h.dynamic⟩

/-- Discs that overlap are near each other. -/
theorem mem_near (h : w.HasDiscs) (hp : w.PosedAt x y) (hw : w.Reachable) (hxy : |x - y| ≤ 2) :
    .of 0 1 ∈ w.near := by
  obtain ⟨b₀, hb₀, hx⟩ := Option.map_eq_some_iff.1 hp.1
  obtain ⟨b₁, hb₁, hy⟩ := Option.map_eq_some_iff.1 hp.2
  obtain ⟨hscale, hmargin⟩ := measures_nonneg hw
  refine mem_near_of_inseparable hscale hmargin (by decide) h.still h.loose rfl rfl hb₀ hb₁ ?_
  intro d hd
  have hn : (-d).normSq = 1 := (Vec.normSq_neg d).trans hd
  have hdx : d.dot ⟨y - x, 0⟩ ≤ 2 := by
    refine Vec.dot_le_of_normSq_le hd (by norm_num) ?_
    obtain ⟨h₁, h₂⟩ := abs_le.1 hxy
    simp only [Vec.normSq, Vec.dot]
    nlinarith
  rw [hx, hy]
  refine le_of_le_of_eq ?_ (congrArg₂ _ (Shape.top_circle hd _) (Shape.top_circle hn _)).symm
  simp only [Pose.onAxis_apply_zero, Vec.dot, Vec.neg_x, Vec.neg_y] at hdx ⊢
  linarith

/-- A disc keeps its box for as long as it has not moved by more than the margin. -/
theorem box?_syncBoxes_disc (hm : 0 ≤ w.grid.margin) {i : ColliderId} {b : BodyId}
    (hc : w.colliders[i]? = some (Collider.disc (some b)))
    (hp : w.bodies[b]?.map Body.pose = some (.onAxis x))
    (hbox : w.grid.box? i = some (.aroundDisc w.grid.margin y)) :
    w.syncBoxes.grid.box? i =
      some (.aroundDisc w.grid.margin (if |x - y| ≤ w.grid.margin then y else x)) := by
  obtain ⟨body, hbody, hpose⟩ := Option.map_eq_some_iff.1 hp
  rw [box?_syncBoxes_eq hc rfl hbody, hpose, hbox, Collider.shape_disc, Option.any_some]
  by_cases hxy : |x - y| ≤ w.grid.margin
  · rw [if_pos hxy, if_pos ((contains_aroundDisc hm).2 hxy)]
  · rw [if_neg hxy, if_neg fun hn ↦ hxy ((contains_aroundDisc hm).1 hn)]
    exact congrArg some (grow_bounds_disc _ _)

/-- Where the boxes are is known while the discs stay. -/
theorem boxedAt_step (h : w.HasDiscs) (hp : w.PosedAt x y) (hb : w.BoxedAt x y) (hw : w.Reachable)
    {dt : ℝ} (hdt : Valid dt) (hs : w.step dt = .ok w') : w'.BoxedAt x y := by
  have hwf := hw.sound.wf
  have hm := (measures_nonneg hw).2
  have hbox : ∀ i, w'.grid.box? i = w.syncBoxes.grid.box? i := fun i ↦ by
    rw [grid_step hwf hdt hs, box?_regrid]
  have hself : ∀ z : ℝ, |z - z| ≤ w.grid.margin := fun z ↦ by
    rw [sub_self, abs_zero]
    exact hm
  rw [BoxedAt, hbox, hbox, (measures_step hwf hs).2, box?_syncBoxes_disc hm h.still hp.1 hb.1,
    box?_syncBoxes_disc hm h.loose hp.2 hb.2, if_pos (hself x), if_pos (hself y)]
  exact ⟨rfl, rfl⟩

/-- A disc that has moved away is not near any more. -/
theorem notMem_near (h : w.HasDiscs) (hp : w.PosedAt x y) (hb : w.BoxedAt x z) (hw : w.Reachable)
    (hyz : w.grid.margin < |y - z|) (hxy : 2 + 2 * w.grid.margin < y - x) :
    .of 0 1 ∉ w.near := by
  have hm := (measures_nonneg hw).2
  intro hn
  obtain ⟨-, box, box', hbox, hbox', ho, -⟩ := (Grid.mem_overlapping _).1 hn
  have h₀ := box?_syncBoxes_disc hm h.still hp.1 hb.1
  have h₁ := box?_syncBoxes_disc hm h.loose hp.2 hb.2
  rw [if_neg (not_le.2 hyz)] at h₁
  rw [ite_self] at h₀
  cases h₀.symm.trans hbox
  cases h₁.symm.trans hbox'
  obtain ⟨⟨hlt, -⟩, -⟩ := Box.overlaps_iff.1 ho
  simp only [Box.aroundDisc] at hlt
  linarith

/-- After a step, discs that overlap have a contact. -/
theorem live_step (h : w.HasDiscs) (hp : w.PosedAt x y) (hw : w.Reachable) (hxy : |x - y| ≤ 2)
    {dt : ℝ} (hdt : Valid dt) (hs : w.step dt = .ok w') :
    w'.Live (.of 0 1) ∧ .of 0 1 ∈ w'.grid.pairs := by
  obtain ⟨hwf, ht⟩ := hw.sound
  have hnear := h.mem_near hp hw hxy
  refine ⟨World.live_step hwf hdt hs ?_ h.allows, ?_⟩
  · exact live_updatePairs_of_near hwf ht hnear h.allows h.hasRule
  · rw [pairs_step hwf hdt hs]
    exact hnear

/-- Giving a disc the filter that it has leaves it where it is. -/
theorem setFilter (h : w.HasDiscs) (hs : w.act (.setFilter 1 .default) = .ok w') :
    w'.HasDiscs ∧ w'.bodies = w.bodies ∧ w'.grid.margin = w.grid.margin ∧
      w'.grid.box? = w.grid.box? := by
  have hlt := (Array.getElem?_eq_some_iff.1 h.loose).1
  simp only [act, World.setFilter, if_pos hlt] at hs
  cases hs
  refine ⟨⟨Array.size_modify.trans h.size, ?_, ?_, h.static, h.dynamic⟩, rfl, rfl, rfl⟩
  · simpa [Except.toOption, recheck, Array.getElem?_modify] using h.still
  · simp [Except.toOption, recheck, Array.getElem?_modify, h.loose, Collider.disc]

end HasDiscs

end World

end PlanarDynamics
