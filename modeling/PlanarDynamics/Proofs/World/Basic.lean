import PlanarDynamics.Proofs.Registry.View
import PlanarDynamics.World.Run

/-!
# Worlds: what their parts say of each other

A world's contacts, grid and colliders refer to each other by number.  `World.Wf` says that these
references are sound: every collider is on the list of its body, every contact knows its two
colliders, and the grid knows colliders only.  `World.Tracks` says what contacts have to do with
pairs: a contact that is not marked for another check joins colliders that may touch, and a pair
that the grid remembers has a contact if it can have one.

Whether two colliders may touch depends on little, which `World.standing` collects.  An operation
that keeps the standing of a collider does not change whom it may touch.
-/

namespace PlanarDynamics

/-! ## What stays of a contact -/

namespace Contact

variable {α : Type} [Scalar α]

/-- What a contact is made with and keeps for life: all but its history and its coefficients. -/
def base (c : Contact α) : Contact α :=
  { c with
    manifold := .empty, friction := 0, restitution := 0, touching := false, enabled := true
    needsFiltering := false }

/-- The contact without its coefficients and its manifold. This is what the world decides by. -/
def status (c : Contact α) : Contact α :=
  { c with manifold := .empty, friction := 0, restitution := 0, enabled := true }

@[simp] theorem base_status (c : Contact α) : c.status.base = c.base := rfl
@[simp] theorem pair_base (c : Contact α) : c.base.pair = c.pair := rfl

theorem base_eq_of_status {c c' : Contact α} (h : c'.status = c.status) : c'.base = c.base := by
  have := congrArg base h
  simpa using this

theorem touching_eq_of_status {c c' : Contact α} (h : c'.status = c.status) :
    c'.touching = c.touching := by
  simp only [status, mk.injEq] at h
  simp only [h]

theorem needsFiltering_eq_of_status {c c' : Contact α} (h : c'.status = c.status) :
    c'.needsFiltering = c.needsFiltering := by
  simp only [status, mk.injEq] at h
  simp only [h]

theorem pair_eq_of_base {c c' : Contact α} (h : c'.base = c.base) : c'.pair = c.pair := by
  have := congrArg pair h
  simpa using this

theorem Joins.of_base {c c' : Contact α} {t : RuleTable α} {a b : Collider α} (hc : c.Joins t a b)
    (h : c'.base = c.base) : c'.Joins t a b := by
  simp only [base, mk.injEq, true_and] at h
  obtain ⟨hcA, hcB, hA, hB, hk, hf, hrA, hrB, hs, -⟩ := h
  constructor
  · rw [hA]; exact hc.bodyA
  · rw [hB]; exact hc.bodyB
  · rw [hk, hf]; exact hc.rule
  · rw [hrA]; exact hc.radiusA
  · rw [hrB]; exact hc.radiusB
  · rw [hs]; exact hc.sensor
  · rw [hcA, hcB]; exact hc.ordered

/-- A contact knows of its colliders only what a change of filter or material leaves. -/
theorem Joins.of_collider {c : Contact α} {t : RuleTable α} {a b a' b' : Collider α}
    (hc : c.Joins t a b) (ha : a'.body = a.body) (hb : b'.body = b.body)
    (has : a'.shape = a.shape) (hbs : b'.shape = b.shape) (hai : a'.isSensor = a.isSensor)
    (hbi : b'.isSensor = b.isSensor) : c.Joins t a' b' where
  bodyA := ha.trans hc.bodyA
  bodyB := hb.trans hc.bodyB
  rule := by
    simp only [Collider.kind, has, hbs]
    exact hc.rule
  radiusA := by rw [has]; exact hc.radiusA
  radiusB := by rw [hbs]; exact hc.radiusB
  sensor := by rw [hai, hbi]; exact hc.sensor
  ordered := by
    simp only [Collider.kind, has, hbs]
    exact hc.ordered

end Contact

theorem Filter.accepts_comm (a b : Filter) : a.accepts b = b.accepts a := by
  simp only [accepts]
  by_cases hg : a.group = b.group
  · rw [hg, UInt16.and_comm a.mask, UInt16.and_comm a.category,
      Bool.and_comm (b.category &&& a.mask != 0)]
  · rw [if_neg (fun h ↦ hg h.1), if_neg (fun h ↦ hg h.1.symm), UInt16.and_comm a.mask,
      UInt16.and_comm a.category, Bool.and_comm]

namespace World

variable {α σ : Type} {w w' : World α σ}

/-! ## Who may touch whom -/

/-- What decides whom a collider may touch: its body, whether that is dynamic, and its filter. -/
def standing (w : World α σ) (i : ColliderId) : Option (BodyId × Bool × Filter) := do
  let c ← w.colliders[i]?
  let b ← c.body
  let body ← w.bodies[b]?
  return (b, body.isDynamic, c.filter)

theorem standing_eq_some_iff {i : ColliderId} {b : BodyId} {d : Bool} {f : Filter} :
    w.standing i = some (b, d, f) ↔ ∃ c body, w.colliders[i]? = some c ∧ c.body = some b ∧
      w.bodies[b]? = some body ∧ body.isDynamic = d ∧ c.filter = f := by
  simp only [standing, bind, Option.bind_eq_some_iff, pure, Option.some.injEq, Prod.mk.injEq]
  constructor
  · rintro ⟨c, hc, b, hb, body, hbody, rfl, rfl, rfl⟩
    exact ⟨c, body, hc, hb, hbody, rfl, rfl⟩
  · rintro ⟨c, body, hc, hb, hbody, rfl, rfl⟩
    exact ⟨c, hc, b, hb, body, hbody, rfl, rfl, rfl⟩

theorem mayTouch_iff {a b : ColliderId} : w.mayTouch a b = true ↔
    ∃ i d f j e g, w.standing a = some (i, d, f) ∧ w.standing b = some (j, e, g) ∧
      i ≠ j ∧ (d || e) = true ∧ f.accepts g = true := by
  constructor
  · intro h
    simp only [mayTouch, bind, Option.getD_eq_iff, Option.bind_eq_some_iff, pure,
      Option.some.injEq, Bool.false_eq_true, and_false, or_false] at h
    obtain ⟨ca, hca, cb, hcb, i, hi, j, hj, x, hx, y, hy, h⟩ := h
    simp only [Bool.and_eq_true, bne_iff_ne] at h
    exact ⟨i, _, _, j, _, _, standing_eq_some_iff.2 ⟨ca, x, hca, hi, hx, rfl, rfl⟩,
      standing_eq_some_iff.2 ⟨cb, y, hcb, hj, hy, rfl, rfl⟩, h.1.1, h.1.2, h.2⟩
  · rintro ⟨i, d, f, j, e, g, ha, hb, hne, hde, hfg⟩
    obtain ⟨ca, x, hca, hi, hx, rfl, rfl⟩ := standing_eq_some_iff.1 ha
    obtain ⟨cb, y, hcb, hj, hy, rfl, rfl⟩ := standing_eq_some_iff.1 hb
    simp [mayTouch, hca, hcb, hi, hj, hx, hy, hne, hde, hfg]

theorem mayTouch_comm (a b : ColliderId) : w.mayTouch a b = w.mayTouch b a := by
  have key : ∀ a b, w.mayTouch a b = true → w.mayTouch b a = true := by
    intro a b h
    obtain ⟨i, d, f, j, e, g, ha, hb, hne, hde, hfg⟩ := mayTouch_iff.1 h
    exact mayTouch_iff.2 ⟨j, e, g, i, d, f, hb, ha, Ne.symm hne, by rw [Bool.or_comm]; exact hde,
      by rw [Filter.accepts_comm]; exact hfg⟩
  exact Bool.eq_iff_iff.2 ⟨key a b, key b a⟩

theorem mayTouch_congr {a b : ColliderId} (ha : w'.standing a = w.standing a)
    (hb : w'.standing b = w.standing b) : w'.mayTouch a b = w.mayTouch a b := by
  rw [Bool.eq_iff_iff, mayTouch_iff, mayTouch_iff, ha, hb]

/-- Whether the colliders of a pair may touch. -/
def Allows (w : World α σ) (p : Pair) : Prop := w.mayTouch p.lo p.hi = true

theorem allows_of {a b : ColliderId} : w.Allows (.of a b) ↔ w.mayTouch a b = true := by
  simp only [Allows, Pair.of]
  split
  · exact Iff.rfl
  · rw [mayTouch_comm]

theorem allows_pair {c : Contact α} :
    w.Allows c.pair ↔ w.mayTouch c.colliderA c.colliderB = true :=
  allows_of

theorem Allows.lo_ne_hi {p : Pair} (h : w.Allows p) : p.lo ≠ p.hi := by
  obtain ⟨i, d, f, j, e, g, ha, hb, hne, _⟩ := mayTouch_iff.1 h
  intro he
  rw [he, hb] at ha
  cases ha
  exact hne rfl

variable [Scalar α]

/-- Whether there is a rule for the shapes of a pair. -/
def HasRule (w : World α σ) (p : Pair) : Prop :=
  ∃ a b, w.colliders[p.lo]? = some a ∧ w.colliders[p.hi]? = some b ∧
    (RuleTable.standard (α := α)).rule? a.kind b.kind ≠ none

/-! ## Contacts by pair -/

/-- The pair has a contact. -/
def Live (w : World α σ) (p : Pair) : Prop :=
  ∃ h c, w.contacts.get? h = some c ∧ c.pair = p

/-- The pair has a contact whose colliders touch. -/
def Touches (w : World α σ) (p : Pair) : Prop :=
  ∃ h c, w.contacts.get? h = some c ∧ c.pair = p ∧ c.touching = true

/-! ## Sound references -/

structure Wf (w : World α σ) : Prop where
  registry : w.contacts.Wf
  rules : w.contacts.rules = .standard
  owned : ∀ (i : ColliderId) (c : Collider α), w.colliders[i]? = some c →
    ∃ (b : BodyId) (body : Body α), c.body = some b ∧ w.bodies[b]? = some body ∧ i ∈ body.colliders
  joins : ∀ h c, w.contacts.get? h = some c → ∃ a b, w.colliders[c.colliderA]? = some a ∧
    w.colliders[c.colliderB]? = some b ∧ c.Joins .standard a b
  box_lt : ∀ i b, w.grid.box? i = some b → i < w.colliders.size
  pair_lt : ∀ p ∈ w.grid.pairs, p.hi < w.colliders.size

structure Tracks (w : World α σ) : Prop where
  /-- A contact that need not be checked again joins colliders that may touch. -/
  allowed : ∀ h c, w.contacts.get? h = some c → c.needsFiltering = false → w.Allows c.pair
  /-- A pair that is remembered has a contact, if it can have one. -/
  live : ∀ p ∈ w.grid.pairs, w.Allows p → w.HasRule p → w.Live p

theorem Wf.handle_eq (hw : w.Wf) {h h' : Handle} {c c' : Contact α}
    (hc : w.contacts.get? h = some c) (hc' : w.contacts.get? h' = some c')
    (hp : c'.pair = c.pair) : h' = h :=
  hw.registry.handle_eq hc hc' hp

/-- The colliders of a contact, and the bodies that they are on. -/
theorem Wf.exists_sides (hw : w.Wf) {h : Handle} {c : Contact α}
    (hc : w.contacts.get? h = some c) : ∃ (a b : Collider α) (x y : Body α),
      w.colliders[c.colliderA]? = some a ∧ w.colliders[c.colliderB]? = some b ∧
      w.bodies[c.bodyA]? = some x ∧ w.bodies[c.bodyB]? = some y ∧ c.Joins .standard a b := by
  obtain ⟨a, b, ha, hb, hj⟩ := hw.joins h c hc
  obtain ⟨i, x, hi, hx, -⟩ := hw.owned _ a ha
  obtain ⟨j, y, hj', hy, -⟩ := hw.owned _ b hb
  cases hj.bodyA.symm.trans hi
  cases hj.bodyB.symm.trans hj'
  exact ⟨a, b, x, y, ha, hb, hx, hy, hj⟩

/-- The pair of a contact is one of colliders. -/
theorem Wf.contact_pair_lt (hw : w.Wf) {h : Handle} {c : Contact α}
    (hc : w.contacts.get? h = some c) : c.pair.hi < w.colliders.size := by
  obtain ⟨a, b, ha, hb, -⟩ := hw.joins h c hc
  have hA := (Array.getElem?_eq_some_iff.1 ha).1
  have hB := (Array.getElem?_eq_some_iff.1 hb).1
  simp only [Contact.pair, Pair.of]
  split
  · exact hB
  · exact hA

end World

end PlanarDynamics
