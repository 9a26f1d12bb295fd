import Mathlib.Data.Set.Finite.Basic
import PlanarDynamics.Proofs.Registry.Run

/-!
# A registry is a map of contacts

Seen from outside, a registry is a map from pairs of colliders to contacts and their handles, its
`Registry.ledger`.  Each request rewrites one entry of the map, or moves it to another pair, and
every way of reading a registry reads the map.  `Registry.KeepsLedger` spells this out, one field
for each operation, and `Registry.keepsLedger_run` says that it is so after every run.

All operations have one form: what one handle reaches changes, and no other handle notices.  So
there are two lemmas about the ledger, for a handle that reaches nothing afterwards and for one that
reaches a new contact, and the operations are instances.
-/

namespace PlanarDynamics

/-- The contacts of pairs of colliders, with their handles. -/
abbrev Ledger (α : Type) := Pair → Option (Handle × Contact α)

namespace Ledger

variable {α : Type} {m : Ledger α} {p : Pair} {h : Handle}

/-- The ledger without the entry of a handle. -/
def without (m : Ledger α) (h : Handle) : Ledger α := fun p ↦ (m p).filter (·.1 ≠ h)

theorem without_eq_some_iff {h' : Handle} {c : Contact α} :
    m.without h p = some (h', c) ↔ m p = some (h', c) ∧ h' ≠ h := by
  simp [without]

theorem without_eq_self (hne : ∀ c, m p ≠ some (h, c)) : m.without h p = m p := by
  ext ⟨h', c⟩
  rw [without_eq_some_iff]
  refine ⟨And.left, fun hc ↦ ⟨hc, ?_⟩⟩
  rintro rfl
  exact hne c hc

end Ledger

namespace Pair

theorem lo_ne_hi_of {a b : ColliderId} : (of a b).lo ≠ (of a b).hi ↔ a ≠ b := by
  simp only [of]
  split
  · rfl
  · exact ne_comm

end Pair

theorem Contact.contains_pair {α : Type} (c : Contact α) (k : ColliderId) :
    c.pair.contains k = c.involves k := by
  simp only [pair, Pair.of, Pair.contains, involves]
  split
  · rfl
  · exact Bool.or_comm _ _

namespace Registry

variable {α : Type} {r r' : Registry α} {p : Pair} {h : Handle} {c : Contact α}

/-- What the registry stands for. -/
def ledger (r : Registry α) : Ledger α :=
  fun p ↦ r.handles[p]?.bind fun h ↦ (r.get? h).map (h, ·)

/-! ## Entries -/

namespace Wf

theorem ledger_eq_some_iff (hr : r.Wf) :
    r.ledger p = some (h, c) ↔ r.get? h = some c ∧ c.pair = p := by
  simp only [ledger, Option.bind_eq_some_iff, Option.map_eq_some_iff, hr.handles_eq_some_iff,
    Prod.mk.injEq]
  constructor
  · rintro ⟨h', ⟨c', hc', rfl⟩, c, hc, rfl, rfl⟩
    rw [hc] at hc'
    cases hc'
    exact ⟨hc, rfl⟩
  · rintro ⟨hc, rfl⟩
    exact ⟨h, ⟨c, hc, rfl⟩, c, hc, rfl, rfl⟩

theorem ledger_pair (hr : r.Wf) (hc : r.get? h = some c) : r.ledger c.pair = some (h, c) :=
  hr.ledger_eq_some_iff.2 ⟨hc, rfl⟩

theorem get?_eq_some_iff_ledger (hr : r.Wf) :
    r.get? h = some c ↔ ∃ p, r.ledger p = some (h, c) :=
  ⟨fun hc ↦ ⟨_, hr.ledger_pair hc⟩, fun ⟨_, hp⟩ ↦ (hr.ledger_eq_some_iff.1 hp).1⟩

theorem find?_eq_ledger (hr : r.Wf) (a b : ColliderId) :
    r.find? a b = (r.ledger (.of a b)).map (·.1) := by
  ext h
  simp only [hr.find?_eq_some_iff, Option.map_eq_some_iff, Prod.exists, exists_and_right,
    exists_eq_right, hr.ledger_eq_some_iff]

theorem find?_eq_none_iff_ledger (hr : r.Wf) {a b : ColliderId} :
    r.find? a b = none ↔ r.ledger (.of a b) = none := by
  rw [hr.find?_eq_ledger, Option.map_eq_none_iff]

theorem finite_ledger (hr : r.Wf) : {p | r.ledger p ≠ none}.Finite := by
  refine (List.finite_toSet (r.entries.map (·.2.pair))).subset fun p hp ↦ ?_
  obtain ⟨⟨h, c⟩, he⟩ := Option.ne_none_iff_exists'.1 hp
  obtain ⟨hc, rfl⟩ := hr.ledger_eq_some_iff.1 he
  exact List.mem_map.2 ⟨(h, c), mem_entries.2 hc, rfl⟩

theorem mem_contactsOf_iff_ledger (hr : r.Wf) {k : ColliderId} :
    h ∈ r.contactsOf k ↔ ∃ p c, r.ledger p = some (h, c) ∧ p.contains k = true := by
  simp only [mem_contactsOf, hr.ledger_eq_some_iff]
  constructor
  · rintro ⟨c, hc, hk⟩
    exact ⟨c.pair, c, ⟨hc, rfl⟩, by rwa [c.contains_pair]⟩
  · rintro ⟨_, c, ⟨hc, rfl⟩, hk⟩
    exact ⟨c, hc, by rwa [c.contains_pair] at hk⟩

/-- The entry of a live handle is the one of its contact's pair. -/
theorem without_of_live (hr : r.Wf) (hp : r.ledger p = some (h, c)) :
    r.ledger.without h = Function.update r.ledger p none := by
  funext q
  by_cases hq : q = p
  · subst hq
    simp [Ledger.without, hp]
  · rw [Function.update_of_ne hq, Ledger.without_eq_self]
    intro k hk
    obtain ⟨hc, hcp⟩ := hr.ledger_eq_some_iff.1 hp
    obtain ⟨hk, hkq⟩ := hr.ledger_eq_some_iff.1 hk
    rw [hc] at hk
    cases hk
    exact hq (hkq.symm.trans hcp)

theorem without_of_stale (hr : r.Wf) (hh : r.get? h = none) : r.ledger.without h = r.ledger := by
  funext q
  refine Ledger.without_eq_self fun k hk ↦ ?_
  rw [(hr.ledger_eq_some_iff.1 hk).1] at hh
  cases hh

end Wf

/-! ## What changes when one handle does -/

/-- The registries make contacts by the same rules. -/
def SameRules (r r' : Registry α) : Prop :=
  r'.rules = r.rules ∧ r'.frictionMixing = r.frictionMixing ∧
    r'.restitutionMixing = r.restitutionMixing

/-- The ledger becomes `m`, every handle but `h` reaches what it did, and contacts are made by the
same rules as before. -/
structure Becomes (r r' : Registry α) (h : Handle) (m : Ledger α) : Prop where
  ledger : r'.ledger = m
  frame : ∀ h', h' ≠ h → r'.get? h' = r.get? h'
  sameRules : r.SameRules r'

theorem becomes_of_none (hr : r.Wf) (hr' : r'.Wf) (hs : r.SameRules r')
    (hget : ∀ h', r'.get? h' = if h' = h then none else r.get? h') :
    r.Becomes r' h (r.ledger.without h) where
  ledger := by
    funext p
    ext ⟨h', k⟩
    rw [hr'.ledger_eq_some_iff, hget, Ledger.without_eq_some_iff, hr.ledger_eq_some_iff]
    by_cases he : h' = h <;> simp [he]
  frame h' he := by rw [hget, if_neg he]
  sameRules := hs

theorem becomes_of_some (hr : r.Wf) (hr' : r'.Wf) (hs : r.SameRules r')
    (hget : ∀ h', r'.get? h' = if h' = h then some c else r.get? h') :
    r.Becomes r' h (Function.update (r.ledger.without h) c.pair (some (h, c))) where
  ledger := by
    have hc : r'.get? h = some c := by rw [hget, if_pos rfl]
    funext p
    by_cases hp : p = c.pair
    · subst hp
      rw [Function.update_self, hr'.ledger_pair hc]
    · rw [Function.update_of_ne hp]
      ext ⟨h', k⟩
      rw [hr'.ledger_eq_some_iff, hget, Ledger.without_eq_some_iff, hr.ledger_eq_some_iff]
      by_cases he : h' = h
      · simp only [he, if_true, Option.some.injEq, ne_eq, not_true_eq_false, and_false, iff_false]
        rintro ⟨rfl, rfl⟩
        exact hp rfl
      · simp [he]
  frame h' he := by rw [hget, if_neg he]
  sameRules := hs

namespace Wf

theorem becomes_enroll (hr : r.Wf) (hc : c.colliderA ≠ c.colliderB)
    (hp : r.ledger c.pair = none) :
    r.Becomes (r.enroll c) (r.allocate c).1
      (Function.update r.ledger c.pair (some ((r.allocate c).1, c))) := by
  have hfree : ∀ h k, r.get? h = some k → k.pair ≠ c.pair := by
    intro h k hk he
    rw [← he, hr.ledger_pair hk] at hp
    cases hp
  have hs : r.SameRules (r.enroll c) := by
    cases hf : r.free <;> simp [SameRules, Registry.enroll, allocate, hf]
  have hb := becomes_of_some hr (hr.enroll hc hfree) hs (get?_enroll hr c)
  rwa [hr.without_of_stale (get?_allocate_handle hr c)] at hb

theorem becomes_destroy (hr : r.Wf) (hd : r.destroy h = .ok (c, r')) :
    r.Becomes r' h (Function.update r.ledger c.pair none) := by
  obtain ⟨hc, hr'⟩ := destroy_eq_ok_iff.1 hd
  have hs : r.SameRules r' := by
    rw [hr']
    exact ⟨rfl, rfl, rfl⟩
  have hb := becomes_of_none hr (hr.destroy hd) hs (get?_destroy hd)
  rwa [hr.without_of_live (hr.ledger_pair hc)] at hb

/-- A contact that gives way to another takes its entry along, to the pair of the other. -/
theorem becomes_rebind (hr : r.Wf) {old : Contact α} (hold : r.get? h = some old)
    (hr' : (r.rebind h old c).Wf) :
    r.Becomes (r.rebind h old c) h
      (Function.update (Function.update r.ledger old.pair none) c.pair (some (h, c))) := by
  have hb := becomes_of_some hr hr' ⟨rfl, rfl, rfl⟩ (get?_rebind hold c)
  rwa [hr.without_of_live (hr.ledger_pair hold)] at hb

theorem becomes_setContact (hr : r.Wf) (hp : r.ledger p = some (h, c)) {new : Contact α}
    (hA : new.colliderA = c.colliderA) (hB : new.colliderB = c.colliderB) :
    r.Becomes (r.setContact h.index new) h (Function.update r.ledger p (some (h, new))) := by
  obtain ⟨hc, rfl⟩ := hr.ledger_eq_some_iff.1 hp
  have hb := becomes_of_some hr (hr.setContact hc hA hB) ⟨rfl, rfl, rfl⟩ (get?_setContact hc new)
  have hnew : new.pair = c.pair := by rw [Contact.pair, hA, hB, Contact.pair]
  rwa [hr.without_of_live hp, hnew, Function.update_idem] at hb

end Wf

/-! ## The operations -/

variable [Scalar α]

namespace Wf

/-- The colliders of a pair with an entry differ, so the request is not refused. -/
theorem create_of_ledger (hr : r.Wf) {a b : ColliderId × Collider α}
    (hp : r.ledger (.of a.1 b.1) = some (h, c)) : r.create a b = .ok (h, r) := by
  have hne : a.1 ≠ b.1 := by
    obtain ⟨hc, hpair⟩ := hr.ledger_eq_some_iff.1 hp
    rw [← Pair.lo_ne_hi_of, ← hpair, Contact.pair, Pair.lo_ne_hi_of]
    exact hr.collider_ne h c hc
  refine create_eq_ok_iff.2 ⟨hne, .inl ⟨?_, rfl⟩⟩
  rw [hr.find?_eq_ledger, hp, Option.map_some]

theorem becomes_create (hr : r.Wf) {a b : ColliderId × Collider α}
    (hp : r.ledger (.of a.1 b.1) = none) (hx : r.create a b = .ok (h, r')) :
    ∃ c, r.build a b = .ok c ∧ c.Fresh ∧ c.pair = .of a.1 b.1 ∧ r.get? h = none ∧
      r.Becomes r' h (Function.update r.ledger (.of a.1 b.1) (some (h, c))) := by
  rcases create_eq_ok_iff.1 hx with ⟨hne, ⟨hfind, -⟩ | ⟨-, c, hb, rfl, rfl⟩⟩
  · rw [hr.find?_eq_none_iff_ledger.2 hp] at hfind
    cases hfind
  · obtain ⟨hfresh, hpair, hcol⟩ := of_build_eq_ok hb
    rw [← hpair] at hp ⊢
    exact ⟨c, hb, hfresh, rfl, get?_allocate_handle hr c, hr.becomes_enroll (hcol hne) hp⟩

theorem becomes_reset (hr : r.Wf) {a b : ColliderId × Collider α} (hx : r.reset h a b = .ok r') :
    ∃ p old c, r.ledger p = some (h, old) ∧
      (.of a.1 b.1 = p ∨ r.ledger (.of a.1 b.1) = none) ∧ r.build a b = .ok c ∧ c.Fresh ∧
      c.pair = .of a.1 b.1 ∧ r.Becomes r' h
        (Function.update (Function.update r.ledger p none) (.of a.1 b.1) (some (h, c))) := by
  obtain ⟨hne, old, c, hold, hfind, hb, rfl⟩ := reset_eq_ok_iff.1 hx
  have hr' : (r.rebind h old c).Wf := (Outcome.rebound hne hold hfind hb).wf hr
  obtain ⟨hfresh, hpair, -⟩ := of_build_eq_ok hb
  rw [hr.find?_eq_none_iff_ledger] at hfind
  rw [← hpair] at hfind ⊢
  exact ⟨old.pair, old, c, hr.ledger_pair hold, hfind, hb, hfresh, rfl,
    hr.becomes_rebind hold hr'⟩

end Wf

/-- The registry answers all questions from its ledger, and what is granted changes nothing but the
entry that it is about. -/
structure KeepsLedger (r : Registry α) : Prop where
  /-- Only finitely many pairs have an entry. -/
  finite : {p | r.ledger p ≠ none}.Finite
  /-- A contact is entered under its own pair. -/
  pair : ∀ p h c, r.ledger p = some (h, c) → c.pair = p
  find : ∀ a b, r.find? a b = (r.ledger (.of a b)).map (·.1)
  get : ∀ h c, r.get? h = some c ↔ ∃ p, r.ledger p = some (h, c)
  /-- Listed are all entries, each once, in the order of their slots. -/
  entries : (∀ e, e ∈ r.entries ↔ ∃ p, r.ledger p = some e) ∧
    r.entries.Pairwise (·.1.index < ·.1.index)
  /-- Listed of a collider are the handles entered under its pairs, in the order of their slots. -/
  contactsOf : ∀ k, (∀ h, h ∈ r.contactsOf k ↔
    ∃ p c, r.ledger p = some (h, c) ∧ p.contains k = true) ∧
      (r.contactsOf k).Pairwise (·.index < ·.index)
  /-- A pair that has an entry keeps it, in whichever order it is given. -/
  create_of_some : ∀ a b h c, r.ledger (.of a.1 b.1) = some (h, c) → r.create a b = .ok (h, r)
  /-- A pair that has none gets one: a fresh contact, under a handle that reached nothing. -/
  create_of_none : ∀ a b h r', r.ledger (.of a.1 b.1) = none → r.create a b = .ok (h, r') →
    ∃ c, r.build a b = .ok c ∧ c.Fresh ∧ c.pair = .of a.1 b.1 ∧ r.get? h = none ∧
      r.Becomes r' h (Function.update r.ledger (.of a.1 b.1) (some (h, c)))
  create_granted : ∀ a b c, a.1 ≠ b.1 → r.build a b = .ok c → ∃ x, r.create a b = .ok x
  /-- The entry of the handle goes, and its contact is the answer. -/
  destroy : ∀ h c r', r.destroy h = .ok (c, r') → ∃ p, r.ledger p = some (h, c) ∧
    r.Becomes r' h (Function.update r.ledger p none)
  destroy_granted : ∀ p h c, r.ledger p = some (h, c) → ∃ x, r.destroy h = .ok x
  /-- The handle moves from its pair to one that is free, with a fresh contact. -/
  reset : ∀ h a b r', r.reset h a b = .ok r' → ∃ p old c, r.ledger p = some (h, old) ∧
    (.of a.1 b.1 = p ∨ r.ledger (.of a.1 b.1) = none) ∧ r.build a b = .ok c ∧ c.Fresh ∧
    c.pair = .of a.1 b.1 ∧ r.Becomes r' h
      (Function.update (Function.update r.ledger p none) (.of a.1 b.1) (some (h, c)))
  reset_granted : ∀ p h old a b c, r.ledger p = some (h, old) → a.1 ≠ b.1 →
    (.of a.1 b.1 = p ∨ r.ledger (.of a.1 b.1) = none) → r.build a b = .ok c →
      ∃ r', r.reset h a b = .ok r'
  /-- The contact gets the coefficients of its colliders' materials, and keeps all else. -/
  remix : ∀ h colliders r', r.remix h colliders = .ok r' → ∃ p c a b,
    r.ledger p = some (h, c) ∧ colliders[c.colliderA]? = some a ∧
    colliders[c.colliderB]? = some b ∧
    r.Becomes r' h (Function.update r.ledger p (some (h, { c with
      friction := r.frictionMixing.mix a.material.friction b.material.friction
      restitution := r.restitutionMixing.mix a.material.restitution b.material.restitution })))
  remix_granted : ∀ p h c (colliders : Array (Collider α)), r.ledger p = some (h, c) →
    c.colliderA < colliders.size → c.colliderB < colliders.size →
      ∃ r', r.remix h colliders = .ok r'
  /-- A contact that is changed in place stays where it is. -/
  change : ∀ p h c how, r.ledger p = some (h, c) →
    r.Becomes (r.modify h (·.change how)) h (Function.update r.ledger p (some (h, c.change how)))

theorem Wf.keepsLedger (hr : r.Wf) : r.KeepsLedger where
  finite := hr.finite_ledger
  pair p h c hp := (hr.ledger_eq_some_iff.1 hp).2
  find := hr.find?_eq_ledger
  get h c := hr.get?_eq_some_iff_ledger
  entries := by
    refine ⟨fun ⟨h, c⟩ ↦ ?_, pairwise_entries⟩
    rw [mem_entries, hr.get?_eq_some_iff_ledger]
  contactsOf k := by
    refine ⟨fun h ↦ hr.mem_contactsOf_iff_ledger, ?_⟩
    exact List.pairwise_map.2 (pairwise_entries.filter _)
  create_of_some a b h c := hr.create_of_ledger
  create_of_none a b h r' := hr.becomes_create
  create_granted a b c hne hb := by
    cases hf : r.find? a.1 b.1 with
    | some h => exact ⟨(h, r), create_eq_ok_iff.2 ⟨hne, .inl ⟨hf, rfl⟩⟩⟩
    | none => exact ⟨(_, _), create_eq_ok_iff.2 ⟨hne, .inr ⟨hf, c, hb, rfl, rfl⟩⟩⟩
  destroy h c r' hd :=
    ⟨c.pair, hr.ledger_pair (destroy_eq_ok_iff.1 hd).1, hr.becomes_destroy hd⟩
  destroy_granted p h c hp :=
    ⟨(c, _), destroy_eq_ok_iff.2 ⟨(hr.ledger_eq_some_iff.1 hp).1, rfl⟩⟩
  reset h a b r' := hr.becomes_reset
  reset_granted p h old a b c hp hne hfree hb := by
    obtain ⟨hold, rfl⟩ := hr.ledger_eq_some_iff.1 hp
    rw [← hr.find?_eq_none_iff_ledger] at hfree
    exact ⟨_, reset_eq_ok_iff.2 ⟨hne, old, c, hold, hfree, hb, rfl⟩⟩
  remix h colliders r' hx := by
    obtain ⟨c, a, b, hc, ha, hb, rfl⟩ := remix_eq_ok_iff.1 hx
    have hp := hr.ledger_pair hc
    exact ⟨c.pair, c, a, b, hp, ha, hb, hr.becomes_setContact hp rfl rfl⟩
  remix_granted p h c colliders hp ha hb :=
    ⟨_, remix_eq_ok_iff.2 ⟨c, _, _, (hr.ledger_eq_some_iff.1 hp).1,
      Array.getElem?_eq_getElem ha, Array.getElem?_eq_getElem hb, rfl⟩⟩
  change p h c how hp := by
    rw [Registry.modify, (hr.ledger_eq_some_iff.1 hp).1]
    exact hr.becomes_setContact hp (c.colliderA_change how) (c.colliderB_change how)

/-- **After every run a registry is the map that its ledger is.** -/
theorem keepsLedger_run (rules : RuleTable α) (friction restitution : Mixing)
    (requests : List (Request α)) :
    ((empty rules friction restitution).run requests).KeepsLedger :=
  (wf_run_empty rules friction restitution requests).keepsLedger

end Registry

end PlanarDynamics
