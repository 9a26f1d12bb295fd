import PlanarDynamics.Contact.Registry
import PlanarDynamics.Proofs.Proximity.Overlap

/-!
# The registry seen through its handles

A registry keeps its contacts in slots, its vacant slots on a stack, and the handle of each pair of
colliders in a map.  Callers see none of this: they see which contact a handle reaches.  This file
says when the three parts agree (`Registry.Wf`), and what each operation does to `Registry.get?`,
which is all that later files need to know of it.

Generations wrap around, so a handle that was once stale may reach a contact again.  Nothing here
depends on generations being fresh: a slot is vacant between two of its contacts, and the map
forgets a contact when its slot is vacated.
-/

namespace PlanarDynamics

namespace RuleTable

variable {α : Type}

/-- A rule entered under the kinds in the other order is also entered under them in its own. -/
def Balanced (t : RuleTable α) : Prop :=
  ∀ x y k f, t.rule? x y = some ⟨k, f, false⟩ → t.rule? y x = some ⟨k, f, true⟩

theorem balanced_empty : (empty : RuleTable α).Balanced := by
  intro x y k f h
  cases h

theorem Balanced.register {t : RuleTable α} (ht : t.Balanced) (kind : PairKind)
    (collide : Collide α) (a b : ShapeKind) : (t.register kind collide a b).Balanced := by
  intro x y k f h
  simp only [RuleTable.register] at h ⊢
  split at h
  · cases h
  · split at h
    · obtain ⟨rfl, rfl⟩ := ‹x = b ∧ y = a›
      cases h
      simp
    · have h₁ : ¬ (y = a ∧ x = b) := fun e ↦ ‹¬ (x = b ∧ y = a)› e.symm
      have h₂ : ¬ (y = b ∧ x = a) := fun e ↦ ‹¬ (x = a ∧ y = b)› e.symm
      rw [if_neg h₁, if_neg h₂]
      exact ht x y k f h

theorem balanced_standard [Scalar α] : (standard : RuleTable α).Balanced :=
  ((((balanced_empty.register _ _ _ _).register _ _ _ _).register _ _ _ _).register
    _ _ _ _).register _ _ _ _

end RuleTable

namespace Contact

variable {α : Type} [Scalar α]

/-- What a contact knows of its two colliders: their bodies, a rule of the table `t` for their
shapes in this order, their radii, and whether one is a sensor.  Colliders of one kind stand in the
order of their numbers. -/
structure Joins (c : Contact α) (t : RuleTable α) (a b : Collider α) : Prop where
  bodyA : a.body = some c.bodyA
  bodyB : b.body = some c.bodyB
  rule : t.rule? a.kind b.kind = some ⟨c.kind, c.collide, true⟩
  radiusA : c.radiusA = a.shape.radius
  radiusB : c.radiusB = b.shape.radius
  sensor : c.sensor = (a.isSensor || b.isSensor)
  ordered : a.kind = b.kind → c.colliderA ≤ c.colliderB

/-- A contact that has not been updated yet. -/
structure Fresh (c : Contact α) : Prop where
  manifold : c.manifold = .empty
  touching : c.touching = false
  enabled : c.enabled = true
  needsFiltering : c.needsFiltering = false

/-- All that a new contact has comes from the rule, its two colliders and the coefficients. -/
theorem ofRule_eq_ok_iff {rule : Rule α} {a b : ColliderId × Collider α} {friction restitution : α}
    {c : Contact α} : ofRule rule a b friction restitution = .ok c ↔
      ∃ bodyA bodyB, a.2.body = some bodyA ∧ b.2.body = some bodyB ∧ c = {
        colliderA := a.1, colliderB := b.1, bodyA, bodyB
        kind := rule.kind, collide := rule.collide, manifold := .empty
        radiusA := a.2.shape.radius, radiusB := b.2.shape.radius
        friction, restitution, touching := false, enabled := true
        sensor := a.2.isSensor || b.2.isSensor, needsFiltering := false } := by
  cases ha : a.2.body with
  | none => simp [ofRule, ha]
  | some i => cases hb : b.2.body <;> simp [ofRule, ha, hb, eq_comm]

theorem joins_of_ofRule {t : RuleTable α} {rule : Rule α} {a b : ColliderId × Collider α}
    {friction restitution : α} {c : Contact α} (h : ofRule rule a b friction restitution = .ok c)
    (ht : t.rule? a.2.kind b.2.kind = some ⟨rule.kind, rule.collide, true⟩)
    (hord : a.2.kind = b.2.kind → a.1 ≤ b.1) :
    c.colliderA = a.1 ∧ c.colliderB = b.1 ∧ c.Joins t a.2 b.2 := by
  obtain ⟨i, j, ha, hb, rfl⟩ := ofRule_eq_ok_iff.1 h
  exact ⟨rfl, rfl, ⟨ha, hb, ht, rfl, rfl, rfl, hord⟩⟩

theorem Fresh.clearHistory_eq {c : Contact α} (h : c.Fresh) : c.clearHistory = c := by
  cases c
  cases h
  simp_all [clearHistory]

end Contact

namespace Registry

variable {α : Type} {r : Registry α}

/-! ## Handles and slots -/

theorem get?_eq_some_iff {h : Handle} {c : Contact α} :
    r.get? h = some c ↔ r.slots[h.index]? = some ⟨h.generation, some c⟩ := by
  cases hs : r.slots[h.index]? with
  | none => simp [get?, hs]
  | some s =>
    obtain ⟨g, c?⟩ := s
    by_cases hg : g = h.generation <;> simp [get?, hs, hg]

@[simp] theorem mem_entries {h : Handle} {c : Contact α} :
    (h, c) ∈ r.entries ↔ r.get? h = some c := by
  rw [get?_eq_some_iff]
  simp only [entries, List.mem_filterMap, Prod.exists, List.mem_zipIdx_iff_getElem?,
    Array.getElem?_toList, Option.map_eq_some_iff, Prod.mk.injEq]
  constructor
  · rintro ⟨⟨g, c?⟩, i, hs, c', rfl, rfl, rfl⟩
    exact hs
  · intro hs
    exact ⟨_, _, hs, c, rfl, rfl, rfl⟩

/-- Contacts are listed in the order of their slots. -/
theorem pairwise_entries : r.entries.Pairwise (·.1.index < ·.1.index) := by
  have hz : r.slots.toList.zipIdx.Pairwise (·.2 < ·.2) := by
    have := List.pairwise_lt_range' (s := 0) (n := r.slots.toList.length)
    rw [← List.zipIdx_map_snd 0 r.slots.toList, List.pairwise_map] at this
    exact this
  rw [entries, List.pairwise_filterMap]
  refine hz.imp ?_
  rintro ⟨s, i⟩ ⟨s', i'⟩ hlt ⟨h, c⟩ hc ⟨h', c'⟩ hc'
  obtain ⟨_, _, hc⟩ := Option.map_eq_some_iff.1 hc
  obtain ⟨_, _, hc'⟩ := Option.map_eq_some_iff.1 hc'
  obtain ⟨rfl, -⟩ := Prod.mk.inj hc
  obtain ⟨rfl, -⟩ := Prod.mk.inj hc'
  exact hlt

theorem nodup_handles : (r.entries.map (·.1)).Nodup := by
  rw [List.Nodup, List.pairwise_map]
  refine pairwise_entries.imp ?_
  intro e e' hlt he
  rw [he] at hlt
  exact Nat.lt_irrefl _ hlt

theorem mem_contactsOf {c : ColliderId} {h : Handle} :
    h ∈ r.contactsOf c ↔ ∃ k, r.get? h = some k ∧ k.involves c = true := by
  simp only [contactsOf, List.mem_map, List.mem_filter, Prod.exists, mem_entries]
  constructor
  · rintro ⟨h', k, ⟨hk, hi⟩, rfl⟩
    exact ⟨k, hk, hi⟩
  · rintro ⟨k, hk, hi⟩
    exact ⟨h, k, ⟨hk, hi⟩, rfl⟩

/-! ## The parts agree -/

/-- The slots, the stack of vacant slots and the map of handles agree, and no contact joins a
collider to itself. -/
structure Wf (r : Registry α) : Prop where
  free_nodup : r.free.Nodup
  mem_free_iff : ∀ i, i ∈ r.free ↔ ∃ g, r.slots[i]? = some ⟨g, none⟩
  handles_eq_some_iff : ∀ p h, r.handles[p]? = some h ↔ ∃ c, r.get? h = some c ∧ c.pair = p
  collider_ne : ∀ h c, r.get? h = some c → c.colliderA ≠ c.colliderB

theorem wf_empty (rules : RuleTable α) (friction restitution : Mixing) :
    (empty rules friction restitution).Wf where
  free_nodup := List.nodup_nil
  mem_free_iff := by simp [empty]
  handles_eq_some_iff := by simp [empty, get?]
  collider_ne := by simp [empty, get?]

namespace Wf

theorem find?_eq_some_iff (hr : r.Wf) {a b : ColliderId} {h : Handle} :
    r.find? a b = some h ↔ ∃ c, r.get? h = some c ∧ c.pair = .of a b :=
  hr.handles_eq_some_iff _ _

theorem find?_eq_none_iff (hr : r.Wf) {a b : ColliderId} :
    r.find? a b = none ↔ ∀ h c, r.get? h = some c → c.pair ≠ .of a b := by
  rw [Option.eq_none_iff_forall_not_mem]
  simp only [Option.mem_def, hr.find?_eq_some_iff, not_exists, not_and, ne_eq]

/-- A pair of colliders has at most one contact. -/
theorem handle_eq (hr : r.Wf) {h h' : Handle} {c c' : Contact α} (hc : r.get? h = some c)
    (hc' : r.get? h' = some c') (hp : c'.pair = c.pair) : h' = h := by
  have hh := (hr.handles_eq_some_iff _ _).2 ⟨c, hc, rfl⟩
  have hh' := (hr.handles_eq_some_iff _ _).2 ⟨c', hc', hp⟩
  rw [hh] at hh'
  exact (Option.some.inj hh').symm

end Wf

/-! ## Replacing a contact in place -/

theorem get?_setContact {h : Handle} {c : Contact α} (hc : r.get? h = some c) (new : Contact α)
    (h' : Handle) :
    (r.setContact h.index new).get? h' = if h' = h then some new else r.get? h' := by
  rw [get?_eq_some_iff] at hc
  by_cases hi : h'.index = h.index
  · obtain ⟨i, g⟩ := h
    obtain ⟨i', g'⟩ := h'
    cases hi
    by_cases hg : g = g'
    · simp_all [get?, setContact, Array.getElem?_modify]
    · simp_all [get?, setContact, Array.getElem?_modify, Ne.symm hg]
  · have hne : h' ≠ h := fun he ↦ hi (congrArg Handle.index he)
    simp [get?, setContact, Array.getElem?_modify, Ne.symm hi, hne]

theorem vacant_setContact {h : Handle} {c : Contact α} (hc : r.get? h = some c) (new : Contact α)
    (i : Nat) : (∃ g, (r.setContact h.index new).slots[i]? = some ⟨g, none⟩) ↔
      ∃ g, r.slots[i]? = some ⟨g, none⟩ := by
  rw [get?_eq_some_iff] at hc
  by_cases hi : h.index = i
  · subst hi
    simp [setContact, Array.getElem?_modify, hc]
  · simp [setContact, Array.getElem?_modify, hi]

/-- Replacing a contact by one of the same colliders keeps the parts in agreement. -/
theorem Wf.setContact (hr : r.Wf) {h : Handle} {c new : Contact α} (hc : r.get? h = some c)
    (ha : new.colliderA = c.colliderA) (hb : new.colliderB = c.colliderB) :
    (r.setContact h.index new).Wf where
  free_nodup := hr.free_nodup
  mem_free_iff i := (hr.mem_free_iff i).trans (vacant_setContact hc new i).symm
  handles_eq_some_iff p h' := by
    change r.handles[p]? = some h' ↔ _
    have hp : new.pair = c.pair := by simp only [Contact.pair, ha, hb]
    rw [hr.handles_eq_some_iff, get?_setContact hc]
    by_cases he : h' = h
    · subst he
      simp [hc, hp]
    · simp [he]
  collider_ne h' c' hc' := by
    rw [get?_setContact hc] at hc'
    split at hc'
    · cases hc'
      rw [ha, hb]
      exact hr.collider_ne h c hc
    · exact hr.collider_ne h' c' hc'

theorem get?_modify (h : Handle) (f : Contact α → Contact α) (h' : Handle) :
    (r.modify h f).get? h' = if h' = h then (r.get? h).map f else r.get? h' := by
  cases hc : r.get? h with
  | none =>
    rw [modify, hc]
    split <;> simp_all
  | some c =>
    rw [modify, hc]
    simpa using get?_setContact hc (f c) h'

theorem Wf.modify (hr : r.Wf) (h : Handle) {f : Contact α → Contact α}
    (ha : ∀ c, (f c).colliderA = c.colliderA) (hb : ∀ c, (f c).colliderB = c.colliderB) :
    (r.modify h f).Wf := by
  cases hc : r.get? h with
  | none => rwa [Registry.modify, hc]
  | some c =>
    rw [Registry.modify, hc]
    exact hr.setContact hc (ha c) (hb c)

/-! ## Giving a contact to another pair -/

/-- The registry after the contact `old` of a handle has given way to `c`, under the pair of `c`. -/
def rebind (r : Registry α) (h : Handle) (old c : Contact α) : Registry α :=
  { (r.setContact h.index c) with handles := (r.handles.erase old.pair).insert c.pair h }

theorem get?_rebind {h : Handle} {old : Contact α} (hold : r.get? h = some old) (c : Contact α)
    (h' : Handle) : (r.rebind h old c).get? h' = if h' = h then some c else r.get? h' :=
  get?_setContact hold c h'

/-- A contact may be given to any pair that no other contact has. -/
theorem Wf.rebind (hr : r.Wf) {h : Handle} {old c : Contact α} (hold : r.get? h = some old)
    (hc : c.colliderA ≠ c.colliderB) (hp : ∀ h' k, r.get? h' = some k → k.pair = c.pair → h' = h) :
    (r.rebind h old c).Wf where
  free_nodup := hr.free_nodup
  mem_free_iff i := (hr.mem_free_iff i).trans (vacant_setContact hold c i).symm
  handles_eq_some_iff p h' := by
    simp only [get?_rebind hold]
    simp only [Registry.rebind, Std.HashMap.getElem?_insert, Std.HashMap.getElem?_erase, beq_iff_eq]
    by_cases hcp : c.pair = p
    · rw [if_pos hcp, Option.some.injEq]
      constructor
      · rintro rfl
        exact ⟨c, if_pos rfl, hcp⟩
      · rintro ⟨k, hk, hkp⟩
        split at hk
        · exact Eq.symm ‹_›
        · exact (hp h' k hk (hkp.trans hcp.symm)).symm
    rw [if_neg hcp]
    by_cases hop : old.pair = p
    · simp only [hop, if_true, reduceCtorEq, false_iff]
      rintro ⟨k, hk, hkp⟩
      split at hk
      · cases hk
        exact hcp hkp
      · exact absurd (hr.handle_eq hold hk (hkp.trans hop.symm)) ‹_›
    · rw [if_neg hop, hr.handles_eq_some_iff]
      by_cases he : h' = h
      · subst he
        simp [hold, hop, hcp]
      · simp [he]
  collider_ne h' k hk := by
    rw [get?_rebind hold] at hk
    split at hk
    · cases hk
      exact hc
    · exact hr.collider_ne h' k hk

/-! ## Destroying a contact -/

theorem destroy_eq_ok_iff {h : Handle} {c : Contact α} {r' : Registry α} :
    r.destroy h = .ok (c, r') ↔ r.get? h = some c ∧ r' = { r with
      slots := r.slots.modify h.index fun s ↦ ⟨s.generation + 1, none⟩
      free := h.index :: r.free
      handles := r.handles.erase c.pair } := by
  cases hc : r.get? h with
  | none => simp [destroy, hc]
  | some k =>
    simp only [destroy, hc, Except.ok.injEq, Prod.mk.injEq, Option.some.injEq]
    constructor
    · rintro ⟨rfl, rfl⟩
      exact ⟨rfl, rfl⟩
    · rintro ⟨rfl, rfl⟩
      exact ⟨rfl, rfl⟩

theorem get?_destroy {h : Handle} {c : Contact α} {r' : Registry α}
    (hd : r.destroy h = .ok (c, r')) (h' : Handle) :
    r'.get? h' = if h' = h then none else r.get? h' := by
  obtain ⟨hc, rfl⟩ := destroy_eq_ok_iff.1 hd
  rw [get?_eq_some_iff] at hc
  by_cases hi : h'.index = h.index
  · obtain ⟨i, g⟩ := h
    obtain ⟨i', g'⟩ := h'
    cases hi
    by_cases hg : g = g'
    · simp_all [get?, Array.getElem?_modify]
    · simp_all [get?, Array.getElem?_modify, Ne.symm hg]
  · have hne : h' ≠ h := fun he ↦ hi (congrArg Handle.index he)
    simp [get?, Array.getElem?_modify, Ne.symm hi, hne]

theorem Wf.destroy (hr : r.Wf) {h : Handle} {c : Contact α} {r' : Registry α}
    (hd : r.destroy h = .ok (c, r')) : r'.Wf where
  free_nodup := by
    obtain ⟨hc, rfl⟩ := destroy_eq_ok_iff.1 hd
    rw [get?_eq_some_iff] at hc
    refine List.nodup_cons.2 ⟨fun hf ↦ ?_, hr.free_nodup⟩
    obtain ⟨g, hg⟩ := (hr.mem_free_iff _).1 hf
    simp [hc] at hg
  mem_free_iff i := by
    obtain ⟨hc, rfl⟩ := destroy_eq_ok_iff.1 hd
    rw [get?_eq_some_iff] at hc
    by_cases hi : h.index = i
    · subst hi
      simp [Array.getElem?_modify, hc]
    · simp [Array.getElem?_modify, hi, Ne.symm hi, hr.mem_free_iff]
  handles_eq_some_iff p h' := by
    simp only [get?_destroy hd]
    obtain ⟨hc, rfl⟩ := destroy_eq_ok_iff.1 hd
    have hh := (hr.handles_eq_some_iff _ _).2 ⟨c, hc, rfl⟩
    by_cases hp : c.pair = p
    · subst hp
      simp only [Std.HashMap.getElem?_erase, beq_self_eq_true, if_true, reduceCtorEq, false_iff]
      rintro ⟨c', hc', hp'⟩
      split at hc'
      · cases hc'
      · exact absurd (hr.handle_eq hc hc' hp') ‹_›
    · simp only [Std.HashMap.getElem?_erase, beq_iff_eq, hp, if_false, hr.handles_eq_some_iff]
      by_cases he : h' = h
      · subst he
        simp [hc, hp]
      · simp [he]
  collider_ne h' c' hc' := by
    rw [get?_destroy hd] at hc'
    split at hc'
    · cases hc'
    · exact hr.collider_ne h' c' hc'

/-! ## Making a contact -/

section Make

variable [Scalar α]

/-- A contact is made by the rule for the shapes of its colliders, which says in which order. -/
theorem exists_ofRule_of_build {a b : ColliderId × Collider α} {c : Contact α}
    (hb : r.build a b = .ok c) : ∃ rule x y, r.rules.rule? a.2.kind b.2.kind = some rule ∧
      (rule.primary = true ∧ x = a ∧ y = b ∨ rule.primary = false ∧ x = b ∧ y = a) ∧
      Contact.ofRule rule x y (r.frictionMixing.mix x.2.material.friction y.2.material.friction)
        (r.restitutionMixing.mix x.2.material.restitution y.2.material.restitution) = .ok c := by
  cases hl : r.rules.rule? a.2.kind b.2.kind with
  | none => simp [build, RuleTable.lookup, hl, bind, Except.bind] at hb
  | some rule =>
    simp only [build, RuleTable.lookup, hl, bind, Except.bind] at hb
    cases hp : rule.primary with
    | true =>
      rw [hp] at hb
      exact ⟨rule, a, b, rfl, .inl ⟨hp, rfl, rfl⟩, hb⟩
    | false =>
      rw [hp] at hb
      exact ⟨rule, b, a, rfl, .inr ⟨hp, rfl, rfl⟩, hb⟩

theorem build_eq_ok {a b : ColliderId × Collider α} {c : Contact α} (ht : r.rules.Balanced)
    (hle : a.1 ≤ b.1) (hb : r.build a b = .ok c) : ∃ x y, (x = a ∧ y = b ∨ x = b ∧ y = a) ∧
      c.colliderA = x.1 ∧ c.colliderB = y.1 ∧ c.Joins r.rules x.2 y.2 := by
  obtain ⟨⟨k, f, primary⟩, x, y, hl, ⟨hp, rfl, rfl⟩ | ⟨hp, rfl, rfl⟩, hc⟩ :=
    exists_ofRule_of_build hb
  · cases hp
    exact ⟨x, y, .inl ⟨rfl, rfl⟩, Contact.joins_of_ofRule hc hl fun _ ↦ hle⟩
  · cases hp
    have hl' := ht _ _ _ _ hl
    have hne : x.2.kind ≠ y.2.kind := by
      intro he
      rw [he] at hl hl'
      cases hl.symm.trans hl'
    exact ⟨x, y, .inr ⟨rfl, rfl⟩, Contact.joins_of_ofRule hc hl' fun he ↦ absurd he hne⟩

/-- Whatever the table, the contact built for two colliders is a fresh one, and theirs. -/
theorem of_build_eq_ok {a b : ColliderId × Collider α} {c : Contact α} (hb : r.build a b = .ok c) :
    c.Fresh ∧ c.pair = .of a.1 b.1 ∧ (a.1 ≠ b.1 → c.colliderA ≠ c.colliderB) := by
  obtain ⟨rule, x, y, -, horder, hc⟩ := exists_ofRule_of_build hb
  obtain ⟨i, j, -, -, rfl⟩ := Contact.ofRule_eq_ok_iff.1 hc
  refine ⟨⟨rfl, rfl, rfl, rfl⟩, ?_⟩
  obtain ⟨-, rfl, rfl⟩ | ⟨-, rfl, rfl⟩ := horder
  · exact ⟨rfl, id⟩
  · exact ⟨Pair.of_comm _ _, Ne.symm⟩

/-- Attached colliders whose shapes have a rule have a contact. -/
theorem exists_build {a b : ColliderId × Collider α} {rule : Rule α} {i j : BodyId}
    (hl : r.rules.rule? a.2.kind b.2.kind = some rule) (ha : a.2.body = some i)
    (hb : b.2.body = some j) : ∃ c, r.build a b = .ok c := by
  obtain ⟨k, f, primary⟩ := rule
  cases primary <;>
    simp [build, RuleTable.lookup, hl, bind, Except.bind, Contact.ofRule, ha, hb]

end Make

/-- A contact goes into a slot that no live handle names. -/
theorem get?_allocate (hr : r.Wf) (c : Contact α) (h' : Handle) :
    (r.allocate c).2.get? h' = if h' = (r.allocate c).1 then some c else r.get? h' := by
  cases hf : r.free with
  | nil =>
    obtain ⟨i, g⟩ := h'
    by_cases hi : i = r.slots.size
    · subst hi
      by_cases hg : g = 0
      · simp [allocate, hf, get?, hg]
      · simp [allocate, hf, get?, hg, Ne.symm hg]
    · simp [allocate, hf, get?, Array.getElem?_push, hi]
  | cons i free =>
    obtain ⟨g, hs⟩ := (hr.mem_free_iff i).1 (by rw [hf]; exact List.mem_cons_self)
    obtain ⟨i', g'⟩ := h'
    by_cases hi : i = i'
    · subst hi
      by_cases hg : g = g'
      · simp [allocate, hf, get?, Array.getElem?_modify, hs, hg]
      · simp [allocate, hf, get?, Array.getElem?_modify, hs, hg, Ne.symm hg]
    · simp [allocate, hf, get?, Array.getElem?_modify, hi, Ne.symm hi]

theorem get?_allocate_handle (hr : r.Wf) (c : Contact α) : r.get? (r.allocate c).1 = none := by
  cases hf : r.free with
  | nil => simp [allocate, hf, get?]
  | cons i free =>
    obtain ⟨g, hs⟩ := (hr.mem_free_iff i).1 (by rw [hf]; exact List.mem_cons_self)
    simp [allocate, hf, get?, hs]

/-- The registry after a new contact has been put in and its handle noted. -/
def enroll (r : Registry α) (c : Contact α) : Registry α :=
  { (r.allocate c).2 with handles := r.handles.insert c.pair (r.allocate c).1 }

theorem get?_enroll (hr : r.Wf) (c : Contact α) (h' : Handle) :
    (r.enroll c).get? h' = if h' = (r.allocate c).1 then some c else r.get? h' :=
  get?_allocate hr c h'

theorem handles_enroll (c : Contact α) :
    (r.enroll c).handles = r.handles.insert c.pair (r.allocate c).1 := rfl

theorem Wf.enroll (hr : r.Wf) {c : Contact α} (hc : c.colliderA ≠ c.colliderB)
    (hp : ∀ h k, r.get? h = some k → k.pair ≠ c.pair) : (r.enroll c).Wf where
  free_nodup := by
    have hn := hr.free_nodup
    cases hf : r.free with
    | nil => simp [Registry.enroll, allocate, hf]
    | cons i free =>
      rw [hf] at hn
      simpa [Registry.enroll, allocate, hf] using (List.nodup_cons.1 hn).2
  mem_free_iff j := by
    have hn := hr.free_nodup
    have hm := hr.mem_free_iff j
    cases hf : r.free with
    | nil =>
      rw [hf] at hm
      by_cases hj : j = r.slots.size
      · simp [Registry.enroll, allocate, hf, hj]
      · simpa [Registry.enroll, allocate, hf, Array.getElem?_push, hj] using hm
    | cons i free =>
      rw [hf] at hm hn
      have hi : i ∉ free := (List.nodup_cons.1 hn).1
      obtain ⟨g, hs⟩ := (hr.mem_free_iff i).1 (by rw [hf]; exact List.mem_cons_self)
      by_cases hj : i = j
      · subst hj
        simp [Registry.enroll, allocate, hf, Array.getElem?_modify, hs, hi]
      · simpa [Registry.enroll, allocate, hf, Array.getElem?_modify, hj, Ne.symm hj] using hm
  handles_eq_some_iff p h' := by
    simp only [get?_enroll hr, handles_enroll, Std.HashMap.getElem?_insert, beq_iff_eq]
    have hfresh := get?_allocate_handle hr c
    by_cases hpc : c.pair = p
    · subst hpc
      simp only [if_true, Option.some.injEq]
      constructor
      · rintro rfl
        exact ⟨c, if_pos rfl, rfl⟩
      · rintro ⟨k, hk, hkp⟩
        split at hk
        · exact Eq.symm ‹_›
        · exact absurd hkp (hp h' k hk)
    · rw [if_neg hpc, hr.handles_eq_some_iff]
      by_cases he : h' = (r.allocate c).1
      · subst he
        simp [hfresh, hpc]
      · simp [he]
  collider_ne h' k hk := by
    rw [get?_enroll hr] at hk
    split at hk
    · cases hk
      exact hc
    · exact hr.collider_ne h' k hk

/-- Creating a contact finds the one that there is, or enrolls a new one. -/
theorem create_eq_ok_iff [Scalar α] {a b : ColliderId × Collider α} {h : Handle}
    {r' : Registry α} : r.create a b = .ok (h, r') ↔
      a.1 ≠ b.1 ∧ (r.find? a.1 b.1 = some h ∧ r' = r ∨
        r.find? a.1 b.1 = none ∧ ∃ c, r.build a b = .ok c ∧ h = (r.allocate c).1 ∧
          r' = r.enroll c) := by
  by_cases hne : a.1 = b.1
  · simp [create, hne]
  cases hf : r.find? a.1 b.1 with
  | some h₀ => simp [create, hne, hf, eq_comm]
  | none =>
    cases hb : r.build a b with
    | error e => simp [create, hne, hf, hb, bind, Except.bind]
    | ok c =>
      have he : { (r.allocate c).2 with
          handles := (r.allocate c).2.handles.insert (.of a.1 b.1) (r.allocate c).1 } =
          r.enroll c := by
        rw [enroll, (of_build_eq_ok hb).2.1]
        cases hfree : r.free <;> simp [allocate, hfree]
      simp [create, hne, hf, hb, bind, Except.bind, pure, Except.pure, he, eq_comm]

/-- Where two different attached colliders have a rule, creating their contact succeeds. -/
theorem exists_create [Scalar α] {a b : ColliderId × Collider α} {rule : Rule α} {i j : BodyId}
    (hne : a.1 ≠ b.1) (hl : r.rules.rule? a.2.kind b.2.kind = some rule)
    (ha : a.2.body = some i) (hb : b.2.body = some j) : ∃ x, r.create a b = .ok x := by
  cases hf : r.find? a.1 b.1 with
  | some h => exact ⟨(h, r), by simp [create, hne, hf]⟩
  | none =>
    obtain ⟨c, hc⟩ := exists_build hl ha hb
    simp [create, hne, hf, hc, bind, Except.bind, pure, Except.pure]

/-! ## Rebinding and mixing anew -/

/-- A contact is reset to a pair that is its own already or that has no contact. -/
theorem reset_eq_ok_iff [Scalar α] {h : Handle} {a b : ColliderId × Collider α}
    {r' : Registry α} : r.reset h a b = .ok r' ↔
      a.1 ≠ b.1 ∧ ∃ old c, r.get? h = some old ∧
        (.of a.1 b.1 = old.pair ∨ r.find? a.1 b.1 = none) ∧ r.build a b = .ok c ∧
        r' = r.rebind h old c := by
  by_cases hne : a.1 = b.1
  · simp [reset, hne]
  cases hold : r.get? h with
  | none => simp [reset, hne, hold]
  | some old =>
    have htaken : (¬ .of a.1 b.1 = old.pair ∧ .of a.1 b.1 ∈ r.handles) ↔
        ¬ (.of a.1 b.1 = old.pair ∨ r.find? a.1 b.1 = none) := by
      simp [find?]
    by_cases hf : .of a.1 b.1 = old.pair ∨ r.find? a.1 b.1 = none
    · cases hb : r.build a b with
      | error e => simp [reset, hne, hold, htaken, hf, hb, bind, Except.bind]
      | ok c =>
        obtain ⟨hfresh, hp, -⟩ := of_build_eq_ok hb
        have hnew : { (r.setContact h.index c.clearHistory) with
            handles := (r.handles.erase old.pair).insert (.of a.1 b.1) h } = r.rebind h old c := by
          rw [rebind, hp, hfresh.clearHistory_eq]
        simp [reset, hne, hold, htaken, hf, hb, bind, Except.bind, pure, Except.pure, hnew,
          @eq_comm _ r']
    · simp [reset, hne, hold, htaken, hf]

theorem remix_eq_ok_iff [Scalar α] {h : Handle} {colliders : Array (Collider α)}
    {r' : Registry α} : r.remix h colliders = .ok r' ↔
      ∃ c a b, r.get? h = some c ∧ colliders[c.colliderA]? = some a ∧
        colliders[c.colliderB]? = some b ∧ r' = r.setContact h.index
          (c.mix r.frictionMixing r.restitutionMixing a.material b.material) := by
  cases hc : r.get? h with
  | none => simp [remix, hc]
  | some c =>
    cases ha : colliders[c.colliderA]? with
    | none => simp [remix, hc, ha]
    | some a =>
      cases hb : colliders[c.colliderB]? with
      | none => simp [remix, hc, ha, hb]
      | some b => simp [remix, hc, ha, hb, eq_comm]

/-! ## What the operations leave alone -/

@[simp] theorem rules_setContact (i : Nat) (c : Contact α) :
    (r.setContact i c).rules = r.rules := rfl

theorem rules_modify (h : Handle) (f : Contact α → Contact α) :
    (r.modify h f).rules = r.rules := by
  cases hc : r.get? h <;> simp [modify, hc]

theorem rules_enroll (c : Contact α) : (r.enroll c).rules = r.rules := by
  cases hf : r.free <;> simp [enroll, allocate, hf]

end Registry

end PlanarDynamics
