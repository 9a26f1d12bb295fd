import PlanarDynamics.Proofs.World.Motion
import PlanarDynamics.Proofs.World.Notification
import PlanarDynamics.Proofs.World.References

/-!
# Data that is derived from other data

The coefficients of a contact are mixed from the materials of its colliders, and the mass of a body
is put together from its colliders.  Both are kept, and worked out anew where something they depend
on changes.  Here it is shown that no change is missed: coefficients are always what mixing the
current materials gives, and once a body has had its mass worked out it is always what its current
colliders give, as long as no caller writes to it.
-/

namespace PlanarDynamics

/-! ## Coefficients -/

namespace Contact

variable {α : Type} {c c' : Contact α}

/-- The coefficients of a contact, with the colliders that they come from. -/
def terms (c : Contact α) : ColliderId × ColliderId × α × α :=
  (c.colliderA, c.colliderB, c.friction, c.restitution)

variable [Scalar α]

/-- The coefficients come from the materials of the two colliders, in the contact's order. -/
def MixedFrom (c : Contact α) (friction restitution : Mixing) (colliders : Array (Collider α)) :
    Prop :=
  ∃ a b : Collider α, colliders[c.colliderA]? = some a ∧ colliders[c.colliderB]? = some b ∧
    c.friction = friction.mix a.material.friction b.material.friction ∧
    c.restitution = restitution.mix a.material.restitution b.material.restitution

variable {friction restitution : Mixing} {colliders colliders' : Array (Collider α)}

theorem MixedFrom.of_terms (h : c.MixedFrom friction restitution colliders)
    (ht : c'.terms = c.terms) : c'.MixedFrom friction restitution colliders := by
  simp only [terms, Prod.mk.injEq] at ht
  simp only [MixedFrom, ht]
  exact h

/-- Only the materials of the two colliders matter. -/
theorem MixedFrom.of_material (h : c.MixedFrom friction restitution colliders)
    (hc : ∀ (i : ColliderId) (a : Collider α), c.involves i = true → colliders[i]? = some a →
      ∃ a', colliders'[i]? = some a' ∧ a'.material = a.material) :
    c.MixedFrom friction restitution colliders' := by
  obtain ⟨a, b, ha, hb, hf, hr⟩ := h
  obtain ⟨a', ha', hma⟩ := hc _ a (by simp [involves]) ha
  obtain ⟨b', hb', hmb⟩ := hc _ b (by simp [involves]) hb
  exact ⟨a', b', ha', hb', by rw [hf, hma, hmb], by rw [hr, hma, hmb]⟩

end Contact

namespace Registry

variable {α : Type} {r r' r'' : Registry α}

/-- The contacts of `r'` are contacts of `r`, and look the same in a view. -/
def Keeps {γ : Type} (view : Contact α → γ) (r r' : Registry α) : Prop :=
  ∀ h c', r'.get? h = some c' → ∃ c, r.get? h = some c ∧ view c' = view c

namespace Keeps

variable {γ : Type} {view : Contact α → γ}

theorem refl (r : Registry α) : r.Keeps view r := fun _ c hc ↦ ⟨c, hc, rfl⟩

theorem trans (h : r.Keeps view r') (h' : r'.Keeps view r'') : r.Keeps view r'' := by
  intro i c'' hc''
  obtain ⟨c', hc', he'⟩ := h' i c'' hc''
  obtain ⟨c, hc, he⟩ := h i c' hc'
  exact ⟨c, hc, he'.trans he⟩

theorem foldl {β δ : Type} {f : β → δ → β} (registry : β → Registry α)
    (hf : ∀ b d, (registry b).Keeps view (registry (f b d))) (ds : List δ) (b : β) :
    (registry b).Keeps view (registry (ds.foldl f b)) :=
  foldl_related .refl .trans registry hf ds b

theorem modify (r : Registry α) (h : Handle) {f : Contact α → Contact α}
    (hf : ∀ c, view (f c) = view c) : r.Keeps view (r.modify h f) := by
  intro i c' hc'
  rw [get?_modify] at hc'
  split at hc'
  next hi =>
    obtain ⟨c, hc, rfl⟩ := Option.map_eq_some_iff.1 hc'
    exact ⟨c, hi ▸ hc, hf c⟩
  · exact ⟨c', hc', rfl⟩

end Keeps

variable [Scalar α]

/-- A new contact mixes the materials of its colliders in the order that it has put them in. -/
theorem mixedFrom_of_build {a b : ColliderId × Collider α} {c : Contact α}
    (hb : r.build a b = .ok c) {colliders : Array (Collider α)}
    (ha₀ : colliders[a.1]? = some a.2) (hb₀ : colliders[b.1]? = some b.2) :
    c.MixedFrom r.frictionMixing r.restitutionMixing colliders := by
  obtain ⟨rule, x, y, -, horder, hc⟩ := exists_ofRule_of_build hb
  obtain ⟨i, j, -, -, rfl⟩ := Contact.ofRule_eq_ok_iff.1 hc
  obtain ⟨-, rfl, rfl⟩ | ⟨-, rfl, rfl⟩ := horder
  · exact ⟨x.2, y.2, ha₀, hb₀, rfl, rfl⟩
  · exact ⟨x.2, y.2, hb₀, ha₀, rfl, rfl⟩

/-- Mixing anew brings the contacts on the list up to date, and leaves the others. -/
theorem get?_foldlM_remix {colliders : Array (Collider α)} {hs : List Handle}
    (he : hs.foldlM (·.remix · colliders) r = .ok r') {h : Handle} {c : Contact α}
    (hc : r'.get? h = some c) :
    h ∈ hs ∧ c.MixedFrom r.frictionMixing r.restitutionMixing colliders ∨
      h ∉ hs ∧ r.get? h = some c := by
  induction hs generalizing r with
  | nil =>
    cases he
    exact .inr ⟨List.not_mem_nil, hc⟩
  | cons h₀ hs ih =>
    obtain ⟨r₁, hr₁, he⟩ := bind_eq_ok_iff.1 he
    obtain ⟨c₀, a, b, hc₀, ha, hb, rfl⟩ := remix_eq_ok_iff.1 hr₁
    rcases ih he with ⟨hmem, hmix⟩ | ⟨hmem, hget⟩
    · exact .inl ⟨List.mem_cons_of_mem h₀ hmem, hmix⟩
    · rw [get?_setContact hc₀] at hget
      split at hget
      next hi =>
        cases hget
        exact .inl ⟨hi ▸ List.mem_cons_self, a, b, ha, hb, rfl, rfl⟩
      next hi => exact .inr ⟨fun hm ↦ (List.mem_cons.1 hm).elim hi hmem, hget⟩

end Registry

namespace World

variable {α σ : Type} [Scalar α] {w w' : World α σ}

/-- All coefficients are what mixing the current materials gives. -/
def Mixed (w : World α σ) : Prop :=
  ∀ h c, w.contacts.get? h = some c →
    c.MixedFrom w.contacts.frictionMixing w.contacts.restitutionMixing w.colliders

theorem Mixed.of_keeps (h : w.Mixed) (hk : w.contacts.Keeps Contact.terms w'.contacts)
    (hl : w.contacts.Leads w'.contacts)
    (hc : ∀ (i : ColliderId) (a : Collider α), w.colliders[i]? = some a →
      ∃ a', w'.colliders[i]? = some a' ∧ a'.material = a.material) : w'.Mixed := by
  intro i c' hc'
  obtain ⟨c, hget, ht⟩ := hk i c' hc'
  obtain ⟨-, hf, hr⟩ := hl.sameRules
  rw [hf, hr]
  exact ((h i c hget).of_terms ht).of_material fun i a _ ↦ hc i a

theorem Mixed.of_colliders_eq (h : w.Mixed) (hk : w.contacts.Keeps Contact.terms w'.contacts)
    (hl : w.contacts.Leads w'.contacts) (hc : w'.colliders = w.colliders) : w'.Mixed :=
  h.of_keeps hk hl fun _ a ha ↦ ⟨a, hc ▸ ha, rfl⟩

/-! ### Steps -/

section

omit [Scalar α]

variable {γ : Type} {view : Contact α → γ}

theorem keeps_destroyContact (h : Handle) :
    w.contacts.Keeps view (w.destroyContact h).contacts := by
  intro i c hc
  rw [get?_destroyContact] at hc
  split at hc
  · cases hc
  · exact ⟨c, hc, rfl⟩

theorem keeps_recheck (hview : ∀ c, view (Contact.flag c) = view c) (i : ColliderId) :
    w.contacts.Keeps view (w.recheck i).contacts := by
  refine .foldl id (fun r h ↦ ?_) (w.contacts.contactsOf i) w.contacts
  exact .modify r h hview

end

theorem Mixed.createContact (h : w.Mixed) (hw : w.Wf) (p : Pair) : (w.createContact p).Mixed := by
  intro i c hc
  obtain ⟨-, hf, hr⟩ := (leads_createContact (w := w) p).sameRules
  rw [hf, hr, (sameScene_createContact hw p).colliders]
  simp only [World.createContact] at hc
  split at hc
  · split at hc
    next a b ha hb =>
      cases hx : w.contacts.create (p.lo, a) (p.hi, b) with
      | error e =>
        rw [hx] at hc
        exact h i c hc
      | ok x =>
        obtain ⟨h₀, r'⟩ := x
        rw [hx] at hc
        rcases Registry.create_eq_ok_iff.1 hx with ⟨-, ⟨-, rfl⟩ | ⟨-, c₀, hbuild, -, rfl⟩⟩
        · exact h i c hc
        · change (w.contacts.enroll c₀).get? i = some c at hc
          rw [Registry.get?_enroll hw.registry] at hc
          split at hc
          · cases hc
            exact Registry.mixedFrom_of_build hbuild ha hb
          · exact h i c hc
    · exact h i c hc
  · exact h i c hc

theorem Mixed.handleEvent (h : w.Mixed) (hw : w.Wf) (e : PairEvent) : (w.handleEvent e).Mixed := by
  cases e with
  | begins p => exact h.createContact hw p
  | ends p =>
    rw [World.handleEvent]
    split
    next h₀ _ =>
      exact h.of_colliders_eq (keeps_destroyContact h₀) (leads_destroyContact h₀)
        (sameScene_destroyContact h₀).colliders
    · exact h

theorem Mixed.updatePairs (h : w.Mixed) (hw : w.Wf) : w.updatePairs.Mixed := by
  have hfold : ∀ (events : List PairEvent) (w : World α σ), w.Wf → w.Mixed →
      (events.foldl World.handleEvent w).Mixed := by
    intro events
    induction events with
    | nil => exact fun _ _ h ↦ h
    | cons e events ih =>
      intro w hw h
      exact ih _ (wf_handleEvent hw e) (h.handleEvent hw e)
  have hgrid := sameButGrid_regrid (w := w)
  rw [updatePairs_eq, ← List.foldl_append]
  refine hfold _ _ (wf_regrid hw) (h.of_colliders_eq ?_ ?_ hgrid.colliders)
  · rw [hgrid.contacts]
    exact .refl _
  · rw [hgrid.contacts]
    exact .refl _

theorem terms_renewed (c : Contact α) : (w.renewed c).terms = c.terms := by
  simp only [renewed, updated]
  split <;> rfl

theorem keepsTerms_refreshed (hw : w.Wf) : w.contacts.Keeps Contact.terms w.refreshed.contacts := by
  intro i c hc
  obtain ⟨c₀, hc₀, -, he⟩ := get?_refreshed_eq_some hw hc
  refine ⟨c₀, hc₀, ?_⟩
  rw [← terms_renewed (w := w) c₀, ← he]
  rfl

/-- The solver writes impulses, and nothing else, to contacts. -/
theorem keeps_move {γ : Type} {view : Contact α → γ}
    (hview : ∀ c i, view { c with manifold := c.manifold.writeImpulses i } = view c) {dt : α}
    (h : w.move dt = .ok w') : w.contacts.Keeps view w'.contacts := by
  have hstore : ∀ (r : Registry α) (s : Solution α), r.Keeps view (s.storeImpulses r) := by
    intro r s
    refine .foldl id (fun r e ↦ ?_) s.impulses r
    exact .modify r e.1 fun c ↦ hview c e.2
  obtain ⟨solutions, -, rfl⟩ := of_move_eq_ok h
  change w.contacts.Keeps view (solutions.foldl commit w).contacts
  rw [contacts_foldl_commit]
  exact .foldl id hstore solutions w.contacts

theorem Mixed.step (h : w.Mixed) (hw : w.Wf) {dt : α} (hs : w.step dt = .ok w') : w'.Mixed := by
  by_cases hdt : Valid dt
  · have hw₁ := wf_updatePairs hw
    rw [step_of_updateContacts hdt (updateContacts_eq hw₁)] at hs
    have hrefreshed : w.updatePairs.refreshed.Mixed :=
      (h.updatePairs hw).of_colliders_eq (keepsTerms_refreshed hw₁) leads_refreshed
        (sameScene_refreshed hw₁).colliders
    exact hrefreshed.of_colliders_eq (keeps_move (fun _ _ ↦ rfl) hs) (leads_move hs)
      (moved_move hs).colliders
  · cases (step_of_not_valid hdt).symm.trans hs
    exact h

/-! ### Changes between steps -/

/-- A collider of another material has its contacts mixed anew. -/
theorem Mixed.setMaterial (h : w.Mixed) {i : ColliderId} {m : Material α}
    (hs : w.setMaterial i m = .ok w') : w'.Mixed := by
  simp only [World.setMaterial] at hs
  split at hs
  · cases hs
  next c _ =>
    obtain ⟨contacts, hmix, hs⟩ := bind_eq_ok_iff.1 hs
    obtain ⟨-, hf, hr⟩ := (Registry.admits_leads.foldlM_remix hmix).sameRules
    have hmid : ({ w with
        colliders := w.colliders.modify i ({ · with material := m }), contacts } :
          World α σ).Mixed := by
      intro j c hc
      change c.MixedFrom contacts.frictionMixing contacts.restitutionMixing _
      rw [hf, hr]
      rcases Registry.get?_foldlM_remix hmix hc with ⟨-, hc⟩ | ⟨hj, hget⟩
      · exact hc
      · -- The contact is not one of the collider.
        refine (h j c hget).of_material fun k a hk ha ↦ ⟨a, ?_, rfl⟩
        have hne : i ≠ k := by
          rintro rfl
          exact hj (Registry.mem_contactsOf.2 ⟨c, hget, hk⟩)
        rw [Array.getElem?_modify, if_neg hne, ha]
    cases hs
    split
    · exact hmid
    · exact hmid

theorem Mixed.act (h : w.Mixed) (hw : w.Wf) {a : Action α σ} (ha : w.act a = .ok w') :
    w'.Mixed := by
  cases a with
  | addCollider b c =>
    cases ha
    simp only [addCollider]
    split
    · exact h.of_keeps (.refl _) (.refl _) fun i x hx ↦ ⟨x, getElem?_push_of_some hx _, rfl⟩
    · exact h
  | setFilter i f =>
    cases ha
    simp only [setFilter]
    split
    · refine h.of_keeps (keeps_recheck (w := { w with colliders := _ }) (fun _ ↦ rfl) i)
        (Registry.admits_leads.recheck { w with colliders := _ } i) fun j x hx ↦ ?_
      change ∃ x', (w.colliders.modify i _)[j]? = some x' ∧ _
      rw [Array.getElem?_modify, hx]
      split
      · exact ⟨_, rfl, rfl⟩
      · exact ⟨x, rfl, rfl⟩
    · exact h
  | setMaterial i m =>
    cases ha
    cases hx : w.setMaterial i m with
    | error e => exact h
    | ok x => exact h.setMaterial hx
  | setKind i k =>
    cases ha
    simp only [setKind]
    split
    · exact h
    next b _ =>
      split
      · exact h
      · exact h.of_colliders_eq
          (.foldl contacts (fun _ c ↦ keeps_recheck (fun _ ↦ rfl) c) b.colliders
            ({ w with bodies := _ }.refreshMass i))
          (leads_foldl (w := { w with bodies := _ }.refreshMass i)
            Registry.admits_leads.recheck b.colliders) (rechecked_foldl b.colliders).colliders
  | step dt => exact h.step hw ha
  | _ =>
    cases ha
    exact h

/-! ## Mass -/

end World

/-- The mass of a body, and how it is spread. -/
@[ext] structure BodyMass (α : Type) where
  mass : α
  invMass : α
  inertia : α
  invInertia : α
  localCenter : Vec α

def BodyState.weight {α : Type} (b : BodyState α) : BodyMass α :=
  ⟨b.mass, b.invMass, b.inertia, b.invInertia, b.localCenter⟩

/-- The mass that a body gets depends on its kind and its parts only. -/
theorem Body.weight_resetMass {α : Type} [Scalar α] {b b' : Body α} (h : b'.kind = b.kind)
    (parts : List (MassData α)) : (b'.resetMass parts).weight = (b.resetMass parts).weight := by
  have hd : b'.isDynamic = b.isDynamic := by rw [isDynamic, isDynamic, h]
  simp only [resetMass, hd]
  split <;> rfl

theorem Body.SameMake.weight {α : Type} {b b' : Body α} (h : b.SameMake b') :
    b'.weight = b.weight := by
  simp only [BodyState.weight, h.mass, h.invMass, h.inertia, h.invInertia, h.localCenter]

namespace Action

variable {α σ : Type} [Scalar α]

/-- The action gives the body another collider, or makes it a body of another kind. -/
def Reweighs (w : World α σ) (i : BodyId) : Action α σ → Prop
  | .addCollider b _ => b = i ∧ i < w.bodies.size
  | .setKind b kind => b = i ∧ ∃ body, w.bodies[i]? = some body ∧ body.kind ≠ kind
  | _ => False

/-- The action does not write to the mass of a body. -/
def KeepsWeights : Action α σ → Prop
  | .editBody _ f => ∀ x, (f x).weight = x.weight
  | _ => True

end Action

namespace World

variable {α σ : Type} [Scalar α] {w w' : World α σ} {i : BodyId}

/-- The mass data of the colliders of a body. -/
def parts (w : World α σ) (b : Body α) : List (MassData α) :=
  b.colliders.filterMap fun k ↦ w.colliders[k]?.map (·.massData)

/-- The body has the mass that its parts give to a body of its kind. -/
def Weighed (w : World α σ) (i : BodyId) : Prop :=
  ∃ b, w.bodies[i]? = some b ∧
    ∀ b₀ : Body α, b₀.kind = b.kind → b.weight = (b₀.resetMass (w.parts b)).weight

theorem weighed_refreshMass (hi : i < w.bodies.size) : (w.refreshMass i).Weighed i := by
  have hb := Array.getElem?_eq_getElem hi
  refine ⟨w.bodies[i].resetMass (w.parts w.bodies[i]), ?_, fun b₀ hk ↦ ?_⟩
  · simp only [refreshMass, Array.getElem?_modify, if_true, hb]
    rfl
  · rw [resetMass_kind] at hk
    rw [Body.weight_resetMass hk]
    simp only [parts, resetMass_colliders]
    rfl

namespace Weighed

/-- A body is as heavy as before if it and its colliders are what they were. -/
theorem of_eq (h : w.Weighed i)
    (hb : ∀ b, w.bodies[i]? = some b → ∃ b', w'.bodies[i]? = some b' ∧ b'.kind = b.kind ∧
      b'.colliders = b.colliders ∧ b'.weight = b.weight ∧ ∀ k ∈ b.colliders,
        (w'.colliders[k]?).map (·.massData) = (w.colliders[k]?).map (·.massData)) :
    w'.Weighed i := by
  obtain ⟨b, hbi, hw⟩ := h
  obtain ⟨b', hb', hk, hlist, hweight, hmass⟩ := hb b hbi
  refine ⟨b', hb', fun b₀ hk₀ ↦ ?_⟩
  have hparts : w'.parts b' = w.parts b := by
    rw [parts, parts, hlist]
    exact List.filterMap_congr hmass
  rw [hweight, hparts, hw b₀ (hk₀.trans hk)]

theorem of_scene_eq (h : w.Weighed i) (hb : w'.bodies = w.bodies)
    (hc : w'.colliders = w.colliders) : w'.Weighed i := by
  refine h.of_eq fun b hbi ↦ ⟨b, hb ▸ hbi, rfl, rfl, rfl, fun k _ ↦ ?_⟩
  rw [hc]

theorem step (h : w.Weighed i) (hw : w.Wf) {dt : α} (hs : w.step dt = .ok w') : w'.Weighed i := by
  by_cases hdt : Valid dt
  · rw [step_of_updateContacts hdt (updateContacts_eq (wf_updatePairs hw))] at hs
    refine (h.of_scene_eq (bodies_updated hw) (colliders_updated hw)).of_eq fun b hb ↦ ?_
    obtain ⟨b', hb', hmake, -⟩ := getElem?_move hs hb
    refine ⟨b', hb', hmake.kind, hmake.colliders, hmake.weight, fun k _ ↦ ?_⟩
    rw [(moved_move hs).colliders]
  · cases (step_of_not_valid hdt).symm.trans hs
    exact h

/-- The new collider counts for its own body, and no other has it. -/
theorem addCollider (hr : w.Roster) {b : BodyId} {c : Collider α} {k : ColliderId}
    (hs : w.addCollider b c = .ok (k, w')) (h : w.Weighed i ∨ b = i) : w'.Weighed i := by
  by_cases hb : b < w.bodies.size
  · simp only [World.addCollider, hb, if_true, Except.ok.injEq, Prod.mk.injEq] at hs
    obtain ⟨-, rfl⟩ := hs
    by_cases hbi : b = i
    · subst hbi
      refine weighed_refreshMass ?_
      rw [Array.size_modify]
      exact hb
    · refine (h.resolve_right hbi).of_eq fun x hx ↦ ⟨x, ?_, rfl, rfl, rfl, fun l hl ↦ ?_⟩
      · simp only [refreshMass, Array.getElem?_modify, if_neg hbi, hx]
      · change ((w.colliders.push _)[l]?).map _ = _
        rw [Array.getElem?_push, if_neg (Nat.ne_of_lt (hr.lt_size hx hl))]
  · simp [World.addCollider, hb] at hs

/-- The collider with another material is on the list of its own body only. -/
theorem setMaterial (h : w.Weighed i) (hw : w.Wf) (hr : w.Roster) {j : ColliderId} {m : Material α}
    (hs : w.setMaterial j m = .ok w') : w'.Weighed i := by
  simp only [World.setMaterial] at hs
  split at hs
  · cases hs
  next c hc =>
    obtain ⟨o, body, hco, hbody, -⟩ := hw.owned j c hc
    obtain ⟨contacts, -, hs⟩ := bind_eq_ok_iff.1 hs
    rw [hco] at hs
    cases hs
    by_cases hoi : o = i
    · subst hoi
      exact weighed_refreshMass (Array.getElem?_eq_some_iff.1 hbody).1
    · refine h.of_eq fun x hx ↦ ⟨x, ?_, rfl, rfl, rfl, fun l hl ↦ ?_⟩
      · simp only [refreshMass, Array.getElem?_modify, if_neg hoi, hx]
      · have hjl : j ≠ l := by
          rintro rfl
          obtain ⟨c', hc', hci⟩ := hr.listed i x hx j hl
          cases hc.symm.trans hc'
          exact hoi (Option.some.inj (hco.symm.trans hci))
        change ((w.colliders.modify j _)[l]?).map _ = _
        rw [Array.getElem?_modify, if_neg hjl]

theorem setKind {j : BodyId} {kind : BodyKind} (hs : w.setKind j kind = .ok w')
    (h : w.Weighed i ∨ j = i ∧ ∃ body, w.bodies[i]? = some body ∧ body.kind ≠ kind) :
    w'.Weighed i := by
  simp only [World.setKind] at hs
  split at hs
  · cases hs
  next b hb =>
    split at hs
    next hk =>
      cases hs
      refine h.resolve_right ?_
      rintro ⟨rfl, body, hbody, hne⟩
      cases hb.symm.trans hbody
      exact hne hk
    · cases hs
      have hre := rechecked_foldl (w := { w with
        bodies := w.bodies.modify j (·.changeKind kind) }.refreshMass j) b.colliders
      refine of_scene_eq ?_ hre.bodies hre.colliders
      by_cases hji : j = i
      · subst hji
        refine weighed_refreshMass ?_
        rw [Array.size_modify]
        exact (Array.getElem?_eq_some_iff.1 hb).1
      · refine (h.resolve_right fun h ↦ hji h.1).of_eq fun x hx ↦
          ⟨x, ?_, rfl, rfl, rfl, fun _ _ ↦ rfl⟩
        simp only [refreshMass, Array.getElem?_modify, if_neg hji, hx]

/-- A body that has the mass of its parts keeps it, whatever is done to the world, and a body that
is given parts gets it. -/
theorem act (hw : w.Wf) (hr : w.Roster) {a : Action α σ} (ha : w.act a = .ok w')
    (hk : a.KeepsWeights) (h : w.Weighed i ∨ a.Reweighs w i) : w'.Weighed i := by
  cases a with
  | addBody b =>
    cases ha
    exact (h.resolve_right id).of_eq fun x hx ↦
      ⟨x, getElem?_push_of_some hx _, rfl, rfl, rfl, fun _ _ ↦ rfl⟩
  | addCollider b c =>
    cases ha
    cases hx : w.addCollider b c with
    | error e =>
      refine h.resolve_right ?_
      rintro ⟨rfl, hb⟩
      simp [World.addCollider, hb] at hx
    | ok x => exact addCollider hr (k := x.1) hx (h.imp_right And.left)
  | setFilter j f =>
    cases ha
    have h := h.resolve_right id
    simp only [setFilter]
    split
    · refine h.of_eq fun x hx ↦ ⟨x, hx, rfl, rfl, rfl, fun l _ ↦ ?_⟩
      change ((w.colliders.modify j _)[l]?).map _ = _
      rw [Array.getElem?_modify]
      split
      · rw [Option.map_map]
        rfl
      · rfl
    · exact h
  | setMaterial j m =>
    cases ha
    cases hx : w.setMaterial j m with
    | error e => exact h.resolve_right id
    | ok x => exact (h.resolve_right id).setMaterial hw hr hx
  | setKind j kind =>
    cases ha
    cases hx : w.setKind j kind with
    | error e =>
      refine h.resolve_right ?_
      rintro ⟨rfl, body, hbody, hne⟩
      simp [World.setKind, hbody, hne] at hx
    | ok x => exact setKind hx h
  | editBody j f =>
    cases ha
    refine (h.resolve_right id).of_eq fun x hx ↦ ?_
    change ∃ b', (w.bodies.modify j _)[i]? = some b' ∧ _
    rw [Array.getElem?_modify, hx]
    split
    · exact ⟨_, rfl, rfl, rfl, hk x.toBodyState, fun _ _ ↦ rfl⟩
    · exact ⟨x, rfl, rfl, rfl, rfl, fun _ _ ↦ rfl⟩
  | step dt => exact (h.resolve_right id).step hw ha
  | _ =>
    cases ha
    exact h.resolve_right id

/-- The body is as heavy as its colliders make one of its kind. -/
theorem exists_colliders (h : w.Weighed i) (hr : w.Roster) :
    ∃ (b : Body α) (cs : List (Collider α)), w.bodies[i]? = some b ∧
      b.colliders.map (w.colliders[·]?) = cs.map some ∧
      ∀ b₀ : Body α, b₀.kind = b.kind → b.weight = (b₀.resetMass (cs.map (·.massData))).weight := by
  have hfound : ∀ l : List ColliderId, (∀ k ∈ l, k < w.colliders.size) →
      ∃ cs : List (Collider α), l.map (w.colliders[·]?) = cs.map some := by
    intro l
    induction l with
    | nil => exact fun _ ↦ ⟨[], rfl⟩
    | cons k l ih =>
      intro hl
      obtain ⟨cs, hcs⟩ := ih fun k' hk' ↦ hl k' (List.mem_cons_of_mem k hk')
      have hk : k < w.colliders.size := hl k List.mem_cons_self
      refine ⟨w.colliders[k] :: cs, ?_⟩
      rw [List.map_cons, List.map_cons, hcs, Array.getElem?_eq_getElem hk]
  obtain ⟨b, hb, hweight⟩ := h
  obtain ⟨cs, hcs⟩ := hfound b.colliders fun k hk ↦ hr.lt_size hb hk
  refine ⟨b, cs, hb, hcs, fun b₀ hk ↦ ?_⟩
  have hparts : w.parts b = cs.map (·.massData) := by
    calc w.parts b
      _ = (b.colliders.map (w.colliders[·]?)).filterMap (Option.map (·.massData)) := by
        rw [List.filterMap_map]
        rfl
      _ = (cs.map some).filterMap (Option.map (·.massData)) := by rw [hcs]
      _ = cs.map (·.massData) := by
        rw [List.filterMap_map, ← List.filterMap_eq_map]
        rfl
  rw [← hparts]
  exact hweight b₀ hk

end Weighed

/-- At some time in the run the body has got another collider, or become one of another kind. -/
def Reweighed (w₀ : World α σ) (actions : List (Action α σ)) (i : BodyId) : Prop :=
  ∃ before a after w, actions = before ++ a :: after ∧ w₀.run before = .ok w ∧ a.Reweighs w i

theorem Reachable.mixed (hw : w.Reachable) : w.Mixed := by
  refine hw.induct (fun s w h₀ h c hc ↦ ?_) fun w w' a hwf h ha ↦ h.act hwf ha
  rw [(ofSettings_eq_ok h₀).1] at hc
  cases hc

/-- The mass of a body follows its colliders from the first time that it is worked out. -/
theorem Reachable.weighed {w₀ : World α σ} (hw₀ : w₀.Reachable) {actions : List (Action α σ)}
    (h : w₀.run actions = .ok w) (hk : ∀ a ∈ actions, a.KeepsWeights)
    (hi : Reweighed w₀ actions i) : w.Weighed i := by
  obtain ⟨before, a, after, w₁, rfl, h₁, ha⟩ := hi
  obtain ⟨w₁', h₁', h⟩ := run_append.1 h
  cases h₁.symm.trans h₁'
  obtain ⟨w₂, h₂, h⟩ := run_cons.1 h
  have hw₁ := hw₀.run h₁
  have hi₂ : w₂.Weighed i :=
    .act hw₁.sound.wf hw₁.roster h₂ (hk a (List.mem_append_right _ List.mem_cons_self)) (.inr ha)
  refine (run_induction (P := fun w ↦ w.Reachable ∧ w.Weighed i) ⟨hw₁.act h₂, hi₂⟩ ?_ h).2
  rintro w w' b hb ⟨hw, hi⟩ ha
  have hb := hk b (List.mem_append_right _ (List.mem_cons_of_mem a hb))
  exact ⟨hw.act ha, .act hw.sound.wf hw.roster ha hb (.inl hi)⟩

/-- **Derived data is never stale.** The coefficients of every contact are what the mixing rules
that the world was made with give for the current materials of its colliders, in its order.  If no
caller writes to the mass of a body, then every body that has ever got a collider or become one of
another kind has the mass of its current colliders, in the order in which they were attached. -/
theorem derived_data_current {s : WorldSettings α} {w₀ : World α σ} {actions : List (Action α σ)}
    (h₀ : ofSettings s = .ok w₀) (h : w₀.run actions = .ok w)
    (hk : ∀ (b : BodyId) (f : BodyState α → BodyState α), .editBody b f ∈ actions →
      ∀ x, (f x).weight = x.weight) :
    (∀ h c, w.contacts.get? h = some c →
      c.MixedFrom s.frictionMixing s.restitutionMixing w.colliders) ∧
    ∀ i, Reweighed w₀ actions i → ∃ (b : Body α) (cs : List (Collider α)),
      w.bodies[i]? = some b ∧ b.colliders.map (w.colliders[·]?) = cs.map some ∧
        ∀ b₀ : Body α, b₀.kind = b.kind →
          b.weight = (b₀.resetMass (cs.map (·.massData))).weight := by
  have hw : w.Reachable := ⟨s, actions, w₀, h₀, h⟩
  refine ⟨fun i c hc ↦ ?_, fun i hi ↦ ?_⟩
  · have hc := hw.mixed i c hc
    obtain ⟨-, hf, hr⟩ := (leads_run (wf_ofSettings h₀) h).sameRules
    rw [hf, hr] at hc
    obtain ⟨-, rfl⟩ := ofSettings_eq_ok_iff.1 h₀
    exact hc
  · refine Weighed.exists_colliders ?_ hw.roster
    refine Reachable.weighed ⟨s, [], w₀, h₀, rfl⟩ h (fun a ha ↦ ?_) hi
    cases a with
    | editBody b f => exact hk b f ha
    | _ => trivial

/-- The middle one of three discs that touch becomes dynamic, and then of another material: its
contacts and its mass follow. -/
theorem remade_solids : ∃ w₀ w : World ℝ Unit, ofSettings .default = .ok w₀ ∧
    w₀.run (solids none ++ [.step 1, .setKind 0 .dynamic, .setMaterial 0 ⟨0, 1, 2⟩]) = .ok w ∧
    (∃ h c, w.contacts.get? h = some c ∧ c.pair = .of 0 1 ∧
      c.MixedFrom .geometricMean .max w.colliders) ∧
    ∃ (b : Body ℝ) (cs : List (Collider ℝ)), w.bodies[0]? = some b ∧
      b.colliders.map (w.colliders[·]?) = cs.map some ∧
      b.weight = ((Body.ofKind b.kind 0).resetMass (cs.map (·.massData))).weight := by
  obtain ⟨w₀, h₀⟩ := exists_ofSettings_default Unit
  obtain ⟨w₁, h₁⟩ : ∃ w₁, w₀.run (solids none) = .ok w₁ := ⟨_, rfl⟩
  obtain ⟨w₂, h₂, htouch, hroster, -⟩ := exists_step_solids h₀ h₁
  obtain ⟨w₃, h₃⟩ : ∃ w₃, w₂.act (.setKind 0 .dynamic) = .ok w₃ := ⟨_, rfl⟩
  obtain ⟨w, h₄⟩ : ∃ w, w₃.act (.setMaterial 0 ⟨0, 1, 2⟩) = .ok w := ⟨_, rfl⟩
  have hrun : w₀.run (solids none ++ [.step 1, .setKind 0 .dynamic, .setMaterial 0 ⟨0, 1, 2⟩]) =
      .ok w :=
    run_append.2 ⟨w₁, h₁, run_cons.2 ⟨w₂, h₂, run_cons.2 ⟨w₃, h₃, run_singleton.2 h₄⟩⟩⟩
  have hw₂ : w₂.Wf := ((sound_ofSettings h₀).run h₁).act (a := .step 1) h₂ |>.wf
  obtain ⟨b₁, hb₁, -, hk₁⟩ := (run_solids h₀ h₁).2.exists_body (i := 0) rfl rfl
  obtain ⟨b₂, hb₂, hk₂, -⟩ := hroster.exists_of_mem hb₁
  have hre : Reweighed w₀ (solids none ++ [.step 1, .setKind 0 .dynamic,
      .setMaterial 0 ⟨0, 1, 2⟩]) 0 := by
    refine ⟨solids none ++ [.step 1], .setKind 0 .dynamic, [.setMaterial 0 ⟨0, 1, 2⟩], w₂, ?_,
      run_append.2 ⟨w₁, h₁, run_singleton (a := .step 1).2 h₂⟩, rfl, b₂, hb₂, ?_⟩
    · rw [List.append_assoc]
      rfl
    · rw [hk₂, hk₁]
      decide
  obtain ⟨hmixed, hweighed⟩ := derived_data_current h₀ hrun (by simp [solids])
  obtain ⟨b, cs, hb, hcs, hweight⟩ := hweighed 0 hre
  have htouch₄ : w.Touches (.of 0 1) :=
    ((edits_act (wf_act hw₂ h₃) rfl h₄).touches_iff _).2
      (((edits_act hw₂ rfl h₃).touches_iff _).2 (htouch _ (.inl rfl)))
  obtain ⟨h, c, hc, hp, -⟩ := htouch₄
  exact ⟨w₀, w, h₀, hrun, ⟨h, c, hc, hp, hmixed h c hc⟩, b, cs, hb, hcs, hweight _ rfl⟩

end World

end PlanarDynamics
