import PlanarDynamics.Proofs.Registry.Reachable
import PlanarDynamics.Proofs.World.Reachable

/-!
# A world sends requests to its registry

Whatever happens to a world, in a step or between steps, happens to its registry by requests.  So
what is known of the runs of a registry is known of the contacts of a world: they are the contacts
of a registry that can be reached (`World.Reachable.contacts`), and this is also so in the middle of
a step.
-/

namespace PlanarDynamics

/-- What holds between one state and the next holds from the first to the last. -/
theorem foldl_related {β γ δ : Type} {R : δ → δ → Prop} (hrefl : ∀ d, R d d)
    (htrans : ∀ {d d' d''}, R d d' → R d' d'' → R d d'') (view : β → δ) {f : β → γ → β}
    (hf : ∀ b c, R (view b) (view (f b c))) (cs : List γ) (b : β) :
    R (view b) (view (cs.foldl f b)) := by
  induction cs generalizing b with
  | nil => exact hrefl _
  | cons c cs ih => exact htrans (hf b c) (ih _)

namespace Registry

variable {α : Type} [Scalar α] {r r' r'' : Registry α}

/-- Some requests make `r'` of `r`. -/
def Leads (r r' : Registry α) : Prop := ∃ requests, r.run requests = r'

namespace Leads

theorem refl (r : Registry α) : r.Leads r := ⟨[], rfl⟩

theorem trans (h : r.Leads r') (h' : r'.Leads r'') : r.Leads r'' := by
  obtain ⟨qs, rfl⟩ := h
  obtain ⟨qs', rfl⟩ := h'
  exact ⟨qs ++ qs', List.foldl_append⟩

theorem act (r : Registry α) (q : Request α) : r.Leads (r.act q) := ⟨[q], rfl⟩

/-- What is done by requests for each element is done so for a whole list. -/
theorem foldl {β γ : Type} {f : β → γ → β} (registry : β → Registry α)
    (hf : ∀ b c, (registry b).Leads (registry (f b c))) (cs : List γ) (b : β) :
    (registry b).Leads (registry (cs.foldl f b)) :=
  foldl_related .refl .trans registry hf cs b

theorem reachable (h : r.Leads r') (hr : r.Reachable) : r'.Reachable := by
  obtain ⟨rules, friction, restitution, qs, rfl⟩ := hr
  obtain ⟨qs', rfl⟩ := h
  exact ⟨rules, friction, restitution, qs ++ qs', List.foldl_append⟩

theorem sameRules (h : r.Leads r') : r.SameRules r' := by
  obtain ⟨qs, rfl⟩ := h
  exact sameRules_run r qs

theorem frictionMixing_eq (h : r.Leads r') : r'.frictionMixing = r.frictionMixing :=
  h.sameRules.2.1

/-- A contact may change in place more than once. -/
theorem setContact {h : Handle} {c : Contact α} (hc : r.get? h = some c)
    (changes : List (Contact.Change α)) :
    r.Leads (r.setContact h.index (changes.foldl Contact.change c)) := by
  induction changes generalizing r c with
  | nil =>
    rw [List.foldl_nil, setContact_of_get? hc]
    exact .refl r
  | cons how changes ih =>
    have hact : r.act (.change h how) = r.setContact h.index (c.change how) := by
      rw [Registry.act, modify, hc]
    have hget : (r.setContact h.index (c.change how)).get? h = some (c.change how) := by
      rw [get?_setContact hc, if_pos rfl]
    rw [List.foldl_cons, ← setContact_setContact r h.index (c.change how)]
    exact (hact ▸ Leads.act r (.change h how)).trans (ih hget)

end Leads

/-- A relation that leads to all that is made of a registry between steps: contacts are marked, and
their materials are mixed anew. -/
structure Admits (R : Registry α → Registry α → Prop) : Prop where
  refl : ∀ r, R r r
  trans : ∀ {r r' r''}, R r r' → R r' r'' → R r r''
  flag : ∀ r h, R r (r.modify h .flag)
  remix : ∀ {r r' h colliders}, r.remix h colliders = .ok r' → R r r'

theorem admits_leads : Admits (Leads (α := α)) where
  refl := .refl
  trans := .trans
  flag r h := ⟨[.change h .flag], rfl⟩
  remix {r r' h colliders} hx := ⟨[.remix h colliders], by rw [run_cons, act, hx]; rfl⟩

namespace Admits

variable {R : Registry α → Registry α → Prop} {σ : Type} {w w' : World α σ}

theorem recheck (hR : Admits R) (w : World α σ) (i : ColliderId) :
    R w.contacts (w.recheck i).contacts :=
  foldl_related hR.refl hR.trans id hR.flag (w.contacts.contactsOf i) w.contacts

theorem foldlM_remix (hR : Admits R) {colliders : Array (Collider α)} {hs : List Handle}
    (h : hs.foldlM (·.remix · colliders) r = .ok r') : R r r' := by
  induction hs generalizing r with
  | nil =>
    cases h
    exact hR.refl _
  | cons h₀ hs ih =>
    rw [List.foldlM_cons] at h
    cases hx : r.remix h₀ colliders with
    | error e => simp [hx, bind, Except.bind] at h
    | ok r₁ =>
      rw [hx] at h
      exact hR.trans (hR.remix hx) (ih h)

/-- Between steps a registry is only changed in the two ways. -/
theorem act (hR : Admits R) {a : Action α σ} (ha : a.isStep = false) (h : w.act a = .ok w') :
    R w.contacts w'.contacts := by
  cases a with
  | addCollider b c =>
    cases h
    simp only [World.addCollider]
    split <;> exact hR.refl _
  | setFilter i f =>
    cases h
    simp only [World.setFilter]
    split
    · exact hR.recheck { w with colliders := _ } i
    · exact hR.refl _
  | setMaterial i m =>
    cases h
    simp only [World.setMaterial, bind, Except.bind, pure, Except.pure]
    split
    · exact hR.refl _
    · split
      · exact hR.refl _
      next hr =>
        dsimp only [Except.toOption, Option.getD_some]
        split <;> exact hR.foldlM_remix hr
  | setKind i k =>
    cases h
    simp only [World.setKind]
    split
    · exact hR.refl _
    next b _ =>
      split
      · exact hR.refl _
      · exact foldl_related hR.refl hR.trans World.contacts hR.recheck b.colliders
          ({ w with bodies := _ }.refreshMass i)
  | step dt => cases ha
  | _ =>
    cases h
    exact hR.refl _

end Admits

end Registry

namespace World

variable {α σ : Type} [Scalar α] {w w' : World α σ}

theorem leads_foldl {β : Type} {f : World α σ → β → World α σ}
    (hf : ∀ (w : World α σ) b, w.contacts.Leads (f w b).contacts) (bs : List β) :
    w.contacts.Leads (bs.foldl f w).contacts :=
  Registry.Leads.foldl contacts hf bs w

/-! ## Steps -/

theorem leads_destroyContact (h : Handle) : w.contacts.Leads (w.destroyContact h).contacts := by
  have hd : (w.destroyContact h).contacts = w.contacts.act (.destroy h) := by
    rw [destroyContact, Registry.act]
    cases w.contacts.destroy h <;> rfl
  rw [hd]
  exact .act _ _

theorem leads_createContact (p : Pair) : w.contacts.Leads (w.createContact p).contacts := by
  simp only [createContact]
  split
  · split
    next a b _ _ =>
      have hd : w.contacts.Leads (w.contacts.act (.create (p.lo, a) (p.hi, b))) := .act _ _
      rw [Registry.act] at hd
      cases hx : w.contacts.create (p.lo, a) (p.hi, b) with
      | error e => exact .refl _
      | ok x =>
        rw [hx] at hd
        exact hd
    · exact .refl _
  · exact .refl _

theorem leads_updatePairs : w.contacts.Leads w.updatePairs.contacts := by
  have hevent : ∀ (w : World α σ) e, w.contacts.Leads (w.handleEvent e).contacts := by
    intro w e
    cases e with
    | ends p =>
      rw [handleEvent]
      split
      · exact leads_destroyContact _
      · exact .refl _
    | begins p => exact leads_createContact p
  rw [updatePairs_eq, ← List.foldl_append, ← sameButGrid_regrid.contacts]
  exact leads_foldl hevent _

/-- A contact is renewed by changes in place. -/
theorem exists_changes_renewed (c : Contact α) :
    ∃ changes : List (Contact.Change α), w.renewed c = changes.foldl Contact.change c := by
  simp only [renewed, updated]
  split
  next bodyA bodyB a b _ _ _ _ =>
    exact ⟨[.unflag, .update a.shape bodyA.pose b.shape bodyB.pose], rfl⟩
  · exact ⟨[.unflag, .setEnabled true], rfl⟩

theorem leads_renew {h : Handle} {c : Contact α} (hc : w.contacts.get? h = some c) :
    w.contacts.Leads (w.renew h c).contacts := by
  obtain ⟨c', he, hc'⟩ := renew_contacts (w := w) h c
  obtain ⟨changes, hchanges⟩ := exists_changes_renewed (w := w) c
  -- The listener had its say on whether the contact is enabled.
  have hlast : c' = (changes ++ [Contact.Change.setEnabled c'.enabled]).foldl Contact.change c := by
    rw [List.foldl_append, ← hchanges, ← hc']
    rfl
  rw [he, hlast]
  exact .setContact hc _

theorem leads_refreshed : w.contacts.Leads w.refreshed.contacts := by
  have hsettle : ∀ (st : World α σ × List Handle) h,
      st.1.contacts.Leads (settle st h).1.contacts := by
    intro st h
    rw [settle]
    split
    · exact .refl _
    next c hc =>
      split
      · exact .refl _
      · exact leads_renew hc
  have hsettled := Registry.Leads.foldl (fun st ↦ st.1.contacts) hsettle
    (w.contacts.entries.map (·.1)) (w, [])
  exact hsettled.trans (leads_foldl (fun _ h ↦ leads_destroyContact h) _)

theorem leads_commit (s : Solution α) : w.contacts.Leads (w.commit s).contacts := by
  have himpulse : ∀ (w : World α σ) e, w.contacts.Leads (w.commitImpulse e).contacts := by
    intro w e
    simp only [commitImpulse]
    split
    · exact .refl _
    next c hc => exact .setContact hc [.writeImpulses e.2]
  rw [commit]
  generalize s.bodies.foldl _ w.bodies = bodies
  exact leads_foldl (w := { w with bodies }) himpulse s.impulses

theorem leads_move {dt : α} (h : w.move dt = .ok w') : w.contacts.Leads w'.contacts := by
  simp only [move, bind, Except.bind] at h
  split at h
  · cases h
  next solutions _ =>
    cases h
    exact leads_foldl (fun _ s ↦ leads_commit s) solutions

theorem leads_step (hw : w.Wf) {dt : α} (h : w.step dt = .ok w') :
    w.contacts.Leads w'.contacts := by
  by_cases hdt : Valid dt
  · rw [step_of_valid hdt, updateContacts_eq (wf_updatePairs hw)] at h
    simp only [bind, Except.bind] at h
    exact leads_updatePairs.trans (leads_refreshed.trans (leads_move h))
  · rw [step_of_not_valid hdt] at h
    cases h
    exact .refl _

/-! ## Runs -/

theorem leads_act (hw : w.Wf) {a : Action α σ} (h : w.act a = .ok w') :
    w.contacts.Leads w'.contacts := by
  cases a using Action.step_or_change with
  | step dt => exact leads_step hw h
  | change a hstep => exact Registry.admits_leads.act hstep h

theorem leads_run (hw : w.Wf) {actions : List (Action α σ)} (h : w.run actions = .ok w') :
    w.contacts.Leads w'.contacts := by
  refine (run_induction (P := fun w' ↦ w'.Wf ∧ w.contacts.Leads w'.contacts) ⟨hw, .refl _⟩ ?_ h).2
  rintro w₁ w₂ a - ⟨hw₁, hc⟩ ha
  exact ⟨wf_act hw₁ ha, hc.trans (leads_act hw₁ ha)⟩

/-- **The contacts of a world are those of a registry that can be reached.** -/
theorem Reachable.contacts (h : w.Reachable) : w.contacts.Reachable := by
  obtain ⟨s, actions, w₀, h₀, hr⟩ := h
  refine (leads_run (wf_ofSettings h₀) hr).reachable ?_
  obtain ⟨-, rfl⟩ := ofSettings_eq_ok_iff.1 h₀
  exact ⟨_, _, _, [], rfl⟩

/-- The same holds once contacts are up to date. -/
theorem Reachable.contacts_updated (h : w.Reachable) : w.updatePairs.refreshed.contacts.Reachable :=
  (leads_updatePairs.trans leads_refreshed).reachable h.contacts

end World

end PlanarDynamics
