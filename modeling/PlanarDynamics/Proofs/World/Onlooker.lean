import PlanarDynamics.Proofs.World.Solving

/-!
# Listeners that only watch

A listener that never refuses a contact leaves no trace in a world.  The same run without anyone to
listen goes the same way, operation by operation: it has a result when the other has one, and the
results differ in nothing but the listener.

This compares two runs.  A world and its shadow, the same world with no listener, are led side by
side through each part of a step (`World.Shadows`), and through everything else that a caller does.
-/

namespace PlanarDynamics

/-- Two computations go the same way: both have results, which are related, or both fail for the
same reason. -/
inductive Abreast {ε β γ : Type} (R : β → γ → Prop) : Except ε β → Except ε γ → Prop
  | ok {x : β} {y : γ} (h : R x y) : Abreast R (.ok x) (.ok y)
  | error (e : ε) : Abreast R (.error e) (.error e)

namespace Abreast

variable {ε β γ β' γ' δ : Type} {R : β → γ → Prop} {S : β' → γ' → Prop}

theorem bind {x : Except ε β} {y : Except ε γ} (h : Abreast R x y) {f : β → Except ε β'}
    {g : γ → Except ε γ'} (hfg : ∀ b c, R b c → Abreast S (f b) (g c)) :
    Abreast S (x >>= f) (y >>= g) := by
  cases h with
  | ok h => exact hfg _ _ h
  | error e => exact .error e

theorem foldlM {f : β → δ → Except ε β} {g : γ → δ → Except ε γ}
    (hfg : ∀ b c d, R b c → Abreast R (f b d) (g c d)) (l : List δ) {b : β} {c : γ} (h : R b c) :
    Abreast R (l.foldlM f b) (l.foldlM g c) := by
  induction l generalizing b c with
  | nil => exact .ok h
  | cons d l ih =>
    rw [List.foldlM_cons, List.foldlM_cons]
    exact (hfg b c d h).bind fun b' c' h' ↦ ih h'

end Abreast

namespace Listener

variable {α σ : Type} {l : Listener α σ}

/-- The listener refuses no contact, whatever it has heard. -/
def Consents (l : Listener α σ) : Prop := ∀ h c m x, (l.preSolve h c m x).1 = true

theorem Consents.auditedAt (hl : l.Consents) (x : σ) (reports : List (Report α)) :
    (l.auditedAt x reports).Consents :=
  fun h c m s ↦ hl h c m s.1

theorem Consents.hearTransition (hl : l.Consents) (h : Handle) (c : Contact α) (t : Transition) :
    (l.hearTransition h c t).Consents := by
  cases t <;> exact hl

/-- All that comes back from a listener that consents is the contact as it was. -/
theorem Consents.hearUpdate (hl : l.Consents) (h : Handle) (before : Manifold α)
    (updated : Contact α × Transition) : (l.hearUpdate h before updated).1.Consents ∧
      (l.hearUpdate h before updated).2 = updated.1 := by
  have ht := hl.hearTransition h updated.1 updated.2
  simp only [Listener.hearUpdate]
  split
  · simp only [hearTouching]
    split
    · exact ⟨ht, rfl⟩
    · exact ⟨ht, if_pos (ht _ _ _ _)⟩
  · exact ⟨ht, rfl⟩

theorem Consents.hearDestroyed (hl : l.Consents) (h : Handle) (c : Contact α) :
    (l.hearDestroyed h c).Consents := by
  rw [Listener.hearDestroyed]
  split <;> exact hl

end Listener

namespace World

variable {α σ : Type}

/-- The world with no one to listen. -/
def unheard (w : World α σ) : World α σ := { w with listener := none }

/-- `v` is `w` without its listener, which consents. -/
structure Shadows (w v : World α σ) : Prop where
  consents : ∀ l, w.listener = some l → l.Consents
  eq : v = w.unheard

namespace Shadows

variable {w v : World α σ}

theorem of_listener_eq_none (h : w.listener = none) : Shadows w w := by
  refine ⟨fun l hl ↦ ?_, ?_⟩
  · cases h.symm.trans hl
  · cases w
    cases h
    rfl

/-- The result without a listener is known from the other one. -/
theorem eq_map {x y : Except Fault (World α σ)} (h : Abreast Shadows x y) : y = x.map unheard := by
  cases h with
  | ok hv => exact congrArg Except.ok hv.eq
  | error f => rfl

/-! ## Near pairs -/

theorem destroyContact (hv : Shadows w v) (h : Handle) :
    Shadows (w.destroyContact h) (v.destroyContact h) := by
  obtain ⟨hl, rfl⟩ := hv
  cases hd : w.contacts.destroy h with
  | error e =>
    simp only [World.destroyContact, unheard, hd]
    exact ⟨hl, rfl⟩
  | ok x =>
    simp only [World.destroyContact, unheard, hd]
    refine ⟨fun l' hl' ↦ ?_, rfl⟩
    obtain ⟨l, hsome, rfl⟩ := Option.map_eq_some_iff.1 hl'
    exact (hl l hsome).hearDestroyed h x.1

variable [Scalar α]

theorem createContact (hv : Shadows w v) (p : Pair) :
    Shadows (w.createContact p) (v.createContact p) := by
  obtain ⟨hl, rfl⟩ := hv
  have hmay : w.unheard.mayTouch p.lo p.hi = w.mayTouch p.lo p.hi := rfl
  simp only [World.createContact, hmay]
  split
  · simp only [unheard]
    split
    · split <;> exact ⟨hl, rfl⟩
    · exact ⟨hl, rfl⟩
  · exact ⟨hl, rfl⟩

theorem handleEvent (hv : Shadows w v) (e : PairEvent) :
    Shadows (w.handleEvent e) (v.handleEvent e) := by
  cases e with
  | ends p =>
    have hfind : v.contacts.find? p.lo p.hi = w.contacts.find? p.lo p.hi := by
      rw [hv.eq]
      rfl
    simp only [World.handleEvent, hfind]
    split
    · exact hv.destroyContact _
    · exact hv
  | begins p => exact hv.createContact p

theorem syncBoxes (hv : Shadows w v) : Shadows w.syncBoxes v.syncBoxes := by
  have hcolliders : v.colliders = w.colliders := by
    rw [hv.eq]
    rfl
  rw [syncBoxes_eq, syncBoxes_eq, hcolliders]
  refine List.foldl_rel hv fun e _ w v hv ↦ ?_
  obtain ⟨hl, rfl⟩ := hv
  exact ⟨hl, rfl⟩

theorem updatePairs (hv : Shadows w v) : Shadows w.updatePairs v.updatePairs := by
  obtain ⟨hl, hbox⟩ := hv.syncBoxes
  simp only [World.updatePairs, hbox]
  exact List.foldl_rel ⟨hl, rfl⟩ fun e _ w v hv ↦ hv.handleEvent e

/-! ## Contacts -/

/-- Without a listener the contact is put in place at once, and otherwise after it was heard of. -/
theorem updateContact (hv : Shadows w v) (refused : List Handle) (h : Handle) :
    Abreast (fun st st' ↦ Shadows st.1 st'.1 ∧ st'.2 = st.2)
      (World.updateContact (w, refused) h) (World.updateContact (v, refused) h) := by
  obtain ⟨hl, rfl⟩ := hv
  have hmay : ∀ a b, w.unheard.mayTouch a b = w.mayTouch a b := fun _ _ ↦ rfl
  simp only [World.updateContact, hmay]
  simp only [unheard]
  cases w.contacts.get? h with
  | none => exact .ok ⟨⟨hl, rfl⟩, rfl⟩
  | some c =>
    dsimp only
    split
    · exact .ok ⟨⟨hl, rfl⟩, rfl⟩
    · split
      · cases hsome : w.listener with
        | none =>
          refine .ok ⟨⟨fun l h ↦ ?_, rfl⟩, rfl⟩
          cases h
        | some l =>
          obtain ⟨hl', heq⟩ := (hl l hsome).hearUpdate h c.manifold _
          refine .ok ⟨⟨fun l h ↦ ?_, ?_⟩, rfl⟩
          · cases h
            exact hl'
          · simp only [heq, unheard]
      · exact .error _

theorem updateContacts (hv : Shadows w v) : Abreast Shadows w.updateContacts v.updateContacts := by
  have hentries : v.contacts.entries = w.contacts.entries := by
    rw [hv.eq]
    rfl
  rw [World.updateContacts, World.updateContacts, hentries]
  refine Abreast.bind (R := fun st st' ↦ Shadows st.1 st'.1 ∧ st'.2 = st.2)
    (Abreast.foldlM (fun st st' h hst ↦ ?_) _ ⟨hv, rfl⟩) ?_
  · obtain ⟨w, refused⟩ := st
    obtain ⟨v, _⟩ := st'
    obtain ⟨hv, rfl⟩ := hst
    exact hv.updateContact _ h
  · rintro ⟨w, refused⟩ ⟨v, _⟩ ⟨hv, rfl⟩
    exact .ok (List.foldl_rel hv fun h _ w v hv ↦ hv.destroyContact h)

/-! ## Motion -/

omit [Scalar α] in
theorem commitImpulse (hv : Shadows w v) (e : Handle × ContactImpulse α) :
    Shadows (w.commitImpulse e) (v.commitImpulse e) := by
  obtain ⟨hl, rfl⟩ := hv
  simp only [World.commitImpulse, unheard]
  split
  · exact ⟨hl, rfl⟩
  · refine ⟨fun l' hl' ↦ ?_, rfl⟩
    obtain ⟨l, hsome, rfl⟩ := Option.map_eq_some_iff.1 hl'
    exact hl l hsome

theorem commit (hv : Shadows w v) (s : Solution α) : Shadows (w.commit s) (v.commit s) := by
  refine List.foldl_rel ?_ fun e _ w v hv ↦ hv.commitImpulse e
  obtain ⟨hl, rfl⟩ := hv
  exact ⟨hl, rfl⟩

theorem move (hv : Shadows w v) (dt : α) : Abreast Shadows (w.move dt) (v.move dt) := by
  obtain ⟨hl, rfl⟩ := hv
  cases hs : (Island.partition w.bodies w.contacts).mapM (·.solve w.bodies w.contacts
      (TimeStep.of dt w.previousDt w.settings.gravity w.settings.solver)) with
  | error f =>
    have hs' : (Island.partition w.unheard.bodies w.unheard.contacts).mapM (·.solve w.unheard.bodies
      w.unheard.contacts (TimeStep.of dt w.unheard.previousDt w.unheard.settings.gravity
        w.unheard.settings.solver)) = .error f := hs
    rw [World.move, World.move, hs, hs']
    exact .error f
  | ok solutions =>
    obtain ⟨hl, hsol⟩ : Shadows (solutions.foldl World.commit w)
        (solutions.foldl World.commit w.unheard) :=
      List.foldl_rel ⟨hl, rfl⟩ fun s _ w v hv ↦ hv.commit s
    rw [move_of_solutions hs, move_of_solutions (w := w.unheard) hs, hsol]
    exact .ok ⟨hl, rfl⟩

theorem step (hv : Shadows w v) (dt : α) : Abreast Shadows (w.step dt) (v.step dt) := by
  by_cases hdt : Valid dt
  · rw [step_of_valid hdt, step_of_valid hdt]
    exact hv.updatePairs.updateContacts.bind fun _ _ hv ↦ hv.move dt
  · rw [step_of_not_valid hdt, step_of_not_valid hdt]
    exact .ok hv

/-! ## Runs -/

omit [Scalar α] in
theorem recheck (hv : Shadows w v) (i : ColliderId) : Shadows (w.recheck i) (v.recheck i) := by
  obtain ⟨hl, rfl⟩ := hv
  exact ⟨hl, rfl⟩

end Shadows

end World

/-- The same action, with no one to listen. -/
def Action.unheard {α σ : Type} : Action α σ → Action α σ
  | .setListener _ => .setListener none
  | a => a

namespace World

variable {α σ : Type} [Scalar α] {w v : World α σ}

theorem Shadows.act (hv : Shadows w v) {a : Action α σ}
    (ha : ∀ l, a = .setListener (some l) → l.Consents) :
    Abreast Shadows (w.act a) (v.act a.unheard) := by
  obtain ⟨hl, rfl⟩ := hv
  cases a with
  | addBody b => exact .ok ⟨hl, rfl⟩
  | addCollider b c =>
    have hsize : w.unheard.bodies.size = w.bodies.size := rfl
    simp only [World.act, Action.unheard, addCollider, hsize]
    split <;> exact .ok ⟨hl, rfl⟩
  | setFilter i f =>
    have hsize : w.unheard.colliders.size = w.colliders.size := rfl
    simp only [World.act, Action.unheard, setFilter, hsize]
    split <;> exact .ok ⟨hl, rfl⟩
  | setMaterial i m =>
    simp only [World.act, Action.unheard, setMaterial, unheard]
    cases w.colliders[i]? with
    | none => exact .ok ⟨hl, rfl⟩
    | some c =>
      dsimp only
      cases (w.contacts.contactsOf i).foldlM (·.remix · (w.colliders.modify i
          ({ · with material := m }))) w.contacts with
      | error e => exact .ok ⟨hl, rfl⟩
      | ok contacts => cases c.body <;> exact .ok ⟨hl, rfl⟩
  | setKind i k =>
    simp only [World.act, Action.unheard, setKind, unheard]
    cases w.bodies[i]? with
    | none => exact .ok ⟨hl, rfl⟩
    | some b =>
      dsimp only
      split
      · exact .ok ⟨hl, rfl⟩
      · exact .ok (List.foldl_rel ⟨hl, rfl⟩ fun i _ w v hv ↦ hv.recheck i)
  | editBody i f => exact .ok ⟨hl, rfl⟩
  | changeSettings s => exact .ok ⟨hl, rfl⟩
  | setListener l =>
    refine .ok ⟨fun l' hl' ↦ ha l' ?_, rfl⟩
    exact congrArg Action.setListener hl'
  | step dt => exact Shadows.step ⟨hl, rfl⟩ dt

theorem Shadows.run (hv : Shadows w v) {actions : List (Action α σ)}
    (ha : ∀ l, .setListener (some l) ∈ actions → l.Consents) :
    Abreast Shadows (w.run actions) (v.run (actions.map Action.unheard)) := by
  induction actions generalizing w v with
  | nil => exact .ok hv
  | cons a actions ih =>
    rw [World.run, World.run, List.map_cons, List.foldlM_cons, List.foldlM_cons]
    refine (hv.act fun l hl ↦ ha l (hl ▸ List.mem_cons_self)).bind fun w v hv ↦ ?_
    exact ih hv fun l hl ↦ ha l (List.mem_cons_of_mem _ hl)

/-- **Listeners only watch.** If no listener that is put in place ever refuses a contact, then at
every point of a run the world is what it is in the same run without listeners, but for the listener
itself; and if one of the runs is given up, the other is given up at the same point. -/
theorem onlookers_leave_no_trace {s : WorldSettings α} {w₀ : World α σ}
    (h₀ : ofSettings s = .ok w₀) {actions : List (Action α σ)}
    (hconsent : ∀ l, .setListener (some l) ∈ actions → l.Consents) {before : List (Action α σ)}
    (hbefore : before <+: actions) :
    w₀.run (before.map Action.unheard) = (w₀.run before).map unheard := by
  have hnone : w₀.listener = none := by
    obtain ⟨-, rfl⟩ := ofSettings_eq_ok_iff.1 h₀
    rfl
  exact Shadows.eq_map ((Shadows.of_listener_eq_none hnone).run fun l hl ↦
    hconsent l (hbefore.subset hl))

/-- Three discs and a listener, which is asked about the contacts.  All moves as if there were no
listener. -/
theorem solids_unheard : ∃ w₀ w : World ℝ (Unit × List (Report ℝ)), ∃ reports,
    ofSettings .default = .ok w₀ ∧
    w₀.run (solids (some ((Listener.silent ()).auditedAt () [])) ++ [.step 1]) = .ok w ∧
    w.listener = some ((Listener.silent ()).auditedAt () reports) ∧ reports ≠ [] ∧
    w₀.run (solids none ++ [.step 1]) = .ok w.unheard := by
  obtain ⟨w₀, h₀⟩ := exists_ofSettings_default (Unit × List (Report ℝ))
  obtain ⟨w₁, h₁⟩ : ∃ w₁, w₀.run (solids (some ((Listener.silent ()).auditedAt () []))) = .ok w₁ :=
    ⟨_, rfl⟩
  have hr : w₁.Reachable := ⟨_, _, w₀, h₀, h₁⟩
  have hwf := hr.sound.wf
  obtain ⟨w₂, h₂, htouch, hc, -, hcorr⟩ := updated_solids h₀ h₁
  obtain ⟨w, hm⟩ : ∃ w, w₂.move 1 = .ok w :=
    exists_move_of_hasLimits (fun h c hget _ ↦ hasLimits_of_nonneg (hc h c hget).2) hcorr
  have hrun : w₀.run (solids (some ((Listener.silent ()).auditedAt () [])) ++ [.step 1]) = .ok w :=
    run_append.2 ⟨w₁, h₁, run_singleton.2 ((step_of_updateContacts valid_one h₂).trans hm)⟩
  -- The listener is asked about the contact of the first two discs.
  cases (updateContacts_eq (wf_updatePairs hwf)).symm.trans h₂
  obtain ⟨x, new, hl, hnew⟩ := hears_updated hwf () [] (run_solids h₀ h₁).1
  obtain ⟨h, c, hget, -, ht⟩ := htouch _ (.inl rfl)
  have hasked := asks_of_get? (wf_updatePairs hwf) hget ht (hc h c hget).1
  obtain ⟨solutions, hs, hw⟩ := of_move_eq_ok hm
  obtain ⟨x', new', hl', -⟩ := hr.ready.hears_commit hs x _ hl
  refine ⟨w₀, w, _, h₀, hrun, by rw [hw]; exact hl', ?_, ?_⟩
  · intro hnil
    rw [List.nil_append, List.append_eq_nil_iff] at hnil
    rw [← hnew.asked, hnil.1] at hasked
    exact List.not_mem_nil hasked
  · have hquiet := onlookers_leave_no_trace h₀ (fun l hl ↦ ?_) (List.prefix_refl (solids
      (some ((Listener.silent ()).auditedAt () [])) ++ [.step 1]))
    · rw [hrun] at hquiet
      exact hquiet
    · simp only [solids, List.cons_append, List.nil_append, List.mem_cons, reduceCtorEq, false_or,
        Action.setListener.injEq, Option.some.injEq, List.not_mem_nil, or_false] at hl
      rw [hl]
      exact Listener.Consents.auditedAt (fun _ _ _ _ ↦ rfl) _ _

end World

end PlanarDynamics
