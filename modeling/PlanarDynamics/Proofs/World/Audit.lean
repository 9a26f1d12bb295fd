import PlanarDynamics.Proofs.World.Commit

/-!
# What a listener decides and what it is told of solving

A listener that keeps account, `Listener.audited`, notes what it answers when it is asked whether to
have a contact solved, and what it is told to have been solved.  While contacts are brought up to
date it is asked about those that touch and have no sensor, and a contact stays enabled as it
answers (`World.hears_refreshed`).  When solutions are committed it is told of the contacts of the
solutions, one by one (`World.hears_foldl_commit`).
-/

namespace PlanarDynamics

/-- What a listener answers, or is told of solving. -/
inductive Report (α : Type) where
  | answered (h : Handle) (consent : Bool)
  | solved (h : Handle) (c : Contact α) (i : ContactImpulse α)

namespace Report

variable {α : Type}

/-- The contact that is told to have been solved. -/
def solved? : Report α → Option Handle
  | answered _ _ => none
  | solved h _ _ => some h

/-- The answer, and for which contact. -/
def answer? : Report α → Option (Handle × Bool)
  | answered h consent => some (h, consent)
  | solved _ _ _ => none

end Report

/-- The contacts that are told to have been solved, in order. -/
def solvedIn {α : Type} (reports : List (Report α)) : List Handle :=
  reports.filterMap Report.solved?

/-- The answers, in order. -/
def answersIn {α : Type} (reports : List (Report α)) : List (Handle × Bool) :=
  reports.filterMap Report.answer?

section

variable {α : Type}

@[simp] theorem solvedIn_append (reports new : List (Report α)) :
    solvedIn (reports ++ new) = solvedIn reports ++ solvedIn new :=
  List.filterMap_append

@[simp] theorem answersIn_append (reports new : List (Report α)) :
    answersIn (reports ++ new) = answersIn reports ++ answersIn new :=
  List.filterMap_append

end

/-! ## Keeping account -/

namespace Listener

variable {α σ : Type}

/-- The same listener, which also keeps account. -/
def audited (l : Listener α σ) : Listener α (σ × List (Report α)) where
  state := (l.state, [])
  onBegin h c s := (l.onBegin h c s.1, s.2)
  onEnd h c s := (l.onEnd h c s.1, s.2)
  onStay h c s := (l.onStay h c s.1, s.2)
  preSolve h c m s :=
    ((l.preSolve h c m s.1).1, (l.preSolve h c m s.1).2,
      s.2 ++ [.answered h (l.preSolve h c m s.1).1])
  postSolve h c i s := (l.postSolve h c i s.1, s.2 ++ [.solved h c i])

/-- The listener in a later state, with its account so far. -/
def auditedAt (l : Listener α σ) (x : σ) (reports : List (Report α)) :
    Listener α (σ × List (Report α)) :=
  { l.audited with state := (x, reports) }

/-- What the listener may answer about a contact. -/
def Answers (l : Listener α σ) (a : Handle × Bool) : Prop :=
  ∃ c m x, (l.preSolve a.1 c m x).1 = a.2

theorem answers_silent {x : σ} {a : Handle × Bool} (h : (silent (α := α) x).Answers a) :
    a.2 = true := by
  obtain ⟨_, _, _, h⟩ := h
  exact h.symm

variable (l : Listener α σ) (x : σ) (reports : List (Report α)) (h : Handle)

theorem hearTransition_auditedAt (c : Contact α) (t : Transition) :
    ∃ x', (l.auditedAt x reports).hearTransition h c t = l.auditedAt x' reports := by
  cases t with
  | began => exact ⟨l.onBegin h c x, rfl⟩
  | ended => exact ⟨l.onEnd h c x, rfl⟩
  | persisted => exact ⟨x, rfl⟩
  | idle => exact ⟨x, rfl⟩

theorem hearDestroyed_auditedAt (c : Contact α) :
    ∃ x', (l.auditedAt x reports).hearDestroyed h c = l.auditedAt x' reports := by
  rw [hearDestroyed]
  split
  · exact ⟨l.onEnd h c x, rfl⟩
  · exact ⟨x, rfl⟩

/-- The listener is asked about a contact without sensor, and the contact comes out as answered. -/
theorem hearTouching_auditedAt {c : Contact α} (hc : c.enabled = true) (m : Manifold α) :
    ∃ x' new, ((l.auditedAt x reports).hearTouching h c m).1 = l.auditedAt x' (reports ++ new) ∧
      solvedIn new = [] ∧ (answersIn new = if c.sensor then [] else
        [(h, ((l.auditedAt x reports).hearTouching h c m).2.enabled)]) ∧
      ∀ a ∈ answersIn new, l.Answers a := by
  simp only [hearTouching]
  cases hs : c.sensor with
  | true =>
    refine ⟨l.onStay h c x, [], ?_, rfl, rfl, fun a ha ↦ absurd ha List.not_mem_nil⟩
    rw [List.append_nil]
    rfl
  | false =>
    refine ⟨_, [.answered h (l.preSolve h c m (l.onStay h c x)).1], rfl, rfl, ?_, fun a ha ↦ ?_⟩
    · change [(h, (l.preSolve h c m (l.onStay h c x)).1)] = [(h, (if
        (l.preSolve h c m (l.onStay h c x)).1 = true then c else c.setEnabled false).enabled)]
      cases (l.preSolve h c m (l.onStay h c x)).1 with
      | true => rw [if_pos rfl, hc]
      | false => rfl
    · cases List.mem_singleton.1 ha
      exact ⟨c, m, l.onStay h c x, rfl⟩

/-- After an update the listener is asked about a contact that touches and has no sensor. -/
theorem hearUpdate_auditedAt (before : Manifold α) {updated : Contact α × Transition}
    (he : updated.1.enabled = true) :
    ∃ x' new, ((l.auditedAt x reports).hearUpdate h before updated).1 =
        l.auditedAt x' (reports ++ new) ∧
      solvedIn new = [] ∧ (answersIn new = if updated.1.touching && !updated.1.sensor then
        [(h, ((l.auditedAt x reports).hearUpdate h before updated).2.enabled)] else []) ∧
      ∀ a ∈ answersIn new, l.Answers a := by
  obtain ⟨x₁, h₁⟩ := hearTransition_auditedAt l x reports h updated.1 updated.2
  simp only [hearUpdate, h₁]
  cases updated.1.touching with
  | true =>
    obtain ⟨x₂, new, h₂, hs, ha, hl⟩ := hearTouching_auditedAt l x₁ reports h he before
    refine ⟨x₂, new, h₂, hs, ?_, hl⟩
    rw [ha]
    cases updated.1.sensor <;> rfl
  | false =>
    refine ⟨x₁, [], ?_, rfl, rfl, fun a ha ↦ absurd ha List.not_mem_nil⟩
    rw [List.append_nil]
    rfl

end Listener

namespace World

variable {α σ : Type} [Scalar α] {l : Listener α σ}
  {w w' w'' : World α (σ × List (Report α))} {P Q R : List (Report α) → Prop}

/-! ## Accounts of changes -/

/-- Of what happens between two worlds, the listener has an account as described. -/
def Hears (l : Listener α σ) (w w' : World α (σ × List (Report α)))
    (P : List (Report α) → Prop) : Prop :=
  ∀ x reports, w.listener = some (l.auditedAt x reports) → ∃ x' new,
    w'.listener = some (l.auditedAt x' (reports ++ new)) ∧ P new

namespace Hears

section

omit [Scalar α]

theorem of_listener_eq (h : w'.listener = w.listener) : Hears l w w' (· = []) := by
  intro x reports hl
  exact ⟨x, [], by rw [List.append_nil, h, hl], rfl⟩

theorem trans (h : Hears l w w' P) (h' : Hears l w' w'' Q)
    (hR : ∀ new new', P new → Q new' → R (new ++ new')) : Hears l w w'' R := by
  intro x reports hl
  obtain ⟨x₁, new₁, hl₁, hp⟩ := h x reports hl
  obtain ⟨x₂, new₂, hl₂, hq⟩ := h' x₁ (reports ++ new₁) hl₁
  exact ⟨x₂, new₁ ++ new₂, by rw [← List.append_assoc]; exact hl₂, hR _ _ hp hq⟩

theorem imp (h : Hears l w w' P) (hPQ : ∀ new, P new → Q new) : Hears l w w' Q := by
  intro x reports hl
  obtain ⟨x', new, hl', hp⟩ := h x reports hl
  exact ⟨x', new, hl', hPQ new hp⟩

/-- A change of which nothing is noted may be left out of account. -/
theorem after_silence (h : Hears l w w' (· = [])) (h' : Hears l w' w'' P) : Hears l w w'' P :=
  h.trans h' fun _ _ hnil hp ↦ by rw [hnil]; exact hp

theorem before_silence (h : Hears l w w' P) (h' : Hears l w' w'' (· = [])) : Hears l w w'' P :=
  h.trans h' fun _ _ hp hnil ↦ by rw [hnil, List.append_nil]; exact hp

theorem foldl_silence {β : Type}
    {f : World α (σ × List (Report α)) → β → World α (σ × List (Report α))}
    (hf : ∀ w b, Hears l w (f w b) (· = [])) (w : World α (σ × List (Report α))) (bs : List β) :
    Hears l w (bs.foldl f w) (· = []) := by
  induction bs generalizing w with
  | nil => exact .of_listener_eq rfl
  | cons b bs ih => exact (hf w b).after_silence (ih (f w b))

end

end Hears

/-! ## Pairs -/

section

omit [Scalar α]

theorem hears_destroyContact (w : World α (σ × List (Report α))) (h : Handle) :
    Hears l w (w.destroyContact h) (· = []) := by
  rw [destroyContact]
  split
  next c contacts _ =>
    intro x reports hl
    obtain ⟨x', hx'⟩ := Listener.hearDestroyed_auditedAt l x reports h c
    exact ⟨x', [], by rw [List.append_nil, hl, Option.map_some, hx'], rfl⟩
  · exact .of_listener_eq rfl

end

theorem listener_createContact (w : World α σ) (p : Pair) :
    (w.createContact p).listener = w.listener := by
  simp only [createContact]
  split
  · split
    · split <;> rfl
    · rfl
  · rfl

theorem hears_handleEvent (w : World α (σ × List (Report α))) (e : PairEvent) :
    Hears l w (w.handleEvent e) (· = []) := by
  cases e with
  | ends p =>
    rw [handleEvent]
    split
    · exact hears_destroyContact w _
    · exact .of_listener_eq rfl
  | begins p => exact .of_listener_eq (listener_createContact w p)

theorem hears_updatePairs (w : World α (σ × List (Report α))) :
    Hears l w w.updatePairs (· = []) := by
  rw [updatePairs_eq, ← List.foldl_append]
  exact (Hears.of_listener_eq sameButGrid_regrid.listener).after_silence
    (Hears.foldl_silence hears_handleEvent _ _)

/-! ## Contacts -/

/-- Whether the listener is asked about a contact when it is brought up to date. -/
def asks {τ : Type} (w : World α τ) (h : Handle) : Bool :=
  (w.contacts.get? h).any fun c ↦
    !w.refuses c && ((w.renewed c).touching && !(w.renewed c).sensor)

/-- The listener was asked about the given contacts, and they are enabled as it answered. -/
structure Consulted {τ : Type} (l : Listener α σ) (w : World α τ) (asked : List Handle)
    (new : List (Report α)) : Prop where
  solved : solvedIn new = []
  asked : (answersIn new).map (·.1) = asked
  answers : ∀ a ∈ answersIn new, l.Answers a
  enabled : ∀ a ∈ answersIn new, ∃ c, w.contacts.get? a.1 = some c ∧ c.enabled = a.2

namespace Consulted

variable {τ : Type} {u u' : World α τ} {hs hs' : List Handle} {new new' : List (Report α)}

omit [Scalar α] in
theorem nil (u : World α τ) : Consulted l u [] [] :=
  ⟨rfl, rfl, fun _ ha ↦ absurd ha List.not_mem_nil, fun _ ha ↦ absurd ha List.not_mem_nil⟩

omit [Scalar α] in
/-- The answers stand while the contacts that were asked about are left alone. -/
theorem congr (h : Consulted l u hs new)
    (hget : ∀ i ∈ hs, u'.contacts.get? i = u.contacts.get? i) : Consulted l u' hs new := by
  refine ⟨h.solved, h.asked, h.answers, fun a ha ↦ ?_⟩
  rw [hget a.1 (h.asked ▸ List.mem_map_of_mem ha)]
  exact h.enabled a ha

omit [Scalar α] in
theorem append (h : Consulted l u hs new) (h' : Consulted l u hs' new') :
    Consulted l u (hs ++ hs') (new ++ new') := by
  refine ⟨?_, ?_, fun a ha ↦ ?_, fun a ha ↦ ?_⟩
  · rw [solvedIn_append, h.solved, h'.solved, List.nil_append]
  · rw [answersIn_append, List.map_append, h.asked, h'.asked]
  · rw [answersIn_append, List.mem_append] at ha
    exact ha.elim (h.answers a) (h'.answers a)
  · rw [answersIn_append, List.mem_append] at ha
    exact ha.elim (h.enabled a) (h'.enabled a)

end Consulted

theorem hears_renew {h : Handle} {c : Contact α} (hc : w.contacts.get? h = some c) :
    Hears l w (w.renew h c) (Consulted l (w.renew h c)
      (if (w.renewed c).touching && !(w.renewed c).sensor then [h] else [])) := by
  intro x reports hl
  have he : (w.renewed c).enabled = true := by
    rw [← setEnabled_renewed]
    rfl
  obtain ⟨x', new, hx', hs, ha, hans⟩ := Listener.hearUpdate_auditedAt l x reports h c.manifold he
  have hself : (w.renew h c).contacts.get? h =
      some ((l.auditedAt x reports).hearUpdate h c.manifold (w.updated c)).2 := by
    simp only [renew, hl]
    rw [Registry.get?_setContact hc, if_pos rfl]
  change answersIn new = if (w.renewed c).touching && !(w.renewed c).sensor then _ else _ at ha
  refine ⟨x', new, by simp only [renew, hl, hx'], hs, ?_, hans, fun a hmem ↦ ?_⟩
  · rw [ha]
    split <;> rfl
  · rw [ha] at hmem
    split at hmem
    · cases List.mem_singleton.1 hmem
      exact ⟨_, hself, rfl⟩
    · cases hmem

section

variable {τ : Type} {u : World α τ} {h i : Handle} {hs refused : List Handle}

/-- A contact is settled by leaving everything as it is or by renewing the contact. -/
theorem settle_cases (u : World α τ) (refused : List Handle) (h : Handle) :
    (settle (u, refused) h).1 = u ∧ u.asks h = false ∨ ∃ c, u.contacts.get? h = some c ∧
      (settle (u, refused) h).1 = u.renew h c ∧
      u.asks h = ((u.renewed c).touching && !(u.renewed c).sensor) := by
  cases hc : u.contacts.get? h with
  | none => exact .inl ⟨by simp [settle, hc], by simp [asks, hc]⟩
  | some c =>
    cases hr : u.refuses c with
    | true => exact .inl ⟨by simp [settle, hc, hr], by simp [asks, hc, hr]⟩
    | false => exact .inr ⟨c, rfl, by simp [settle, hc, hr], by simp [asks, hc, hr]⟩

theorem get?_settle_of_ne (hne : i ≠ h) :
    (settle (u, refused) h).1.contacts.get? i = u.contacts.get? i := by
  obtain ⟨he, -⟩ | ⟨c, hc, he, -⟩ := settle_cases u refused h
  · rw [he]
  · obtain ⟨c', hcon, -⟩ := renew_contacts (w := u) h c
    rw [he, hcon, Registry.get?_setContact hc, if_neg hne]

theorem asks_settle_of_ne (hne : i ≠ h) : (settle (u, refused) h).1.asks i = u.asks i := by
  have hscene : SameScene u (settle (u, refused) h).1 := by
    obtain ⟨he, -⟩ | ⟨c, -, he, -⟩ := settle_cases u refused h
    · rw [he]
      exact .refl u
    · rw [he]
      exact sameScene_renew h c
  rw [asks, asks, get?_settle_of_ne hne]
  simp only [hscene.refuses, hscene.renewed]

theorem get?_foldl_settle (hi : i ∉ hs) (st : World α τ × List Handle) :
    (hs.foldl settle st).1.contacts.get? i = st.1.contacts.get? i := by
  induction hs generalizing st with
  | nil => rfl
  | cons h hs ih =>
    rw [List.mem_cons, not_or] at hi
    exact (ih hi.2 _).trans (get?_settle_of_ne hi.1)

end

theorem hears_settle (refused : List Handle) (h : Handle) :
    Hears l w (settle (w, refused) h).1
      (Consulted l (settle (w, refused) h).1 ([h].filter w.asks)) := by
  obtain ⟨he, ha⟩ | ⟨c, hc, he, ha⟩ := settle_cases w refused h
  · rw [he, List.filter_cons_of_neg (by simp [ha])]
    intro x reports hl
    exact ⟨x, [], by rw [List.append_nil, hl], .nil w⟩
  · rw [he, List.filter_cons, ha]
    exact hears_renew hc

theorem hears_foldl_settle (refused : List Handle) {hs : List Handle} (hn : hs.Nodup) :
    Hears l w (hs.foldl settle (w, refused)).1
      (Consulted l (hs.foldl settle (w, refused)).1 (hs.filter w.asks)) := by
  induction hs generalizing w refused with
  | nil =>
    intro x reports hl
    exact ⟨x, [], by rw [List.append_nil]; exact hl, .nil w⟩
  | cons h hs ih =>
    obtain ⟨hh, hn⟩ := List.nodup_cons.1 hn
    have hrest : hs.filter (settle (w, refused) h).1.asks = hs.filter w.asks :=
      List.filter_congr fun i hi ↦ asks_settle_of_ne fun he ↦ hh (he ▸ hi)
    have hfirst : (h :: hs).filter w.asks = [h].filter w.asks ++ hs.filter w.asks := by
      rw [← List.filter_append, List.singleton_append]
    rw [hfirst, ← hrest]
    refine (hears_settle (l := l) (w := w) refused h).trans (ih _ hn) fun new new' hnew hnew' ↦ ?_
    refine (hnew.congr fun i hi ↦ ?_).append hnew'
    -- The contact that was settled first is left alone from then on.
    have hihs : i ∉ hs := List.mem_singleton.1 (List.mem_filter.1 hi).1 ▸ hh
    exact get?_foldl_settle hihs (settle (w, refused) h)

/-- While contacts are brought up to date the listener is asked about those that then touch and have
no sensor, once each, and they stay enabled as it answers. -/
theorem hears_refreshed (hw : w.Wf) :
    Hears l w w.refreshed
      (Consulted l w.refreshed ((w.contacts.entries.map (·.1)).filter w.asks)) := by
  have hsettled := hears_foldl_settle (l := l) (w := w) []
    (Registry.nodup_handles (r := w.contacts))
  refine (hsettled.before_silence (Hears.foldl_silence hears_destroyContact _ _)).imp ?_
  refine fun new hnew ↦ hnew.congr fun i hi ↦ ?_
  -- A contact that is put aside is not asked about.
  have hasks := (List.mem_filter.1 hi).2
  rw [refreshed, get?_foldl_destroyContact, (settled_entries hw).refused, List.nil_append, if_neg]
  intro hrefused
  have hr := (List.mem_filter.1 hrefused).2
  rw [asks] at hasks
  cases hc : w.contacts.get? i with
  | none => simp [hc] at hr
  | some c =>
    rw [hc, Option.any_some] at hr hasks
    simp [hr] at hasks

/-! ## Solutions -/

/-- The listener was told of the given contacts, and asked nothing. -/
def Tells (solved : List Handle) (new : List (Report α)) : Prop :=
  solvedIn new = solved ∧ answersIn new = []

omit [Scalar α] in
theorem hears_commitImpulse (e : Handle × ContactImpulse α)
    (hlive : (w.contacts.get? e.1).isSome = true) :
    Hears l w (w.commitImpulse e) (Tells [e.1]) := by
  obtain ⟨c, hc⟩ := Option.isSome_iff_exists.1 hlive
  intro x reports hl
  refine ⟨l.postSolve e.1 { c with manifold := c.manifold.writeImpulses e.2 } e.2 x,
    [.solved e.1 { c with manifold := c.manifold.writeImpulses e.2 } e.2], ?_, rfl, rfl⟩
  simp only [commitImpulse, hc, hl, Option.map_some]
  rfl

/-- What tells of live contacts and keeps them alive tells of all of them in the end. -/
theorem hears_foldl {β : Type}
    {f : World α (σ × List (Report α)) → β → World α (σ × List (Report α))} (told : β → List Handle)
    (hmoved : ∀ w b, Moved w (f w b))
    (hf : ∀ w b, (∀ h ∈ told b, (w.contacts.get? h).isSome = true) →
      Hears l w (f w b) (Tells (told b)))
    (bs : List β) (hbs : ∀ b ∈ bs, ∀ h ∈ told b, (w.contacts.get? h).isSome = true) :
    Hears l w (bs.foldl f w) (Tells (bs.flatMap told)) := by
  induction bs generalizing w with
  | nil => exact (Hears.of_listener_eq rfl).imp fun new hnew ↦ by rw [hnew]; exact ⟨rfl, rfl⟩
  | cons b bs ih =>
    obtain ⟨hb, hbs⟩ := List.forall_mem_cons.1 hbs
    have hlive : ∀ h, ((f w b).contacts.get? h).isSome = (w.contacts.get? h).isSome := by
      intro h
      have hs := congrArg Option.isSome ((hmoved w b).contacts.status h)
      rwa [Option.isSome_map, Option.isSome_map] at hs
    refine (hf w b hb).trans (ih fun b' hb' h hh ↦ ?_) fun new new' hnew hnew' ↦ ⟨?_, ?_⟩
    · rw [hlive]
      exact hbs b' hb' h hh
    · rw [solvedIn_append, hnew.1, hnew'.1, List.flatMap_cons]
    · rw [answersIn_append, hnew.2, hnew'.2, List.append_nil]

/-- When solutions are committed the listener is told of their contacts, in order. -/
theorem hears_foldl_commit {solutions : List (Solution α)}
    (hlive : ∀ s ∈ solutions, ∀ h ∈ s.impulses.map (·.1), (w.contacts.get? h).isSome = true) :
    Hears l w (solutions.foldl commit w)
      (Tells (solutions.flatMap fun s ↦ s.impulses.map (·.1))) := by
  refine hears_foldl _ (fun w s ↦ moved_commit s) (fun w s hs ↦ ?_) solutions hlive
  have hbodies : Hears l w { w with bodies := s.moveBodies w.bodies } (· = []) :=
    .of_listener_eq rfl
  have himpulses := hears_foldl (l := l) (w := { w with bodies := s.moveBodies w.bodies })
    (f := commitImpulse) (fun e ↦ [e.1]) (fun w e ↦ moved_commitImpulse e)
    (fun w e he ↦ hears_commitImpulse e (he e.1 (List.mem_singleton.2 rfl)))
    s.impulses (fun e he h hh ↦ hs h (List.mem_singleton.1 hh ▸ List.mem_map_of_mem he))
  rw [← List.map_eq_flatMap] at himpulses
  exact hbodies.after_silence himpulses

end World

end PlanarDynamics
