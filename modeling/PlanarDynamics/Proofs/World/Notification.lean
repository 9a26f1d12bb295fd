import PlanarDynamics.Proofs.World.Transparency

/-!
# What a listener hears

A listener that writes down its calls, `Listener.recorded`, makes the calls of a run visible.  For
each pair the calls that its colliders begin and end to touch come in turns, beginning first, and
the last of them tells whether they touch now.  They may end to touch in three ways: their contact
is renewed and comes out empty, the grid reports that the pair came apart, or the colliders may no
longer touch; and the pair may get a contact again under another handle.  So the proof follows the
pair through the changes that are made to single contacts, `World.Tally`, and leaves the order of
these changes open.
-/

namespace PlanarDynamics

/-! ## Calls -/

/-- A call of a listener. -/
inductive Call (α : Type) where
  | began (h : Handle) (c : Contact α)
  | ended (h : Handle) (c : Contact α)
  | stayed (h : Handle) (c : Contact α)
  | asked (h : Handle) (c : Contact α) (before : Manifold α)
  | solved (h : Handle) (c : Contact α) (i : ContactImpulse α)

namespace Call

variable {α : Type}

/-- The calls that tell of the pair: whether its colliders begin or end to touch. -/
def crossing? (p : Pair) : Call α → Option Bool
  | began _ c => if c.pair = p then some true else none
  | ended _ c => if c.pair = p then some false else none
  | _ => none

/-- The calls that tell that colliders touch, by the handle of their contact. -/
def staying? : Call α → Option Handle
  | stayed h _ => some h
  | _ => none

end Call

/-- The beginnings and ends of touching that the calls tell of a pair, in order. -/
def crossings {α : Type} (p : Pair) (calls : List (Call α)) : List Bool :=
  calls.filterMap (Call.crossing? p)

/-- The contacts that the calls tell to touch, in order. -/
def stays {α : Type} (calls : List (Call α)) : List Handle :=
  calls.filterMap Call.staying?

section Calls

variable {α : Type}

@[simp] theorem crossings_append (p : Pair) (calls new : List (Call α)) :
    crossings p (calls ++ new) = crossings p calls ++ crossings p new :=
  List.filterMap_append

@[simp] theorem stays_append (calls new : List (Call α)) :
    stays (calls ++ new) = stays calls ++ stays new :=
  List.filterMap_append

/-- What has to be told of a pair whose colliders did or did not touch, and now do or do not. -/
def turn : Bool → Bool → List Bool
  | false, true => [true]
  | true, false => [false]
  | _, _ => []

end Calls

namespace Listener

variable {α σ : Type}

/-- The same listener, which also writes down its calls. -/
def recorded (l : Listener α σ) : Listener α (σ × List (Call α)) where
  state := (l.state, [])
  onBegin h c s := (l.onBegin h c s.1, s.2 ++ [.began h c])
  onEnd h c s := (l.onEnd h c s.1, s.2 ++ [.ended h c])
  onStay h c s := (l.onStay h c s.1, s.2 ++ [.stayed h c])
  preSolve h c m s :=
    ((l.preSolve h c m s.1).1, (l.preSolve h c m s.1).2, s.2 ++ [.asked h c m])
  postSolve h c i s := (l.postSolve h c i s.1, s.2 ++ [.solved h c i])

/-- The recorded listener in a later state. -/
def resumed (l : Listener α σ) (x : σ) (calls : List (Call α)) :
    Listener α (σ × List (Call α)) :=
  { l.recorded with state := (x, calls) }

theorem hearTransition_resumed (l : Listener α σ) (x : σ) (calls : List (Call α)) (h : Handle)
    (c : Contact α) (b b' : Bool) : ∃ x' new,
      (l.resumed x calls).hearTransition h c (.of b b') = l.resumed x' (calls ++ new) ∧
      (∀ p, crossings p new = if c.pair = p then turn b b' else []) ∧ stays new = [] := by
  cases b <;> cases b'
  · refine ⟨x, [], ?_, fun p ↦ ?_, rfl⟩
    · simp [hearTransition, Transition.of]
    · simp [crossings, turn]
  · refine ⟨l.onBegin h c x, [.began h c], rfl, fun p ↦ ?_, rfl⟩
    by_cases hp : c.pair = p <;> simp [crossings, turn, Call.crossing?, hp]
  · refine ⟨l.onEnd h c x, [.ended h c], rfl, fun p ↦ ?_, rfl⟩
    by_cases hp : c.pair = p <;> simp [crossings, turn, Call.crossing?, hp]
  · refine ⟨x, [], ?_, fun p ↦ ?_, rfl⟩
    · simp [hearTransition, Transition.of]
    · simp [crossings, turn]

theorem hearTouching_resumed (l : Listener α σ) (x : σ) (calls : List (Call α)) (h : Handle)
    (c : Contact α) (m : Manifold α) : ∃ x' new,
      ((l.resumed x calls).hearTouching h c m).1 = l.resumed x' (calls ++ new) ∧
      (∀ p, crossings p new = []) ∧ stays new = [h] := by
  cases hs : c.sensor
  · refine ⟨(l.preSolve h c m (l.onStay h c x)).2, [.stayed h c, .asked h c m], ?_, fun p ↦ rfl,
      rfl⟩
    simp [hearTouching, hs, resumed, recorded]
  · refine ⟨l.onStay h c x, [.stayed h c], ?_, fun p ↦ rfl, rfl⟩
    simp [hearTouching, hs, resumed, recorded]

/-- An update is told by a call for the turn that it takes, and by one more if the colliders touch
after it. -/
theorem hearUpdate_resumed (l : Listener α σ) (x : σ) (calls : List (Call α)) (h : Handle)
    (before : Manifold α) (touched : Bool) (after : Contact α) : ∃ x' new,
      ((l.resumed x calls).hearUpdate h before (after, .of touched after.touching)).1 =
        l.resumed x' (calls ++ new) ∧
      (∀ p, crossings p new = if after.pair = p then turn touched after.touching else []) ∧
      stays new = if after.touching then [h] else [] := by
  obtain ⟨x₁, new₁, hl₁, hp₁, hs₁⟩ :=
    l.hearTransition_resumed x calls h after touched after.touching
  simp only [hearUpdate, hl₁]
  split
  · obtain ⟨x₂, new₂, hl₂, hp₂, hs₂⟩ :=
      l.hearTouching_resumed x₁ (calls ++ new₁) h after before
    refine ⟨x₂, new₁ ++ new₂, ?_, fun p ↦ ?_, ?_⟩
    · rw [hl₂, List.append_assoc]
    · rw [crossings_append, hp₁, hp₂, List.append_nil]
    · rw [stays_append, hs₁, hs₂, List.nil_append]
  · exact ⟨x₁, new₁, rfl, hp₁, hs₁⟩

theorem hearDestroyed_resumed (l : Listener α σ) (x : σ) (calls : List (Call α)) (h : Handle)
    (c : Contact α) : ∃ x' new,
      (l.resumed x calls).hearDestroyed h c = l.resumed x' (calls ++ new) ∧
      (∀ p, crossings p new = if c.pair = p then turn c.touching false else []) ∧
      stays new = [] := by
  have ht : (l.resumed x calls).hearDestroyed h c =
      (l.resumed x calls).hearTransition h c (.of c.touching false) := by
    simp only [hearDestroyed]
    cases c.touching <;> rfl
  rw [ht]
  exact l.hearTransition_resumed x calls h c c.touching false

end Listener

namespace World

variable {α σ : Type} [Scalar α] {l : Listener α σ} {w w' w'' : World α (σ × List (Call α))}
  {p : Pair}

/-! ## Calls and touching -/

/-- The calls that the listener of a world has written down. -/
def calls (w : World α (σ × List (Call α))) : List (Call α) :=
  (w.listener.map (·.state.2)).getD []

/-- For a pair, beginnings and ends come in turns, a beginning first, and there is one beginning
more than there are ends exactly if its colliders touch. -/
structure Tally (p : Pair) (w : World α σ) (calls : List (Call α)) : Prop where
  alternates : ∀ k b, (crossings p calls)[k]? = some b → (b = true ↔ k % 2 = 0)
  odd_iff : (crossings p calls).length % 2 = 1 ↔ w.Touches p

omit [Scalar α] in
theorem Tally.append {τ : Type} {w w' : World α τ} {calls new : List (Call α)} {b b' : Bool}
    (h : Tally p w calls) (hb : w.Touches p ↔ b = true) (hb' : w'.Touches p ↔ b' = true)
    (hnew : crossings p new = turn b b') : Tally p w' (calls ++ new) := by
  obtain ⟨hpaced, hodd⟩ := h
  rw [hb] at hodd
  constructor
  · intro k c hk
    rw [crossings_append, hnew] at hk
    by_cases hlt : k < (crossings p calls).length
    · rw [List.getElem?_append_left hlt] at hk
      exact hpaced k c hk
    · rw [List.getElem?_append_right (Nat.le_of_not_lt hlt)] at hk
      -- The only new call is the one at the end, and it fits the parity of those before.
      have hlast : k = (crossings p calls).length := by
        have := (List.getElem?_eq_some_iff.1 hk).1
        cases b <;> cases b' <;> simp [turn] at this <;> omega
      rw [hlast, Nat.sub_self] at hk
      rw [hlast]
      cases b <;> cases b' <;> simp [turn] at hk hodd
      · simp [← hk, hodd]
      · simp [hk, hodd]
  · rw [hb', crossings_append, hnew, List.length_append]
    cases b <;> cases b' <;> simp [turn] at hodd ⊢ <;> omega

omit [Scalar α] in
/-- The last of the calls tells whether the colliders touch. -/
theorem Tally.getLast?_eq {calls : List (Call α)} (h : Tally p w calls) :
    (crossings p calls).getLast? = some true ↔ w.Touches p := by
  rw [← h.odd_iff, List.getLast?_eq_getElem?]
  constructor
  · intro hlast
    have heven := (h.alternates _ _ hlast).1 rfl
    have hlt := (List.getElem?_eq_some_iff.1 hlast).1
    omega
  · intro hodd
    have hlt : (crossings p calls).length - 1 < (crossings p calls).length := by omega
    rw [List.getElem?_eq_getElem hlt, Option.some.injEq]
    exact (h.alternates _ _ (List.getElem?_eq_getElem hlt)).2 (by omega)

theorem Wf.touches_pair_iff {τ : Type} {w : World α τ} (hw : w.Wf) {h : Handle} {c : Contact α}
    (hc : w.contacts.get? h = some c) : w.Touches c.pair ↔ c.touching = true := by
  constructor
  · rintro ⟨h', c', hc', hp, ht⟩
    cases hw.handle_eq hc hc' hp
    cases hc.symm.trans hc'
    exact ht
  · exact fun ht ↦ ⟨h, c, hc, rfl, ht⟩

omit [Scalar α] in
/-- A change to one contact does not matter to other pairs. -/
theorem touches_iff_of_ne {τ : Type} {w w' : World α τ} {h : Handle}
    (hother : ∀ i ≠ h, w'.contacts.get? i = w.contacts.get? i)
    (hp : ∀ c, w.contacts.get? h = some c → c.pair ≠ p)
    (hp' : ∀ c, w'.contacts.get? h = some c → c.pair ≠ p) : w'.Touches p ↔ w.Touches p := by
  constructor
  · rintro ⟨i, c, hc, hcp, ht⟩
    have hi : i ≠ h := fun hi ↦ hp' c (hi ▸ hc) hcp
    exact ⟨i, c, (hother i hi).symm.trans hc, hcp, ht⟩
  · rintro ⟨i, c, hc, hcp, ht⟩
    have hi : i ≠ h := fun hi ↦ hp c (hi ▸ hc) hcp
    exact ⟨i, c, (hother i hi).trans hc, hcp, ht⟩

/-- What happens between two worlds is told by calls that keep the tally of every pair, and that
tell contacts to touch as given. -/
def Reports (l : Listener α σ) (w w' : World α (σ × List (Call α))) (touching : List Handle) :
    Prop :=
  ∀ x calls, w.listener = some (l.resumed x calls) → ∃ x' new,
    w'.listener = some (l.resumed x' (calls ++ new)) ∧
    (∀ p calls, Tally p w calls → Tally p w' (calls ++ new)) ∧ stays new = touching

namespace Reports

variable {hs hs' : List Handle}

omit [Scalar α] in
/-- Where nothing is told, nothing that matters has changed. -/
theorem of_listener_eq (hl : w'.listener = w.listener) (ht : ∀ p, w'.Touches p ↔ w.Touches p) :
    Reports l w w' [] := by
  intro x calls h
  refine ⟨x, [], ?_, fun p calls hp ↦ ?_, rfl⟩
  · rw [List.append_nil, hl, h]
  · rw [List.append_nil]
    exact ⟨hp.alternates, hp.odd_iff.trans (ht p).symm⟩

omit [Scalar α] in
theorem refl (w : World α (σ × List (Call α))) : Reports l w w [] :=
  of_listener_eq rfl fun _ ↦ Iff.rfl

omit [Scalar α] in
theorem trans (h : Reports l w w' hs) (h' : Reports l w' w'' hs') :
    Reports l w w'' (hs ++ hs') := by
  intro x calls hl
  obtain ⟨x₁, new₁, hl₁, hp₁, hs₁⟩ := h x calls hl
  obtain ⟨x₂, new₂, hl₂, hp₂, hs₂⟩ := h' x₁ (calls ++ new₁) hl₁
  refine ⟨x₂, new₁ ++ new₂, ?_, fun p calls hp ↦ ?_, ?_⟩
  · rw [← List.append_assoc]
    exact hl₂
  · rw [← List.append_assoc]
    exact hp₂ p _ (hp₁ p calls hp)
  · rw [stays_append, hs₁, hs₂]

/-- A change to one contact is reported if its pair's turn is told. -/
theorem of_turn {h : Handle} {c : Contact α} {b : Bool} (hw : w.Wf)
    (hc : w.contacts.get? h = some c)
    (hother : ∀ i ≠ h, w'.contacts.get? i = w.contacts.get? i)
    (hself : ∀ c', w'.contacts.get? h = some c' → c'.pair = c.pair)
    (hb : w'.Touches c.pair ↔ b = true)
    (hl : ∀ x calls, w.listener = some (l.resumed x calls) → ∃ x' new,
      w'.listener = some (l.resumed x' (calls ++ new)) ∧
      (∀ p, crossings p new = if c.pair = p then turn c.touching b else []) ∧ stays new = hs) :
    Reports l w w' hs := by
  intro x calls hx
  obtain ⟨x', new, hl', hnew, hs⟩ := hl x calls hx
  refine ⟨x', new, hl', fun p calls hp ↦ ?_, hs⟩
  by_cases hcp : c.pair = p
  · subst hcp
    have hturn := hnew c.pair
    rw [if_pos rfl] at hturn
    exact hp.append (hw.touches_pair_iff hc) hb hturn
  · have ht := touches_iff_of_ne hother (fun d hd ↦ by cases hc.symm.trans hd; exact hcp)
      (fun d hd ↦ by rw [hself d hd]; exact hcp)
    have hnone := hnew p
    rw [if_neg hcp] at hnone
    constructor
    · rw [crossings_append, hnone, List.append_nil]
      exact hp.alternates
    · rw [crossings_append, hnone, List.append_nil, hp.odd_iff, ht]

end Reports

/-! ## Changes to single contacts -/

theorem reports_destroyContact (hw : w.Wf) (h : Handle) : Reports l w (w.destroyContact h) [] := by
  cases hc : w.contacts.get? h with
  | none =>
    have hd : w.destroyContact h = w := by simp [destroyContact, Registry.destroy, hc]
    rw [hd]
    exact .refl w
  | some c =>
    have hgone : ¬ (w.destroyContact h).Touches c.pair := by
      rintro ⟨h', c', hc', hp, -⟩
      rw [get?_destroyContact] at hc'
      split at hc'
      · cases hc'
      next hne => exact hne (hw.handle_eq hc hc' hp)
    refine .of_turn (b := false) hw hc ?_ ?_ ?_ ?_
    · intro i hi
      rw [get?_destroyContact, if_neg hi]
    · intro c' hc'
      rw [get?_destroyContact, if_pos rfl] at hc'
      cases hc'
    · simp [hgone]
    · intro x calls hl
      have hd : (w.destroyContact h).listener = w.listener.map (·.hearDestroyed h c) := by
        rw [destroyContact, Registry.destroy_eq_ok_iff.2 ⟨hc, rfl⟩]
      obtain ⟨x', new, hl', hnew, hs⟩ := l.hearDestroyed_resumed x calls h c
      exact ⟨x', new, by rw [hd, hl, Option.map_some, hl'], hnew, hs⟩

/-- A new contact does not touch yet, and nobody is told of it. -/
theorem reports_createContact (hw : w.Wf) (p : Pair) : Reports l w (w.createContact p) [] := by
  obtain ⟨he, -⟩ | ⟨-, c, hc, he⟩ := createContact_cases hw p
  · rw [he]
    exact .refl w
  · rw [he]
    refine .of_listener_eq rfl fun q ↦ ?_
    have hfresh := Registry.get?_allocate_handle hw.registry c
    simp only [Touches, Registry.get?_enroll hw.registry]
    constructor
    · rintro ⟨i, d, hd, hq, ht⟩
      split at hd
      · cases hd
        rw [hc.fresh.touching] at ht
        cases ht
      · exact ⟨i, d, hd, hq, ht⟩
    · rintro ⟨i, d, hd, hq, ht⟩
      refine ⟨i, d, ?_, hq, ht⟩
      rw [if_neg, hd]
      rintro rfl
      rw [hfresh] at hd
      cases hd

theorem reports_renew (hw : w.Wf) {h : Handle} {c : Contact α} (hc : w.contacts.get? h = some c) :
    Reports l w (w.renew h c) (if (w.renewed c).touching then [h] else []) := by
  have hw' := wf_renew hw hc
  obtain ⟨c', hcon, hc'⟩ := renew_contacts (w := w) h c
  have hget : ∀ i, (w.renew h c).contacts.get? i =
      if i = h then some c' else w.contacts.get? i := by
    intro i
    rw [hcon, Registry.get?_setContact hc]
  have hpair : c'.pair = c.pair := by
    refine Contact.pair_eq_of_base ?_
    rw [← base_renewed (w := w) c, ← hc', Contact.base_setEnabled]
  have htouch : c'.touching = (w.renewed c).touching := by
    rw [← hc']
    rfl
  refine .of_turn (b := (w.renewed c).touching) hw hc ?_ ?_ ?_ ?_
  · intro i hi
    rw [hget, if_neg hi]
  · intro d hd
    rw [hget, if_pos rfl] at hd
    cases hd
    exact hpair
  · rw [← hpair, hw'.touches_pair_iff (h := h) (by rw [hget, if_pos rfl]), htouch]
  · intro x calls hl
    obtain ⟨x', new, hl', hnew, hs⟩ :=
      l.hearUpdate_resumed x calls h c.manifold c.touching (w.renewed c)
    refine ⟨x', new, ?_, ?_, hs⟩
    · simp only [renew, hl, updated_eq, hl']
    · rw [Contact.pair_eq_of_base (base_renewed c)] at hnew
      exact hnew

theorem reports_commitImpulse (hw : w.Wf) (e : Handle × ContactImpulse α) :
    Reports l w (w.commitImpulse e) [] := by
  obtain ⟨h, i⟩ := e
  cases hc : w.contacts.get? h with
  | none =>
    have hw' : w.commitImpulse (h, i) = w := by simp [commitImpulse, hc]
    rw [hw']
    exact .refl w
  | some c =>
    have hget : ∀ j, (w.commitImpulse (h, i)).contacts.get? j = if j = h then
        some { c with manifold := c.manifold.writeImpulses i } else w.contacts.get? j := by
      intro j
      simp only [commitImpulse, hc]
      exact Registry.get?_setContact hc _ j
    refine .of_turn (b := c.touching) hw hc ?_ ?_ ?_ ?_
    · intro j hj
      rw [hget, if_neg hj]
    · intro d hd
      rw [hget, if_pos rfl] at hd
      cases hd
      rfl
    · have hself := hget h
      rw [if_pos rfl] at hself
      have ht := ((moved_commitImpulse (h, i)).wf hw).touches_pair_iff hself
      exact ht
    · intro x calls hl
      refine ⟨l.postSolve h { c with manifold := c.manifold.writeImpulses i } i x,
        [.solved h { c with manifold := c.manifold.writeImpulses i } i], ?_, fun p ↦ ?_, rfl⟩
      · simp only [commitImpulse, hc, hl, Option.map_some]
        rfl
      · cases c.touching <;> simp [crossings, Call.crossing?, turn]

/-! ## Steps -/

/-- Many changes of which each is reported are reported. -/
theorem reports_foldl {β : Type} {f : World α (σ × List (Call α)) → β →
      World α (σ × List (Call α))} (hwf : ∀ w b, w.Wf → (f w b).Wf)
    (hf : ∀ w b, w.Wf → Reports l w (f w b) []) (hw : w.Wf) (bs : List β) :
    Reports l w (bs.foldl f w) [] := by
  induction bs generalizing w with
  | nil => exact .refl w
  | cons b bs ih => exact (hf w b hw).trans (ih (hwf w b hw))

theorem wf_handleEvent {τ : Type} {w : World α τ} (hw : w.Wf) : ∀ e, (w.handleEvent e).Wf
  | .ends p => (paired_ends hw [p]).wf
  | .begins p => (paired_begins hw [p]).wf

theorem reports_handleEvent (hw : w.Wf) (e : PairEvent) : Reports l w (w.handleEvent e) [] := by
  cases e with
  | ends p =>
    simp only [handleEvent]
    split
    · exact reports_destroyContact hw _
    · exact .refl w
  | begins p => exact reports_createContact hw p

theorem reports_updatePairs (hw : w.Wf) : Reports l w w.updatePairs [] := by
  have hgrid := sameButGrid_regrid (w := w)
  have h₀ : Reports l w w.regrid [] := by
    refine .of_listener_eq hgrid.listener fun p ↦ ?_
    rw [Touches, Touches, hgrid.contacts]
  rw [updatePairs_eq, ← List.foldl_append]
  exact h₀.trans (reports_foldl (fun _ e hw ↦ wf_handleEvent hw e)
    (fun _ e hw ↦ reports_handleEvent hw e) (wf_regrid hw) _)

/-- The contacts that touch after their update. -/
def touchingAfter {τ : Type} (w : World α τ) (h : Handle) : Bool :=
  (w.contacts.get? h).any fun c ↦ !w.refuses c && (w.renewed c).touching

theorem reports_foldl_settle (hw : w.Wf) (refused : List Handle) {hs : List Handle}
    (hn : hs.Nodup) :
    Reports l w (hs.foldl settle (w, refused)).1 (hs.filter w.touchingAfter) := by
  induction hs generalizing w refused with
  | nil => exact .refl w
  | cons h hs ih =>
    obtain ⟨hh, hn⟩ := List.nodup_cons.1 hn
    rw [List.foldl_cons]
    cases hc : w.contacts.get? h with
    | none =>
      have hst : settle (w, refused) h = (w, refused) := by simp [settle, hc]
      rw [hst, List.filter_cons_of_neg (by simp [touchingAfter, hc])]
      exact ih hw refused hn
    | some c =>
      by_cases hr : w.refuses c = true
      · have hst : settle (w, refused) h = (w, refused ++ [h]) := by simp [settle, hc, hr]
        rw [hst, List.filter_cons_of_neg (by simp [touchingAfter, hc, hr])]
        exact ih hw _ hn
      · have hst : settle (w, refused) h = (w.renew h c, refused) := by simp [settle, hc, hr]
        rw [hst]
        have hscene := sameScene_renew (w := w) h c
        -- The contacts still to come are as they were.
        have hrest : hs.filter (w.renew h c).touchingAfter = hs.filter w.touchingAfter := by
          refine List.filter_congr fun i hi ↦ ?_
          obtain ⟨c', hcon, -⟩ := renew_contacts (w := w) h c
          have hne : i ≠ h := fun he ↦ hh (he ▸ hi)
          rw [touchingAfter, hcon, Registry.get?_setContact hc, if_neg hne]
          simp only [hscene.refuses, hscene.renewed]
          rfl
        have hfirst : (h :: hs).filter w.touchingAfter =
            (if (w.renewed c).touching then [h] else []) ++ hs.filter w.touchingAfter := by
          cases ht : (w.renewed c).touching <;> simp [touchingAfter, hc, hr, ht]
        rw [hfirst, ← hrest]
        exact (reports_renew hw hc).trans (ih (wf_renew hw hc) refused hn)

theorem reports_refreshed (hw : w.Wf) :
    Reports l w w.refreshed ((w.contacts.entries.map (·.1)).filter w.touchingAfter) := by
  rw [← List.append_nil (List.filter _ _)]
  exact (reports_foldl_settle hw [] Registry.nodup_handles).trans
    (reports_foldl (fun _ h hw ↦ wf_destroyContact hw h)
      (fun _ h hw ↦ reports_destroyContact hw h) (settled_entries hw).wf _)

theorem reports_commit (hw : w.Wf) (s : Solution α) : Reports l w (w.commit s) [] := by
  have hbodies := moved_commit (w := w) { s with impulses := [] }
  have h₀ : Reports l w (w.commit { s with impulses := [] }) [] :=
    .of_listener_eq rfl fun _ ↦ Iff.rfl
  exact h₀.trans (reports_foldl (fun _ e hw ↦ (moved_commitImpulse e).wf hw)
    (fun _ e hw ↦ reports_commitImpulse hw e) (hbodies.wf hw) s.impulses)

theorem reports_move (hw : w.Wf) {dt : α} (h : w.move dt = .ok w') : Reports l w w' [] := by
  simp only [move, bind, Except.bind] at h
  split at h
  · cases h
  next solutions _ =>
    cases h
    have hcommit := reports_foldl (l := l) (fun _ s hw ↦ (moved_commit s).wf hw)
      (fun _ s hw ↦ reports_commit hw s) hw solutions
    exact hcommit.trans (.of_listener_eq rfl fun _ ↦ Iff.rfl)

/-- A step is told by calls that keep the tally, and that tell each contact which touches after the
step to touch, once. -/
theorem reports_step (hw : w.Wf) {dt : α} (hdt : Valid dt) (h : w.step dt = .ok w') :
    ∃ hs : List Handle, Reports l w w' hs ∧ hs.Nodup ∧
      ∀ i, i ∈ hs ↔ ∃ c, w'.contacts.get? i = some c ∧ c.touching = true := by
  have hw₁ := wf_updatePairs hw
  refine ⟨(w.updatePairs.contacts.entries.map (·.1)).filter w.updatePairs.touchingAfter, ?_,
    Registry.nodup_handles.filter _, fun i ↦ ?_⟩
  · have hm := h
    rw [step_of_valid hdt, updateContacts_eq hw₁] at hm
    simp only [bind, Except.bind] at hm
    have hr := ((reports_updatePairs (l := l) hw).trans (reports_refreshed hw₁)).trans
      (reports_move (wf_refreshed hw₁) hm)
    rw [List.append_nil, List.nil_append] at hr
    exact hr
  · rw [List.mem_filter]
    constructor
    · rintro ⟨-, ht⟩
      obtain ⟨c, hc, ht⟩ := (Option.any_eq_true _ _).1 ht
      rw [Bool.and_eq_true, Bool.not_eq_true'] at ht
      obtain ⟨c', hc', hs⟩ := exists_get?_step hw hdt h hc ht.1
      exact ⟨c', hc', (Contact.touching_eq_of_status hs).trans ht.2⟩
    · rintro ⟨c', hc', ht⟩
      obtain ⟨c, hc, hr, hs⟩ := get?_step_eq_some hw hdt h hc'
      refine ⟨List.mem_map.2 ⟨(i, c), Registry.mem_entries.2 hc, rfl⟩, ?_⟩
      rw [Contact.touching_eq_of_status hs] at ht
      simp [touchingAfter, hc, hr, ht]

/-! ## Runs -/

/-- A world in which the recorded listener has been in place since before the first step. -/
structure Recorded (l : Listener α σ) (w : World α (σ × List (Call α))) : Prop where
  wf : w.Wf
  listener : ∃ x, w.listener = some (l.resumed x w.calls)
  tally : ∀ p, Tally p w w.calls

theorem Recorded.of_reports {hs : List Handle} (hw : Recorded l w) (hw' : w'.Wf)
    (h : Reports l w w' hs) :
    Recorded l w' ∧ ∃ new, w'.calls = w.calls ++ new ∧ stays new = hs := by
  obtain ⟨x, hx⟩ := hw.listener
  obtain ⟨x', new, hl, hp, hs⟩ := h x w.calls hx
  have hcalls : w'.calls = w.calls ++ new := by
    rw [calls, hl]
    rfl
  refine ⟨⟨hw', ⟨x', ?_⟩, fun p ↦ ?_⟩, new, hcalls, hs⟩
  · rw [hl, hcalls]
  · rw [hcalls]
    exact hp p _ (hw.tally p)

theorem Recorded.act (hw : Recorded l w) {a : Action α (σ × List (Call α))}
    (ha : a.isSetListener = false) (h : w.act a = .ok w') : Recorded l w' := by
  have hw' := wf_act hw.wf h
  cases a using Action.step_or_change with
  | step dt =>
    by_cases hdt : Valid dt
    · obtain ⟨hs, hr, -⟩ := reports_step (l := l) hw.wf hdt h
      exact (hw.of_reports hw' hr).1
    · rw [World.act, step_of_not_valid hdt] at h
      cases h
      exact hw
  | change a hstep =>
    have he := edits_act hw.wf hstep h
    exact (hw.of_reports hw' (.of_listener_eq ((frame_act hstep h).listener ha) he.touches_iff)).1

/-- No contact is made before the first step. -/
theorem get?_run_of_no_step {τ : Type} {s : WorldSettings α} {w₀ w : World α τ}
    {actions : List (Action α τ)} (h₀ : ofSettings s = .ok w₀)
    (hn : ∀ a ∈ actions, a.isStep = false) (h : w₀.run actions = .ok w) :
    w.Wf ∧ ∀ i, w.contacts.get? i = none := by
  refine run_induction (P := fun w ↦ w.Wf ∧ ∀ i, w.contacts.get? i = none)
    ⟨wf_ofSettings h₀, (ofSettings_eq_ok h₀).1⟩ ?_ h
  rintro w w' a ha ⟨hw, hnone⟩ hact
  refine ⟨wf_act hw hact, fun i ↦ ?_⟩
  have hc := (edits_act hw (hn a ha) hact).contacts i
  rw [hnone i] at hc
  exact Option.map_eq_none_iff.1 hc

/-- **What a listener hears of a pair.** Let a listener be put in place before the first step, and
stay.  Then at all times the calls that tell the colliders of a pair to begin or end to touch come
in turns, a beginning first, and the last of them is a beginning exactly if the pair has a contact
that touches.  And the calls of a further step tell each contact to touch that touches after the
step, once, and no other. -/
theorem calls_alternate {s : WorldSettings α} {w₀ w : World α (σ × List (Call α))}
    {l : Listener α σ} {before after : List (Action α (σ × List (Call α)))}
    (h₀ : ofSettings s = .ok w₀) (hbefore : ∀ a ∈ before, a.isStep = false)
    (hafter : ∀ a ∈ after, a.isSetListener = false)
    (h : w₀.run (before ++ .setListener (some l.recorded) :: after) = .ok w) :
    (∀ p, (∀ k b, (crossings p w.calls)[k]? = some b → (b = true ↔ k % 2 = 0)) ∧
      ((crossings p w.calls).getLast? = some true ↔ w.Touches p)) ∧
    ∀ dt w', Valid dt → w.step dt = .ok w' → ∃ new, w'.calls = w.calls ++ new ∧
      (stays new).Nodup ∧
      ∀ i, i ∈ stays new ↔ ∃ c, w'.contacts.get? i = some c ∧ c.touching = true := by
  obtain ⟨w₁, hr₁, hr⟩ := run_append.1 h
  obtain ⟨w₂, hl, hr₂⟩ := run_cons.1 hr
  obtain ⟨hw₁, hnone⟩ := get?_run_of_no_step h₀ hbefore hr₁
  -- When the listener is put in place, nothing touches and nothing has been told.
  have hstart : Recorded l w₂ := by
    have hw₂ := wf_act hw₁ hl
    cases hl
    refine ⟨hw₂, ⟨l.state, rfl⟩, fun p ↦ ⟨?_, ?_⟩⟩
    · intro k b hk
      cases hk
    · have hn : ¬ (w₁.setListener (some l.recorded)).Touches p := by
        rintro ⟨i, c, hc, -⟩
        rw [setListener, hnone] at hc
        cases hc
      have hnil : crossings p (w₁.setListener (some l.recorded)).calls = [] := rfl
      simp [hnil, hn]
  have hw : Recorded l w :=
    run_induction hstart (fun _ _ a ha hw hact ↦ hw.act (hafter a ha) hact) hr₂
  refine ⟨fun p ↦ ⟨(hw.tally p).alternates, (hw.tally p).getLast?_eq⟩, fun dt w' hdt hs ↦ ?_⟩
  obtain ⟨hs', hrep, hnodup, hmem⟩ := reports_step (l := l) hw.wf hdt hs
  obtain ⟨-, new, hcalls, rfl⟩ := hw.of_reports (wf_step hw.wf hs) hrep
  exact ⟨new, hcalls, hnodup, hmem⟩

/-- Two discs overlap.  In the first step the listener is told that they begin to touch, and in the
second that their contact touches, once. -/
theorem discs_call : ∃ w₀ w w' : World ℝ (Unit × List (Call ℝ)), ofSettings .default = .ok w₀ ∧
    w₀.run (discs 0 1 ++ .setListener (some (Listener.silent ()).recorded) :: [.step 1]) = .ok w ∧
    (crossings (.of 0 1) w.calls).getLast? = some true ∧
    w.step 1 = .ok w' ∧ ∃ new, w'.calls = w.calls ++ new ∧ (stays new).Nodup ∧
      ∀ i, i ∈ stays new ↔ ∃ c, w'.contacts.get? i = some c ∧ c.touching = true := by
  have hdt : Valid (1 : ℝ) := ⟨one_pos, rfl⟩
  obtain ⟨w₀, h₀⟩ := exists_ofSettings_default (Unit × List (Call ℝ))
  obtain ⟨w', h'⟩ : ∃ w', w₀.run ((discs 0 1 ++
      .setListener (some (Listener.silent ()).recorded) :: [.step 1]) ++ [.step 1]) = .ok w' :=
    exists_run_of_sensors h₀ (by simp [discs, Action.addsSensors, Collider.disc])
  obtain ⟨w, h, hlast⟩ := run_append.1 h'
  have hlast := run_singleton.1 hlast
  obtain ⟨hturns, hstays⟩ := calls_alternate h₀ (by simp [discs, Action.isStep])
    (by simp [Action.isSetListener]) h
  refine ⟨w₀, w, w', h₀, h, (hturns (.of 0 1)).2.2 ?_, hlast, hstays 1 w' hdt hlast⟩
  obtain ⟨w₁, hr₁, hrest⟩ := run_append.1 h
  obtain ⟨w₂, hset, hstep⟩ := run_cons.1 hrest
  have hw₂ : w₂.Reachable :=
    ⟨_, discs 0 1 ++ [.setListener _], w₀, h₀, run_append.2 ⟨w₁, hr₁, run_singleton.2 hset⟩⟩
  obtain ⟨hd, hp, -⟩ := run_discs h₀ hr₁
  cases hset
  have hd₂ : (w₁.setListener (some (Listener.silent ()).recorded)).HasDiscs := hd.congr rfl rfl
  have hp₂ : (w₁.setListener (some (Listener.silent ()).recorded)).PosedAt 0 1 := hp
  exact hw₂.sound.touches_step (hd₂.collides hp₂ (by norm_num))
    (hd₂.mem_near hp₂ hw₂ (by norm_num)) hdt (run_singleton.1 hstep)

end World

end PlanarDynamics
