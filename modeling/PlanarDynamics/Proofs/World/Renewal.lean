import PlanarDynamics.Proofs.World.Pairing

/-!
# Contacts brought up to date

The second half of a step goes over the live contacts once.  A contact that is marked and whose
colliders may no longer touch is put aside and destroyed at the end; every other one is evaluated
anew under the current poses.  No look-up fails on the way, as each contact knows its colliders, so
`World.updateContacts` always has a result (`World.updateContacts_eq`).

The listener hears of each update and may keep a contact from being solved.  That is the only trace
that it leaves on contacts, so contacts are compared here as if all were enabled.
-/

namespace PlanarDynamics

namespace Contact

variable {α : Type} [Scalar α]

@[simp] theorem base_setEnabled (c : Contact α) (e : Bool) : (c.setEnabled e).base = c.base := rfl

end Contact

theorem Listener.setEnabled_hearUpdate {α σ : Type} (l : Listener α σ) (h : Handle)
    (before : Manifold α) (updated : Contact α × Transition) :
    (l.hearUpdate h before updated).2.setEnabled true = updated.1.setEnabled true := by
  simp only [hearUpdate, hearTouching]
  split
  · split
    · rfl
    · dsimp only
      split <;> rfl
  · rfl

namespace World

variable {α σ : Type} [Scalar α] {w w' : World α σ}

/-! ## One contact -/

/-- Whether a contact is put aside, because its colliders may no longer touch. -/
def refuses (w : World α σ) (c : Contact α) : Bool :=
  c.needsFiltering && !w.mayTouch c.colliderA c.colliderB

/-- A contact updated for the current poses of its bodies. -/
def updated (w : World α σ) (c : Contact α) : Contact α × Transition :=
  match w.bodies[c.bodyA]?, w.bodies[c.bodyB]?, w.colliders[c.colliderA]?,
    w.colliders[c.colliderB]? with
  | some bodyA, some bodyB, some a, some b =>
    { c with needsFiltering := false }.update a.shape bodyA.pose b.shape bodyB.pose
  | _, _, _, _ =>
    ({ c with needsFiltering := false, enabled := true }, .of c.touching c.touching)

/-- A contact evaluated under the current poses of its bodies. -/
def renewed (w : World α σ) (c : Contact α) : Contact α := (w.updated c).1

/-- What is told of an update is how the contact has changed. -/
theorem updated_eq (w : World α σ) (c : Contact α) :
    w.updated c = (w.renewed c, .of c.touching (w.renewed c).touching) := by
  simp only [renewed, updated]
  split <;> rfl

theorem base_renewed (c : Contact α) : (w.renewed c).base = c.base := by
  simp only [renewed, updated]
  split <;> rfl

theorem needsFiltering_renewed (c : Contact α) : (w.renewed c).needsFiltering = false := by
  simp only [renewed, updated]
  split <;> rfl

theorem setEnabled_renewed (c : Contact α) : (w.renewed c).setEnabled true = w.renewed c := by
  simp only [renewed, updated]
  split <;> rfl

omit [Scalar α] in
theorem SameScene.refuses (h : SameScene w w') (c : Contact α) : w'.refuses c = w.refuses c := by
  rw [World.refuses, World.refuses, h.mayTouch]

theorem SameScene.updated (h : SameScene w w') (c : Contact α) : w'.updated c = w.updated c := by
  rw [World.updated, World.updated, h.bodies, h.colliders]

theorem SameScene.renewed (h : SameScene w w') (c : Contact α) : w'.renewed c = w.renewed c := by
  rw [World.renewed, World.renewed, h.updated]

/-- The world after one of its contacts has been renewed and the listener told. -/
def renew (w : World α σ) (h : Handle) (c : Contact α) : World α σ :=
  match w.listener with
  | none => { w with contacts := w.contacts.setContact h.index (w.renewed c) }
  | some l =>
    let heard := l.hearUpdate h c.manifold (w.updated c)
    { w with contacts := w.contacts.setContact h.index heard.2, listener := some heard.1 }

/-- Renewing puts the renewed contact in place of the old one, enabled or not. -/
theorem renew_contacts (h : Handle) (c : Contact α) :
    ∃ c', (w.renew h c).contacts = w.contacts.setContact h.index c' ∧
      c'.setEnabled true = w.renewed c := by
  simp only [renew]
  split
  · exact ⟨_, rfl, setEnabled_renewed c⟩
  next l _ =>
    refine ⟨_, rfl, ?_⟩
    rw [Listener.setEnabled_hearUpdate]
    exact setEnabled_renewed c

theorem sameScene_renew (h : Handle) (c : Contact α) : SameScene w (w.renew h c) := by
  simp only [renew]
  split <;> exact ⟨rfl, rfl, rfl, rfl, rfl, rfl⟩

theorem get?_renew {h : Handle} {c : Contact α} (hc : w.contacts.get? h = some c) (h' : Handle) :
    ((w.renew h c).contacts.get? h').map (·.setEnabled true) =
      if h' = h then some (w.renewed c) else (w.contacts.get? h').map (·.setEnabled true) := by
  obtain ⟨c', he, hc'⟩ := renew_contacts (w := w) h c
  rw [he, Registry.get?_setContact hc]
  split
  · rw [Option.map_some, hc']
  · rfl

theorem wf_renew (hw : w.Wf) {h : Handle} {c : Contact α} (hc : w.contacts.get? h = some c) :
    (w.renew h c).Wf := by
  obtain ⟨c', he, hc'⟩ := renew_contacts (w := w) h c
  have hbase : c'.base = c.base := by
    rw [← base_renewed (w := w) c, ← hc', Contact.base_setEnabled]
  have hAB := hbase
  simp only [Contact.base, Contact.mk.injEq] at hAB
  refine (sameScene_renew h c).wf hw ?_ ?_
  · rw [he]
    exact hw.registry.setContact hc hAB.1 hAB.2.1
  · intro i k hk
    rw [he, Registry.get?_setContact hc] at hk
    split at hk
    · cases hk
      obtain ⟨a, b, ha, hb, hj⟩ := hw.joins h c hc
      rw [hAB.1, hAB.2.1]
      exact ⟨a, b, ha, hb, hj.of_base hbase⟩
    · exact hw.joins i k hk

/-! ## All contacts -/

/-- One contact is put aside or renewed. -/
def settle (st : World α σ × List Handle) (h : Handle) : World α σ × List Handle :=
  match st.1.contacts.get? h with
  | none => st
  | some c => if st.1.refuses c then (st.1, st.2 ++ [h]) else (st.1.renew h c, st.2)

theorem updateContact_eq (hw : w.Wf) (refused : List Handle) (h : Handle) :
    updateContact (w, refused) h = .ok (settle (w, refused) h) := by
  simp only [updateContact, settle]
  cases hc : w.contacts.get? h with
  | none => rfl
  | some c =>
    dsimp only
    change (if w.refuses c = true then _ else _) = _
    by_cases hr : w.refuses c = true
    · rw [if_pos hr, if_pos hr]
    · rw [if_neg hr, if_neg hr]
      obtain ⟨a, b, x, y, ha, hb, hx, hy, -⟩ := hw.exists_sides hc
      simp only [ha, hb, hx, hy, renew, renewed, updated]
      cases w.listener <;> rfl

theorem wf_settle (hw : w.Wf) (refused : List Handle) (h : Handle) :
    (settle (w, refused) h).1.Wf := by
  simp only [settle]
  cases hc : w.contacts.get? h with
  | none => exact hw
  | some c =>
    dsimp only
    split
    · exact hw
    · exact wf_renew hw hc

theorem foldlM_updateContact (hw : w.Wf) (refused : List Handle) (hs : List Handle) :
    hs.foldlM updateContact (w, refused) = .ok (hs.foldl settle (w, refused)) := by
  induction hs generalizing w refused with
  | nil => rfl
  | cons h hs ih =>
    rw [List.foldlM_cons, updateContact_eq hw]
    exact ih (wf_settle hw refused h) _

/-- What has become of the contacts of `w` when those on the list `hs` have been settled. -/
structure Settled (hs : List Handle) (w : World α σ) (refused : List Handle)
    (st : World α σ × List Handle) : Prop where
  wf : st.1.Wf
  scene : SameScene w st.1
  refused : st.2 = refused ++ hs.filter fun h ↦ (w.contacts.get? h).any w.refuses
  contacts : ∀ h, (st.1.contacts.get? h).map (·.setEnabled true) = (w.contacts.get? h).map fun c ↦
    if h ∈ hs ∧ w.refuses c = false then w.renewed c else c.setEnabled true

theorem settled_settle (hw : w.Wf) (refused : List Handle) (h : Handle) :
    Settled [h] w refused (settle (w, refused) h) := by
  cases hc : w.contacts.get? h with
  | none =>
    have hst : settle (w, refused) h = (w, refused) := by simp [settle, hc]
    rw [hst]
    refine ⟨hw, .refl w, by simp [hc], fun h' ↦ ?_⟩
    by_cases he : h' = h
    · simp [he, hc]
    · simp [he]
  | some c =>
    by_cases hr : w.refuses c = true
    · have hst : settle (w, refused) h = (w, refused ++ [h]) := by simp [settle, hc, hr]
      rw [hst]
      refine ⟨hw, .refl w, by simp [hc, hr], fun h' ↦ ?_⟩
      by_cases he : h' = h
      · simp [he, hc, hr]
      · simp [he]
    · have hst : settle (w, refused) h = (w.renew h c, refused) := by simp [settle, hc, hr]
      rw [hst]
      refine ⟨wf_renew hw hc, sameScene_renew h c, by simp [hc, hr], fun h' ↦ ?_⟩
      rw [get?_renew hc]
      by_cases he : h' = h
      · simp [he, hc, hr]
      · simp [he]

theorem Settled.cons {h : Handle} {hs refused : List Handle} {st st' : World α σ × List Handle}
    (h₁ : Settled [h] w refused st) (h₂ : Settled hs st.1 st.2 st') (hh : h ∉ hs) :
    Settled (h :: hs) w refused st' := by
  -- The contacts still to be settled are as they were.
  have hget : ∀ h' ≠ h, (st.1.contacts.get? h').map (·.setEnabled true) =
      (w.contacts.get? h').map (·.setEnabled true) := by
    intro h' he
    simpa [he] using h₁.contacts h'
  refine ⟨h₂.wf, h₁.scene.trans h₂.scene, ?_, fun h' ↦ ?_⟩
  · have hany : ∀ h' ∈ hs, (st.1.contacts.get? h').any st.1.refuses =
        (w.contacts.get? h').any w.refuses := by
      intro h' hh'
      have ha := congrArg (Option.any w.refuses) (hget h' fun he ↦ hh (he ▸ hh'))
      rw [Option.any_map, Option.any_map] at ha
      rw [funext h₁.scene.refuses]
      exact ha
    rw [h₂.refused, h₁.refused, List.append_assoc, List.filter_congr hany, ← List.filter_append,
      List.singleton_append]
  · rw [h₂.contacts h']
    by_cases he : h' = h
    · subst he
      simpa [hh] using h₁.contacts h'
    · have hmap := congrArg (Option.map fun c ↦
        if h' ∈ hs ∧ w.refuses c = false then w.renewed c else c.setEnabled true) (hget h' he)
      rw [Option.map_map, Option.map_map] at hmap
      simp only [h₁.scene.refuses, h₁.scene.renewed, List.mem_cons, he, false_or]
      exact hmap

theorem settled_foldl (hw : w.Wf) (refused : List Handle) {hs : List Handle} (hn : hs.Nodup) :
    Settled hs w refused (hs.foldl settle (w, refused)) := by
  induction hs generalizing w refused with
  | nil => exact ⟨hw, .refl w, by simp, by simp⟩
  | cons h hs ih =>
    obtain ⟨hh, hn⟩ := List.nodup_cons.1 hn
    have h₁ := settled_settle hw refused h
    exact h₁.cons (ih h₁.wf _ hn) hh

omit [Scalar α] in
theorem get?_foldl_destroyContact (hs : List Handle) (h : Handle) :
    (hs.foldl destroyContact w).contacts.get? h =
      if h ∈ hs then none else w.contacts.get? h := by
  induction hs generalizing w with
  | nil => simp
  | cons h₀ hs ih =>
    rw [List.foldl_cons, ih, get?_destroyContact]
    by_cases he : h = h₀ <;> simp [he]

omit [Scalar α] in
theorem sameScene_foldl_destroyContact (hs : List Handle) :
    SameScene w (hs.foldl destroyContact w) := by
  induction hs generalizing w with
  | nil => exact .refl w
  | cons h hs ih => exact (sameScene_destroyContact h).trans ih

theorem wf_foldl_destroyContact (hw : w.Wf) (hs : List Handle) :
    (hs.foldl destroyContact w).Wf := by
  induction hs generalizing w with
  | nil => exact hw
  | cons h hs ih => exact ih (wf_destroyContact hw h)

/-- The world after all its contacts have been renewed or destroyed. -/
def refreshed (w : World α σ) : World α σ :=
  let st := (w.contacts.entries.map (·.1)).foldl settle (w, [])
  st.2.foldl destroyContact st.1

/-- Updating the contacts never fails. -/
theorem updateContacts_eq (hw : w.Wf) : w.updateContacts = .ok w.refreshed := by
  rw [updateContacts, foldlM_updateContact hw]
  rfl

theorem settled_entries (hw : w.Wf) : Settled (w.contacts.entries.map (·.1)) w []
    ((w.contacts.entries.map (·.1)).foldl settle (w, [])) :=
  settled_foldl hw [] Registry.nodup_handles

theorem sameScene_refreshed (hw : w.Wf) : SameScene w w.refreshed :=
  (settled_entries hw).scene.trans (sameScene_foldl_destroyContact _)

theorem wf_refreshed (hw : w.Wf) : w.refreshed.Wf :=
  wf_foldl_destroyContact (settled_entries hw).wf _

/-- A contact is destroyed or renewed. -/
theorem get?_refreshed (hw : w.Wf) (h : Handle) :
    (w.refreshed.contacts.get? h).map (·.setEnabled true) =
      (w.contacts.get? h).bind fun c ↦ if w.refuses c then none else some (w.renewed c) := by
  have hs := settled_entries hw
  rw [refreshed, get?_foldl_destroyContact, hs.refused, List.nil_append]
  cases hc : w.contacts.get? h with
  | none =>
    have hn := hs.contacts h
    rw [hc, Option.map_none] at hn
    rw [Option.bind_none, Option.map_eq_none_iff]
    split
    · rfl
    · exact Option.map_eq_none_iff.1 hn
  | some c =>
    have hmem : h ∈ w.contacts.entries.map (·.1) :=
      List.mem_map.2 ⟨(h, c), Registry.mem_entries.2 hc, rfl⟩
    by_cases hr : w.refuses c = true
    · rw [if_pos (List.mem_filter.2 ⟨hmem, by simp [hc, hr]⟩)]
      simp [hr]
    · rw [if_neg (fun hm ↦ hr (by simpa [hc] using (List.mem_filter.1 hm).2)), hs.contacts, hc]
      simp only [Bool.not_eq_true] at hr
      simp only [hmem, hr, and_self, if_true, Option.map_some, Option.bind_some, Bool.false_eq_true,
        if_false]

end World

end PlanarDynamics
