import PlanarDynamics.Proofs.World.Edit

/-!
# Near pairs and their contacts

The first half of a step brings the boxes up to date, compares the pairs that are near now with
those remembered, and destroys and makes contacts accordingly.  `World.updatePairs` only ever acts
on pairs that the comparison names, which is all there is to say of it: a pair that was remembered
and is not near loses its contact, a pair that is near and was not remembered gets one if it can,
and every other pair keeps what it has.
-/

namespace PlanarDynamics

namespace World

variable {α σ : Type} [Scalar α] {w w' : World α σ}

/-! ## Boxes -/

/-- The box that a collider is to have, given the one that it has. -/
theorem box?_syncBox_self (i : ColliderId) (c : Collider α) :
    (w.syncBox i c).box? i = (c.body.bind (w.bodies[·]?)).bind fun b ↦
      let tight := c.shape.bounds b.pose
      if tight.isFinite then
        if (w.grid.box? i).any (·.contains tight) then w.grid.box? i
        else some (tight.grow w.grid.margin)
      else none := by
  simp only [syncBox]
  cases c.body.bind (w.bodies[·]?) with
  | none => simp [Grid.remove, Grid.box?]
  | some b =>
    simp only [Option.bind_some]
    split
    · simp only [Grid.update]
      by_cases hb : w.grid.outgrown i (c.shape.bounds b.pose) = true
      · rw [if_pos hb, if_neg (by simpa [Grid.outgrown] using hb)]
        simp [Grid.box?]
      · rw [if_neg hb, if_pos (by simpa [Grid.outgrown] using hb)]
    · simp [Grid.remove, Grid.box?]

/-- Bringing boxes up to date changes boxes only. -/
structure SameButBoxes (w w' : World α σ) : Prop where
  bodies : w'.bodies = w.bodies
  colliders : w'.colliders = w.colliders
  contacts : w'.contacts = w.contacts
  listener : w'.listener = w.listener
  settings : w'.settings = w.settings
  previousDt : w'.previousDt = w.previousDt
  pairs : w'.grid.pairs = w.grid.pairs
  margin : w'.grid.margin = w.grid.margin
  scale : w'.grid.scale = w.grid.scale

theorem margin_syncBox (i : ColliderId) (c : Collider α) :
    (w.syncBox i c).margin = w.grid.margin ∧ (w.syncBox i c).scale = w.grid.scale := by
  simp only [syncBox, Grid.update, Grid.remove]
  split
  · exact ⟨rfl, rfl⟩
  · split
    · split <;> exact ⟨rfl, rfl⟩
    · exact ⟨rfl, rfl⟩

/-- The boxes of the colliders on a list, brought up to date one after the other. -/
def syncAll (w : World α σ) (l : List (Collider α × ColliderId)) : World α σ :=
  l.foldl (fun w (c, i) ↦ { w with grid := w.syncBox i c }) w

theorem sameButBoxes_syncAll (l : List (Collider α × ColliderId)) :
    SameButBoxes w (w.syncAll l) := by
  induction l generalizing w with
  | nil => exact ⟨rfl, rfl, rfl, rfl, rfl, rfl, rfl, rfl, rfl⟩
  | cons e l ih =>
    have h := ih (w := { w with grid := w.syncBox e.2 e.1 })
    obtain ⟨hm, hs⟩ := margin_syncBox (w := w) e.2 e.1
    exact ⟨h.bodies, h.colliders, h.contacts, h.listener, h.settings, h.previousDt,
      h.pairs.trans (pairs_syncBox _ _), h.margin.trans hm, h.scale.trans hs⟩

theorem box?_syncAll_of_notMem {l : List (Collider α × ColliderId)} {i : ColliderId}
    (h : i ∉ l.map (·.2)) : (w.syncAll l).grid.box? i = w.grid.box? i := by
  induction l generalizing w with
  | nil => rfl
  | cons e l ih =>
    rw [List.map_cons, List.mem_cons, not_or] at h
    exact (ih h.2).trans (box?_syncBox_of_ne h.1 e.1)

theorem box?_syncAll_of_mem {l : List (Collider α × ColliderId)} (hn : (l.map (·.2)).Nodup)
    {i : ColliderId} {c : Collider α} (h : (c, i) ∈ l) :
    (w.syncAll l).grid.box? i = (w.syncBox i c).box? i := by
  induction l generalizing w with
  | nil => cases h
  | cons e l ih =>
    rw [List.map_cons, List.nodup_cons] at hn
    obtain rfl | h := List.mem_cons.1 h
    · exact box?_syncAll_of_notMem hn.1
    · have hne : i ≠ e.2 := fun he ↦ hn.1 (he ▸ List.mem_map_of_mem h)
      refine (ih (w := { w with grid := w.syncBox e.2 e.1 }) hn.2 h).trans ?_
      rw [box?_syncBox_self, box?_syncBox_self]
      simp only [box?_syncBox_of_ne hne, (margin_syncBox e.2 e.1).1]

theorem syncBoxes_eq : w.syncBoxes = w.syncAll w.colliders.toList.zipIdx := rfl

theorem sameButBoxes_syncBoxes : SameButBoxes w w.syncBoxes := sameButBoxes_syncAll _

theorem box?_syncBoxes {i : ColliderId} {c : Collider α} (h : w.colliders[i]? = some c) :
    w.syncBoxes.grid.box? i = (w.syncBox i c).box? i := by
  rw [syncBoxes_eq]
  refine box?_syncAll_of_mem ?_ ?_
  · rw [List.zipIdx_map_snd]
    exact List.nodup_range'
  · rw [List.mem_zipIdx_iff_getElem?, Array.getElem?_toList]
    exact h

theorem box_lt_syncBoxes (hw : w.Wf) {i : ColliderId} {b : Box α}
    (h : w.syncBoxes.grid.box? i = some b) : i < w.colliders.size := by
  by_contra hi
  rw [syncBoxes_eq, box?_syncAll_of_notMem] at h
  · exact hi (hw.box_lt i b h)
  · rw [List.zipIdx_map_snd, List.mem_range'_1, Array.length_toList, Nat.zero_add]
    exact fun hm ↦ hi hm.2

/-- The pairs that are near each other at the next step. -/
def near (w : World α σ) : PairSet := w.syncBoxes.grid.overlapping

theorem near_hi_lt (hw : w.Wf) {p : Pair} (hp : p ∈ w.near) : p.hi < w.colliders.size := by
  obtain ⟨-, _, b, -, hb, -⟩ := (Grid.mem_overlapping _).1 hp
  exact box_lt_syncBoxes hw hb

/-! ## Events

An event changes the contact of its pair and no other. -/

/-- The parts of a world that pair events and contact updates leave alone. -/
structure SameScene (w w' : World α σ) : Prop where
  bodies : w'.bodies = w.bodies
  colliders : w'.colliders = w.colliders
  grid : w'.grid = w.grid
  settings : w'.settings = w.settings
  previousDt : w'.previousDt = w.previousDt
  rules : w'.contacts.rules = w.contacts.rules

namespace SameScene

variable {w'' : World α σ}

omit [Scalar α] in
theorem refl (w : World α σ) : SameScene w w := ⟨rfl, rfl, rfl, rfl, rfl, rfl⟩

omit [Scalar α] in
theorem trans (h : SameScene w w') (h' : SameScene w' w'') : SameScene w w'' :=
  ⟨h'.bodies.trans h.bodies, h'.colliders.trans h.colliders, h'.grid.trans h.grid,
    h'.settings.trans h.settings, h'.previousDt.trans h.previousDt, h'.rules.trans h.rules⟩

omit [Scalar α] in
theorem mayTouch (h : SameScene w w') (a b : ColliderId) : w'.mayTouch a b = w.mayTouch a b := by
  simp only [World.mayTouch, h.bodies, h.colliders]

omit [Scalar α] in
theorem allows_iff (h : SameScene w w') (p : Pair) : w'.Allows p ↔ w.Allows p := by
  rw [Allows, Allows, h.mayTouch]

theorem hasRule_iff (h : SameScene w w') (p : Pair) : w'.HasRule p ↔ w.HasRule p := by
  rw [HasRule, HasRule, h.colliders]

/-- References stay sound as long as each contact knows its colliders. -/
theorem wf (h : SameScene w w') (hw : w.Wf) (hr : w'.contacts.Wf)
    (hj : ∀ i c, w'.contacts.get? i = some c → ∃ a b, w.colliders[c.colliderA]? = some a ∧
      w.colliders[c.colliderB]? = some b ∧ c.Joins .standard a b) : w'.Wf where
  registry := hr
  rules := h.rules.trans hw.rules
  owned := by
    rw [h.colliders, h.bodies]
    exact hw.owned
  joins := by
    rw [h.colliders]
    exact hj
  box_lt := by
    rw [h.grid, h.colliders]
    exact hw.box_lt
  pair_lt := by
    rw [h.grid, h.colliders]
    exact hw.pair_lt

end SameScene

omit [Scalar α] in
theorem sameScene_destroyContact (h : Handle) : SameScene w (w.destroyContact h) := by
  simp only [destroyContact]
  split
  next c r hd =>
    obtain ⟨-, rfl⟩ := Registry.destroy_eq_ok_iff.1 hd
    exact ⟨rfl, rfl, rfl, rfl, rfl, rfl⟩
  next => exact .refl w

omit [Scalar α] in
theorem get?_destroyContact (h h' : Handle) :
    (w.destroyContact h).contacts.get? h' = if h' = h then none else w.contacts.get? h' := by
  cases hc : w.contacts.get? h with
  | none =>
    have hd : w.contacts.destroy h = .error (.staleHandle h) := by simp [Registry.destroy, hc]
    rw [destroyContact, hd]
    split <;> simp_all
  | some c =>
    obtain ⟨r, hd⟩ : ∃ r, w.contacts.destroy h = .ok (c, r) :=
      ⟨_, Registry.destroy_eq_ok_iff.2 ⟨hc, rfl⟩⟩
    rw [destroyContact, hd]
    exact Registry.get?_destroy hd h'

theorem wf_destroyContact (hw : w.Wf) (h : Handle) : (w.destroyContact h).Wf := by
  refine (sameScene_destroyContact h).wf hw ?_ ?_
  · simp only [destroyContact]
    split
    next c r hd => exact hw.registry.destroy hd
    next => exact hw.registry
  · intro i c hc
    rw [get?_destroyContact] at hc
    split at hc
    · cases hc
    · exact hw.joins i c hc

/-- A contact that was made for a pair. -/
structure Begun (w : World α σ) (p : Pair) (c : Contact α) : Prop where
  pair : c.pair = p
  allows : w.Allows p
  fresh : c.Fresh
  joins : ∃ a b, w.colliders[c.colliderA]? = some a ∧ w.colliders[c.colliderB]? = some b ∧
    c.Joins .standard a b

/-- Making the contact of a pair either changes nothing or adds one contact to a pair that had
none. -/
theorem createContact_cases (hw : w.Wf) (p : Pair) :
    w.createContact p = w ∧ (w.Allows p → w.HasRule p → w.Live p) ∨
      ¬ w.Live p ∧ ∃ c, w.Begun p c ∧
        w.createContact p = { w with contacts := w.contacts.enroll c } := by
  by_cases ha : w.mayTouch p.lo p.hi = true
  · obtain ⟨i, d, f, j, e, g, hlo, hhi, -⟩ := mayTouch_iff.1 ha
    obtain ⟨a, x, hca, hab, -⟩ := standing_eq_some_iff.1 hlo
    obtain ⟨b, y, hcb, hbb, -⟩ := standing_eq_some_iff.1 hhi
    have ht : w.contacts.rules.Balanced := hw.rules ▸ RuleTable.balanced_standard
    cases hx : w.contacts.create (p.lo, a) (p.hi, b) with
    | error err =>
      refine .inl ⟨by simp [createContact, ha, hca, hcb, hx], ?_⟩
      rintro hp ⟨a', b', ha', hb', hrule⟩
      rw [hca, Option.some.injEq] at ha'
      rw [hcb, Option.some.injEq] at hb'
      subst ha' hb'
      obtain ⟨rule, hrule⟩ := Option.ne_none_iff_exists'.1 hrule
      obtain ⟨z, hz⟩ := Registry.exists_create (r := w.contacts) (a := (p.lo, a)) (b := (p.hi, b))
        hp.lo_ne_hi (by rw [hw.rules]; exact hrule) hab hbb
      rw [hx] at hz
      cases hz
    | ok z =>
      obtain ⟨h, r'⟩ := z
      have heq : w.createContact p = { w with contacts := r' } := by
        simp [createContact, ha, hca, hcb, hx]
      obtain ⟨-, ⟨hf, rfl⟩ | ⟨hf, c, hb, -, rfl⟩⟩ := Registry.create_eq_ok_iff.1 hx
      · obtain ⟨c, hc, hcp⟩ := hw.registry.find?_eq_some_iff.1 hf
        exact .inl ⟨heq, fun _ _ ↦ ⟨h, c, hc, by rw [hcp]; exact Pair.of_lo_hi p⟩⟩
      · obtain ⟨hfresh, hp, -⟩ := Registry.of_build_eq_ok hb
        rw [Pair.of_lo_hi] at hp
        refine .inr ⟨?_, c, ⟨hp, ha, hfresh, ?_⟩, heq⟩
        · rintro ⟨h', c', hc', hcp⟩
          refine hw.registry.find?_eq_none_iff.1 hf h' c' hc' ?_
          rw [Pair.of_lo_hi]
          exact hcp
        · obtain ⟨u, v, huv, hA, hB, hj⟩ := Registry.build_eq_ok ht p.lo_le_hi hb
          rw [hw.rules] at hj
          obtain ⟨rfl, rfl⟩ | ⟨rfl, rfl⟩ := huv
          · exact ⟨a, b, by rw [hA]; exact hca, by rw [hB]; exact hcb, hj⟩
          · exact ⟨b, a, by rw [hA]; exact hcb, by rw [hB]; exact hca, hj⟩
  · refine .inl ⟨by simp [createContact, ha], fun hp ↦ absurd hp ha⟩

theorem sameScene_createContact (hw : w.Wf) (p : Pair) : SameScene w (w.createContact p) := by
  obtain ⟨he, -⟩ | ⟨-, c, -, he⟩ := createContact_cases hw p
  · rw [he]
    exact .refl w
  · rw [he]
    exact ⟨rfl, rfl, rfl, rfl, rfl, Registry.rules_enroll c⟩

theorem wf_createContact (hw : w.Wf) (p : Pair) : (w.createContact p).Wf := by
  have hs := sameScene_createContact hw p
  obtain ⟨he, -⟩ | ⟨hl, c, hc, he⟩ := createContact_cases hw p
  · rw [he]
    exact hw
  · rw [he] at hs ⊢
    refine hs.wf hw ?_ ?_
    · refine hw.registry.enroll ?_ ?_
      · intro hne
        refine hc.allows.lo_ne_hi ?_
        rw [← hc.pair, Contact.pair, hne, Pair.of, dif_pos (Nat.le_refl _)]
      · intro h k hk hp
        exact hl ⟨h, k, hk, hp.trans hc.pair⟩
    · intro h k hk
      rw [Registry.get?_enroll hw.registry] at hk
      split at hk
      · cases hk
        exact hc.joins
      · exact hw.joins h k hk

/-- What pair events have done to the contacts of `w`: those of the pairs in `E` are gone, and some
pairs in `B` have got one. -/
structure Paired (E B : Pair → Prop) (w w' : World α σ) : Prop where
  wf : w'.Wf
  scene : SameScene w w'
  kept : ∀ h c, w.contacts.get? h = some c → ¬ E c.pair → w'.contacts.get? h = some c
  origin : ∀ h c, w'.contacts.get? h = some c → w.contacts.get? h = some c ∧ ¬ E c.pair ∨
    w.Begun c.pair c ∧ B c.pair ∧ (w.Live c.pair → E c.pair)
  begun : ∀ p, B p → w.Allows p → w.HasRule p → w'.Live p

/-- The end of a pair takes out the contact of the pair, if there is one. -/
theorem handleEvent_ends (hw : w.Wf) (p : Pair) :
    (w.handleEvent (.ends p)).Wf ∧ SameScene w (w.handleEvent (.ends p)) ∧
      ∀ h c, (w.handleEvent (.ends p)).contacts.get? h = some c ↔
        w.contacts.get? h = some c ∧ c.pair ≠ p := by
  simp only [handleEvent]
  cases hf : w.contacts.find? p.lo p.hi with
  | none =>
    have hnone := hw.registry.find?_eq_none_iff.1 hf
    simp only [Pair.of_lo_hi] at hnone
    exact ⟨hw, .refl w, fun h c ↦ ⟨fun hc ↦ ⟨hc, hnone h c hc⟩, And.left⟩⟩
  | some h₀ =>
    obtain ⟨c₀, hc₀, hp₀⟩ := hw.registry.find?_eq_some_iff.1 hf
    rw [Pair.of_lo_hi] at hp₀
    refine ⟨wf_destroyContact hw h₀, sameScene_destroyContact h₀, fun h c ↦ ?_⟩
    simp only [get?_destroyContact]
    by_cases he : h = h₀
    · subst he
      simp only [if_true, reduceCtorEq, false_iff, hc₀, Option.some.injEq, not_and, not_not]
      rintro rfl
      exact hp₀
    · simp only [he, if_false]
      exact ⟨fun hc ↦ ⟨hc, fun hp ↦ he (hw.handle_eq hc₀ hc (hp.trans hp₀.symm))⟩, And.left⟩

theorem paired_ends (hw : w.Wf) (ps : List Pair) :
    Paired (· ∈ ps) (fun _ ↦ False) w ((ps.map .ends).foldl handleEvent w) := by
  induction ps generalizing w with
  | nil => exact ⟨hw, .refl w, by simp, by simp, by simp⟩
  | cons p ps ih =>
    rw [List.map_cons, List.foldl_cons]
    obtain ⟨hw₁, hs, hget⟩ := handleEvent_ends hw p
    have h₁ := ih hw₁
    refine ⟨h₁.wf, hs.trans h₁.scene, ?_, ?_, by simp⟩
    · intro h c hc hn
      rw [List.mem_cons, not_or] at hn
      exact h₁.kept h c ((hget h c).2 ⟨hc, hn.1⟩) hn.2
    · intro h c hc
      obtain ⟨hc, hn⟩ | ⟨-, hB, -⟩ := h₁.origin h c hc
      · obtain ⟨hc, hne⟩ := (hget h c).1 hc
        exact .inl ⟨hc, by rw [List.mem_cons, not_or]; exact ⟨hne, hn⟩⟩
      · exact hB.elim

/-- The beginning of a pair makes a contact for the pair, if it can, and takes out none. -/
theorem get?_createContact (hw : w.Wf) (p : Pair) :
    (∀ h c, w.contacts.get? h = some c → (w.createContact p).contacts.get? h = some c) ∧
      (∀ h c, (w.createContact p).contacts.get? h = some c → w.contacts.get? h = some c ∨
        w.Begun c.pair c ∧ c.pair = p ∧ ¬ w.Live c.pair) ∧
      (w.Allows p → w.HasRule p → (w.createContact p).Live p) := by
  obtain ⟨he, hl⟩ | ⟨hl, c₀, hc₀, he⟩ := createContact_cases hw p
  · rw [he]
    exact ⟨fun _ _ ↦ id, fun _ _ ↦ .inl, hl⟩
  · have hfresh := Registry.get?_allocate_handle hw.registry c₀
    simp only [he, Live, Registry.get?_enroll hw.registry]
    refine ⟨fun h c hc ↦ ?_, fun h c hc ↦ ?_, fun _ _ ↦ ⟨_, c₀, if_pos rfl, hc₀.pair⟩⟩
    · rw [if_neg, hc]
      rintro rfl
      rw [hfresh] at hc
      cases hc
    · split at hc
      · cases hc
        refine .inr ⟨?_, hc₀.pair, ?_⟩
        · rw [hc₀.pair]
          exact hc₀
        · rw [hc₀.pair]
          exact hl
      · exact .inl hc

theorem Begun.of_scene (hs : SameScene w w') {p : Pair} {c : Contact α} (h : w'.Begun p c) :
    w.Begun p c := by
  refine ⟨h.pair, (hs.allows_iff p).1 h.allows, h.fresh, ?_⟩
  rw [← hs.colliders]
  exact h.joins

theorem paired_begins (hw : w.Wf) (ps : List Pair) :
    Paired (fun _ ↦ False) (· ∈ ps) w ((ps.map .begins).foldl handleEvent w) := by
  induction ps generalizing w with
  | nil => exact ⟨hw, .refl w, by simp, by simp, by simp⟩
  | cons p ps ih =>
    rw [List.map_cons, List.foldl_cons]
    change Paired _ _ w ((ps.map .begins).foldl handleEvent (w.createContact p))
    have hs := sameScene_createContact hw p
    have h₁ := ih (wf_createContact hw p)
    obtain ⟨hkept, horigin, hlive⟩ := get?_createContact hw p
    refine ⟨h₁.wf, hs.trans h₁.scene, ?_, ?_, ?_⟩
    · intro h c hc _
      exact h₁.kept h c (hkept h c hc) id
    · intro h c hc
      obtain ⟨hc, -⟩ | ⟨hb, hB, hn⟩ := h₁.origin h c hc
      · obtain hc | ⟨hb, hp, hn⟩ := horigin h c hc
        · exact .inl ⟨hc, id⟩
        · exact .inr ⟨hb, hp ▸ List.mem_cons_self, hn⟩
      · refine .inr ⟨.of_scene hs hb, List.mem_cons_of_mem _ hB, ?_⟩
        rintro ⟨h', c', hc', hp'⟩
        exact hn ⟨h', c', hkept h' c' hc', hp'⟩
    · intro q hq hqa hqr
      obtain rfl | hq := List.mem_cons.1 hq
      · obtain ⟨h, c, hc, hp⟩ := hlive hqa hqr
        exact ⟨h, c, h₁.kept h c hc id, hp⟩
      · exact h₁.begun q hq ((hs.allows_iff q).2 hqa) ((hs.hasRule_iff q).2 hqr)

theorem Paired.trans {E B : Pair → Prop} {w'' : World α σ}
    (h : Paired E (fun _ ↦ False) w w') (h' : Paired (fun _ ↦ False) B w' w'')
    (hd : ∀ p, B p → ¬ E p) : Paired E B w w'' where
  wf := h'.wf
  scene := h.scene.trans h'.scene
  kept i c hc hE := h'.kept i c (h.kept i c hc hE) id
  origin i c hc := by
    obtain ⟨hc, -⟩ | ⟨hb, hB, hn⟩ := h'.origin i c hc
    · obtain ⟨hc, hE⟩ | ⟨-, hF, -⟩ := h.origin i c hc
      · exact .inl ⟨hc, hE⟩
      · exact hF.elim
    · refine .inr ⟨.of_scene h.scene hb, hB, ?_⟩
      rintro ⟨i', c', hc', hp'⟩
      refine (hn ⟨i', c', h.kept i' c' hc' ?_, hp'⟩).elim
      rw [hp']
      exact hd _ hB
  begun p hp ha hr := h'.begun p hp ((h.scene.allows_iff p).2 ha) ((h.scene.hasRule_iff p).2 hr)

/-! ## The whole update -/

/-- The world with its grid brought up to date, before contacts follow. -/
def regrid (w : World α σ) : World α σ :=
  { w.syncBoxes with grid := { w.syncBoxes.grid with pairs := w.near } }

theorem updatePairs_eq : w.updatePairs =
    ((w.near.diff w.grid.pairs).toList.map .begins).foldl handleEvent
      (((w.grid.pairs.diff w.near).toList.map .ends).foldl handleEvent w.regrid) := by
  rw [← List.foldl_append, ← sameButBoxes_syncBoxes.pairs]
  rfl

/-- Only the grid differs. -/
structure SameButGrid (w w' : World α σ) : Prop where
  bodies : w'.bodies = w.bodies
  colliders : w'.colliders = w.colliders
  contacts : w'.contacts = w.contacts
  listener : w'.listener = w.listener
  settings : w'.settings = w.settings
  previousDt : w'.previousDt = w.previousDt

theorem sameButGrid_regrid : SameButGrid w w.regrid := by
  have h := sameButBoxes_syncBoxes (w := w)
  rw [regrid]
  exact ⟨h.bodies, h.colliders, h.contacts, h.listener, h.settings, h.previousDt⟩

theorem pairs_regrid : w.regrid.grid.pairs = w.near := by rw [regrid]

theorem overlapping_regrid : w.regrid.grid.overlapping = w.near := by
  rw [regrid, near]
  rfl

theorem box?_regrid (i : ColliderId) : w.regrid.grid.box? i = w.syncBoxes.grid.box? i := by
  rw [regrid]
  rfl

namespace SameButGrid

omit [Scalar α] in
theorem allows_iff (h : SameButGrid w w') (p : Pair) : w'.Allows p ↔ w.Allows p := by
  rw [Allows, Allows, mayTouch, mayTouch, h.bodies, h.colliders]

theorem hasRule_iff (h : SameButGrid w w') (p : Pair) : w'.HasRule p ↔ w.HasRule p := by
  rw [HasRule, HasRule, h.colliders]

end SameButGrid

theorem wf_regrid (hw : w.Wf) : w.regrid.Wf := by
  have h := sameButGrid_regrid (w := w)
  constructor
  · rw [h.contacts]
    exact hw.registry
  · rw [h.contacts]
    exact hw.rules
  · rw [h.colliders, h.bodies]
    exact hw.owned
  · rw [h.colliders, h.contacts]
    exact hw.joins
  · rw [h.colliders]
    intro i b hb
    rw [box?_regrid] at hb
    exact box_lt_syncBoxes hw hb
  · rw [h.colliders, pairs_regrid]
    intro p hp
    exact near_hi_lt hw hp

/-- A pair that was remembered and is not near loses its contact, and a pair that is near and was
not remembered gets one if it can. -/
theorem paired_updatePairs (hw : w.Wf) :
    Paired (fun p ↦ p ∈ w.grid.pairs ∧ p ∉ w.near) (fun p ↦ p ∈ w.near ∧ p ∉ w.grid.pairs)
      w.regrid w.updatePairs := by
  have hends := paired_ends (wf_regrid hw) (w.grid.pairs.diff w.near).toList
  have hbegins := paired_begins hends.wf (w.near.diff w.grid.pairs).toList
  rw [updatePairs_eq]
  simp only [← PairSet.mem_def, PairSet.mem_diff] at hends hbegins
  exact hends.trans hbegins fun p hp hE ↦ hE.2 hp.1

end World

end PlanarDynamics
