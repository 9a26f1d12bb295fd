import PlanarDynamics.Proofs.World.Renewal

/-!
# Steps and runs

Solving and moving leaves the contacts of a world what they are and where they are, so a step is
known by its first two parts.  `World.live_step_iff` sums them up: which pairs have a contact after
a step.  With what changes between steps do, this makes `World.Wf` and `World.Tracks` hold of every
world that a caller can bring about.
-/

namespace PlanarDynamics

namespace World

variable {α σ : Type} [Scalar α] {w w' : World α σ}

/-! ## Motion -/

/-- Motion changes where bodies are and how hard contacts push. -/
structure Moved (w w' : World α σ) : Prop where
  colliders : w'.colliders = w.colliders
  grid : w'.grid = w.grid
  contacts : w.contacts.Alike w'.contacts
  roster : SameRoster w.bodies w'.bodies

namespace Moved

variable {w'' : World α σ}

theorem refl (w : World α σ) : Moved w w := ⟨rfl, rfl, .refl _, .refl _⟩

theorem trans (h : Moved w w') (h' : Moved w' w'') : Moved w w'' :=
  ⟨h'.colliders.trans h.colliders, h'.grid.trans h.grid, h.contacts.trans h'.contacts,
    h.roster.trans h'.roster⟩

/-- What moves bodies for each element moves them for a whole list. -/
theorem foldl {β : Type} {f : World α σ → β → World α σ} (hf : ∀ w b, Moved w (f w b))
    (l : List β) (w : World α σ) : Moved w (l.foldl f w) := by
  induction l generalizing w with
  | nil => exact .refl w
  | cons b l ih => exact (hf w b).trans (ih _)

theorem allows_iff (h : Moved w w') (p : Pair) : w'.Allows p ↔ w.Allows p := by
  have hs : ∀ i, w'.standing i = w.standing i := fun i ↦
    standing_congr (by rw [h.colliders]) h.roster.kind
  rw [Allows, Allows, mayTouch_congr (hs _) (hs _)]

theorem hasRule_iff (h : Moved w w') (p : Pair) : w'.HasRule p ↔ w.HasRule p := by
  rw [HasRule, HasRule, h.colliders]

protected theorem wf (h : Moved w w') (hw : w.Wf) : w'.Wf where
  registry := h.contacts.wf hw.registry
  rules := h.contacts.rules.trans hw.rules
  owned i c hc := by
    rw [h.colliders] at hc
    obtain ⟨b, body, hcb, hbody, hmem⟩ := hw.owned i c hc
    obtain ⟨body', hbody', -, hlist⟩ := h.roster.exists_of_mem hbody
    exact ⟨b, body', hcb, hbody', hlist ▸ hmem⟩
  joins i c' hc' := by
    obtain ⟨c, hc, hs⟩ := h.contacts.get?_eq_some hc'
    obtain ⟨a, b, ha, hb, hj⟩ := hw.joins i c hc
    have hbase := Contact.base_eq_of_status hs
    have hj' := hj.of_base hbase
    simp only [Contact.base, Contact.mk.injEq] at hbase
    rw [hbase.1, hbase.2.1, h.colliders]
    exact ⟨a, b, ha, hb, hj'⟩
  box_lt := by
    rw [h.grid, h.colliders]
    exact hw.box_lt
  pair_lt := by
    rw [h.grid, h.colliders]
    exact hw.pair_lt

theorem touches (h : Moved w w') {p : Pair} (ht : w.Touches p) : w'.Touches p := by
  obtain ⟨i, c, hc, rfl, ht⟩ := ht
  have hs := h.contacts.status i
  rw [hc, Option.map_some, Option.map_eq_some_iff] at hs
  obtain ⟨c', hc', hs⟩ := hs
  exact ⟨i, c', hc', Contact.pair_eq_of_base (Contact.base_eq_of_status hs),
    (Contact.touching_eq_of_status hs).trans ht⟩

end Moved

theorem moved_commitImpulse (e : Handle × ContactImpulse α) : Moved w (w.commitImpulse e) := by
  simp only [commitImpulse]
  split
  · exact .refl w
  next c hc => exact ⟨rfl, rfl, .setContact hc rfl, .refl _⟩

theorem moved_commit (s : Solution α) : Moved w (w.commit s) := by
  -- The bodies of an island are put in place first, then the impulses of its contacts are kept.
  have hb : SameRoster w.bodies (s.bodies.foldl
      (fun bodies e ↦ bodies.modify e.1 fun b ↦ b.moveTo e.2.1 e.2.2) w.bodies) := by
    refine SameRoster.foldl (fun bodies e ↦ ?_) _ _
    exact .modify bodies e.1 (fun _ ↦ rfl) fun _ ↦ rfl
  have h₁ : Moved w { w with
      bodies := s.bodies.foldl
        (fun bodies e ↦ bodies.modify e.1 fun b ↦ b.moveTo e.2.1 e.2.2) w.bodies } :=
    ⟨rfl, rfl, .refl _, hb⟩
  exact h₁.trans (Moved.foldl (fun _ e ↦ moved_commitImpulse e) s.impulses _)

theorem moved_move {dt : α} (h : w.move dt = .ok w') : Moved w w' := by
  simp only [move, bind, Except.bind] at h
  split at h
  · cases h
  next solutions _ =>
    cases h
    have hc : Moved w (solutions.foldl commit w) :=
      Moved.foldl (fun _ s ↦ moved_commit s) solutions w
    refine hc.trans ⟨rfl, rfl, .refl _, fun i ↦ ?_⟩
    rw [Array.getElem?_map, Option.map_map]
    rfl

/-! ## A step -/

/-- A step of this length is carried out; others are ignored. -/
def Valid (dt : α) : Prop := 0 < dt ∧ Scalar.isFinite dt = true

theorem wf_updatePairs (hw : w.Wf) : w.updatePairs.Wf := (paired_updatePairs hw).wf

theorem step_of_valid {dt : α} (hdt : Valid dt) :
    w.step dt = w.updatePairs.updateContacts >>= (·.move dt) :=
  if_pos hdt

theorem step_of_not_valid {dt : α} (hdt : ¬ Valid dt) : w.step dt = .ok w :=
  if_neg hdt

theorem moved_step (hw : w.Wf) {dt : α} (hdt : Valid dt) (h : w.step dt = .ok w') :
    Moved w.updatePairs.refreshed w' := by
  rw [step_of_valid hdt, updateContacts_eq (wf_updatePairs hw)] at h
  simp only [bind, Except.bind] at h
  exact moved_move h

theorem wf_step (hw : w.Wf) {dt : α} (h : w.step dt = .ok w') : w'.Wf := by
  by_cases hdt : Valid dt
  · exact (moved_step hw hdt h).wf (wf_refreshed (wf_updatePairs hw))
  · rw [step_of_not_valid hdt] at h
    cases h
    exact hw

/-- The contacts after a step are those that came out of the pair events and were not put aside. -/
theorem get?_step (hw : w.Wf) {dt : α} (hdt : Valid dt) (h : w.step dt = .ok w') (i : Handle) :
    (w'.contacts.get? i).map Contact.status = (w.updatePairs.contacts.get? i).bind fun c ↦
      if w.updatePairs.refuses c then none else some (w.updatePairs.renewed c).status := by
  have hr := congrArg (Option.map Contact.status) (get?_refreshed (wf_updatePairs hw) i)
  rw [(moved_step hw hdt h).contacts.status]
  rw [Option.map_map] at hr
  refine Eq.trans (Eq.symm ?_) (hr.trans ?_)
  · rfl
  · cases w.updatePairs.contacts.get? i with
    | none => rfl
    | some c =>
      rw [Option.bind_some, Option.bind_some]
      split <;> rfl

/-- The first two parts of a step change the grid and the contacts. -/
theorem sameScene_updated (hw : w.Wf) : SameScene w.regrid w.updatePairs.refreshed :=
  (paired_updatePairs hw).scene.trans (sameScene_refreshed (wf_updatePairs hw))

theorem bodies_updated (hw : w.Wf) : w.updatePairs.refreshed.bodies = w.bodies :=
  (sameScene_updated hw).bodies.trans sameButGrid_regrid.bodies

theorem colliders_updated (hw : w.Wf) : w.updatePairs.refreshed.colliders = w.colliders :=
  (sameScene_updated hw).colliders.trans sameButGrid_regrid.colliders

theorem grid_step (hw : w.Wf) {dt : α} (hdt : Valid dt) (h : w.step dt = .ok w') :
    w'.grid = w.regrid.grid :=
  (moved_step hw hdt h).grid.trans (sameScene_updated hw).grid

theorem pairs_step (hw : w.Wf) {dt : α} (hdt : Valid dt) (h : w.step dt = .ok w') :
    w'.grid.pairs = w.near := by
  rw [grid_step hw hdt h, pairs_regrid]

theorem allows_updatePairs (hw : w.Wf) (p : Pair) : w.updatePairs.Allows p ↔ w.Allows p :=
  ((paired_updatePairs hw).scene.allows_iff p).trans (sameButGrid_regrid.allows_iff p)

theorem allows_step (hw : w.Wf) {dt : α} (hdt : Valid dt) (h : w.step dt = .ok w') (p : Pair) :
    w'.Allows p ↔ w.Allows p :=
  ((moved_step hw hdt h).allows_iff p).trans
    (((sameScene_updated hw).allows_iff p).trans (sameButGrid_regrid.allows_iff p))

theorem hasRule_step (hw : w.Wf) {dt : α} (hdt : Valid dt) (h : w.step dt = .ok w') (p : Pair) :
    w'.HasRule p ↔ w.HasRule p :=
  ((moved_step hw hdt h).hasRule_iff p).trans
    (((sameScene_updated hw).hasRule_iff p).trans (sameButGrid_regrid.hasRule_iff p))

omit [Scalar α] in
theorem refuses_eq_false_iff {c : Contact α} :
    w.refuses c = false ↔ c.needsFiltering = false ∨ w.Allows c.pair := by
  rw [allows_pair, refuses]
  cases c.needsFiltering <;> simp

theorem exists_get?_step (hw : w.Wf) {dt : α} (hdt : Valid dt) (h : w.step dt = .ok w')
    {i : Handle} {c : Contact α} (hc : w.updatePairs.contacts.get? i = some c)
    (hr : w.updatePairs.refuses c = false) :
    ∃ c', w'.contacts.get? i = some c' ∧ c'.status = (w.updatePairs.renewed c).status := by
  have hs := get?_step hw hdt h i
  rw [hc, Option.bind_some, if_neg (by simp [hr]), Option.map_eq_some_iff] at hs
  exact hs

theorem get?_step_eq_some (hw : w.Wf) {dt : α} (hdt : Valid dt) (h : w.step dt = .ok w')
    {i : Handle} {c' : Contact α} (hc' : w'.contacts.get? i = some c') :
    ∃ c, w.updatePairs.contacts.get? i = some c ∧ w.updatePairs.refuses c = false ∧
      c'.status = (w.updatePairs.renewed c).status := by
  have hs := get?_step hw hdt h i
  rw [hc', Option.map_some, eq_comm, Option.bind_eq_some_iff] at hs
  obtain ⟨c, hc, he⟩ := hs
  split at he
  · cases he
  next hr => exact ⟨c, hc, by simpa using hr, (Option.some.inj he).symm⟩

theorem pair_of_status_renewed {c c' : Contact α} (h : c'.status = (w.renewed c).status) :
    c'.pair = c.pair :=
  Contact.pair_eq_of_base ((Contact.base_eq_of_status h).trans (base_renewed c))

/-- All kinds of shapes have a rule, but for two edges. -/
theorem rule?_standard_eq_none_iff (x y : ShapeKind) :
    (RuleTable.standard (α := α)).rule? x y = none ↔ x = .edge ∧ y = .edge := by
  cases x <;> cases y <;> simp [RuleTable.standard, RuleTable.register, RuleTable.empty]

/-- The shapes of a contact have a rule. -/
theorem hasRule_of_joins {c : Contact α} {a b : Collider α}
    (ha : w.colliders[c.colliderA]? = some a) (hb : w.colliders[c.colliderB]? = some b)
    (hj : c.Joins .standard a b) : w.HasRule c.pair := by
  have hab : ¬ (a.kind = .edge ∧ b.kind = .edge) := by
    rw [← rule?_standard_eq_none_iff (α := α), hj.rule]
    exact Option.some_ne_none _
  simp only [HasRule, Contact.pair, Pair.of, ne_eq, rule?_standard_eq_none_iff]
  split
  · exact ⟨a, b, ha, hb, hab⟩
  · exact ⟨b, a, hb, ha, fun hn ↦ hab hn.symm⟩

/-- A contact that comes out of the pair events and is not put aside joins colliders that may touch,
and it was there before or has just begun. -/
theorem allows_of_get?_updatePairs (hw : w.Wf) (ht : w.Tracks) {i : Handle} {c : Contact α}
    (hc : w.updatePairs.contacts.get? i = some c) (hr : w.updatePairs.refuses c = false) :
    w.Allows c.pair ∧ (w.Live c.pair ∧ (c.pair ∈ w.grid.pairs → c.pair ∈ w.near) ∨
      (c.pair ∈ w.near ∧ c.pair ∉ w.grid.pairs) ∧ w.HasRule c.pair) := by
  have hgrid := sameButGrid_regrid (w := w)
  obtain ⟨hold, hE⟩ | ⟨hb, hB, -⟩ := (paired_updatePairs hw).origin i c hc
  · rw [hgrid.contacts] at hold
    refine ⟨?_, .inl ⟨⟨i, c, hold, rfl⟩, fun hp ↦ by_contra fun hn ↦ hE ⟨hp, hn⟩⟩⟩
    obtain hf | ha := refuses_eq_false_iff.1 hr
    · exact ht.allowed i c hold hf
    · exact (allows_updatePairs hw _).1 ha
  · obtain ⟨a, b, ha, hb', hj⟩ := hb.joins
    rw [hgrid.colliders] at ha hb'
    exact ⟨(hgrid.allows_iff _).1 hb.allows, .inr ⟨hB, hasRule_of_joins ha hb' hj⟩⟩

/-- Conversely, such pairs have a contact after the pair events. -/
theorem live_updatePairs (hw : w.Wf) {p : Pair} (ha : w.Allows p)
    (h : w.Live p ∧ (p ∈ w.grid.pairs → p ∈ w.near) ∨
      (p ∈ w.near ∧ p ∉ w.grid.pairs) ∧ w.HasRule p) : w.updatePairs.Live p := by
  have hpair := paired_updatePairs hw
  have hgrid := sameButGrid_regrid (w := w)
  obtain ⟨⟨i, c, hc, hp⟩, hE⟩ | ⟨hB, hr⟩ := h
  · rw [← hgrid.contacts] at hc
    exact ⟨i, c, hpair.kept i c hc (fun hn ↦ hn.2 (hp ▸ hE (hp ▸ hn.1))), hp⟩
  · exact hpair.begun p hB ((hgrid.allows_iff p).2 ha) ((hgrid.hasRule_iff p).2 hr)

/-- A pair that is near and can have a contact has one after the pair events. -/
theorem live_updatePairs_of_near (hw : w.Wf) (ht : w.Tracks) {p : Pair} (hp : p ∈ w.near)
    (ha : w.Allows p) (hr : w.HasRule p) : w.updatePairs.Live p := by
  refine live_updatePairs hw ha ?_
  by_cases hold : p ∈ w.grid.pairs
  · exact .inl ⟨ht.live p hold ha hr, fun _ ↦ hp⟩
  · exact .inr ⟨⟨hp, hold⟩, hr⟩

/-- The rest of the step leaves the contact of a pair whose colliders may touch. -/
theorem live_step (hw : w.Wf) {dt : α} (hdt : Valid dt) (h : w.step dt = .ok w') {p : Pair}
    (hp : w.updatePairs.Live p) (ha : w.Allows p) : w'.Live p := by
  obtain ⟨i, c, hc, rfl⟩ := hp
  obtain ⟨c', hc', hs⟩ := exists_get?_step hw hdt h hc
    (refuses_eq_false_iff.2 (.inr ((allows_updatePairs hw _).2 ha)))
  exact ⟨i, c', hc', pair_of_status_renewed hs⟩

/-- **Which pairs have a contact after a step.** Their colliders may touch; and either there was a
contact before and the grid has no end of the pair to report, or the pair has just come near. -/
theorem live_step_iff (hw : w.Wf) (ht : w.Tracks) {dt : α} (hdt : Valid dt)
    (h : w.step dt = .ok w') (p : Pair) :
    w'.Live p ↔ w.Allows p ∧ (w.Live p ∧ (p ∈ w.grid.pairs → p ∈ w.near) ∨
      (p ∈ w.near ∧ p ∉ w.grid.pairs) ∧ w.HasRule p) := by
  constructor
  · rintro ⟨i, c', hc', rfl⟩
    obtain ⟨c, hc, hr, hs⟩ := get?_step_eq_some hw hdt h hc'
    rw [pair_of_status_renewed hs]
    exact allows_of_get?_updatePairs hw ht hc hr
  · rintro ⟨ha, hlive⟩
    exact live_step hw hdt h (live_updatePairs hw ha hlive) ha

/-- No mark is left after a step. -/
theorem needsFiltering_step (hw : w.Wf) {dt : α} (hdt : Valid dt) (h : w.step dt = .ok w')
    {i : Handle} {c' : Contact α} (hc' : w'.contacts.get? i = some c') :
    c'.needsFiltering = false := by
  obtain ⟨c, -, -, hs⟩ := get?_step_eq_some hw hdt h hc'
  rw [Contact.needsFiltering_eq_of_status hs, needsFiltering_renewed]

theorem tracks_step (hw : w.Wf) (ht : w.Tracks) {dt : α} (h : w.step dt = .ok w') : w'.Tracks := by
  by_cases hdt : Valid dt
  · constructor
    · intro i c hc _
      rw [allows_step hw hdt h]
      exact ((live_step_iff hw ht hdt h c.pair).1 ⟨i, c, hc, rfl⟩).1
    · intro p hp ha hr
      rw [pairs_step hw hdt h] at hp
      rw [allows_step hw hdt h] at ha
      rw [hasRule_step hw hdt h] at hr
      exact live_step hw hdt h (live_updatePairs_of_near hw ht hp ha hr) ha
  · rw [step_of_not_valid hdt] at h
    cases h
    exact ht

/-! ## Runs -/

/-- A new world is empty. -/
theorem ofSettings_eq_ok_iff {s : WorldSettings α} : ofSettings s = .ok w ↔ 0 < s.cellSize ∧ w =
    { bodies := #[], colliders := #[], contacts := .ofSettings s
      grid := ⟨1 / s.cellSize, Scalar.max s.boxMargin 0, ∅, .empty⟩
      settings := s, listener := none, previousDt := 0 } := by
  by_cases hs : 0 < s.cellSize
  · simp only [ofSettings, Grid.ofCellSize, hs, if_true, true_and]
    exact ⟨fun h ↦ (Except.ok.inj h).symm, fun h ↦ congrArg Except.ok h.symm⟩
  · simp only [ofSettings, Grid.ofCellSize, hs, if_false, false_and, iff_false]
    exact fun h ↦ nomatch h

/-- A new world has no contacts and remembers no pairs. -/
theorem ofSettings_eq_ok {s : WorldSettings α} (h : ofSettings s = .ok w) :
    (∀ i, w.contacts.get? i = none) ∧ ∀ p, p ∉ w.grid.pairs := by
  obtain ⟨-, rfl⟩ := ofSettings_eq_ok_iff.1 h
  refine ⟨fun i ↦ ?_, PairSet.not_mem_empty⟩
  simp [Registry.ofSettings, Registry.empty, Registry.get?]

theorem wf_ofSettings {s : WorldSettings α} (h : ofSettings s = .ok w) : w.Wf := by
  obtain ⟨hc, hp⟩ := ofSettings_eq_ok h
  obtain ⟨-, rfl⟩ := ofSettings_eq_ok_iff.1 h
  constructor
  · exact Registry.wf_empty _ _ _
  · rfl
  · intro i c hi
    simp at hi
  · intro i c hi
    rw [hc] at hi
    cases hi
  · intro i b hb
    simp [Grid.box?] at hb
  · intro p hmem
    exact absurd hmem (hp p)

theorem tracks_ofSettings {s : WorldSettings α} (h : ofSettings s = .ok w) : w.Tracks := by
  obtain ⟨hc, hp⟩ := ofSettings_eq_ok h
  constructor
  · intro i c hi
    rw [hc] at hi
    cases hi
  · intro p hmem
    exact absurd hmem (hp p)

omit [Scalar α] in
theorem frame_foldl_recheck (cs : List ColliderId) (w : World α σ) :
    (cs.foldl recheck w).grid.scale = w.grid.scale ∧
      (cs.foldl recheck w).grid.margin = w.grid.margin ∧
      (cs.foldl recheck w).listener = w.listener ∧
      (cs.foldl recheck w).colliders = w.colliders := by
  induction cs generalizing w with
  | nil => exact ⟨rfl, rfl, rfl, rfl⟩
  | cons c cs ih => exact ih (w.recheck c)

/-- What an action between steps leaves alone: the measures of the grid, the listener unless it is
changed, and the number of colliders unless one is added. -/
structure Frame (a : Action α σ) (w w' : World α σ) : Prop where
  scale : w'.grid.scale = w.grid.scale
  margin : w'.grid.margin = w.grid.margin
  listener : a.isSetListener = false → w'.listener = w.listener
  colliders : ∀ (i : ColliderId) (c' : Collider α), w'.colliders[i]? = some c' →
    i < w.colliders.size ∨ ∃ b c, a = .addCollider b c ∧ c' = { c with body := some b }

omit [Scalar α] in
theorem Frame.of_size {a : Action α σ} (hscale : w'.grid.scale = w.grid.scale)
    (hmargin : w'.grid.margin = w.grid.margin)
    (hl : a.isSetListener = false → w'.listener = w.listener)
    (hsize : w'.colliders.size = w.colliders.size) : Frame a w w' :=
  ⟨hscale, hmargin, hl, fun _ _ hc ↦ .inl (hsize ▸ (Array.getElem?_eq_some_iff.1 hc).1)⟩

theorem frame_act {a : Action α σ} (ha : a.isStep = false) (h : w.act a = .ok w') :
    Frame a w w' := by
  have hself : Frame a w w := .of_size rfl rfl (fun _ ↦ rfl) rfl
  cases a with
  | addBody b =>
    cases h
    exact .of_size rfl rfl (fun _ ↦ rfl) rfl
  | addCollider b c =>
    cases h
    simp only [addCollider]
    split
    · obtain ⟨hm, hs⟩ := margin_syncBox (w := w) w.colliders.size { c with body := some b }
      refine ⟨hs, hm, fun _ ↦ rfl, fun i c' hc ↦ ?_⟩
      simp only [Except.map, Except.toOption, Option.getD_some, refreshMass,
        Array.getElem?_push] at hc
      split at hc
      · exact .inr ⟨b, c, rfl, (Option.some.inj hc).symm⟩
      · exact .inl (Array.getElem?_eq_some_iff.1 hc).1
    · exact hself
  | setFilter i f =>
    cases h
    simp only [setFilter]
    split
    · exact .of_size rfl rfl (fun _ ↦ rfl) Array.size_modify
    · exact hself
  | setMaterial i m =>
    cases h
    simp only [setMaterial, bind, Except.bind, pure, Except.pure]
    split
    · exact hself
    · split
      · exact hself
      · dsimp only [Except.toOption, Option.getD_some]
        split <;> exact .of_size rfl rfl (fun _ ↦ rfl) Array.size_modify
  | setKind i k =>
    cases h
    simp only [setKind]
    split
    · exact hself
    · split
      · exact hself
      · obtain ⟨hs, hm, hl, hc⟩ := frame_foldl_recheck _ _
        exact .of_size hs hm (fun _ ↦ hl) (congrArg Array.size hc)
  | editBody i f =>
    cases h
    exact .of_size rfl rfl (fun _ ↦ rfl) rfl
  | changeSettings s =>
    cases h
    exact .of_size rfl rfl (fun _ ↦ rfl) rfl
  | setListener l =>
    cases h
    refine .of_size rfl rfl (fun hl ↦ ?_) rfl
    cases hl
  | step dt => cases ha

theorem measures_step (hw : w.Wf) {dt : α} (h : w.step dt = .ok w') :
    w'.grid.scale = w.grid.scale ∧ w'.grid.margin = w.grid.margin := by
  by_cases hdt : Valid dt
  · have hb := sameButBoxes_syncBoxes (w := w)
    rw [grid_step hw hdt h, regrid]
    exact ⟨hb.scale, hb.margin⟩
  · rw [step_of_not_valid hdt] at h
    cases h
    exact ⟨rfl, rfl⟩

theorem wf_act (hw : w.Wf) {a : Action α σ} (h : w.act a = .ok w') : w'.Wf := by
  cases a using Action.step_or_change with
  | step dt => exact wf_step hw h
  | change a ha => exact (edits_act hw ha h).wf hw

theorem tracks_act (hw : w.Wf) (ht : w.Tracks) {a : Action α σ} (h : w.act a = .ok w') :
    w'.Tracks := by
  cases a using Action.step_or_change with
  | step dt => exact tracks_step hw ht h
  | change a ha => exact (edits_act hw ha h).tracks hw ht

theorem measures_act (hw : w.Wf) {a : Action α σ} (h : w.act a = .ok w') :
    w'.grid.scale = w.grid.scale ∧ w'.grid.margin = w.grid.margin := by
  cases a using Action.step_or_change with
  | step dt => exact measures_step hw h
  | change a ha => exact ⟨(frame_act ha h).scale, (frame_act ha h).margin⟩

theorem run_cons {a : Action α σ} {as : List (Action α σ)} :
    w.run (a :: as) = .ok w' ↔ ∃ w₁, w.act a = .ok w₁ ∧ w₁.run as = .ok w' := by
  rw [run, List.foldlM_cons]
  cases w.act a with
  | error e => simp [bind, Except.bind]
  | ok w₁ => simp [bind, Except.bind, run]

theorem run_append {as bs : List (Action α σ)} :
    w.run (as ++ bs) = .ok w' ↔ ∃ w₁, w.run as = .ok w₁ ∧ w₁.run bs = .ok w' := by
  induction as generalizing w with
  | nil => simp [run, pure, Except.pure]
  | cons a as ih =>
    rw [List.cons_append, run_cons]
    constructor
    · rintro ⟨w₁, ha, hr⟩
      obtain ⟨w₂, has, hbs⟩ := ih.1 hr
      exact ⟨w₂, run_cons.2 ⟨w₁, ha, has⟩, hbs⟩
    · rintro ⟨w₂, has, hbs⟩
      obtain ⟨w₁, ha, hr⟩ := run_cons.1 has
      exact ⟨w₁, ha, ih.2 ⟨w₂, hr, hbs⟩⟩

theorem run_singleton {a : Action α σ} : w.run [a] = .ok w' ↔ w.act a = .ok w' := by
  rw [run_cons]
  simp [run, pure, Except.pure]

/-- What each action keeps, a run keeps. -/
theorem run_induction {P : World α σ → Prop} {as : List (Action α σ)} (h₀ : P w)
    (hact : ∀ w w' a, a ∈ as → P w → w.act a = .ok w' → P w') (h : w.run as = .ok w') : P w' := by
  induction as generalizing w with
  | nil =>
    cases h
    exact h₀
  | cons a as ih =>
    obtain ⟨w₁, ha, hr⟩ := run_cons.1 h
    exact ih (hact w w₁ a List.mem_cons_self h₀ ha)
      (fun w w' b hb ↦ hact w w' b (List.mem_cons_of_mem _ hb)) hr

/-- Between calls a world has sound references, and its contacts are on track. -/
structure Sound (w : World α σ) : Prop where
  wf : w.Wf
  tracks : w.Tracks

theorem sound_ofSettings {s : WorldSettings α} (h : ofSettings s = .ok w) : w.Sound :=
  ⟨wf_ofSettings h, tracks_ofSettings h⟩

theorem Sound.act (hw : w.Sound) {a : Action α σ} (h : w.act a = .ok w') : w'.Sound :=
  ⟨wf_act hw.wf h, tracks_act hw.wf hw.tracks h⟩

theorem Sound.run (hw : w.Sound) {as : List (Action α σ)} (h : w.run as = .ok w') : w'.Sound :=
  run_induction hw (fun _ _ _ _ hw ha ↦ hw.act ha) h

/-- The measures of the grid are fixed with the world. -/
theorem measures_run (hw : w.Wf) {as : List (Action α σ)} (h : w.run as = .ok w') :
    w'.grid.scale = w.grid.scale ∧ w'.grid.margin = w.grid.margin := by
  refine (run_induction (P := fun w' ↦ w'.Wf ∧ w'.grid.scale = w.grid.scale ∧
    w'.grid.margin = w.grid.margin) ⟨hw, rfl, rfl⟩ ?_ h).2
  rintro w₁ w₂ a - ⟨hw₁, hscale, hmargin⟩ ha
  obtain ⟨hs, hm⟩ := measures_act hw₁ ha
  exact ⟨wf_act hw₁ ha, hs.trans hscale, hm.trans hmargin⟩

/-- The worlds that a caller can bring about. -/
def Reachable (w : World α σ) : Prop :=
  ∃ s actions w₀, ofSettings s = .ok w₀ ∧ w₀.run actions = .ok w

theorem Reachable.sound (h : w.Reachable) : w.Sound := by
  obtain ⟨s, actions, w₀, h₀, hr⟩ := h
  exact (sound_ofSettings h₀).run hr

theorem Reachable.act (h : w.Reachable) {a : Action α σ} (ha : w.act a = .ok w') :
    w'.Reachable := by
  obtain ⟨s, actions, w₀, h₀, hr⟩ := h
  exact ⟨s, actions ++ [a], w₀, h₀, run_append.2 ⟨w, hr, run_singleton.2 ha⟩⟩

theorem Reachable.run (h : w.Reachable) {actions : List (Action α σ)}
    (hr : w.run actions = .ok w') : w'.Reachable :=
  run_induction h (fun _ _ _ _ hw ha ↦ hw.act ha) hr

/-- What holds of new worlds and is kept by each action holds of all worlds that can be brought
about. -/
theorem Reachable.induct {P : World α σ → Prop} (h : w.Reachable)
    (hnew : ∀ s (w : World α σ), ofSettings s = .ok w → P w)
    (hact : ∀ (w w' : World α σ) a, w.Wf → P w → w.act a = .ok w' → P w') : P w := by
  obtain ⟨s, actions, w₀, h₀, hr⟩ := h
  refine (run_induction (P := fun w ↦ w.Wf ∧ P w) ⟨wf_ofSettings h₀, hnew s w₀ h₀⟩ ?_ hr).2
  rintro w w' a - ⟨hw, hP⟩ ha
  exact ⟨wf_act hw ha, hact w w' a hw hP ha⟩

end World

end PlanarDynamics
