import PlanarDynamics.Proofs.World.Sensor

/-!
# How long contacts live

A contact begins when the grid reports that its pair has come near, and should end when the grid
reports that it has come apart.  The report of an end compares the pairs that are near with those
that the grid remembers; a change of filter or of body kind makes the grid forget the pairs of a
collider, so that they begin anew.  If a pair is forgotten and comes apart before the next step,
nobody reports its end, and its contact lives on until the pair is near again or may no longer
touch.  `World.outlives_pair_iff` says that contacts outlive their pairs in this way and no other.
-/

namespace PlanarDynamics

namespace World

variable {α σ : Type} [Scalar α] {w w' : World α σ} {p : Pair}

/-! ## Stray contacts -/

/-- There is a contact of a pair that the grid does not remember. -/
def Stray (w : World α σ) (p : Pair) : Prop := w.Live p ∧ p ∉ w.grid.pairs

/-- The colliders of a pair may touch, but are not near each other. -/
def Parted (p : Pair) (w : World α σ) : Prop := w.Allows p ∧ p ∉ w.near

/-- The grid remembers a pair that has a contact, and the action makes it forget the pair. -/
def Forgets (w : World α σ) (a : Action α σ) (p : Pair) : Prop :=
  w.Live p ∧ p ∈ w.grid.pairs ∧ p.meets (a.rechecks w) = true

/-- A change leaves stray contacts stray, and makes one for each pair with a contact that it has
the grid forget. -/
theorem Edits.stray_iff {a : Action α σ} (h : Edits (a.rechecks w) w w') :
    w'.Stray p ↔ w.Stray p ∨ w.Forgets a p := by
  rw [Stray, Stray, Forgets, h.live_iff, h.pairs]
  cases p.meets (a.rechecks w) <;> tauto

/-- A step leaves a contact stray exactly if its pair is parted. -/
theorem stray_step_iff (hw : w.Sound) {dt : α} (hdt : Valid dt) (h : w.step dt = .ok w') :
    w'.Stray p ↔ w.Stray p ∧ Parted p w := by
  rw [Stray, live_step_iff hw.wf hw.tracks hdt h, pairs_step hw.wf hdt h]
  constructor
  · rintro ⟨⟨ha, ⟨hl, hnear⟩ | ⟨⟨hnear, -⟩, -⟩⟩, hfar⟩
    · exact ⟨⟨hl, fun hp ↦ hfar (hnear hp)⟩, ha, hfar⟩
    · exact absurd hnear hfar
  · rintro ⟨⟨hl, hp⟩, ha, hfar⟩
    exact ⟨⟨ha, .inl ⟨hl, fun hp' ↦ absurd hp' hp⟩⟩, hfar⟩

omit [Scalar α] in
/-- Steps are not changes. -/
theorem not_forgets_step {dt : α} : ¬ w.Forgets (.step dt) p := by
  rintro ⟨-, -, hm⟩
  simp [Pair.meets, Action.rechecks] at hm

/-! ## Through a run -/

/-- The property holds of the world before each step that is carried out in a run. -/
def AtSteps (P : World α σ → Prop) (w : World α σ) (actions : List (Action α σ)) : Prop :=
  ∀ before dt after w', actions = before ++ .step dt :: after → Valid dt →
    w.run before = .ok w' → P w'

theorem atSteps_nil {P : World α σ → Prop} : AtSteps P w [] := by
  intro before dt after w' h
  simp at h

theorem atSteps_cons {P : World α σ → Prop} {a : Action α σ} {as : List (Action α σ)}
    (h : w.act a = .ok w') :
    AtSteps P w (a :: as) ↔ (∀ dt, a = .step dt → Valid dt → P w) ∧ AtSteps P w' as := by
  constructor
  · intro hP
    refine ⟨?_, ?_⟩
    · rintro dt rfl hdt
      exact hP [] dt as w rfl hdt rfl
    · rintro before dt after w₁ rfl hdt hr
      exact hP (a :: before) dt after w₁ rfl hdt (run_cons.2 ⟨w', h, hr⟩)
  · rintro ⟨hfirst, hrest⟩ before dt after w₁ has hdt hr
    cases before with
    | nil =>
      obtain ⟨rfl, rfl⟩ := List.cons.inj has
      cases hr
      exact hfirst dt rfl hdt
    | cons b before =>
      obtain ⟨rfl, rfl⟩ := List.cons.inj has
      obtain ⟨w₂, hb, hr⟩ := run_cons.1 hr
      cases h.symm.trans hb
      exact hrest before dt after w₁ rfl hdt hr

/-- Somewhere in the run the grid is made to forget the pair, and from then on the pair is parted
at every step. -/
def Slips (p : Pair) (w : World α σ) (actions : List (Action α σ)) : Prop :=
  ∃ before a after w₁ w₂, actions = before ++ a :: after ∧ w.run before = .ok w₁ ∧
    w₁.act a = .ok w₂ ∧ w₁.Forgets a p ∧ AtSteps (Parted p) w₂ after

theorem not_slips_nil : ¬ Slips p w [] := by
  rintro ⟨before, a, after, w₁, w₂, h, -⟩
  simp at h

theorem slips_cons {a : Action α σ} {as : List (Action α σ)} (h : w.act a = .ok w') :
    Slips p w (a :: as) ↔ w.Forgets a p ∧ AtSteps (Parted p) w' as ∨ Slips p w' as := by
  constructor
  · rintro ⟨before, b, after, w₁, w₂, has, hr, hb, hf, hs⟩
    cases before with
    | nil =>
      obtain ⟨rfl, rfl⟩ := List.cons.inj has
      cases hr
      cases h.symm.trans hb
      exact .inl ⟨hf, hs⟩
    | cons c before =>
      obtain ⟨rfl, rfl⟩ := List.cons.inj has
      obtain ⟨w₃, hc, hr⟩ := run_cons.1 hr
      cases h.symm.trans hc
      exact .inr ⟨before, b, after, w₁, w₂, rfl, hr, hb, hf, hs⟩
  · rintro (⟨hf, hs⟩ | ⟨before, b, after, w₁, w₂, rfl, hr, hb, hf, hs⟩)
    · exact ⟨[], a, as, w, w', rfl, rfl, h, hf, hs⟩
    · exact ⟨a :: before, b, after, w₁, w₂, rfl, run_cons.2 ⟨w', h, hr⟩, hb, hf, hs⟩

/-- One action: a contact is stray after it if it was stray before and is not caught by a step, or
if the grid has just been made to forget its pair. -/
theorem stray_act_iff (hw : w.Sound) {a : Action α σ} (h : w.act a = .ok w') :
    w'.Stray p ↔
      w.Stray p ∧ (∀ dt, a = .step dt → Valid dt → Parted p w) ∨ w.Forgets a p := by
  cases a using Action.step_or_change with
  | step dt =>
    by_cases hdt : Valid dt
    · rw [stray_step_iff hw hdt h]
      have hp : (∀ dt', Action.step (σ := σ) dt = .step dt' → Valid dt' → Parted p w) ↔
          Parted p w :=
        ⟨fun hp ↦ hp dt rfl hdt, fun hp _ _ _ ↦ hp⟩
      rw [hp, or_iff_left not_forgets_step]
    · rw [act, step_of_not_valid hdt] at h
      cases h
      have hn : ∀ dt', Action.step (σ := σ) dt = .step dt' → Valid dt' → Parted p w := by
        rintro dt' ⟨⟩ hdt'
        exact absurd hdt' hdt
      rw [or_iff_left not_forgets_step]
      exact ⟨fun hs ↦ ⟨hs, hn⟩, fun hs ↦ hs.1⟩
  | change a ha =>
    have hn : ∀ dt, a = .step dt → Valid dt → Parted p w := by
      rintro dt rfl
      cases ha
    rw [(edits_act hw.wf ha h).stray_iff]
    tauto

/-- A whole run: a contact is stray at its end if it was stray at its start and no step catches it,
or if its pair slips through on the way. -/
theorem stray_run_iff (hw : w.Sound) {actions : List (Action α σ)}
    (h : w.run actions = .ok w') :
    w'.Stray p ↔ w.Stray p ∧ AtSteps (Parted p) w actions ∨ Slips p w actions := by
  induction actions generalizing w with
  | nil =>
    cases h
    rw [or_iff_left not_slips_nil, and_iff_left atSteps_nil]
  | cons a as ih =>
    obtain ⟨w₁, ha, hr⟩ := run_cons.1 h
    rw [ih (hw.act ha) hr, stray_act_iff hw ha, atSteps_cons ha, slips_cons ha]
    tauto

/-- **When a contact outlives its pair.** After a step that was carried out, the pairs that the
grid remembers are those whose boxes overlap.  A contact whose pair is not among them is one whose
pair the grid was made to forget, while it was near and had a contact, by a change of filter or of
body kind, and which at every step since then was not near and yet allowed to touch. -/
theorem outlives_pair_iff {s : WorldSettings α} {w₀ w : World α σ} {actions : List (Action α σ)}
    {dt : α} (h₀ : ofSettings s = .ok w₀) (hdt : Valid dt)
    (h : w₀.run (actions ++ [.step dt]) = .ok w) :
    w.grid.pairs = w.grid.overlapping ∧
      ∀ p, (w.Live p ∧ p ∉ w.grid.pairs) ↔
        ∃ before a after w₁ w₂, actions ++ [.step dt] = before ++ a :: after ∧
          w₀.run before = .ok w₁ ∧ w₁.act a = .ok w₂ ∧
          (w₁.Live p ∧ p ∈ w₁.grid.pairs ∧ p.meets (a.rechecks w₁) = true) ∧
          AtSteps (fun w ↦ w.Allows p ∧ p ∉ w.near) w₂ after := by
  have hw₀ := sound_ofSettings h₀
  constructor
  · obtain ⟨w₁, hr, hs⟩ := run_append.1 h
    have hs := run_singleton.1 hs
    have hw₁ := (hw₀.run hr).wf
    rw [grid_step hw₁ hdt hs, pairs_regrid, overlapping_regrid]
  · intro p
    have hn : ¬ w₀.Stray p := by
      rintro ⟨⟨i, c, hc, -⟩, -⟩
      rw [(ofSettings_eq_ok h₀).1] at hc
      cases hc
    have hr := stray_run_iff (p := p) hw₀ h
    rw [or_iff_right fun hs ↦ hn hs.1] at hr
    exact hr

/-- Two discs overlap and get a contact.  Then one of them is put far away, and its filter is set,
to what it is.  After the next step the contact is still there, though the boxes are apart. -/
theorem contact_of_parted_discs : ∃ w₀ w : World ℝ Unit, ofSettings .default = .ok w₀ ∧
    w₀.run ((discs 0 1 ++ [.step 1] ++ placing 0 100 ++ [.setFilter 1 .default]) ++ [.step 1]) =
      .ok w ∧ w.Live (.of 0 1) ∧ .of 0 1 ∉ w.grid.pairs := by
  have hdt : Valid (1 : ℝ) := ⟨one_pos, rfl⟩
  obtain ⟨w₀, h₀⟩ := exists_ofSettings_default Unit
  obtain ⟨w, h⟩ : ∃ w, w₀.run ((discs 0 1 ++ [.step 1] ++ placing 0 100 ++
      [.setFilter 1 .default]) ++ [.step 1]) = .ok w :=
    exists_run_of_sensors h₀ (by simp [discs, placing, Action.addsSensors, Collider.disc])
  refine ⟨w₀, w, h₀, h, ((outlives_pair_iff h₀ hdt h).2 (.of 0 1)).2 ?_⟩
  obtain ⟨w₄, hr₄, hlast⟩ := run_append.1 h
  obtain ⟨w₃, hr₃, hfilter⟩ := run_append.1 hr₄
  obtain ⟨w₂, hr₂, hplace⟩ := run_append.1 hr₃
  obtain ⟨w₁, hr₁, hstep⟩ := run_append.1 hr₂
  have hfilter := run_singleton.1 hfilter
  have hstep := run_singleton.1 hstep
  have hw₁ : w₁.Reachable := ⟨_, _, w₀, h₀, hr₁⟩
  obtain ⟨hd₁, hp₁, hb₁⟩ := run_discs h₀ hr₁
  obtain ⟨hlive, hpair⟩ := hd₁.live_step hp₁ hw₁ (by norm_num) hdt hstep
  have hb₂ := hd₁.boxedAt_step hp₁ hb₁ hw₁ hdt hstep
  obtain ⟨hd₃, hp₃, hgrid, hcontacts⟩ := run_placing (hd₁.step hw₁.sound.wf hdt hstep) hplace
  obtain ⟨hd₄, hbodies, hmargin, hbox⟩ := hd₃.setFilter hfilter
  refine ⟨_, _, [.step 1], w₃, w₄, by simp, hr₃, hfilter, ⟨?_, hgrid ▸ hpair, ?_⟩, ?_⟩
  · rw [Live, hcontacts]
    exact hlive
  · have hlt := (Array.getElem?_eq_some_iff.1 hd₃.loose).1
    simp [Pair.meets_of, Action.rechecks, hlt]
  · refine (atSteps_cons (run_singleton.1 hlast)).2 ⟨fun _ _ _ ↦ ⟨hd₄.allows, ?_⟩, atSteps_nil⟩
    have hb₄ : w₄.BoxedAt 0 1 := by
      rw [BoxedAt, hbox, hmargin, hgrid]
      exact hb₂
    have hm : w₄.grid.margin = 1 / 10 := by
      rw [(measures_run (wf_ofSettings h₀) hr₄).2]
      exact margin_default h₀
    refine hd₄.notMem_near (hp₃.congr hbodies) hb₄ ⟨_, _, w₀, h₀, hr₄⟩ ?_ ?_
    · rw [hm]
      norm_num
    · rw [hm]
      norm_num

/-! ## Which contacts there are -/

theorem hasRule_iff_not_edges {a b : Collider α} (ha : w.colliders[p.lo]? = some a)
    (hb : w.colliders[p.hi]? = some b) :
    w.HasRule p ↔ ¬ (a.kind = .edge ∧ b.kind = .edge) := by
  rw [← rule?_standard_eq_none_iff (α := α)]
  constructor
  · rintro ⟨a', b', ha', hb', hr⟩
    cases ha.symm.trans ha'
    cases hb.symm.trans hb'
    exact hr
  · exact fun hr ↦ ⟨a, b, ha, hb, hr⟩

/-- The bodies of a contact are those of its colliders, and the colliders may touch. -/
theorem Wf.allows_contact (hw : w.Wf) {i : Handle} {c : Contact α}
    (hc : w.contacts.get? i = some c) (ha : w.Allows c.pair) :
    ∃ a b x y, w.colliders[c.colliderA]? = some a ∧ w.colliders[c.colliderB]? = some b ∧
      w.bodies[c.bodyA]? = some x ∧ w.bodies[c.bodyB]? = some y ∧ c.bodyA ≠ c.bodyB ∧
      (x.isDynamic = true ∨ y.isDynamic = true) ∧ a.filter.accepts b.filter = true := by
  obtain ⟨a, b, hA, hB, hj⟩ := hw.joins i c hc
  obtain ⟨k, d, f, l, e, g, hsA, hsB, hne, hd, hf⟩ := mayTouch_iff.1 (allows_pair.1 ha)
  obtain ⟨a', x, hA', hk, hx, rfl, rfl⟩ := standing_eq_some_iff.1 hsA
  obtain ⟨b', y, hB', hl, hy, rfl, rfl⟩ := standing_eq_some_iff.1 hsB
  cases hA.symm.trans hA'
  cases hB.symm.trans hB'
  cases hj.bodyA.symm.trans hk
  cases hj.bodyB.symm.trans hl
  exact ⟨a, b, x, y, hA, hB, hx, hy, hne, by simpa using hd, hf⟩

/-- **The contacts after a step.** Each of them joins two bodies, one of them dynamic, by colliders
that accept each other now.  And each pair that the grid remembers has exactly one contact, if its
colliders may touch and are not both edges. -/
theorem contacts_after_step {s : WorldSettings α} {w₀ w : World α σ} {actions : List (Action α σ)}
    {dt : α} (h₀ : ofSettings s = .ok w₀) (hdt : Valid dt)
    (h : w₀.run (actions ++ [.step dt]) = .ok w) :
    (∀ i c, w.contacts.get? i = some c → w.mayTouch c.colliderA c.colliderB = true ∧
      ∃ a b x y, w.colliders[c.colliderA]? = some a ∧ w.colliders[c.colliderB]? = some b ∧
        w.bodies[c.bodyA]? = some x ∧ w.bodies[c.bodyB]? = some y ∧ c.bodyA ≠ c.bodyB ∧
        (x.isDynamic = true ∨ y.isDynamic = true) ∧ a.filter.accepts b.filter = true) ∧
      ∀ p ∈ w.grid.pairs, w.mayTouch p.lo p.hi = true →
        (∀ a b, w.colliders[p.lo]? = some a → w.colliders[p.hi]? = some b →
          ¬ (a.kind = .edge ∧ b.kind = .edge)) →
        ∃! i, ∃ c, w.contacts.get? i = some c ∧ c.pair = p := by
  obtain ⟨w₁, hr, hs⟩ := run_append.1 h
  have hs := run_singleton.1 hs
  have hw₁ := (sound_ofSettings h₀).run hr
  have hw := (sound_ofSettings h₀).run h
  constructor
  · intro i c hc
    have ha := hw.tracks.allowed i c hc (needsFiltering_step hw₁.wf hdt hs hc)
    exact ⟨allows_pair.1 ha, hw.wf.allows_contact hc ha⟩
  · intro p hp ha hedges
    obtain ⟨_, _, _, _, _, _, hA, hB, -⟩ := mayTouch_iff.1 ha
    obtain ⟨a, _, hA, -⟩ := standing_eq_some_iff.1 hA
    obtain ⟨b, _, hB, -⟩ := standing_eq_some_iff.1 hB
    obtain ⟨i, c, hc, hcp⟩ :=
      hw.tracks.live p hp ha ((hasRule_iff_not_edges hA hB).2 (hedges a b hA hB))
    refine ⟨i, ⟨c, hc, hcp⟩, ?_⟩
    rintro j ⟨d, hd, hdp⟩
    exact hw.wf.handle_eq hc hd (hdp.trans hcp.symm)

/-- Two discs that overlap have exactly one contact after a step. -/
theorem unique_contact_of_discs : ∃ w₀ w : World ℝ Unit, ofSettings .default = .ok w₀ ∧
    w₀.run (discs 0 1 ++ [.step 1]) = .ok w ∧
    (∀ i c, w.contacts.get? i = some c → w.mayTouch c.colliderA c.colliderB = true) ∧
    ∃! i, ∃ c, w.contacts.get? i = some c ∧ c.pair = .of 0 1 := by
  have hdt : Valid (1 : ℝ) := ⟨one_pos, rfl⟩
  obtain ⟨w₀, h₀⟩ := exists_ofSettings_default Unit
  obtain ⟨w, h⟩ : ∃ w, w₀.run (discs 0 1 ++ [.step 1]) = .ok w :=
    exists_run_of_sensors h₀ (by simp [discs, Action.addsSensors, Collider.disc])
  obtain ⟨w₁, hr₁, hstep⟩ := run_append.1 h
  have hstep := run_singleton.1 hstep
  have hw₁ : w₁.Reachable := ⟨_, _, w₀, h₀, hr₁⟩
  obtain ⟨hd, hp, -⟩ := run_discs h₀ hr₁
  have hd' := hd.step hw₁.sound.wf hdt hstep
  obtain ⟨hall, hone⟩ := contacts_after_step h₀ hdt h
  refine ⟨w₀, w, h₀, h, fun i c hc ↦ (hall i c hc).1, ?_⟩
  refine hone (.of 0 1) (hd.live_step hp hw₁ (by norm_num) hdt hstep).2 hd'.allows ?_
  rintro a b ha hb ⟨he, -⟩
  cases hd'.still.symm.trans ha
  cases he

end World

end PlanarDynamics
