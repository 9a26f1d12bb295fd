import PlanarDynamics.Proofs.World.Basic

/-!
# Changes between steps

All that a caller does between two steps has one form (`World.Edits`): some colliders are to be
checked again, their contacts are marked and their pairs forgotten, and whatever else decides about
contacts stays.  So it is proved once that such a change keeps references sound and contacts on
track.
-/

namespace PlanarDynamics

namespace Registry

variable {α : Type} {r : Registry α}

theorem get?_foldl_modify {hs : List Handle} (hn : hs.Nodup) (f : Contact α → Contact α)
    (h : Handle) : (hs.foldl (fun r h ↦ r.modify h f) r).get? h =
      if h ∈ hs then (r.get? h).map f else r.get? h := by
  induction hs generalizing r with
  | nil => simp
  | cons h₀ hs ih =>
    obtain ⟨hh₀, hn⟩ := List.nodup_cons.1 hn
    rw [List.foldl_cons, ih hn, get?_modify]
    by_cases he : h = h₀
    · subst he
      simp [hh₀]
    · simp [he]

theorem Wf.foldl_modify (hr : r.Wf) (hs : List Handle) {f : Contact α → Contact α}
    (ha : ∀ c, (f c).colliderA = c.colliderA) (hb : ∀ c, (f c).colliderB = c.colliderB) :
    (hs.foldl (fun r h ↦ r.modify h f) r).Wf := by
  induction hs generalizing r with
  | nil => exact hr
  | cons h hs ih => exact ih (hr.modify h ha hb)

theorem rules_foldl_modify (hs : List Handle) (f : Contact α → Contact α) :
    (hs.foldl (fun r h ↦ r.modify h f) r).rules = r.rules := by
  induction hs generalizing r with
  | nil => rfl
  | cons h hs ih => rw [List.foldl_cons, ih, rules_modify]

theorem nodup_contactsOf (c : ColliderId) : (r.contactsOf c).Nodup :=
  (List.filter_sublist.map _).nodup nodup_handles

variable [Scalar α]

/-- Mixing materials anew changes coefficients only. -/
theorem remix_eq_ok {h : Handle} {colliders : Array (Collider α)} {r' : Registry α}
    (he : r.remix h colliders = .ok r') : ∃ c c', r.get? h = some c ∧ c'.status = c.status ∧
      r' = r.setContact h.index c' := by
  obtain ⟨c, a, b, hc, -, -, rfl⟩ := remix_eq_ok_iff.1 he
  exact ⟨c, c.mix _ _ _ _, hc, rfl, rfl⟩

/-- The registries have the same contacts, as far as coefficients and manifolds do not count. -/
structure Alike (r r' : Registry α) : Prop where
  wf : r.Wf → r'.Wf
  rules : r'.rules = r.rules
  status : ∀ h, (r'.get? h).map Contact.status = (r.get? h).map Contact.status

namespace Alike

variable {r' r'' : Registry α}

theorem refl (r : Registry α) : r.Alike r := ⟨id, rfl, fun _ ↦ rfl⟩

theorem trans (h : r.Alike r') (h' : r'.Alike r'') : r.Alike r'' :=
  ⟨h'.wf ∘ h.wf, h'.rules.trans h.rules, fun i ↦ (h'.status i).trans (h.status i)⟩

theorem setContact {h : Handle} {c c' : Contact α} (hc : r.get? h = some c)
    (hs : c'.status = c.status) : r.Alike (r.setContact h.index c') where
  wf hr := by
    simp only [Contact.status, Contact.mk.injEq] at hs
    exact hr.setContact hc hs.1 hs.2.1
  rules := rfl
  status i := by
    rw [get?_setContact hc]
    split
    · simp [*]
    · rfl

theorem get?_eq_some (h : r.Alike r') {i : Handle} {c' : Contact α} (hc : r'.get? i = some c') :
    ∃ c, r.get? i = some c ∧ c'.status = c.status := by
  have hs := h.status i
  rw [hc, Option.map_some, eq_comm, Option.map_eq_some_iff] at hs
  obtain ⟨c, hc, he⟩ := hs
  exact ⟨c, hc, he.symm⟩

end Alike

theorem alike_foldlM_remix {colliders : Array (Collider α)} {hs : List Handle} {r' : Registry α}
    (he : hs.foldlM (·.remix · colliders) r = .ok r') : r.Alike r' := by
  induction hs generalizing r with
  | nil =>
    cases he
    exact .refl _
  | cons h hs ih =>
    rw [List.foldlM_cons] at he
    cases hr : r.remix h colliders with
    | error e => simp [hr, bind, Except.bind] at he
    | ok r₁ =>
      simp only [hr, bind, Except.bind] at he
      obtain ⟨c, c', hc, hs, rfl⟩ := remix_eq_ok hr
      exact (Alike.setContact hc hs).trans (ih he)

end Registry

namespace Contact

/-- Whether one of the contact's colliders is in `T`. -/
def meets {α : Type} (c : Contact α) (T : ColliderId → Bool) : Bool :=
  T c.colliderA || T c.colliderB

end Contact

namespace Pair

/-- Whether one of the pair's colliders is in `T`. -/
def meets (p : Pair) (T : ColliderId → Bool) : Bool := T p.lo || T p.hi

theorem meets_of (a b : ColliderId) (T : ColliderId → Bool) :
    (of a b).meets T = (T a || T b) := by
  simp only [of, meets]
  split
  · rfl
  · exact Bool.or_comm _ _

end Pair

theorem Contact.meets_pair {α : Type} (c : Contact α) (T : ColliderId → Bool) :
    c.pair.meets T = c.meets T :=
  Pair.meets_of _ _ T

namespace World

variable {α σ : Type} {w w' : World α σ}

/-! ## Checking colliders again -/

theorem get?_recheck (i : ColliderId) (h : Handle) :
    (w.recheck i).contacts.get? h =
      (w.contacts.get? h).map fun c ↦ if c.involves i then c.flag else c := by
  simp only [recheck]
  rw [Registry.get?_foldl_modify (Registry.nodup_contactsOf i)]
  cases hc : w.contacts.get? h with
  | none => simp
  | some c =>
    by_cases hi : c.involves i = true
    · rw [if_pos (Registry.mem_contactsOf.2 ⟨c, hc, hi⟩)]
      simp [hi]
    · rw [if_neg]
      · simp [hi]
      · intro hm
        obtain ⟨k, hk, hki⟩ := Registry.mem_contactsOf.1 hm
        rw [hc] at hk
        cases hk
        exact hi hki

/-- What is left when some colliders are checked again: marks on their contacts, and their pairs
forgotten. -/
structure Rechecked (T : ColliderId → Bool) (w w' : World α σ) : Prop where
  bodies : w'.bodies = w.bodies
  colliders : w'.colliders = w.colliders
  listener : w'.listener = w.listener
  boxes : w'.grid.boxes = w.grid.boxes
  registry : w.contacts.Wf → w'.contacts.Wf
  rules : w'.contacts.rules = w.contacts.rules
  contacts : ∀ h, w'.contacts.get? h =
    (w.contacts.get? h).map fun c ↦ if c.meets T then c.flag else c
  pairs : ∀ p, p ∈ w'.grid.pairs ↔ p ∈ w.grid.pairs ∧ p.meets T = false

theorem rechecked_recheck (i : ColliderId) : Rechecked (· == i) w (w.recheck i) where
  bodies := rfl
  colliders := rfl
  listener := rfl
  boxes := rfl
  registry hr := hr.foldl_modify _ (fun _ ↦ rfl) (fun _ ↦ rfl)
  rules := Registry.rules_foldl_modify _ _
  contacts h := get?_recheck i h
  pairs p := by simp [recheck, Grid.touch, Pair.contains, Pair.meets]

theorem rechecked_foldl (cs : List ColliderId) :
    Rechecked (cs.contains ·) w (cs.foldl recheck w) := by
  induction cs generalizing w with
  | nil =>
    constructor <;> simp [Contact.meets, Pair.meets]
  | cons i cs ih =>
    have h₁ : Rechecked (· == i) w (w.recheck i) := rechecked_recheck i
    have h₂ := ih (w := w.recheck i)
    rw [List.foldl_cons]
    constructor
    · exact h₂.bodies.trans h₁.bodies
    · exact h₂.colliders.trans h₁.colliders
    · exact h₂.listener.trans h₁.listener
    · exact h₂.boxes.trans h₁.boxes
    · exact h₂.registry ∘ h₁.registry
    · exact h₂.rules.trans h₁.rules
    · intro h
      rw [h₂.contacts, h₁.contacts, Option.map_map]
      congr 1
      funext c
      -- A mark that is set twice is set.
      by_cases h₁ : c.meets (· == i) = true <;>
        by_cases h₂ : c.meets (cs.contains ·) = true <;>
        grind [Contact.meets, Contact.flag]
    · intro p
      rw [h₂.pairs, h₁.pairs]
      grind [Pair.meets]

/-! ## What a change may be -/

variable [Scalar α]

/-- A change of a world between steps, after which the colliders in `T` are to be checked again. -/
structure Edits (T : ColliderId → Bool) (w w' : World α σ) : Prop where
  registry : w'.contacts.Wf
  rules : w'.contacts.rules = w.contacts.rules
  contacts : ∀ h, (w'.contacts.get? h).map Contact.status =
    (w.contacts.get? h).map fun c ↦ (if c.meets T then c.flag else c).status
  pairs : ∀ p, p ∈ w'.grid.pairs ↔ p ∈ w.grid.pairs ∧ p.meets T = false
  box_lt : ∀ i b, w'.grid.box? i = some b → i < w'.colliders.size
  colliders : ∀ (i : ColliderId) (c : Collider α), w.colliders[i]? = some c →
    ∃ c' : Collider α, w'.colliders[i]? = some c' ∧ c'.body = c.body ∧ c'.shape = c.shape ∧
      c'.isSensor = c.isSensor
  owned : ∀ (i : ColliderId) (c : Collider α), w'.colliders[i]? = some c →
    ∃ (b : BodyId) (body : Body α), c.body = some b ∧ w'.bodies[b]? = some body ∧
      i ∈ body.colliders
  standing : ∀ i, i < w.colliders.size → T i = false → w'.standing i = w.standing i

namespace Edits

variable {T : ColliderId → Bool}

/-- The contacts after a change are those before it, some of them marked. -/
theorem get?_eq_some (h : Edits T w w') {i : Handle} {c' : Contact α}
    (hc : w'.contacts.get? i = some c') : ∃ c, w.contacts.get? i = some c ∧
      c'.status = (if c.meets T then c.flag else c).status := by
  have hs := h.contacts i
  rw [hc, Option.map_some, eq_comm, Option.map_eq_some_iff] at hs
  obtain ⟨c, hc, he⟩ := hs
  exact ⟨c, hc, he.symm⟩

theorem exists_get? (h : Edits T w w') {i : Handle} {c : Contact α}
    (hc : w.contacts.get? i = some c) : ∃ c', w'.contacts.get? i = some c' ∧
      c'.status = (if c.meets T then c.flag else c).status := by
  have hs := h.contacts i
  rw [hc, Option.map_some, Option.map_eq_some_iff] at hs
  exact hs

theorem base_eq {c c' : Contact α} (h : c'.status = (if c.meets T then c.flag else c).status) :
    c'.base = c.base := by
  rw [Contact.base_eq_of_status h]
  split <;> rfl

theorem touching_eq {c c' : Contact α}
    (h : c'.status = (if c.meets T then c.flag else c).status) : c'.touching = c.touching := by
  have ht := congrArg (fun k : Contact α ↦ k.touching) h
  split at ht <;> exact ht

theorem live_iff (h : Edits T w w') (p : Pair) : w'.Live p ↔ w.Live p := by
  constructor
  · rintro ⟨i, c', hc', rfl⟩
    obtain ⟨c, hc, hs⟩ := h.get?_eq_some hc'
    exact ⟨i, c, hc, (Contact.pair_eq_of_base (base_eq hs)).symm⟩
  · rintro ⟨i, c, hc, rfl⟩
    obtain ⟨c', hc', hs⟩ := h.exists_get? hc
    exact ⟨i, c', hc', Contact.pair_eq_of_base (base_eq hs)⟩

theorem touches_iff (h : Edits T w w') (p : Pair) : w'.Touches p ↔ w.Touches p := by
  constructor
  · rintro ⟨i, c', hc', rfl, ht⟩
    obtain ⟨c, hc, hs⟩ := h.get?_eq_some hc'
    exact ⟨i, c, hc, (Contact.pair_eq_of_base (base_eq hs)).symm, (touching_eq hs).symm.trans ht⟩
  · rintro ⟨i, c, hc, rfl, ht⟩
    obtain ⟨c', hc', hs⟩ := h.exists_get? hc
    exact ⟨i, c', hc', Contact.pair_eq_of_base (base_eq hs), (touching_eq hs).trans ht⟩

theorem allows_iff (h : Edits T w w') {p : Pair} (hp : p.hi < w.colliders.size)
    (hT : p.meets T = false) : w'.Allows p ↔ w.Allows p := by
  simp only [Pair.meets, Bool.or_eq_false_iff] at hT
  rw [Allows, Allows, mayTouch_congr (h.standing _ (Nat.lt_of_le_of_lt p.lo_le_hi hp) hT.1)
    (h.standing _ hp hT.2)]

theorem hasRule_iff (h : Edits T w w') {p : Pair} (hp : p.hi < w.colliders.size) :
    w'.HasRule p ↔ w.HasRule p := by
  have hlo : p.lo < w.colliders.size := Nat.lt_of_le_of_lt p.lo_le_hi hp
  obtain ⟨a, ha, -, has, -⟩ := h.colliders p.lo _ (Array.getElem?_eq_getElem hlo)
  obtain ⟨b, hb, -, hbs, -⟩ := h.colliders p.hi _ (Array.getElem?_eq_getElem hp)
  simp [HasRule, ha, hb, Array.getElem?_eq_getElem hlo, Array.getElem?_eq_getElem hp,
    Collider.kind, has, hbs]

theorem size_le (h : Edits T w w') : w.colliders.size ≤ w'.colliders.size := by
  by_contra hlt
  rw [Nat.not_le] at hlt
  obtain ⟨c, hc, -⟩ := h.colliders _ _ (Array.getElem?_eq_getElem hlt)
  simp at hc

protected theorem wf (h : Edits T w w') (hw : w.Wf) : w'.Wf where
  registry := h.registry
  rules := h.rules.trans hw.rules
  owned := h.owned
  joins i c' hc' := by
    obtain ⟨c, hc, hs⟩ := h.get?_eq_some hc'
    obtain ⟨a, b, ha, hb, hj⟩ := hw.joins i c hc
    obtain ⟨a', ha', hab, has, hai⟩ := h.colliders _ _ ha
    obtain ⟨b', hb', hbb, hbs, hbi⟩ := h.colliders _ _ hb
    have hbase := base_eq hs
    have hj' := (hj.of_base hbase).of_collider hab hbb has hbs hai hbi
    simp only [Contact.base, Contact.mk.injEq] at hbase
    rw [hbase.1, hbase.2.1]
    exact ⟨a', b', ha', hb', hj'⟩
  box_lt := h.box_lt
  pair_lt p hp := Nat.lt_of_lt_of_le (hw.pair_lt p ((h.pairs p).1 hp).1) h.size_le

protected theorem tracks (h : Edits T w w') (hw : w.Wf) (ht : w.Tracks) : w'.Tracks where
  allowed i c' hc' hn := by
    obtain ⟨c, hc, hs⟩ := h.get?_eq_some hc'
    have hf := congrArg (fun k : Contact α ↦ k.needsFiltering) hs
    have hn' : c'.status.needsFiltering = false := hn
    -- A contact without a mark has colliders outside of `T`, which kept their standing.
    by_cases hT : c.meets T = true
    · simp only [hT, if_true] at hf
      rw [hn'] at hf
      cases hf
    · simp only [hT] at hf
      rw [Contact.pair_eq_of_base (base_eq hs)]
      have hp : c.pair.meets T = false := by rw [Contact.meets_pair]; simpa using hT
      rw [h.allows_iff (hw.contact_pair_lt hc) hp]
      exact ht.allowed i c hc (hf.symm.trans hn')
  live p hp ha hr := by
    obtain ⟨hp, hT⟩ := (h.pairs p).1 hp
    have hlt := hw.pair_lt p hp
    rw [h.live_iff]
    exact ht.live p hp ((h.allows_iff hlt hT).1 ha) ((h.hasRule_iff hlt).1 hr)

end Edits

/-- What is there stays when something is added at the end. -/
theorem getElem?_push_of_some {β : Type} {xs : Array β} {i : Nat} {x : β} (h : xs[i]? = some x)
    (y : β) : (xs.push y)[i]? = some x := by
  rw [Array.getElem?_push, if_neg (Nat.ne_of_lt (Array.getElem?_eq_some_iff.1 h).1), h]

/-- Changing an entry does not show in a view that does not see the change. -/
theorem map_getElem?_modify {β γ : Type} {view : β → γ} {f : β → β}
    (hf : ∀ b, view (f b) = view b) (xs : Array β) (i j : Nat) :
    ((xs.modify j f)[i]?).map view = (xs[i]?).map view := by
  rw [Array.getElem?_modify]
  split
  · rw [Option.map_map]
    congr 1
    funext b
    exact hf b
  · rfl

/-! ## Bodies that keep their kinds and colliders -/

/-- The bodies have kept their kinds and their colliders, whatever else has changed. -/
def SameRoster (bodies bodies' : Array (Body α)) : Prop :=
  ∀ i : Nat, (bodies'[i]?).map (fun b ↦ (b.kind, b.colliders)) =
    (bodies[i]?).map fun b ↦ (b.kind, b.colliders)

namespace SameRoster

variable {bodies bodies' bodies'' : Array (Body α)}

omit [Scalar α] in
theorem refl (bodies : Array (Body α)) : SameRoster bodies bodies := fun _ ↦ rfl

omit [Scalar α] in
theorem trans (h : SameRoster bodies bodies') (h' : SameRoster bodies' bodies'') :
    SameRoster bodies bodies'' := fun i ↦ (h' i).trans (h i)

omit [Scalar α] in
theorem modify (bodies : Array (Body α)) (j : Nat) {f : Body α → Body α}
    (hk : ∀ b, (f b).kind = b.kind) (hc : ∀ b, (f b).colliders = b.colliders) :
    SameRoster bodies (bodies.modify j f) := fun i ↦
  map_getElem?_modify (fun b ↦ by rw [hk, hc]) bodies i j

omit [Scalar α] in
theorem foldl {β : Type} {f : Array (Body α) → β → Array (Body α)}
    (hf : ∀ bodies b, SameRoster bodies (f bodies b)) (l : List β) (bodies : Array (Body α)) :
    SameRoster bodies (l.foldl f bodies) := by
  induction l generalizing bodies with
  | nil => exact .refl bodies
  | cons b l ih => exact (hf bodies b).trans (ih _)

omit [Scalar α] in
theorem exists_of_mem (h : SameRoster bodies bodies') {i : Nat} {b : Body α}
    (hb : bodies[i]? = some b) :
    ∃ b', bodies'[i]? = some b' ∧ b'.kind = b.kind ∧ b'.colliders = b.colliders := by
  have hi := h i
  rw [hb, Option.map_some, Option.map_eq_some_iff] at hi
  obtain ⟨b', hb', he⟩ := hi
  exact ⟨b', hb', (Prod.mk.inj he).1, (Prod.mk.inj he).2⟩

omit [Scalar α] in
theorem kind (h : SameRoster bodies bodies') (i : Nat) :
    (bodies'[i]?).map (·.kind) = (bodies[i]?).map (·.kind) := by
  have hi := congrArg (Option.map Prod.fst) (h i)
  simpa only [Option.map_map, Function.comp_def] using hi

omit [Scalar α] in
theorem size_eq (h : SameRoster bodies bodies') : bodies'.size = bodies.size := by
  refine Nat.le_antisymm ?_ ?_
  · have hi := h bodies.size
    simpa using hi
  · have hi := (h bodies'.size).symm
    simpa using hi

end SameRoster

theorem resetMass_kind (b : Body α) (parts : List (MassData α)) :
    (b.resetMass parts).kind = b.kind := by
  simp only [Body.resetMass, Body.withoutMass]
  split <;> rfl

theorem resetMass_colliders (b : Body α) (parts : List (MassData α)) :
    (b.resetMass parts).colliders = b.colliders := by
  simp only [Body.resetMass, Body.withoutMass]
  split <;> rfl

theorem changeKind_colliders (b : Body α) (k : BodyKind) :
    (b.changeKind k).colliders = b.colliders := by
  simp only [Body.changeKind]
  split <;> rfl

theorem sameRoster_refreshMass (b : BodyId) : SameRoster w.bodies (w.refreshMass b).bodies :=
  .modify _ _ (fun _ ↦ resetMass_kind _ _) (fun _ ↦ resetMass_colliders _ _)

omit [Scalar α] in
theorem standing_congr {i : ColliderId}
    (hc : (w'.colliders[i]?).map (fun c ↦ (c.body, c.filter)) =
      (w.colliders[i]?).map fun c ↦ (c.body, c.filter))
    (hb : ∀ j : Nat, (w'.bodies[j]?).map (·.kind) = (w.bodies[j]?).map (·.kind)) :
    w'.standing i = w.standing i := by
  cases hi : w.colliders[i]? with
  | none =>
    rw [hi, Option.map_none, Option.map_eq_none_iff] at hc
    simp [standing, hi, hc]
  | some c =>
    rw [hi, Option.map_some, Option.map_eq_some_iff] at hc
    obtain ⟨c', hc', he⟩ := hc
    obtain ⟨hbody, hfilter⟩ := Prod.mk.inj he
    cases hcb : c.body with
    | none =>
      rw [hcb] at hbody
      simp [standing, hi, hc', hcb, hbody]
    | some b =>
      rw [hcb] at hbody
      have hk := hb b
      cases hx : w.bodies[b]? with
      | none =>
        rw [hx, Option.map_none, Option.map_eq_none_iff] at hk
        simp [standing, hi, hc', hcb, hbody, hx, hk]
      | some x =>
        rw [hx, Option.map_some, Option.map_eq_some_iff] at hk
        obtain ⟨x', hx', hk⟩ := hk
        simp [standing, hi, hc', hcb, hbody, hx, hx', hfilter, Body.isDynamic, hk]

/-! ## The changes that there are -/

/-- Forces, positions, masses and coefficients are nothing that the contacts of a world are made or
destroyed by. -/
theorem Edits.of_alike (hw : w.Wf) (hr : w.contacts.Alike w'.contacts) (hg : w'.grid = w.grid)
    (hb : SameRoster w.bodies w'.bodies)
    (hc : ∀ i : Nat, (w'.colliders[i]?).map ({ · with material := Material.default }) =
      (w.colliders[i]?).map ({ · with material := Material.default })) :
    Edits (fun _ ↦ false) w w' := by
  have hsome : ∀ (i : ColliderId) (c : Collider α), w.colliders[i]? = some c →
      ∃ c' : Collider α, w'.colliders[i]? = some c' ∧ c'.body = c.body ∧ c'.shape = c.shape ∧
        c'.isSensor = c.isSensor := by
    intro i c hi
    have := hc i
    rw [hi, Option.map_some, Option.map_eq_some_iff] at this
    obtain ⟨c', hc', he⟩ := this
    simp only [Collider.mk.injEq] at he
    exact ⟨c', hc', he.2.2.2.2, he.1, he.2.2.2.1⟩
  constructor
  · exact hr.wf hw.registry
  · exact hr.rules
  · intro h
    rw [hr.status]
    simp [Contact.meets]
  · intro p
    rw [hg]
    simp [Pair.meets]
  · intro i b hi
    rw [hg] at hi
    obtain ⟨c', hc', -⟩ := hsome i _ (Array.getElem?_eq_getElem (hw.box_lt i b hi))
    exact (Array.getElem?_eq_some_iff.1 hc').1
  · exact hsome
  · intro i c' hi
    have := hc i
    rw [hi, Option.map_some, eq_comm, Option.map_eq_some_iff] at this
    obtain ⟨c, hc, he⟩ := this
    obtain ⟨b, body, hcb, hbody, hmem⟩ := hw.owned i c hc
    obtain ⟨body', hbody', -, hlist⟩ := hb.exists_of_mem hbody
    simp only [Collider.mk.injEq] at he
    exact ⟨b, body', he.2.2.2.2.symm.trans hcb, hbody', hlist ▸ hmem⟩
  · intro i hi _
    refine standing_congr ?_ hb.kind
    have := congrArg (Option.map fun c : Collider α ↦ (c.body, c.filter)) (hc i)
    simpa only [Option.map_map, Function.comp_def] using this

theorem edits_self (hw : w.Wf) : Edits (fun _ ↦ false) w w :=
  .of_alike hw (.refl _) rfl (.refl _) fun _ ↦ rfl

theorem edits_editBody (hw : w.Wf) (i : BodyId) (f : BodyState α → BodyState α) :
    Edits (fun _ ↦ false) w (w.editBody i f) :=
  .of_alike hw (.refl _) rfl (.modify _ _ (fun _ ↦ rfl) (fun _ ↦ rfl)) fun _ ↦ rfl

theorem edits_setMaterial (hw : w.Wf) {i : ColliderId} {m : Material α}
    (h : w.setMaterial i m = .ok w') : Edits (fun _ ↦ false) w w' := by
  cases hi : w.colliders[i]? with
  | none => simp [setMaterial, hi] at h
  | some c =>
    simp only [setMaterial, hi] at h
    cases hr : (w.contacts.contactsOf i).foldlM (·.remix · (w.colliders.modify i
      ({ · with material := m }))) w.contacts with
    | error e => simp [hr, bind, Except.bind] at h
    | ok contacts =>
      simp only [hr, bind, Except.bind, pure, Except.pure, Except.ok.injEq] at h
      have hc : ∀ j : Nat, ((w.colliders.modify i ({ · with material := m }))[j]?).map
          ({ · with material := Material.default }) =
          (w.colliders[j]?).map ({ · with material := Material.default }) := by
        intro j
        rw [Array.getElem?_modify]
        split
        · rw [Option.map_map]
          rfl
        · rfl
      subst h
      cases c.body with
      | none => exact .of_alike hw (Registry.alike_foldlM_remix hr) rfl (.refl _) hc
      | some b =>
        have hb := sameRoster_refreshMass
          (w := { w with colliders := w.colliders.modify i ({ · with material := m }), contacts }) b
        exact .of_alike hw (Registry.alike_foldlM_remix hr) rfl hb hc

theorem edits_addBody (hw : w.Wf) (b : Body α) : Edits (fun _ ↦ false) w (w.addBody b).2 := by
  constructor
  · exact hw.registry
  · rfl
  · intro h
    simp [addBody, Contact.meets]
  · intro p
    simp [addBody, Pair.meets]
  · exact hw.box_lt
  · intro i c hc
    exact ⟨c, hc, rfl, rfl, rfl⟩
  · intro i c hc
    obtain ⟨j, x, hcb, hx, hmem⟩ := hw.owned i c hc
    exact ⟨j, x, hcb, getElem?_push_of_some hx _, hmem⟩
  · intro i hi _
    obtain ⟨j, x, hcb, hx, -⟩ := hw.owned i _ (Array.getElem?_eq_getElem hi)
    simp [standing, addBody, Array.getElem?_eq_getElem hi, hcb, hx, getElem?_push_of_some hx]

@[simp] theorem pairs_syncBox (i : ColliderId) (c : Collider α) :
    (w.syncBox i c).pairs = w.grid.pairs := by
  simp only [syncBox, Grid.update, Grid.remove]
  split
  · rfl
  · split
    · split <;> rfl
    · rfl

theorem box?_syncBox_of_ne {i j : ColliderId} (h : j ≠ i) (c : Collider α) :
    (w.syncBox i c).box? j = w.grid.box? j := by
  have herase : (w.grid.remove i).box? j = w.grid.box? j := by
    simp [Grid.remove, Grid.box?, Std.TreeMap.getElem?_erase, Ne.symm h]
  simp only [syncBox]
  split
  · exact herase
  · split
    · simp only [Grid.update]
      split
      · simp [Grid.box?, Std.TreeMap.getElem?_insert, Ne.symm h]
      · rfl
    · exact herase

/-- The list of the body grows at its end, and no other list changes. -/
theorem exists_body_addCollider {b : BodyId} {c : Collider α} {i : ColliderId}
    (h : w.addCollider b c = .ok (i, w')) {k : BodyId} {y : Body α} (hy : w.bodies[k]? = some y) :
    ∃ y' : Body α, w'.bodies[k]? = some y' ∧ y.colliders ⊆ y'.colliders ∧
      (k = b → w.colliders.size ∈ y'.colliders) := by
  by_cases hb : b < w.bodies.size
  · simp only [addCollider, hb, if_true, Except.ok.injEq, Prod.mk.injEq] at h
    obtain ⟨rfl, rfl⟩ := h
    simp only [refreshMass, Array.getElem?_modify, hy, Option.map_some]
    by_cases hk : b = k
    · simp [hk, resetMass_colliders]
    · simp [hk, Ne.symm hk]
  · simp [addCollider, hb] at h

theorem edits_addCollider (hw : w.Wf) {b : BodyId} {c : Collider α} {i : ColliderId}
    (h : w.addCollider b c = .ok (i, w')) : Edits (fun _ ↦ false) w w' := by
  have hlist := @exists_body_addCollider _ _ _ _ _ _ _ _ h
  by_cases hb : b < w.bodies.size
  · simp only [addCollider, hb, if_true, Except.ok.injEq, Prod.mk.injEq] at h
    obtain ⟨rfl, rfl⟩ := h
    constructor
    · exact hw.registry
    · rfl
    · intro h
      simp [refreshMass, Contact.meets]
    · intro p
      simp [refreshMass, Pair.meets]
    · intro j x hx
      change (w.syncBox w.colliders.size _).box? j = some x at hx
      change j < (w.colliders.push _).size
      rw [Array.size_push]
      by_cases hj : j = w.colliders.size
      · subst hj
        exact Nat.lt_succ_self _
      · rw [box?_syncBox_of_ne hj] at hx
        exact Nat.lt_succ_of_lt (hw.box_lt j x hx)
    · intro j x hx
      exact ⟨x, getElem?_push_of_some hx _, rfl, rfl, rfl⟩
    · intro j x hx
      change (w.colliders.push { c with body := some b })[j]? = some x at hx
      by_cases hj : j = w.colliders.size
      · subst hj
        rw [Array.getElem?_push_size, Option.some.injEq] at hx
        obtain ⟨y', hy', -, hmem⟩ := hlist (Array.getElem?_eq_getElem hb)
        exact ⟨b, y', hx ▸ rfl, hy', hmem rfl⟩
      · rw [Array.getElem?_push, if_neg hj] at hx
        obtain ⟨k, y, hxb, hy, hmem⟩ := hw.owned j x hx
        obtain ⟨y', hy', hsub, -⟩ := hlist hy
        exact ⟨k, y', hxb, hy', hsub hmem⟩
    · intro j hj _
      refine standing_congr ?_ ?_
      · change ((w.colliders.push { c with body := some b })[j]?).map _ = _
        rw [getElem?_push_of_some (Array.getElem?_eq_getElem hj), Array.getElem?_eq_getElem hj]
      · intro k
        simp only [refreshMass, Array.getElem?_modify]
        split
        · simp [Option.map_map, Function.comp_def, resetMass_kind]
        · rfl
  · simp [addCollider, hb] at h

/-- Marks are set and pairs forgotten for the colliders that have got another standing. -/
theorem Edits.of_rechecked {w₁ : World α σ} {T : ColliderId → Bool} (hw : w.Wf)
    (h : Rechecked T w₁ w') (hr : w₁.contacts = w.contacts) (hg : w₁.grid = w.grid)
    (hc : ∀ (i : ColliderId) (c : Collider α), w.colliders[i]? = some c → ∃ c' : Collider α,
      w₁.colliders[i]? = some c' ∧ c'.body = c.body ∧ c'.shape = c.shape ∧
        c'.isSensor = c.isSensor)
    (ho : ∀ (i : ColliderId) (c : Collider α), w₁.colliders[i]? = some c →
      ∃ (b : BodyId) (body : Body α), c.body = some b ∧ w₁.bodies[b]? = some body ∧
        i ∈ body.colliders)
    (hs : ∀ i, i < w.colliders.size → T i = false → w₁.standing i = w.standing i) :
    Edits T w w' := by
  constructor
  · exact h.registry (hr ▸ hw.registry)
  · rw [h.rules, hr]
  · intro i
    rw [h.contacts, hr, Option.map_map]
    rfl
  · intro p
    rw [h.pairs, hg]
  · intro i b hi
    rw [Grid.box?, h.boxes, hg] at hi
    obtain ⟨c', hc', -⟩ := hc i _ (Array.getElem?_eq_getElem (hw.box_lt i b hi))
    rw [h.colliders]
    exact (Array.getElem?_eq_some_iff.1 hc').1
  · rw [h.colliders]
    exact hc
  · rw [h.colliders, h.bodies]
    exact ho
  · intro i hi hT
    rw [← hs i hi hT]
    simp only [World.standing, h.colliders, h.bodies]

theorem edits_setFilter (hw : w.Wf) {i : ColliderId} {f : Filter}
    (h : w.setFilter i f = .ok w') : Edits (· == i) w w' := by
  by_cases hi : i < w.colliders.size
  · simp only [setFilter, hi, if_true, Except.ok.injEq] at h
    subst h
    refine .of_rechecked hw (rechecked_recheck i) rfl rfl ?_ ?_ ?_
    · intro j c hc
      simp only [Array.getElem?_modify, hc]
      split
      · exact ⟨_, rfl, rfl, rfl, rfl⟩
      · exact ⟨c, rfl, rfl, rfl, rfl⟩
    · intro j c' hc'
      simp only [Array.getElem?_modify] at hc'
      split at hc'
      · obtain ⟨c, hc, rfl⟩ := Option.map_eq_some_iff.1 hc'
        exact hw.owned j c hc
      · exact hw.owned j c' hc'
    · intro j _ hj
      have hne : i ≠ j := by
        rintro rfl
        simp at hj
      simp [standing, Array.getElem?_modify, hne]
  · simp [setFilter, hi] at h

theorem edits_setKind (hw : w.Wf) {i : BodyId} {k : BodyKind} {b : Body α}
    (hb : w.bodies[i]? = some b) (hk : b.kind ≠ k) (h : w.setKind i k = .ok w') :
    Edits (b.colliders.contains ·) w w' := by
  simp only [setKind, hb, hk, if_false, Except.ok.injEq] at h
  subst h
  have hlist : ∀ (j : Nat) (y : Body α), w.bodies[j]? = some y →
      ∃ y' : Body α, ({ w with bodies := w.bodies.modify i (·.changeKind k) }.refreshMass
        i).bodies[j]? = some y' ∧ y'.colliders = y.colliders := by
    intro j y hy
    simp only [refreshMass, Array.getElem?_modify, hy, Option.map_some]
    split
    · exact ⟨_, rfl, by rw [resetMass_colliders, changeKind_colliders]⟩
    · exact ⟨y, rfl, rfl⟩
  refine .of_rechecked hw (rechecked_foldl b.colliders) rfl rfl ?_ ?_ ?_
  · intro j c hc
    exact ⟨c, hc, rfl, rfl, rfl⟩
  · intro j c hc
    obtain ⟨l, y, hcb, hy, hmem⟩ := hw.owned j c hc
    obtain ⟨y', hy', he⟩ := hlist l y hy
    exact ⟨l, y', hcb, hy', he ▸ hmem⟩
  · intro j hj hT
    obtain ⟨l, y, hcb, hy, hmem⟩ := hw.owned j _ (Array.getElem?_eq_getElem hj)
    -- A collider of the body is on its list, so this one is on another body.
    have hne : i ≠ l := by
      rintro rfl
      rw [hb, Option.some.injEq] at hy
      subst hy
      simp [hmem] at hT
    simp [standing, refreshMass, Array.getElem?_eq_getElem hj, hcb, Array.getElem?_modify, hne]

end World

namespace Action

variable {α σ : Type}

/-- The colliders that an action has checked again. -/
def rechecks (w : World α σ) : Action α σ → ColliderId → Bool
  | .setFilter i _ => fun c ↦ decide (i < w.colliders.size) && c == i
  | .setKind b kind => fun c ↦
    (w.bodies[b]?).any fun body ↦ decide (body.kind ≠ kind) && body.colliders.contains c
  | _ => fun _ ↦ false

def isStep : Action α σ → Bool
  | .step _ => true
  | _ => false

/-- An action is a step or a change between steps. -/
theorem step_or_change {P : Action α σ → Prop} (step : ∀ dt, P (.step dt))
    (change : ∀ a, a.isStep = false → P a) (a : Action α σ) : P a := by
  cases h : a.isStep with
  | false => exact change a h
  | true =>
    cases a with
    | step dt => exact step dt
    | _ => cases h

/-- Whether an action puts another listener in place. -/
def isSetListener : Action α σ → Bool
  | .setListener _ => true
  | _ => false

end Action

namespace World

variable {α σ : Type} [Scalar α] {w w' : World α σ}

/-- What a caller does between steps is a change as above. -/
theorem edits_act (hw : w.Wf) {a : Action α σ} (ha : a.isStep = false) (h : w.act a = .ok w') :
    Edits (a.rechecks w) w w' := by
  cases a with
  | addBody b =>
    cases h
    exact edits_addBody hw b
  | addCollider b c =>
    cases h
    cases hx : w.addCollider b c with
    | error e => exact edits_self hw
    | ok x => exact edits_addCollider (i := x.1) hw hx
  | setFilter i f =>
    cases h
    by_cases hi : i < w.colliders.size
    · have hT : (Action.setFilter i f : Action α σ).rechecks w = (· == i) := by
        simp [Action.rechecks, hi]
      rw [hT]
      cases hx : w.setFilter i f with
      | error e => simp [setFilter, hi] at hx
      | ok x => exact edits_setFilter hw hx
    · have hT : (Action.setFilter i f : Action α σ).rechecks w = fun _ ↦ false := by
        simp [Action.rechecks, hi]
      rw [hT, setFilter, if_neg hi]
      exact edits_self hw
  | setMaterial i m =>
    cases h
    cases hx : w.setMaterial i m with
    | error e => exact edits_self hw
    | ok x => exact edits_setMaterial hw hx
  | setKind i k =>
    cases h
    cases hb : w.bodies[i]? with
    | none =>
      have hT : (Action.setKind i k : Action α σ).rechecks w = fun _ ↦ false := by
        simp [Action.rechecks, hb]
      rw [hT, setKind, hb]
      exact edits_self hw
    | some b =>
      by_cases hk : b.kind = k
      · have hT : (Action.setKind i k : Action α σ).rechecks w = fun _ ↦ false := by
          simp [Action.rechecks, hb, hk]
        rw [hT]
        simp only [setKind, hb, hk, if_true]
        exact edits_self hw
      · have hT : (Action.setKind i k : Action α σ).rechecks w = (b.colliders.contains ·) := by
          simp [Action.rechecks, hb, hk]
        rw [hT]
        cases hx : w.setKind i k with
        | error e => simp [setKind, hb, hk] at hx
        | ok x => exact edits_setKind hw hb hk hx
  | editBody i f =>
    cases h
    exact edits_editBody hw i f
  | changeSettings s =>
    cases h
    exact .of_alike hw (.refl _) rfl (.refl _) fun _ ↦ rfl
  | setListener l =>
    cases h
    exact .of_alike hw (.refl _) rfl (.refl _) fun _ ↦ rfl
  | step dt => cases ha

end World

end PlanarDynamics
