import PlanarDynamics.Proofs.Registry.InPlace
import PlanarDynamics.Proofs.World.Commit

/-!
# Changes to a world in place

Between steps a world is changed where it is, part by part.  As with registries, the changes are
spelled out as programs that leave what they have written when an error comes up, and each of them
is all or nothing.  For most of them this is so because they are refused before anything is written.
A change of material is the exception: it writes the material first and then goes through the
contacts of the collider, each of which could be refused.  None is, as references are sound.
-/

namespace PlanarDynamics

theorem run_forM {ε S β : Type} {p : β → EStateM ε S Unit} {f : S → β → S}
    (hp : ∀ b s, (p b).run s = .ok () (f s b)) (l : List β) (s : S) :
    (forM l p).run s = .ok () (l.foldl f s) := by
  induction l generalizing s with
  | nil => rfl
  | cons b l ih =>
    rw [List.forM_cons, EStateM.run_bind, hp]
    exact ih _

namespace Registry

variable {α : Type} [Scalar α]

/-- Materials can be mixed anew for live contacts whose colliders are there. -/
theorem exists_foldlM_remix {colliders : Array (Collider α)} {hs : List Handle} {r : Registry α}
    (h : ∀ i ∈ hs, ∃ c, r.get? i = some c ∧ c.colliderA < colliders.size ∧
      c.colliderB < colliders.size) :
    ∃ r', hs.foldlM (·.remix · colliders) r = .ok r' := by
  induction hs generalizing r with
  | nil => exact ⟨r, rfl⟩
  | cons i hs ih =>
    obtain ⟨c, hc, hA, hB⟩ := h i List.mem_cons_self
    have hr := remix_eq_ok_iff.2 ⟨c, _, _, hc, Array.getElem?_eq_getElem hA,
      Array.getElem?_eq_getElem hB, rfl⟩
    rw [List.foldlM_cons, hr]
    refine ih fun j hj ↦ ?_
    -- The other contacts are as before, and this one joins the same colliders.
    obtain ⟨d, hd, hdA, hdB⟩ := h j (List.mem_cons_of_mem _ hj)
    rw [get?_setContact hc]
    split
    · exact ⟨_, rfl, hA, hB⟩
    · exact ⟨d, hd, hdA, hdB⟩

end Registry

namespace World

variable {α σ : Type} {w : World α σ}

theorem foldl_contacts {β : Type} (f : Registry α → β → Registry α) (bs : List β)
    (w : World α σ) : bs.foldl (fun w b ↦ { w with contacts := f w.contacts b }) w =
      { w with contacts := bs.foldl f w.contacts } := by
  induction bs generalizing w with
  | nil => rfl
  | cons b bs ih => exact ih _

variable [Scalar α]

/-- Whatever material a collider gets, each of its contacts can be given it. -/
theorem Wf.exists_foldlM_remix (hw : w.Wf) (i : ColliderId) (m : Material α) :
    ∃ r, (w.contacts.contactsOf i).foldlM (·.remix · (w.colliders.modify i
      ({ · with material := m }))) w.contacts = .ok r := by
  refine Registry.exists_foldlM_remix fun h hh ↦ ?_
  obtain ⟨c, hc, -⟩ := Registry.mem_contactsOf.1 hh
  obtain ⟨a, b, ha, hb, -⟩ := hw.joins h c hc
  rw [Array.size_modify]
  exact ⟨c, hc, (Array.getElem?_eq_some_iff.1 ha).1, (Array.getElem?_eq_some_iff.1 hb).1⟩

theorem Wf.exists_setMaterial (hw : w.Wf) {i : ColliderId} (hi : i < w.colliders.size)
    (m : Material α) : ∃ w', w.setMaterial i m = .ok w' := by
  obtain ⟨r, hr⟩ := hw.exists_foldlM_remix i m
  simp only [setMaterial, Array.getElem?_eq_getElem hi, hr]
  exact ⟨_, rfl⟩

end World

namespace InPlace

variable {α σ : Type} [Scalar α]

/-! ## Programs -/

/-- Does something to the contacts of a world. -/
def onContacts {β : Type} (p : EStateM Error (Registry α) β) : EStateM Error (World α σ) β :=
  fun w ↦
    match p.run w.contacts with
    | .ok x contacts => .ok x { w with contacts }
    | .error e contacts => .error e { w with contacts }

def recheck (i : ColliderId) : EStateM Error (World α σ) Unit := do
  forM ((← get).contacts.contactsOf i) fun h ↦
    modify fun w ↦ { w with contacts := w.contacts.modify h .flag }
  modify fun w ↦ { w with grid := w.grid.touch i }

def addCollider (b : BodyId) (c : Collider α) : EStateM Error (World α σ) ColliderId := do
  if b < (← get).bodies.size then
    let i := (← get).colliders.size
    modify fun w ↦ { w with grid := w.syncBox i { c with body := some b } }
    modify fun w ↦ { w with colliders := w.colliders.push { c with body := some b } }
    modify fun w ↦ { w with bodies := w.bodies.modify b fun body ↦
      { body with colliders := body.colliders ++ [i] } }
    modify (·.refreshMass b)
    return i
  else throw (.noBody b)

def setFilter (i : ColliderId) (filter : Filter) : EStateM Error (World α σ) Unit := do
  if i < (← get).colliders.size then
    modify fun w ↦ { w with colliders := w.colliders.modify i ({ · with filter }) }
    recheck i
  else throw (.noCollider i)

def remixContact (h : Handle) : EStateM Error (World α σ) Unit := do
  onContacts (remix h (← get).colliders)

def setMaterial (i : ColliderId) (material : Material α) : EStateM Error (World α σ) Unit := do
  match (← get).colliders[i]? with
  | none => throw (.noCollider i)
  | some c =>
    modify fun w ↦ { w with colliders := w.colliders.modify i ({ · with material }) }
    forM ((← get).contacts.contactsOf i) remixContact
    match c.body with
    | some b => modify (·.refreshMass b)
    | none => return

def setKind (i : BodyId) (kind : BodyKind) : EStateM Error (World α σ) Unit := do
  match (← get).bodies[i]? with
  | none => throw (.noBody i)
  | some b =>
    if b.kind = kind then return
    else
      modify fun w ↦ { w with bodies := w.bodies.modify i (·.changeKind kind) }
      modify (·.refreshMass i)
      forM (((← get).bodies[i]?.map (·.colliders)).getD []) recheck

/-! ## All or nothing -/

omit [Scalar α] in
theorem run_recheck (i : ColliderId) (w : World α σ) :
    (recheck i).run w = .ok () (w.recheck i) := by
  simp only [recheck, EStateM.run_bind, EStateM.run_get, run_forM fun _ _ ↦ EStateM.run_modify _ _,
    EStateM.run_modify, World.foldl_contacts fun r h ↦ r.modify h .flag]
  rfl

theorem run_addCollider (b : BodyId) (c : Collider α) (w : World α σ) :
    (addCollider b c).run w = allOrNothing w (w.addCollider b c) := by
  by_cases hb : b < w.bodies.size
  · simp only [addCollider, World.addCollider, EStateM.run_bind, EStateM.run_get, if_pos hb,
      EStateM.run_modify, EStateM.run_pure]
    rfl
  · simp only [addCollider, World.addCollider, EStateM.run_bind, EStateM.run_get, if_neg hb,
      run_throw, allOrNothing]

omit [Scalar α] in
theorem run_setFilter (i : ColliderId) (f : Filter) (w : World α σ) :
    (setFilter i f).run w = allOrNothing w ((w.setFilter i f).map ((), ·)) := by
  by_cases hi : i < w.colliders.size
  · simp only [setFilter, World.setFilter, EStateM.run_bind, EStateM.run_get, if_pos hi,
      EStateM.run_modify, run_recheck, Except.map, allOrNothing]
  · simp only [setFilter, World.setFilter, EStateM.run_bind, EStateM.run_get, if_neg hi, run_throw,
      Except.map, allOrNothing]

theorem run_setKind (i : BodyId) (k : BodyKind) (w : World α σ) :
    (setKind i k).run w = allOrNothing w ((w.setKind i k).map ((), ·)) := by
  cases hi : w.bodies[i]? with
  | none =>
    simp only [setKind, World.setKind, EStateM.run_bind, EStateM.run_get, hi, run_throw, Except.map,
      allOrNothing]
  | some b =>
    by_cases hk : b.kind = k
    · simp only [setKind, World.setKind, EStateM.run_bind, EStateM.run_get, hi, if_pos hk,
        EStateM.run_pure, Except.map, allOrNothing]
    · simp only [setKind, World.setKind, EStateM.run_bind, EStateM.run_get, hi, if_neg hk,
        EStateM.run_modify, run_forM run_recheck, Except.map, allOrNothing]
      -- The colliders of the body are read anew, but they are the same.
      simp only [World.refreshMass, Array.getElem?_modify, if_true, hi, Option.map_some,
        Option.getD_some, World.resetMass_colliders, World.changeKind_colliders]

theorem run_remixContact (h : Handle) (w : World α σ) :
    (remixContact h).run w = allOrNothing w
      ((w.contacts.remix h w.colliders).map fun contacts ↦ ((), { w with contacts })) := by
  simp only [remixContact, EStateM.run_bind, EStateM.run_get]
  change onContacts _ w = _
  rw [onContacts, run_remix]
  cases w.contacts.remix h w.colliders <;> rfl

/-- The loop over the contacts goes to its end if none of them is refused. -/
theorem run_forM_remixContact {hs : List Handle} {w : World α σ} {r : Registry α}
    (hr : hs.foldlM (·.remix · w.colliders) w.contacts = .ok r) :
    (forM hs remixContact).run w = .ok () { w with contacts := r } := by
  induction hs generalizing w with
  | nil =>
    cases hr
    rfl
  | cons h hs ih =>
    rw [List.foldlM_cons] at hr
    obtain ⟨r₁, hr₁, hr⟩ := bind_eq_ok_iff.1 hr
    rw [List.forM_cons, EStateM.run_bind, run_remixContact, hr₁]
    exact ih hr

theorem run_setMaterial {w : World α σ} (hw : w.Wf) (i : ColliderId) (m : Material α) :
    (setMaterial i m).run w = allOrNothing w ((w.setMaterial i m).map ((), ·)) := by
  cases hi : w.colliders[i]? with
  | none =>
    simp only [setMaterial, World.setMaterial, EStateM.run_bind, EStateM.run_get, hi, run_throw,
      Except.map, allOrNothing]
  | some c =>
    obtain ⟨r, hr⟩ := hw.exists_foldlM_remix i m
    have hloop := run_forM_remixContact
      (w := { w with colliders := w.colliders.modify i ({ · with material := m }) }) hr
    simp only [setMaterial, World.setMaterial, EStateM.run_bind, EStateM.run_get, hi,
      EStateM.run_modify, hr, hloop]
    cases c.body <;> rfl

/-! ## Runs -/

/-- Carries out an action in place.  A refused one leaves what it has written. -/
def act (w : World α σ) : Action α σ → Except Fault (World α σ)
  | .addCollider b c => .ok (leftBy ((addCollider b c).run w))
  | .setFilter i f => .ok (leftBy ((setFilter i f).run w))
  | .setMaterial i m => .ok (leftBy ((setMaterial i m).run w))
  | .setKind i k => .ok (leftBy ((setKind i k).run w))
  | a => w.act a

def run (w : World α σ) (actions : List (Action α σ)) : Except Fault (World α σ) :=
  actions.foldlM act w

/-- The worlds that a caller can bring about in place. -/
def Reachable (w : World α σ) : Prop :=
  ∃ s actions w₀, World.ofSettings s = .ok w₀ ∧ run w₀ actions = .ok w

theorem act_eq {w : World α σ} (hw : w.Wf) (a : Action α σ) : act w a = w.act a := by
  have hmap : ∀ x : Except Error (World α σ), (x.map ((), ·)).map (·.2) = x := by
    intro x
    cases x <;> rfl
  cases a with
  | addCollider b c => rw [act, run_addCollider, leftBy_allOrNothing, World.act]
  | setFilter i f => rw [act, run_setFilter, leftBy_allOrNothing, hmap, World.act]
  | setMaterial i m => rw [act, run_setMaterial hw, leftBy_allOrNothing, hmap, World.act]
  | setKind i k => rw [act, run_setKind, leftBy_allOrNothing, hmap, World.act]
  | _ => rfl

theorem run_eq {w : World α σ} (hw : w.Wf) (actions : List (Action α σ)) :
    run w actions = w.run actions := by
  induction actions generalizing w with
  | nil => rfl
  | cons a actions ih =>
    rw [run, World.run, List.foldlM_cons, List.foldlM_cons, act_eq hw]
    cases ha : w.act a with
    | error f => rfl
    | ok w₁ => exact ih (World.wf_act hw ha)

/-- Nothing else can be brought about in place, as nothing is left by what is refused. -/
theorem reachable_iff {w : World α σ} : Reachable w ↔ w.Reachable := by
  constructor <;> rintro ⟨s, actions, w₀, h₀, h⟩ <;> refine ⟨s, actions, w₀, h₀, ?_⟩
  · rwa [run_eq (World.wf_ofSettings h₀)] at h
  · rwa [run_eq (World.wf_ofSettings h₀)]

/-- **What is refused changes nothing.** Requests to a registry and changes to a world that are
carried out in place come to what the operations say, and leave everything as it was if these
refuse.  A collider that is there can be given any material, so no contact is refused halfway. -/
theorem refusals_change_nothing :
    (∀ r : Registry α,
      (∀ a b, (create a b).run r = allOrNothing r (r.create a b)) ∧
      (∀ h, (destroy h).run r = allOrNothing r (r.destroy h)) ∧
      (∀ h a b, (reset h a b).run r = allOrNothing r ((r.reset h a b).map ((), ·))) ∧
      ∀ h colliders, (remix h colliders).run r =
        allOrNothing r ((r.remix h colliders).map ((), ·))) ∧
    ∀ w : World α σ, Reachable w →
      (∀ b c, (addCollider b c).run w = allOrNothing w (w.addCollider b c)) ∧
      (∀ i f, (setFilter i f).run w = allOrNothing w ((w.setFilter i f).map ((), ·))) ∧
      (∀ i m, (setMaterial i m).run w = allOrNothing w ((w.setMaterial i m).map ((), ·))) ∧
      (∀ i k, (setKind i k).run w = allOrNothing w ((w.setKind i k).map ((), ·))) ∧
      ∀ i m, i < w.colliders.size → ∃ w', (setMaterial i m).run w = .ok () w' := by
  refine ⟨fun r ↦ ⟨fun a b ↦ run_create a b r, fun h ↦ run_destroy h r,
    fun h a b ↦ run_reset h a b r, fun h colliders ↦ run_remix h colliders r⟩, fun w hw ↦ ?_⟩
  have hwf := (reachable_iff.1 hw).sound.wf
  refine ⟨fun b c ↦ run_addCollider b c w, fun i f ↦ run_setFilter i f w, run_setMaterial hwf,
    fun i k ↦ run_setKind i k w, fun i m hi ↦ ?_⟩
  obtain ⟨w', hw'⟩ := hwf.exists_setMaterial hi m
  rw [run_setMaterial hwf, hw']
  exact ⟨w', rfl⟩

/-- Three discs after a step, the first with contacts.  It can be given another material, and a
collider that is not there cannot. -/
theorem solids_setMaterial : ∃ w w' : World ℝ Unit, Reachable w ∧
    (∃ h, h ∈ w.contacts.contactsOf 0) ∧ (setMaterial 0 .default).run w = .ok () w' ∧
    (setMaterial w.colliders.size .default).run w = .error (.noCollider w.colliders.size) w := by
  obtain ⟨w₀, w₁, hw₀, -, hw₁, htouch, hc, -, hcorr⟩ := World.exists_solids (σ := Unit) none
  obtain ⟨w, hm⟩ : ∃ w, w₁.move 1 = .ok w :=
    World.exists_move_of_hasLimits (fun h c hget _ ↦ hasLimits_of_nonneg (hc h c hget).2) hcorr
  have hstep : w₀.act (.step 1) = .ok w :=
    (World.step_of_updateContacts World.valid_one hw₁).trans hm
  have hw := hw₀.act hstep
  obtain ⟨h, c, hget, hp, -⟩ := (World.moved_move hm).touches (htouch _ (.inl rfl))
  have hsize := hw.sound.wf.contact_pair_lt hget
  obtain ⟨-, -, hmaterial, -, hgranted⟩ :=
    (refusals_change_nothing (α := ℝ)).2 w (reachable_iff.2 hw)
  obtain ⟨w', hw'⟩ := hgranted 0 .default (Nat.zero_lt_of_lt hsize)
  refine ⟨w, w', reachable_iff.2 hw, ⟨h, Registry.mem_contactsOf.2 ⟨c, hget, ?_⟩⟩, hw', ?_⟩
  · rw [← c.contains_pair, hp]
    rfl
  · rw [hmaterial, World.setMaterial, Array.getElem?_eq_none (Nat.le_refl _)]
    rfl

end InPlace

end PlanarDynamics
