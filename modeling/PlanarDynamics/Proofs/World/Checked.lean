import PlanarDynamics.Proofs.Solver.Checked
import PlanarDynamics.Proofs.World.Motion
import PlanarDynamics.Proofs.World.Notification
import PlanarDynamics.Proofs.World.References

/-!
# A world looked up for certain

The same world once more, with every look-up by number one that faults if there is nothing to be
found (`Checked.act`, `Checked.run`).  As the references of a world hold, both worlds do the same:
`World.references_never_dangle`.
-/

namespace PlanarDynamics

theorem mapM_eq_ok_filterMap {ε β γ : Type} {f : β → Except ε γ} {g : β → Option γ} {l : List β}
    (h : ∀ a ∈ l, ∃ b, f a = .ok b ∧ g a = some b) : l.mapM f = .ok (l.filterMap g) := by
  induction l with
  | nil => rfl
  | cons a l ih =>
    obtain ⟨b, hf, hg⟩ := h a List.mem_cons_self
    rw [List.mapM_cons, hf, ih fun a' ha' ↦ h a' (List.mem_cons_of_mem a ha'),
      List.filterMap_cons_some hg]
    rfl

namespace Checked

variable {α σ : Type} [Scalar α]

/-! ## Changes between steps -/

/-- Makes a body consist of its colliders. -/
def refreshMass (w : World α σ) (i : BodyId) : Except Fault (World α σ) := do
  let b ← fetch w.bodies i
  let parts ← b.colliders.mapM fun k ↦ do
    let c ← fetch w.colliders k
    return c.massData
  let bodies ← update w.bodies i (·.resetMass parts)
  return { w with bodies }

/-- Attaches a collider to a body, if there is one. -/
def addCollider (w : World α σ) (b : BodyId) (c : Collider α) : Except Fault (World α σ) :=
  if b < w.bodies.size then do
    let i := w.colliders.size
    let c := { c with body := some b }
    let bodies ← update w.bodies b fun body ↦ { body with colliders := body.colliders ++ [i] }
    refreshMass { w with grid := w.syncBox i c, colliders := w.colliders.push c, bodies } b
  else .ok w

def setFilter (w : World α σ) (i : ColliderId) (filter : Filter) : Except Fault (World α σ) :=
  if i < w.colliders.size then do
    let colliders ← update w.colliders i ({ · with filter })
    return { w with colliders }.recheck i
  else .ok w

def setMaterial (w : World α σ) (i : ColliderId) (material : Material α) :
    Except Fault (World α σ) :=
  if i < w.colliders.size then do
    let c ← fetch w.colliders i
    let colliders ← update w.colliders i ({ · with material })
    match (w.contacts.contactsOf i).foldlM (·.remix · colliders) w.contacts, c.body with
    | .ok contacts, some b => refreshMass { w with colliders, contacts } b
    | .ok contacts, none => .ok { w with colliders, contacts }
    | .error _, _ => .ok w
  else .ok w

def setKind (w : World α σ) (i : BodyId) (kind : BodyKind) : Except Fault (World α σ) :=
  if i < w.bodies.size then do
    let b ← fetch w.bodies i
    if b.kind = kind then return w
    else
      let bodies ← update w.bodies i (·.changeKind kind)
      let w ← refreshMass { w with bodies } i
      return b.colliders.foldl World.recheck w
  else .ok w

/-! ## Steps -/

/-- Puts a contact into the slot vacated last, or into a new one. -/
def allocate (r : Registry α) (c : Contact α) : Except Fault (Handle × Registry α) :=
  match r.free with
  | i :: free => do
    let s ← fetch r.slots i
    return (⟨i, s.next⟩, { r with slots := r.slots.modify i fun _ ↦ ⟨s.next, some c⟩, free })
  | [] => .ok (⟨r.slots.size, 0⟩, { r with slots := r.slots.push ⟨0, some c⟩ })

/-- The registry with a contact of two colliders, where one can be made. -/
def create (r : Registry α) (a b : ColliderId × Collider α) : Except Fault (Registry α) :=
  if a.1 = b.1 then .ok r
  else match r.find? a.1 b.1, r.build a b with
    | none, .ok c => do
      let (h, r) ← allocate r c
      return { r with handles := r.handles.insert (.of a.1 b.1) h }
    | _, _ => .ok r

def createContact (w : World α σ) (p : Pair) : Except Fault (World α σ) :=
  if w.mayTouch p.lo p.hi then do
    let a ← fetch w.colliders p.lo
    let b ← fetch w.colliders p.hi
    let contacts ← create w.contacts (p.lo, a) (p.hi, b)
    return { w with contacts }
  else .ok w

def handleEvent (w : World α σ) : PairEvent → Except Fault (World α σ)
  | .ends p =>
    match w.contacts.find? p.lo p.hi with
    | some h => .ok (w.destroyContact h)
    | none => .ok w
  | .begins p => createContact w p

/-- Makes and destroys contacts as pairs come near and part. -/
def updatePairs (w : World α σ) : Except Fault (World α σ) :=
  let w := w.syncBoxes
  let (events, grid) := w.grid.updatePairs
  events.foldlM handleEvent { w with grid }

def commit (w : World α σ) (s : Solution α) : Except Fault (World α σ) := do
  let bodies ← s.bodies.foldlM (fun bodies e ↦ update bodies e.1 (·.moveTo e.2.1 e.2.2)) w.bodies
  return s.impulses.foldl World.commitImpulse { w with bodies }

/-- Solves the islands and moves the bodies. -/
def move (w : World α σ) (dt : α) : Except Fault (World α σ) := do
  let step := TimeStep.of dt w.previousDt w.settings.gravity w.settings.solver
  let islands ← partition w.bodies w.contacts
  let solutions ← islands.mapM (solve · w.bodies w.contacts step)
  let w ← solutions.foldlM commit w
  return { w with bodies := w.bodies.map (·.clearForces), previousDt := dt }

/-- Advances the world by `dt`. -/
def step (w : World α σ) (dt : α) : Except Fault (World α σ) :=
  if 0 < dt ∧ Scalar.isFinite dt then do
    let w ← updatePairs w
    let w ← w.updateContacts
    move w dt
  else .ok w

/-! ## Runs -/

/-- Carries out an action. One that is refused changes nothing. -/
def act (w : World α σ) : Action α σ → Except Fault (World α σ)
  | .addBody b => .ok (w.addBody b).2
  | .addCollider b c => addCollider w b c
  | .setFilter c filter => setFilter w c filter
  | .setMaterial c material => setMaterial w c material
  | .setKind b kind => setKind w b kind
  | .editBody b f => .ok (w.editBody b f)
  | .changeSettings settings => .ok (w.changeSettings settings)
  | .setListener listener => .ok (w.setListener listener)
  | .step dt => step w dt

/-- Carries out actions one after the other. -/
def run (w : World α σ) (actions : List (Action α σ)) : Except Fault (World α σ) :=
  actions.foldlM act w

/-! ## Agreement between steps -/

variable {w w' : World α σ}

theorem refreshMass_eq {i : BodyId} (hi : i < w.bodies.size) (hr : (w.refreshMass i).Roster) :
    refreshMass w i = .ok (w.refreshMass i) := by
  have hb := Array.getElem?_eq_getElem hi
  obtain ⟨b', hb', -, hlist⟩ := (World.sameRoster_refreshMass i).exists_of_mem hb
  have hparts : w.bodies[i].colliders.mapM (fun k ↦ do
      let c ← fetch w.colliders k
      return c.massData) = .ok (w.bodies[i].colliders.filterMap fun k ↦
        w.colliders[k]?.map (·.massData)) := by
    refine mapM_eq_ok_filterMap fun k hk ↦ ?_
    obtain ⟨c, hc, -⟩ : ∃ c, w.colliders[k]? = some c ∧ _ := hr.listed i b' hb' k (hlist ▸ hk)
    rw [fetch_eq_ok hc, hc]
    exact ⟨c.massData, rfl, rfl⟩
  rw [refreshMass, fetch_eq_ok hb, ok_bind, hparts, ok_bind, update_eq_ok hi, ok_bind]
  refine congrArg (fun bodies ↦ Except.ok { w with bodies }) (Array.ext_getElem? fun j ↦ ?_)
  simp only [Array.getElem?_modify]
  split
  next hj =>
    subst hj
    rw [hb]
    rfl
  · rfl

theorem addCollider_eq {b : BodyId} {c : Collider α} (hr : w.Roster) :
    addCollider w b c = .ok (((w.addCollider b c).map (·.2)).toOption.getD w) := by
  by_cases hb : b < w.bodies.size
  · have hadd := hr.addCollider (b := b) (c := c) (i := w.colliders.size)
      (by simp only [World.addCollider, hb, if_true]; rfl)
    simp only [addCollider, World.addCollider, hb, if_true, update_eq_ok hb, ok_bind]
    exact refreshMass_eq (by rw [Array.size_modify]; exact hb) hadd
  · simp [addCollider, World.addCollider, hb, Except.map, Except.toOption]

omit [Scalar α] in
theorem setFilter_eq {i : ColliderId} {filter : Filter} :
    setFilter w i filter = .ok ((w.setFilter i filter).toOption.getD w) := by
  by_cases hi : i < w.colliders.size
  · simp only [setFilter, World.setFilter, hi, if_true, update_eq_ok hi, ok_bind]
    rfl
  · simp [setFilter, World.setFilter, hi, Except.toOption]

theorem setMaterial_eq {i : ColliderId} {material : Material α} (hw : w.Wf)
    (hr : ((w.setMaterial i material).toOption.getD w).Roster) :
    setMaterial w i material = .ok ((w.setMaterial i material).toOption.getD w) := by
  by_cases hi : i < w.colliders.size
  · have hc := Array.getElem?_eq_getElem hi
    obtain ⟨b, body, hcb, hbody, -⟩ := hw.owned i _ hc
    simp only [World.setMaterial, hc] at hr ⊢
    rw [setMaterial, if_pos hi, fetch_eq_ok hc, ok_bind, update_eq_ok hi, ok_bind]
    cases hm : (w.contacts.contactsOf i).foldlM
        (·.remix · (w.colliders.modify i ({ · with material }))) w.contacts with
    | error e => rfl
    | ok contacts =>
      simp only [hm, hcb] at hr ⊢
      exact refreshMass_eq (Array.getElem?_eq_some_iff.1 hbody).1 hr
  · simp [setMaterial, World.setMaterial, hi, Except.toOption]

theorem setKind_eq {i : BodyId} {kind : BodyKind}
    (hr : ((w.setKind i kind).toOption.getD w).Roster) :
    setKind w i kind = .ok ((w.setKind i kind).toOption.getD w) := by
  by_cases hi : i < w.bodies.size
  · have hb := Array.getElem?_eq_getElem hi
    simp only [World.setKind, hb] at hr ⊢
    rw [setKind, if_pos hi, fetch_eq_ok hb, ok_bind]
    by_cases hk : w.bodies[i].kind = kind
    · simp only [hk, if_true]
      rfl
    · simp only [hk, if_false] at hr ⊢
      rw [update_eq_ok hi, ok_bind, refreshMass_eq, ok_bind]
      · rfl
      · rw [Array.size_modify]
        exact hi
      · -- Checking colliders again changes neither bodies nor colliders.
        have hre := World.rechecked_foldl (w := { w with
          bodies := w.bodies.modify i (·.changeKind kind) }.refreshMass i) w.bodies[i].colliders
        refine hr.of_sameLists (fun j ↦ ?_) fun k c hc ↦ ⟨c, ?_, rfl⟩
        · exact congrArg (fun bodies ↦ bodies[j]?.map (·.colliders)) hre.bodies.symm
        · exact (congrArg (·[k]?) hre.colliders.symm).trans hc
  · simp [setKind, World.setKind, hi, Except.toOption]

/-! ## Agreement of steps -/

omit [Scalar α] in
theorem allocate_eq {r : Registry α} (hr : r.Wf) (c : Contact α) :
    allocate r c = .ok (r.allocate c) := by
  cases hf : r.free with
  | nil => simp only [allocate, Registry.allocate, hf]
  | cons i free =>
    obtain ⟨g, hg⟩ := (hr.mem_free_iff i).1 (hf ▸ List.mem_cons_self)
    simp only [allocate, Registry.allocate, hf, fetch_eq_ok hg, hg]
    rfl

theorem create_eq {r : Registry α} (hr : r.Wf) (a b : ColliderId × Collider α) :
    create r a b = .ok (((r.create a b).map (·.2)).toOption.getD r) := by
  rw [create, Registry.create]
  split
  · rfl
  · cases hfind : r.find? a.1 b.1 with
    | some h => rfl
    | none =>
      cases hbuild : r.build a b with
      | error e => rfl
      | ok c =>
        simp only [allocate_eq hr, ok_bind]
        rfl

theorem createContact_eq (hw : w.Wf) (p : Pair) : createContact w p = .ok (w.createContact p) := by
  rw [createContact, World.createContact]
  split
  next ht =>
    obtain ⟨i, d, f, j, e, g, hi, hj, -⟩ := World.mayTouch_iff.1 ht
    obtain ⟨a, -, ha, -⟩ := World.standing_eq_some_iff.1 hi
    obtain ⟨b, -, hb, -⟩ := World.standing_eq_some_iff.1 hj
    rw [fetch_eq_ok ha, ok_bind, fetch_eq_ok hb, ok_bind, create_eq hw.registry, ok_bind]
    simp only [ha, hb]
    cases w.contacts.create (p.lo, a) (p.hi, b) <;> rfl
  · rfl

theorem foldlM_handleEvent (hw : w.Wf) (events : List PairEvent) :
    events.foldlM handleEvent w = .ok (events.foldl World.handleEvent w) := by
  induction events generalizing w with
  | nil => rfl
  | cons e events ih =>
    have he : handleEvent w e = .ok (w.handleEvent e) := by
      cases e with
      | ends p =>
        rw [handleEvent, World.handleEvent]
        cases w.contacts.find? p.lo p.hi <;> rfl
      | begins p => exact createContact_eq hw p
    rw [List.foldlM_cons, he, ok_bind, ih (World.wf_handleEvent hw e)]
    rfl

theorem updatePairs_eq (hw : w.Wf) : updatePairs w = .ok w.updatePairs :=
  foldlM_handleEvent (World.wf_regrid hw) _

theorem commit_eq {s : Solution α} (hs : ∀ e ∈ s.bodies, e.1 < w.bodies.size) :
    commit w s = .ok (w.commit s) := by
  have hfold : ∀ (l : List (BodyId × Placement α × Velocity α)) (bodies : Array (Body α)),
      (∀ e ∈ l, e.1 < bodies.size) →
      l.foldlM (fun bodies e ↦ update bodies e.1 (·.moveTo e.2.1 e.2.2)) bodies =
        .ok (l.foldl (fun bodies e ↦ bodies.modify e.1 (·.moveTo e.2.1 e.2.2)) bodies) := by
    intro l
    induction l with
    | nil => exact fun _ _ ↦ rfl
    | cons e l ih =>
      intro bodies hl
      rw [List.foldlM_cons, update_eq_ok (hl e List.mem_cons_self), ok_bind, ih _ fun e' he' ↦ by
        rw [Array.size_modify]; exact hl e' (List.mem_cons_of_mem e he')]
      rfl
  rw [commit, hfold _ _ hs]
  rfl

theorem foldlM_commit {solutions : List (Solution α)}
    (hs : ∀ s ∈ solutions, ∀ e ∈ s.bodies, e.1 < w.bodies.size) :
    solutions.foldlM commit w = .ok (solutions.foldl World.commit w) := by
  induction solutions generalizing w with
  | nil => rfl
  | cons s solutions ih =>
    rw [List.foldlM_cons, commit_eq (hs s List.mem_cons_self), ok_bind, ih fun s' hs' e he ↦ ?_]
    · rfl
    · rw [(World.moved_commit s).roster.size_eq]
      exact hs s' (List.mem_cons_of_mem s hs') e he

theorem move_eq (hc : ∀ h c, w.contacts.get? h = some c → c.manifold.count ≤ 2) (dt : α) :
    move w dt = w.move dt := by
  rw [move, World.move]
  simp only [partition_eq, ok_bind, solve_eq hc]
  refine bind_congr_ok fun solutions hs ↦ ?_
  rw [foldlM_commit fun s hmem e he ↦ ?_, ok_bind]
  obtain ⟨I, -, hsol⟩ := exists_of_mem_mapM hs hmem
  obtain ⟨-, b, hb, -⟩ := (Island.mem_bodies_of_solve hsol).1 (List.mem_map_of_mem he)
  exact (Array.getElem?_eq_some_iff.1 hb).1

theorem step_eq (hw : w.Reachable) (dt : α) : step w dt = w.step dt := by
  have hwf := hw.sound.wf
  have hwf₁ := World.wf_refreshed (World.wf_updatePairs hwf)
  rw [step, World.step]
  split
  · rw [updatePairs_eq hwf, ok_bind, World.updateContacts_eq (World.wf_updatePairs hwf), ok_bind,
      ok_bind, move_eq fun h c hc ↦ hwf₁.count_le hw.contacts_updated hc]
  · rfl

/-! ## Agreement of runs -/

theorem act_eq (hw : w.Reachable) (a : Action α σ) : act w a = w.act a := by
  cases a with
  | addCollider b c => exact addCollider_eq hw.roster
  | setFilter i f => exact setFilter_eq
  | setMaterial i m => exact setMaterial_eq hw.sound.wf (hw.act (a := .setMaterial i m) rfl).roster
  | setKind i k => exact setKind_eq (hw.act (a := .setKind i k) rfl).roster
  | step dt => exact step_eq hw dt
  | _ => rfl

theorem run_eq (hw : w.Reachable) (actions : List (Action α σ)) :
    run w actions = w.run actions := by
  induction actions generalizing w with
  | nil => rfl
  | cons a actions ih =>
    rw [run, World.run, List.foldlM_cons, List.foldlM_cons, act_eq hw]
    exact bind_congr_ok fun w' hw' ↦ ih (hw.act hw')

end Checked

namespace World

variable {α σ : Type} [Scalar α] {w w' : World α σ}

/-- A run is given up for one reason only. -/
theorem faultsOnly_run (hw : w.Reachable) (actions : List (Action α σ)) :
    FaultsOnly (· = .clampBounds) (w.run actions) := by
  induction actions generalizing w with
  | nil => exact faultsOnly_ok w
  | cons a actions ih =>
    refine FaultsOnly.bind ?_ fun w' hw' ↦ ih (hw.act hw')
    intro f hf
    cases a with
    | step dt =>
      by_cases hdt : Valid dt
      · have hw₁ := updateContacts_eq (wf_updatePairs hw.sound.wf)
        exact (move_eq_error_iff.1 ((step_of_updateContacts hdt hw₁).symm.trans hf)).1
      · cases (step_of_not_valid hdt).symm.trans hf
    | _ => cases hf

/-- **References never dangle.** After every run the references of the world hold.  So a run with
all look-ups by number checked is the same as one without, and no run is given up because something
is not there: the only fault is one of the solver's arithmetic. -/
theorem references_never_dangle {s : WorldSettings α} {w₀ : World α σ}
    (h₀ : ofSettings s = .ok w₀) (actions : List (Action α σ)) :
    (∀ w, w₀.run actions = .ok w → w.Coherent) ∧
      Checked.run w₀ actions = w₀.run actions ∧
      ∀ f, w₀.run actions = .error f → f = .clampBounds := by
  have hw₀ : w₀.Reachable := ⟨s, [], w₀, h₀, rfl⟩
  exact ⟨fun w h ↦ Reachable.coherent ⟨s, actions, w₀, h₀, h⟩, Checked.run_eq hw₀ actions,
    faultsOnly_run hw₀ actions⟩

/-- Three discs that touch are solved with all look-ups checked. -/
theorem checked_solids : ∃ w₀ w : World ℝ Unit, ofSettings .default = .ok w₀ ∧
    w₀.run (solids none ++ [.step 1]) = .ok w ∧ w.Touches (.of 0 1) ∧ w.Touches (.of 0 2) ∧
    w.Coherent ∧ Checked.run w₀ (solids none ++ [.step 1]) = .ok w := by
  obtain ⟨w₀, h₀⟩ := exists_ofSettings_default Unit
  obtain ⟨w₁, h₁⟩ : ∃ w₁, w₀.run (solids none) = .ok w₁ := ⟨_, rfl⟩
  obtain ⟨w, hstep, htouch, -⟩ := exists_step_solids h₀ h₁
  have hrun : w₀.run (solids none ++ [.step 1]) = .ok w :=
    run_append.2 ⟨w₁, h₁, run_singleton.2 hstep⟩
  obtain ⟨hcoherent, hchecked, -⟩ := references_never_dangle h₀ (solids none ++ [.step 1])
  exact ⟨w₀, w, h₀, hrun, htouch _ (.inl rfl), htouch _ (.inr rfl), hcoherent w hrun,
    hchecked.trans hrun⟩

end World

end PlanarDynamics
