import PlanarDynamics.Proofs.Solver.Solution

/-!
# Islands, looked up for certain

A body, a slot or a point that is not there has a stand-in wherever one is looked up by number, and
a walk over links would pass it over in silence.  The definitions of this file do the same work
without stand-ins: every look-up faults if there is nothing to be found.  Where numbers are in range
the two agree (`Checked.partition_eq`, `Checked.solve_eq`), so no stand-in is ever used.
-/

namespace PlanarDynamics

section Except

variable {ε β γ : Type}

theorem ok_bind (a : β) (f : β → Except ε γ) : Except.ok a >>= f = f a := rfl

theorem bind_congr_ok {x : Except ε β} {f g : β → Except ε γ} (h : ∀ a, x = .ok a → f a = g a) :
    x >>= f = x >>= g := by
  cases x with
  | error e => rfl
  | ok a => exact h a rfl

theorem foldlM_congr {f g : γ → β → Except ε γ} {l : List β} (h : ∀ b ∈ l, ∀ c, f c b = g c b)
    (c : γ) : l.foldlM f c = l.foldlM g c := by
  induction l generalizing c with
  | nil => rfl
  | cons b l ih =>
    rw [List.foldlM_cons, List.foldlM_cons, h b List.mem_cons_self]
    exact bind_congr_ok fun c' _ ↦ ih (fun b' hb' ↦ h b' (List.mem_cons_of_mem b hb')) c'

theorem mapM_eq_ok_map {f : β → Except ε γ} {g : β → γ} {l : List β}
    (h : ∀ a ∈ l, f a = .ok (g a)) : l.mapM f = .ok (l.map g) := by
  induction l with
  | nil => rfl
  | cons a l ih =>
    rw [List.mapM_cons, h a List.mem_cons_self, ih fun a' ha' ↦ h a' (List.mem_cons_of_mem a ha')]
    rfl

end Except

namespace Checked

/-! ## Looking up and changing entries -/

section Arrays

variable {β : Type} {xs : Array β} {i : Nat}

/-- The entry with the given number. -/
def fetch (xs : Array β) (i : Nat) : Except Fault β :=
  match xs[i]? with
  | some x => .ok x
  | none => .error .outOfRange

/-- Changes the entry with the given number. -/
def update (xs : Array β) (i : Nat) (f : β → β) : Except Fault (Array β) := do
  let x ← fetch xs i
  return xs.setIfInBounds i (f x)

theorem fetch_eq_ok {x : β} (h : xs[i]? = some x) : fetch xs i = .ok x := by
  rw [fetch, h]

theorem update_eq_ok (h : i < xs.size) (f : β → β) : update xs i f = .ok (xs.modify i f) := by
  rw [update, fetch_eq_ok (Array.getElem?_eq_getElem h)]
  refine congrArg Except.ok (Array.ext_getElem? fun j ↦ ?_)
  rw [Array.getElem?_setIfInBounds, Array.getElem?_modify]
  split
  next hj =>
    subst hj
    rw [Array.getElem?_eq_getElem h, Option.map_some]
  · rfl

end Arrays

variable {α : Type}

/-! ## The walk over links -/

section Walk

variable (bodies : Array (Body α)) (r : Registry α) (links : List Link)

/-- Looks up what following a link of the body `i` takes: the mark of its contact, of which each
slot has one, and the body at its other end. -/
def examine (i : BodyId) (l : Link) : Except Fault Unit := do
  let _ ← fetch r.slots l.handle.index
  let _ ← fetch bodies (l.other i)

/-- Visits bodies until none is left on the stack. -/
def finish (w : Walk) : Except Fault Walk :=
  match _ : w.stack with
  | [] => .ok w
  | i :: stack => do
    let b ← fetch bodies i
    let _ ← (if b.isStatic then [] else links.filter (·.touches i)).mapM (examine bodies r i)
    finish ({ w with stack }.visit links b.isStatic i)
termination_by w.left
decreasing_by
  refine Nat.lt_of_le_of_lt (Walk.left_visit _ _ _ _) ?_
  simp [Walk.left, ‹w.stack = _›]

/-- The islands of the given first bodies. -/
def gather : List BodyId → List BodyId → List Nat → Except Fault (List Island)
  | [], _, _ => .ok []
  | seed :: seeds, unseen, marked => do
    let b ← fetch bodies seed
    if b.isStatic || seed ∉ unseen then gather seeds unseen marked
    else
      let w ← finish bodies r links { stack := [seed], unseen := unseen.erase seed, marked }
      let islands ← gather seeds (unseen.filter (· ∉ w.moving)) w.marked
      return w.island :: islands

/-- All islands. -/
def partition : Except Fault (List Island) :=
  gather bodies r (Island.links bodies r) (.range bodies.size) (.range bodies.size) []

end Walk

section Agreement

variable {bodies : Array (Body α)} {r : Registry α} {i j : BodyId}

/-- What a link names is there. -/
theorem lt_size_of_mem_links {l : Link} (hl : l ∈ Island.links bodies r) :
    l.handle.index < r.slots.size ∧ l.a < bodies.size ∧ l.b < bodies.size := by
  obtain ⟨c, hc, -, ha, hb, hla, hlb⟩ := Island.mem_links.1 hl
  refine ⟨?_, hla ▸ ha, hlb ▸ hb⟩
  exact (Array.getElem?_eq_some_iff.1 (Registry.get?_eq_some_iff.1 hc)).1

theorem fetch_body (hi : i < bodies.size) :
    ∃ b, fetch bodies i = .ok b ∧ b.isStatic = Island.isStaticAt bodies i := by
  refine ⟨bodies[i], fetch_eq_ok (Array.getElem?_eq_getElem hi), ?_⟩
  simp [Island.isStaticAt, Array.getElem?_eq_getElem hi]

theorem examine_eq {l : Link} (hl : l ∈ Island.links bodies r) (i : BodyId) :
    examine bodies r i l = .ok () := by
  obtain ⟨hslot, ha, hb⟩ := lt_size_of_mem_links hl
  have hother : l.other i < bodies.size := by
    rw [Link.other]
    split
    · exact hb
    · exact ha
  rw [examine, fetch_eq_ok (Array.getElem?_eq_getElem hslot),
    fetch_eq_ok (Array.getElem?_eq_getElem hother)]
  rfl

/-- The bodies on the stack and those that may come to it exist, so a walk finds all that it looks
up. -/
theorem finish_eq {w : Walk} (hw : ∀ i ∈ w.stack ++ w.unseen, i < bodies.size) :
    finish bodies r (Island.links bodies r) w =
      .ok (w.finish (Island.isStaticAt bodies) (Island.links bodies r)) := by
  fun_induction Walk.finish (Island.isStaticAt bodies) (Island.links bodies r) w with
  | case1 w hstack =>
    rw [finish]
    split
    next => rfl
    next h => rw [hstack] at h; cases h
  | case2 w i stack hstack ih =>
    rw [hstack] at hw
    obtain ⟨b, hb, hbs⟩ := fetch_body (hw i List.mem_cons_self)
    obtain ⟨_, hlooked⟩ : ∃ us, (if b.isStatic then [] else
        (Island.links bodies r).filter (·.touches i)).mapM (examine bodies r i) = .ok us := by
      refine ⟨_, mapM_eq_ok_map (g := fun _ ↦ ()) fun l hl ↦ examine_eq ?_ i⟩
      split at hl
      · cases hl
      · exact (List.mem_filter.1 hl).1
    rw [finish]
    split
    next h => rw [hstack] at h; cases h
    next h =>
      rw [hstack] at h
      cases h
      rw [hb, ok_bind, hlooked, ok_bind, hbs]
      refine ih fun j hj ↦ hw j (List.mem_cons_of_mem i ?_)
      exact (Walk.visit_perm _ _ _ _).mem_iff.1 hj

theorem gather_eq {seeds unseen : List BodyId} {marked : List Nat}
    (hs : ∀ i ∈ seeds, i < bodies.size) (hu : ∀ i ∈ unseen, i < bodies.size) :
    gather bodies r (Island.links bodies r) seeds unseen marked =
      .ok (Island.gather (Island.isStaticAt bodies) (Island.links bodies r) seeds unseen
        marked) := by
  induction seeds generalizing unseen marked with
  | nil => rfl
  | cons seed seeds ih =>
    have hs' : ∀ i ∈ seeds, i < bodies.size := fun i hi ↦ hs i (List.mem_cons_of_mem seed hi)
    obtain ⟨b, hb, hbs⟩ := fetch_body (hs seed List.mem_cons_self)
    rw [gather, Island.gather, hb, ok_bind, hbs]
    split
    · exact ih hs' hu
    next hseed =>
      rw [Bool.or_eq_true, not_or, decide_eq_true_iff, not_not] at hseed
      have hw : ∀ i ∈ [seed] ++ unseen.erase seed, i < bodies.size := fun i hi ↦
        hu i ((List.perm_cons_erase hseed.2).mem_iff.2 hi)
      rw [finish_eq hw, ok_bind, ih hs' fun i hi ↦ hu i (List.mem_filter.1 hi).1, ok_bind]
      rfl

theorem partition_eq : partition bodies r = .ok (Island.partition bodies r) :=
  gather_eq (fun _ hi ↦ List.mem_range.1 hi) fun _ hi ↦ List.mem_range.1 hi

end Agreement

/-! ## Points by number -/

variable [Scalar α]

/-- Corrects the points of a constraint by their numbers, of which there are as many as the manifold
says. -/
def correct (s : SolverSettings α) (st : Array (Placement α) × α) (c : Constraint α) :
    Except Fault (Array (Placement α) × α) :=
  match twoOf? st.1 c.a.place c.b.place with
  | none => .ok st
  | some (a, b) => do
    let r ← (List.range c.manifold.count).foldlM (fun r j ↦ do
      let p ← fetch #[c.manifold.first, c.manifold.second] j
      c.correctPoint s r p) ⟨a, b, st.2⟩
    return (setTwo st.1 c.a.place c.b.place (r.a, r.b), r.least)

def positionPass (s : Solver α) (ps : Array (Placement α)) :
    Except Fault (Array (Placement α) × Bool) := do
  let (ps, least) ← s.constraints.foldlM (correct s.step.settings) (ps, 0)
  return (ps, decide (-3.0 * s.step.settings.linearSlop ≤ least))

def positionPasses : Nat → Solver α → Array (Placement α) →
    Except Fault (Array (Placement α) × Bool)
  | 0, _, ps => .ok (ps, false)
  | n + 1, s, ps => do
    let (ps, solved) ← positionPass s ps
    if solved then return (ps, true) else positionPasses n s ps

/-- Moves and solves the bodies of an island. -/
def solve (island : Island) (bodies : Array (Body α)) (r : Registry α) (step : TimeStep α) :
    Except Fault (Solution α) := do
  let members ← island.members bodies
  let (solver, velocities) ← island.solveVelocities members r step
    step.settings.velocityIterations fun m ↦ m.2.accelerate step.gravity step.dt m.2.motion
  let velocities := velocities.map (·.limit step.dt step.settings)
  let placements := Array.zipWith (·.advance · step.dt)
    (members.map (·.2.placement)).toArray velocities
  let (placements, solved) ← positionPasses step.settings.positionIterations solver placements
  return {
    bodies := (members.zip (placements.toList.zip velocities.toList)).filterMap
      fun ((i, b), p, v) ↦ if b.isStatic then none else some (i, p, v)
    impulses := solver.impulses
    solved }

section Agreement

variable {s : Solver α}

omit [Scalar α] in
theorem foldlM_points {m : Manifold α} (hm : m.count ≤ 2) {γ : Type}
    (f : γ → ManifoldPoint α → Except Fault γ) (x : γ) :
    (List.range m.count).foldlM (fun x j ↦ do
      let p ← fetch #[m.first, m.second] j
      f x p) x = m.points.foldlM f x := by
  match hn : m.count, hm with
  | 0, _ => simp only [Manifold.points, hn]; rfl
  | 1, _ => simp only [Manifold.points, hn]; rfl
  | 2, _ => simp only [Manifold.points, hn]; rfl

theorem correct_eq {c : Constraint α} (hc : c.manifold.count ≤ 2) (s : SolverSettings α)
    (st : Array (Placement α) × α) : correct s st c = Constraint.correct s st c := by
  rw [correct, Constraint.correct]
  cases twoOf? st.1 c.a.place c.b.place with
  | none => rfl
  | some x => simp only [foldlM_points hc]

theorem positionPass_eq (hs : ∀ c ∈ s.constraints, c.manifold.count ≤ 2)
    (ps : Array (Placement α)) : positionPass s ps = s.positionPass ps := by
  rw [positionPass, Solver.positionPass,
    foldlM_congr fun c hc st ↦ correct_eq (hs c hc) s.step.settings st]

theorem positionPasses_eq (hs : ∀ c ∈ s.constraints, c.manifold.count ≤ 2) (n : Nat)
    (ps : Array (Placement α)) : positionPasses n s ps = Solver.positionPasses n s ps := by
  induction n generalizing ps with
  | zero => rfl
  | succ n ih => simp only [positionPasses, Solver.positionPasses, positionPass_eq hs, ih]

/-- The solver keeps the manifolds of its contacts. -/
theorem count_le_of_solver {island : Island} {members : List (BodyId × Body α)} {r : Registry α}
    {step : TimeStep α} (hr : ∀ h c, r.get? h = some c → c.manifold.count ≤ 2) :
    ∀ c ∈ (island.solver members r step).constraints, c.manifold.count ≤ 2 := by
  intro c hc
  obtain ⟨e, he, hce⟩ := List.mem_filterMap.1 hc
  obtain ⟨i, j, a, b, -, -, -, -, -, rfl⟩ := Constraint.ofContact?_eq_some_iff.1 hce
  exact hr e.1 e.2 (Island.mem_current.1 he).2

theorem solve_eq {r : Registry α} (hr : ∀ h c, r.get? h = some c → c.manifold.count ≤ 2)
    (island : Island) (bodies : Array (Body α)) (step : TimeStep α) :
    solve island bodies r step = island.solve bodies r step := by
  rw [solve, Island.solve_eq]
  refine bind_congr_ok fun members _ ↦ bind_congr_ok fun x hx ↦ ?_
  obtain ⟨s, velocities⟩ := x
  obtain ⟨-, ho, -⟩ := Island.of_solveVelocities_eq_ok hx
  have hs : ∀ c ∈ s.constraints, c.manifold.count ≤ 2 := by
    refine Solver.forall_of_outline (fun c c' he hc ↦ ?_) ho (count_le_of_solver hr)
    change c'.outline.manifold.count ≤ 2
    rw [← he]
    exact hc
  simp only [positionPasses_eq hs]

end Agreement

end Checked

end PlanarDynamics
