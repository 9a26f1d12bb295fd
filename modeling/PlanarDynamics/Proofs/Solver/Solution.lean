import Mathlib.Data.Option.Basic
import PlanarDynamics.Proofs.Solver.Partition

/-!
# What solving an island comes to

The solver gets copies of the bodies and contacts of an island, and the rest of the world is out of
its sight: `Island.solve_congr`.  Its passes change the rows of its constraints and nothing else of
them (`Constraint.outline`), so that an island that has been solved tells which bodies have moved
and which contacts have been solved (`Island.map_bodies_of_solve`, `Island.map_impulses_of_solve`).
The passes can fault in one way only, by clamping between bounds that are out of order;
`FaultsOnly` follows that through the loops, once for all arithmetics.
-/

namespace PlanarDynamics

section Except

variable {ε β γ : Type}

theorem bind_eq_ok_iff {x : Except ε β} {f : β → Except ε γ} {y : γ} :
    (x >>= f) = .ok y ↔ ∃ a, x = .ok a ∧ f a = .ok y := by
  cases x <;> simp [bind, Except.bind]

theorem mapM_eq_ok_iff {f : β → Except ε γ} {l : List β} {l' : List γ} :
    l.mapM f = .ok l' ↔ List.Forall₂ (fun a b ↦ f a = .ok b) l l' := by
  induction l generalizing l' with
  | nil => simp [pure, Except.pure, eq_comm]
  | cons a l ih =>
    simp only [List.mapM_cons, bind_eq_ok_iff, ih, List.forall₂_cons_left_iff, pure, Except.pure,
      Except.ok.injEq]
    constructor
    · rintro ⟨b, hb, l', hl, rfl⟩
      exact ⟨b, l', hb, hl, rfl⟩
    · rintro ⟨b, l', hb, hl, rfl⟩
      exact ⟨b, hb, l', hl, rfl⟩

theorem mapM_congr {f g : β → Except ε γ} {l : List β} (h : ∀ a ∈ l, f a = g a) :
    l.mapM f = l.mapM g := by
  induction l with
  | nil => rfl
  | cons a l ih =>
    rw [List.mapM_cons, List.mapM_cons, h a List.mem_cons_self,
      ih fun a' ha' ↦ h a' (List.mem_cons_of_mem a ha')]

theorem exists_of_mem_mapM {f : β → Except ε γ} {l : List β} {l' : List γ} (h : l.mapM f = .ok l')
    {b : γ} (hb : b ∈ l') : ∃ a ∈ l, f a = .ok b := by
  induction mapM_eq_ok_iff.1 h with
  | nil => cases hb
  | @cons a b' l l' hab hl ih =>
    rcases List.mem_cons.1 hb with rfl | hb
    · exact ⟨a, List.mem_cons_self, hab⟩
    · obtain ⟨a', ha', hb'⟩ := ih (mapM_eq_ok_iff.2 hl) hb
      exact ⟨a', List.mem_cons_of_mem a ha', hb'⟩

theorem exists_mem_mapM {f : β → Except ε γ} {l : List β} {l' : List γ} (h : l.mapM f = .ok l')
    {a : β} (ha : a ∈ l) : ∃ b ∈ l', f a = .ok b := by
  induction mapM_eq_ok_iff.1 h with
  | nil => cases ha
  | @cons a' b l l' hab hl ih =>
    rcases List.mem_cons.1 ha with rfl | ha
    · exact ⟨b, List.mem_cons_self, hab⟩
    · obtain ⟨b', hb', hab'⟩ := ih (mapM_eq_ok_iff.2 hl) ha
      exact ⟨b', List.mem_cons_of_mem b hb', hab'⟩

theorem mem_flatMap_of_mapM {δ : Type} {f : β → Except ε γ} {g : γ → List δ} {P : β → δ → Prop}
    {l : List β} {l' : List γ} (h : l.mapM f = .ok l')
    (hf : ∀ a ∈ l, ∀ b, f a = .ok b → ∀ x, x ∈ g b ↔ P a x) (x : δ) :
    x ∈ l'.flatMap g ↔ ∃ a ∈ l, P a x := by
  rw [List.mem_flatMap]
  constructor
  · rintro ⟨b, hb, hx⟩
    obtain ⟨a, ha, hab⟩ := exists_of_mem_mapM h hb
    exact ⟨a, ha, (hf a ha b hab x).1 hx⟩
  · rintro ⟨a, ha, hx⟩
    obtain ⟨b, hb, hab⟩ := exists_mem_mapM h ha
    exact ⟨b, hb, (hf a ha b hab x).2 hx⟩

/-- What can be told of each result from its argument can be told of all. -/
theorem map_eq_of_mapM_eq_ok {δ : Type} {f : β → Except ε γ} {g : β → δ} {g' : γ → δ}
    {l : List β} {l' : List γ} (h : l.mapM f = .ok l')
    (hf : ∀ a ∈ l, ∀ b, f a = .ok b → g' b = g a) : l'.map g' = l.map g := by
  induction mapM_eq_ok_iff.1 h with
  | nil => rfl
  | @cons a b l l' hab hl ih =>
    obtain ⟨ha, hrest⟩ := List.forall_mem_cons.1 hf
    rw [List.map_cons, List.map_cons, ha b hab, ih (mapM_eq_ok_iff.2 hl) hrest]

end Except

/-- What can be told of each result from its argument can be told of those that there are. -/
theorem map_filterMap_eq {β γ δ : Type} {f : β → Option γ} {g : β → δ} {g' : γ → δ}
    (hf : ∀ a b, f a = some b → g' b = g a) (l : List β) :
    (l.filterMap f).map g' = (l.filter fun a ↦ (f a).isSome).map g := by
  induction l with
  | nil => rfl
  | cons a l ih =>
    cases ha : f a with
    | none => simp [ha, ih]
    | some b => simp [ha, ih, hf a b ha]

/-! ## Faults -/

section Faults

variable {β γ : Type} {p : Fault → Prop}

/-- The computation returns, or ends in one of the faults `p`. -/
def FaultsOnly (p : Fault → Prop) (x : Except Fault β) : Prop := ∀ f, x = .error f → p f

theorem faultsOnly_ok (y : β) : FaultsOnly p (.ok y) := by
  rintro f ⟨⟩

theorem FaultsOnly.exists_ok {x : Except Fault β} (h : FaultsOnly (fun _ ↦ False) x) :
    ∃ y, x = .ok y := by
  cases x with
  | error f => exact (h f rfl).elim
  | ok y => exact ⟨y, rfl⟩

theorem FaultsOnly.bind {x : Except Fault β} {f : β → Except Fault γ} (hx : FaultsOnly p x)
    (hf : ∀ y, x = .ok y → FaultsOnly p (f y)) : FaultsOnly p (x >>= f) := by
  cases x with
  | error e =>
    rintro _ ⟨⟩
    exact hx e rfl
  | ok y => exact hf y rfl

theorem faultsOnly_mapM {f : β → Except Fault γ} {l : List β}
    (hf : ∀ a ∈ l, FaultsOnly p (f a)) : FaultsOnly p (l.mapM f) := by
  induction l with
  | nil => exact faultsOnly_ok _
  | cons a l ih =>
    rw [List.mapM_cons]
    refine (hf a List.mem_cons_self).bind fun b _ ↦ ?_
    refine (ih fun a' ha' ↦ hf a' (List.mem_cons_of_mem a ha')).bind fun l' _ ↦ ?_
    exact faultsOnly_ok _

theorem faultsOnly_foldlM {f : γ → β → Except Fault γ} {l : List β}
    (hf : ∀ c, ∀ a ∈ l, FaultsOnly p (f c a)) (c : γ) : FaultsOnly p (l.foldlM f c) := by
  induction l generalizing c with
  | nil => exact faultsOnly_ok _
  | cons a l ih =>
    rw [List.foldlM_cons]
    refine (hf c a List.mem_cons_self).bind fun c' _ ↦ ?_
    exact ih (fun c a' ha' ↦ hf c a' (List.mem_cons_of_mem a ha')) c'

end Faults

variable {α : Type} [Scalar α]

section TwoEntries

variable {β : Type} {xs : Array β} {i j : Nat}

theorem twoOf?_eq_some_iff {v : β × β} :
    twoOf? xs i j = some v ↔ i ≠ j ∧ xs[i]? = some v.1 ∧ xs[j]? = some v.2 := by
  obtain ⟨x, y⟩ := v
  by_cases hij : i = j
  · simp [twoOf?, hij]
  · cases hx : xs[i]? <;> cases hy : xs[j]? <;> simp [twoOf?, hij, hx, hy]

theorem size_setTwo (xs : Array β) (i j : Nat) (v : β × β) :
    (setTwo xs i j v).size = xs.size := by
  simp [setTwo]

theorem getElem?_setTwo (xs : Array β) (i j : Nat) (v : β × β) (k : Nat) :
    (setTwo xs i j v)[k]? = if j = k then xs[k]?.map fun _ ↦ v.2
      else if i = k then xs[k]?.map fun _ ↦ v.1 else xs[k]? := by
  simp only [setTwo, Array.getElem?_setIfInBounds, Array.size_setIfInBounds]
  by_cases hk : k < xs.size
  · simp only [Array.getElem?_eq_getElem hk, Option.map_some]
    grind
  · have hnone : xs[k]? = none := Array.getElem?_eq_none (Nat.le_of_not_lt hk)
    simp only [hnone, Option.map_none]
    grind

/-- Where the new entries are the old ones, the array is as it was. -/
theorem getElem?_setTwo_of_twoOf? {v v' : β × β} {k : Nat} (htwo : twoOf? xs i j = some v)
    (hi : i = k → v'.1 = v.1) (hj : j = k → v'.2 = v.2) : (setTwo xs i j v')[k]? = xs[k]? := by
  obtain ⟨-, hxi, hxj⟩ := twoOf?_eq_some_iff.1 htwo
  rw [getElem?_setTwo]
  split
  next he => rw [← he, hxj, hj he, Option.map_some]
  · split
    next he => rw [← he, hxi, hi he, Option.map_some]
    · rfl

theorem setTwo_of_twoOf? {v : β × β} (htwo : twoOf? xs i j = some v) : setTwo xs i j v = xs :=
  Array.ext_getElem? fun _ ↦ getElem?_setTwo_of_twoOf? htwo (fun _ ↦ rfl) fun _ ↦ rfl

theorem twoOf?_setTwo {v : β × β} (htwo : twoOf? xs i j = some v) (v' : β × β) :
    twoOf? (setTwo xs i j v') i j = some v' := by
  obtain ⟨hij, hxi, hxj⟩ := twoOf?_eq_some_iff.1 htwo
  refine twoOf?_eq_some_iff.2 ⟨hij, ?_, ?_⟩
  · rw [getElem?_setTwo, if_neg hij.symm, if_pos rfl, hxi, Option.map_some]
  · rw [getElem?_setTwo, if_pos rfl, hxj, Option.map_some]

theorem setTwo_setTwo (xs : Array β) (i j : Nat) (v v' : β × β) :
    setTwo (setTwo xs i j v) i j v' = setTwo xs i j v' := by
  refine Array.ext_getElem? fun k ↦ ?_
  simp only [getElem?_setTwo]
  split
  · exact Option.map_map _ _ _
  · split
    · exact Option.map_map _ _ _
    · rfl

end TwoEntries

theorem faultsOnly_clampWithin (lo hi x : α) :
    FaultsOnly (· = .clampBounds) (clampWithin lo hi x) := by
  intro f hf
  rw [clampWithin] at hf
  split at hf
  · cases hf
  · cases hf
    rfl

theorem faultsOnly_clampWithin_of_le {p : Fault → Prop} {lo hi : α} (h : lo ≤ hi) (x : α) :
    FaultsOnly p (clampWithin lo hi x) := by
  rw [clampWithin, if_pos h]
  exact faultsOnly_ok _

/-- Friction of this strength acts between bounds in order, however large the normal impulse is. -/
def HasLimits (friction : α) : Prop :=
  ∀ x : α, -(friction * Scalar.max x 0) ≤ friction * Scalar.max x 0

theorem Row.faultsOnly_solve {p : Fault → Prop} (c : Constraint α) (r : Row α)
    (v : Velocity α × Velocity α) (hc : HasLimits c.friction) : FaultsOnly p (r.solve c v) :=
  (faultsOnly_clampWithin_of_le (hc _) _).bind fun _ _ ↦ faultsOnly_ok _

theorem Row.fault_of_solve (c : Constraint α) (r : Row α) (v : Velocity α × Velocity α) :
    FaultsOnly (· = .clampBounds) (r.solve c v) :=
  (faultsOnly_clampWithin _ _ _).bind fun _ _ ↦ faultsOnly_ok _

/-! ## Constraints -/

namespace Constraint

variable {c c' : Constraint α} {vs vs' : Array (Velocity α)} {p : Fault → Prop}

/-- The constraint without what the solver changes. -/
def outline (c : Constraint α) : Constraint α := { c with normal := 0, rows := [] }

theorem handle_eq_of_outline (h : c.outline = c'.outline) : c.handle = c'.handle := by
  change c.outline.handle = c'.outline.handle
  rw [h]

section OfContact

variable {scale : α} {masses : Array (SolverBody α)} {place : BodyId → Option Nat} {h : Handle}
  {k : Contact α}

theorem ofContact?_eq_some_iff : ofContact? scale masses place h k = some c ↔
    ∃ i j a b, place k.bodyA = some i ∧ place k.bodyB = some j ∧ masses[i]? = some a ∧
      masses[j]? = some b ∧ k.manifold.isEmpty = false ∧ c = {
        handle := h, manifold := k.manifold
        a := { a with place := i, radius := k.radiusA }
        b := { b with place := j, radius := k.radiusB }
        friction := k.friction, restitution := k.restitution, normal := 0
        rows := k.manifold.points.map (Row.ofPoint scale) } := by
  simp only [ofContact?, Option.bind_eq_bind, Option.bind_eq_some_iff, Option.guard_eq_some',
    Option.pure_def, Option.some.injEq, Bool.not_eq_true']
  constructor
  · rintro ⟨i, hi, j, hj, a, ha, b, hb, _, hm, rfl⟩
    exact ⟨i, j, a, b, hi, hj, ha, hb, hm, rfl⟩
  · rintro ⟨i, j, a, b, hi, hj, ha, hb, hm, rfl⟩
    exact ⟨i, hi, j, hj, a, ha, b, hb, (), hm, rfl⟩

theorem handle_of_ofContact? (hc : ofContact? scale masses place h k = some c) :
    c.handle = h := by
  obtain ⟨i, j, a, b, -, -, -, -, -, rfl⟩ := ofContact?_eq_some_iff.1 hc
  rfl

end OfContact

theorem outline_prepare (c : Constraint α) (threshold : α) (pa pb : Placement α)
    (v : Velocity α × Velocity α) : (c.prepare threshold pa pb v).outline = c.outline := by
  simp only [prepare]
  split <;> rfl

theorem of_solveVelocity_eq_ok (h : c.solveVelocity vs = .ok (c', vs')) :
    c'.outline = c.outline ∧ vs'.size = vs.size := by
  simp only [solveVelocity] at h
  split at h
  · cases h
    exact ⟨rfl, rfl⟩
  · obtain ⟨x, -, hx⟩ := bind_eq_ok_iff.1 h
    cases hx
    exact ⟨rfl, size_setTwo _ _ _ _⟩

theorem size_warmStart (vs : Array (Velocity α)) (c : Constraint α) :
    (warmStart vs c).size = vs.size := by
  rw [warmStart]
  split
  · rfl
  · exact size_setTwo _ _ _ _

theorem size_correct {s : SolverSettings α} {st st' : Array (Placement α) × α}
    (h : correct s st c = .ok st') : st'.1.size = st.1.size := by
  rw [correct] at h
  split at h
  · cases h
    rfl
  · obtain ⟨x, -, hx⟩ := bind_eq_ok_iff.1 h
    cases hx
    exact size_setTwo _ _ _ _

theorem faultsOnly_solveRows (hc : ∀ (r : Row α) v, FaultsOnly p (r.solve c v))
    (rows : List (Row α)) (v : Velocity α × Velocity α) : FaultsOnly p (c.solveRows rows v) := by
  induction rows generalizing v with
  | nil => exact faultsOnly_ok _
  | cons r rows ih =>
    refine (hc r v).bind fun x _ ↦ ?_
    refine (ih x.2).bind fun y _ ↦ ?_
    exact faultsOnly_ok _

theorem faultsOnly_solveVelocity (hc : ∀ (r : Row α) v, FaultsOnly p (r.solve c v))
    (vs : Array (Velocity α)) : FaultsOnly p (c.solveVelocity vs) := by
  rw [solveVelocity]
  split
  · exact faultsOnly_ok _
  · exact (faultsOnly_solveRows hc _ _).bind fun x _ ↦ faultsOnly_ok _

theorem faultsOnly_correct {s : SolverSettings α}
    (hs : ∀ separation, FaultsOnly p (correction s separation))
    (st : Array (Placement α) × α) (c : Constraint α) : FaultsOnly p (correct s st c) := by
  rw [correct]
  split
  · exact faultsOnly_ok _
  · refine (faultsOnly_foldlM (fun st q _ ↦ ?_) _).bind fun x _ ↦ faultsOnly_ok _
    simp only [correctPoint]
    split
    · exact (hs _).bind fun x _ ↦ faultsOnly_ok _
    · exact faultsOnly_ok _

end Constraint

/-! ## The passes -/

namespace Solver

variable {s s' : Solver α} {cs cs' : List (Constraint α)} {vs vs' : Array (Velocity α)}
  {ps ps' : Array (Placement α)} {p : Fault → Prop}

theorem outline_prepare (h : s.prepare ps vs = .ok s') :
    s'.step = s.step ∧ s'.constraints.map (·.outline) = s.constraints.map (·.outline) := by
  obtain ⟨cs, hcs, hs⟩ := bind_eq_ok_iff.1 h
  cases hs
  refine ⟨rfl, map_eq_of_mapM_eq_ok hcs fun c _ c' hc ↦ ?_⟩
  split at hc
  · cases hc
    exact c.outline_prepare _ _ _ _
  · cases hc

/-- What can be told from outlines stays true. -/
theorem forall_of_outline {P : Constraint α → Prop}
    (hP : ∀ c c' : Constraint α, c.outline = c'.outline → P c → P c')
    (h : cs'.map (·.outline) = cs.map (·.outline)) (hcs : ∀ c ∈ cs, P c) : ∀ c ∈ cs', P c := by
  intro c hc
  have hmem : c.outline ∈ cs.map (·.outline) := h ▸ List.mem_map_of_mem hc
  obtain ⟨c₀, hc₀, he⟩ := List.mem_map.1 hmem
  exact hP c₀ c he (hcs c₀ hc₀)

theorem handles_of_outline (h : cs'.map (·.outline) = cs.map (·.outline)) :
    cs'.map (·.handle) = cs.map (·.handle) := by
  have hh := congrArg (List.map (·.handle)) h
  rw [List.map_map, List.map_map] at hh
  exact hh

theorem fst_impulses (s : Solver α) : s.impulses.map (·.1) = s.constraints.map (·.handle) := by
  rw [impulses, List.map_map]
  rfl

theorem forall_friction {P : α → Prop} (h : cs'.map (·.outline) = cs.map (·.outline))
    (hcs : ∀ c ∈ cs, P c.friction) : ∀ c ∈ cs', P c.friction := by
  refine forall_of_outline (fun c c' he hc ↦ ?_) h hcs
  have hf : c.outline.friction = c'.outline.friction := congrArg _ he
  exact hf ▸ hc

theorem size_warmStart (s : Solver α) (vs : Array (Velocity α)) :
    (s.warmStart vs).size = vs.size := by
  rw [warmStart]
  induction s.constraints generalizing vs with
  | nil => rfl
  | cons c cs ih => rw [List.foldl_cons, ih, Constraint.size_warmStart]

theorem of_solveConstraints_eq_ok (h : solveConstraints cs vs = .ok (cs', vs')) :
    cs'.map (·.outline) = cs.map (·.outline) ∧ vs'.size = vs.size := by
  induction cs generalizing vs cs' vs' with
  | nil =>
    cases h
    exact ⟨rfl, rfl⟩
  | cons c cs ih =>
    obtain ⟨⟨c₁, vs₁⟩, hc, h⟩ := bind_eq_ok_iff.1 h
    obtain ⟨⟨cs₁, vs₂⟩, hcs, h⟩ := bind_eq_ok_iff.1 h
    cases h
    obtain ⟨ho, hsize⟩ := Constraint.of_solveVelocity_eq_ok hc
    obtain ⟨hos, hsizes⟩ := ih hcs
    rw [List.map_cons, List.map_cons, ho, hos]
    exact ⟨rfl, hsizes.trans hsize⟩

theorem of_velocityPass_eq_ok (h : s.velocityPass vs = .ok (s', vs')) : s'.step = s.step ∧
    s'.constraints.map (·.outline) = s.constraints.map (·.outline) ∧ vs'.size = vs.size := by
  obtain ⟨⟨cs, vs₁⟩, hcs, h⟩ := bind_eq_ok_iff.1 h
  cases h
  exact ⟨rfl, of_solveConstraints_eq_ok hcs⟩

theorem of_velocityPasses_eq_ok {n : Nat} (h : velocityPasses n s vs = .ok (s', vs')) :
    s'.step = s.step ∧ s'.constraints.map (·.outline) = s.constraints.map (·.outline) ∧
      vs'.size = vs.size := by
  induction n generalizing s vs with
  | zero =>
    cases h
    exact ⟨rfl, rfl, rfl⟩
  | succ n ih =>
    obtain ⟨⟨s₁, vs₁⟩, h₁, h⟩ := bind_eq_ok_iff.1 h
    obtain ⟨hstep, ho, hsize⟩ := of_velocityPass_eq_ok h₁
    obtain ⟨hstep', ho', hsize'⟩ := ih h
    exact ⟨hstep'.trans hstep, ho'.trans ho, hsize'.trans hsize⟩

theorem size_positionPass {solved : Bool} (h : s.positionPass ps = .ok (ps', solved)) :
    ps'.size = ps.size := by
  obtain ⟨st, hst, h⟩ := bind_eq_ok_iff.1 h
  cases h
  have hfold : ∀ (cs : List (Constraint α)) (st st' : Array (Placement α) × α),
      cs.foldlM (Constraint.correct s.step.settings) st = .ok st' → st'.1.size = st.1.size := by
    intro cs
    induction cs with
    | nil =>
      rintro st _ ⟨⟩
      rfl
    | cons c cs ih =>
      intro st st' hst
      obtain ⟨st₁, h₁, h₂⟩ := bind_eq_ok_iff.1 hst
      rw [ih _ _ h₂, Constraint.size_correct h₁]
  exact hfold _ _ _ hst

theorem size_positionPasses {n : Nat} {solved : Bool}
    (h : positionPasses n s ps = .ok (ps', solved)) : ps'.size = ps.size := by
  induction n generalizing ps with
  | zero =>
    cases h
    rfl
  | succ n ih =>
    obtain ⟨⟨ps₁, solved₁⟩, h₁, h⟩ := bind_eq_ok_iff.1 h
    cases solved₁ with
    | true =>
      cases h
      exact size_positionPass h₁
    | false => exact (ih h).trans (size_positionPass h₁)

/-! ### Faults of the passes

`P` is what has to be known of friction for the rows to fault as `p` says. -/

section

variable {P : α → Prop}
  (hrow : ∀ (c : Constraint α) (r : Row α) v, P c.friction → FaultsOnly p (r.solve c v))

include hrow

theorem faultsOnly_solveConstraints (hcs : ∀ c ∈ cs, P c.friction) (vs : Array (Velocity α)) :
    FaultsOnly p (solveConstraints cs vs) := by
  induction cs generalizing vs with
  | nil => exact faultsOnly_ok _
  | cons c cs ih =>
    have hc : FaultsOnly p (c.solveVelocity vs) :=
      Constraint.faultsOnly_solveVelocity (fun r v ↦ hrow c r v (hcs c List.mem_cons_self)) vs
    refine hc.bind fun x _ ↦ ?_
    refine (ih (fun c' hc' ↦ hcs c' (List.mem_cons_of_mem c hc')) x.2).bind fun y _ ↦ ?_
    exact faultsOnly_ok _

theorem faultsOnly_velocityPasses (hs : ∀ c ∈ s.constraints, P c.friction) (n : Nat)
    (vs : Array (Velocity α)) : FaultsOnly p (velocityPasses n s vs) := by
  induction n generalizing s vs with
  | zero => exact faultsOnly_ok _
  | succ n ih =>
    refine ((faultsOnly_solveConstraints hrow hs vs).bind fun x _ ↦ faultsOnly_ok _).bind ?_
    rintro ⟨s', vs'⟩ h
    exact ih (forall_friction (of_velocityPass_eq_ok h).2.1 hs) vs'

end

theorem faultsOnly_positionPasses
    (hs : ∀ separation, FaultsOnly p (Constraint.correction s.step.settings separation)) (n : Nat)
    (ps : Array (Placement α)) : FaultsOnly p (positionPasses n s ps) := by
  induction n generalizing ps with
  | zero => exact faultsOnly_ok _
  | succ n ih =>
    have hpass : FaultsOnly p (s.positionPass ps) := by
      refine (faultsOnly_foldlM (fun st c _ ↦ ?_) _).bind fun x _ ↦ faultsOnly_ok _
      exact Constraint.faultsOnly_correct hs st c
    refine hpass.bind ?_
    rintro ⟨ps', solved⟩ -
    cases solved with
    | true => exact faultsOnly_ok _
    | false => exact ih ps'

/-! ### Constraints of contacts -/

theorem handles_ofContacts (step : TimeStep α) (contacts : List (Handle × Contact α))
    (masses : Array (SolverBody α)) (place : BodyId → Option Nat) :
    (ofContacts step contacts masses place).constraints.map (·.handle) =
      (contacts.filter fun e ↦
        (Constraint.ofContact? (warmScale step) masses place e.1 e.2).isSome).map (·.1) :=
  map_filterMap_eq (fun _ _ ↦ Constraint.handle_of_ofContact?) contacts

/-- The bodies of constraints are found. -/
theorem exists_prepare_ofContacts (step : TimeStep α) (contacts : List (Handle × Contact α))
    {masses : Array (SolverBody α)} (place : BodyId → Option Nat) (hps : ps.size = masses.size)
    (hvs : vs.size = masses.size) :
    ∃ s, (ofContacts step contacts masses place).prepare ps vs = .ok s := by
  refine ((faultsOnly_mapM fun c hc ↦ ?_).bind fun cs _ ↦ faultsOnly_ok _).exists_ok
  obtain ⟨e, -, he⟩ := List.mem_filterMap.1 hc
  obtain ⟨i, j, a, b, -, -, ha, hb, -, rfl⟩ := Constraint.ofContact?_eq_some_iff.1 he
  have hi := (Array.getElem?_eq_some_iff.1 ha).1
  have hj := (Array.getElem?_eq_some_iff.1 hb).1
  rw [Array.getElem?_eq_getElem (hps ▸ hi), Array.getElem?_eq_getElem (hps ▸ hj),
    Array.getElem?_eq_getElem (hvs ▸ hi), Array.getElem?_eq_getElem (hvs ▸ hj)]
  exact faultsOnly_ok _

end Solver

/-! ## Islands -/

namespace Island

variable {island : Island} {bodies bodies' : Array (Body α)} {r r' : Registry α}
  {step : TimeStep α} {members : List (BodyId × Body α)} {sol : Solution α}

/-- The contacts of the island as they are now. -/
def current (island : Island) (r : Registry α) : List (Handle × Contact α) :=
  island.contacts.filterMap fun h ↦ (r.get? h).map (h, ·)

/-- A solver for the contacts of the island. -/
def solver (island : Island) (members : List (BodyId × Body α)) (r : Registry α)
    (step : TimeStep α) : Solver α :=
  .ofContacts step (island.current r) (members.map (.ofBody ·.2)).toArray island.place?

/-- The velocities that the members of an island have, placed and solved for. -/
def solveVelocities (island : Island) (members : List (BodyId × Body α)) (r : Registry α)
    (step : TimeStep α) (n : Nat) (start : BodyId × Body α → Velocity α) :
    Except Fault (Solver α × Array (Velocity α)) := do
  let velocities := (members.map start).toArray
  let placements := (members.map (·.2.placement)).toArray
  let solver ← (island.solver members r step).prepare placements velocities
  Solver.velocityPasses n solver (solver.warmStart velocities)

theorem solve_eq (island : Island) (bodies : Array (Body α)) (r : Registry α)
    (step : TimeStep α) : island.solve bodies r step = do
      let members ← island.members bodies
      let (solver, velocities) ← island.solveVelocities members r step
        step.settings.velocityIterations fun m ↦ m.2.accelerate step.gravity step.dt m.2.motion
      let velocities := velocities.map (·.limit step.dt step.settings)
      let placements := Array.zipWith (·.advance · step.dt)
        (members.map (·.2.placement)).toArray velocities
      let (placements, solved) ←
        Solver.positionPasses step.settings.positionIterations solver placements
      return {
        bodies := (members.zip (placements.toList.zip velocities.toList)).filterMap
          fun ((i, b), p, v) ↦ if b.isStatic then none else some (i, p, v)
        impulses := solver.impulses
        solved } := by
  simp only [solve, solveVelocities, bind_assoc]
  rfl

/-- **Solving an island looks at its bodies and contacts only.** -/
theorem solve_congr (hb : ∀ i ∈ island.bodies, bodies'[i]? = bodies[i]?)
    (hr : ∀ h ∈ island.contacts, r'.get? h = r.get? h) (step : TimeStep α) :
    island.solve bodies' r' step = island.solve bodies r step := by
  have hm : island.members bodies' = island.members bodies :=
    mapM_congr fun i hi ↦ by rw [hb i hi]
  have hc : island.current r' = island.current r :=
    List.filterMap_congr fun h hh ↦ by rw [hr h hh]
  have hs : ∀ members, island.solver members r' step = island.solver members r step := by
    intro members
    rw [solver, solver, hc]
  simp only [solve_eq, solveVelocities, hm, hs]

/-! ### Members and places -/

section

omit [Scalar α]

theorem mem_current {e : Handle × Contact α} :
    e ∈ island.current r ↔ e.1 ∈ island.contacts ∧ r.get? e.1 = some e.2 := by
  simp only [current, List.mem_filterMap, Option.map_eq_some_iff]
  constructor
  · rintro ⟨h, hh, c, hc, rfl⟩
    exact ⟨hh, hc⟩
  · rintro ⟨hh, hc⟩
    exact ⟨e.1, hh, e.2, hc, rfl⟩

theorem map_current (island : Island) (r : Registry α) :
    (island.current r).map (·.1) = island.contacts.filter fun h ↦ (r.get? h).isSome := by
  have hfst : ∀ (h : Handle) (e : Handle × Contact α), (r.get? h).map (h, ·) = some e →
      e.1 = id h := by
    intro h e he
    obtain ⟨c, -, rfl⟩ := Option.map_eq_some_iff.1 he
    rfl
  rw [current, map_filterMap_eq hfst, List.map_id]
  exact List.filter_congr fun h _ ↦ Option.isSome_map

theorem map_members (h : island.members bodies = .ok members) :
    members.map (·.1) = island.bodies := by
  rw [← List.map_id island.bodies]
  refine map_eq_of_mapM_eq_ok h fun i _ m hm ↦ ?_
  split at hm
  · cases hm
    rfl
  · cases hm

theorem getElem?_of_mem_members (h : island.members bodies = .ok members)
    {m : BodyId × Body α} (hm : m ∈ members) : bodies[m.1]? = some m.2 := by
  obtain ⟨i, -, hi⟩ := exists_of_mem_mapM h hm
  split at hi
  · cases hi
    assumption
  · cases hi

theorem lt_size_of_mem_bodies (h : island.members bodies = .ok members) {i : BodyId}
    (hi : i ∈ island.bodies) : i < bodies.size := by
  rw [← map_members h] at hi
  obtain ⟨m, hmem, rfl⟩ := List.mem_map.1 hi
  exact (Array.getElem?_eq_some_iff.1 (getElem?_of_mem_members h hmem)).1

theorem getElem?_members (h : island.members bodies = .ok members) {k : Nat} {i : BodyId}
    {b : Body α} : members[k]? = some (i, b) ↔
      island.bodies[k]? = some i ∧ bodies[i]? = some b := by
  rw [← map_members h, List.getElem?_map, Option.map_eq_some_iff]
  constructor
  · intro hk
    exact ⟨⟨_, hk, rfl⟩, getElem?_of_mem_members h (List.mem_of_getElem? hk)⟩
  · rintro ⟨⟨m, hk, rfl⟩, hb⟩
    have hm := getElem?_of_mem_members h (List.mem_of_getElem? hk)
    rw [hb, Option.some.injEq] at hm
    rw [hk, hm]

theorem lt_size_of_mem_partition (hI : island ∈ partition bodies r) {i : BodyId}
    (hi : i ∈ island.bodies) : i < bodies.size := by
  rw [partition_eq] at hI
  exact List.mem_range.1 ((isComponent_of_mem_collect closed_range List.nodup_range hI).2 i hi)

/-- A contact to be solved is in an island, if one of its bodies moves. -/
theorem exists_mem_contacts {h : Handle} {c : Contact α} (hc : r.get? h = some c)
    (hs : c.isSolvable = true) (hA : c.bodyA < bodies.size) (hB : c.bodyB < bodies.size)
    (hmov : IsMoving bodies c.bodyA ∨ IsMoving bodies c.bodyB) :
    ∃ I ∈ partition bodies r, h ∈ I.contacts := by
  have hb : Binds bodies r h c.bodyA c.bodyB := ⟨c, hc, hs, hA, hB, .inl ⟨rfl, rfl⟩⟩
  rcases hmov with hmov | hmov
  · obtain ⟨I, hI, hi⟩ := exists_mem_partition (r := r) hmov
    exact ⟨I, hI, (mem_contacts_iff hI).2 ⟨_, hi, hmov, _, hb⟩⟩
  · obtain ⟨I, hI, hi⟩ := exists_mem_partition (r := r) hmov
    exact ⟨I, hI, (mem_contacts_iff hI).2 ⟨_, hi, hmov, _, hb.symm⟩⟩

theorem exists_members (hb : ∀ i ∈ island.bodies, i < bodies.size) :
    ∃ members, island.members bodies = .ok members := by
  refine (faultsOnly_mapM fun i hi ↦ ?_).exists_ok
  rw [Array.getElem?_eq_getElem (hb i hi)]
  exact faultsOnly_ok _

theorem getElem?_of_place? {i : BodyId} {k : Nat} (h : island.place? i = some k) :
    island.bodies[k]? = some i := by
  simp only [place?, List.findRev?_eq_find?_reverse, Option.map_eq_some_iff] at h
  obtain ⟨x, hx, rfl⟩ := h
  have hi : x.1 = i := by simpa using List.find?_some hx
  have hmem := List.mem_reverse.1 (List.mem_of_find?_eq_some hx)
  rw [List.mem_zipIdx_iff_getElem?, hi] at hmem
  exact hmem

theorem place?_eq_some_iff (hn : island.bodies.Nodup) {i : BodyId} {k : Nat} :
    island.place? i = some k ↔ island.bodies[k]? = some i := by
  refine ⟨getElem?_of_place?, fun hk ↦ ?_⟩
  have hmem : (i, k) ∈ island.bodies.zipIdx.reverse :=
    List.mem_reverse.2 (List.mem_zipIdx_iff_getElem?.2 hk)
  have hsome : (island.bodies.zipIdx.reverse.find? (·.1 = i)).isSome :=
    List.find?_isSome.2 ⟨(i, k), hmem, decide_eq_true rfl⟩
  obtain ⟨x, hx⟩ := Option.isSome_iff_exists.1 hsome
  have hplace : island.place? i = some x.2 := by
    rw [place?, List.findRev?_eq_find?_reverse, hx, Option.map_some]
  -- Without repetitions, the last place of a body is its only one.
  have hfound := getElem?_of_place? hplace
  have hlt := (List.getElem?_eq_some_iff.1 hfound).1
  rw [hplace, (List.getElem?_inj hlt hn).1 (hfound.trans hk.symm)]

end

/-! ### What a solution tells -/

theorem of_solveVelocities_eq_ok {n : Nat} {start : BodyId × Body α → Velocity α} {s : Solver α}
    {vs : Array (Velocity α)} (h : island.solveVelocities members r step n start = .ok (s, vs)) :
    s.step = step ∧
      s.constraints.map (·.outline) = (island.solver members r step).constraints.map (·.outline) ∧
      vs.size = members.length := by
  obtain ⟨s₀, hs₀, h⟩ := bind_eq_ok_iff.1 h
  obtain ⟨hstep₀, ho₀⟩ := Solver.outline_prepare hs₀
  obtain ⟨hstep, ho, hsize⟩ := Solver.of_velocityPasses_eq_ok h
  refine ⟨hstep.trans hstep₀, ho.trans ho₀, ?_⟩
  rw [hsize, Solver.size_warmStart, List.size_toArray, List.length_map]

/-- A solution has a state for each member that moves, and the impulses of all constraints. -/
theorem of_solve_eq_ok (h : island.solve bodies r step = .ok sol) :
    ∃ members, island.members bodies = .ok members ∧
      sol.impulses.map (·.1) = (island.solver members r step).constraints.map (·.handle) ∧
      ∃ states : List (Placement α × Velocity α), states.length = members.length ∧
        sol.bodies = (members.zip states).filterMap fun x ↦
          if x.1.2.isStatic then none else some (x.1.1, x.2) := by
  rw [solve_eq] at h
  obtain ⟨members, hm, h⟩ := bind_eq_ok_iff.1 h
  obtain ⟨⟨s, vs⟩, hv, h⟩ := bind_eq_ok_iff.1 h
  obtain ⟨⟨ps, solved⟩, hp, h⟩ := bind_eq_ok_iff.1 h
  obtain ⟨-, ho, hsize⟩ := of_solveVelocities_eq_ok hv
  have hps : ps.size = members.length := by
    rw [Solver.size_positionPasses hp]
    simp [hsize]
  cases h
  refine ⟨members, hm, ?_, _, ?_, rfl⟩
  · exact (Solver.fst_impulses s).trans (Solver.handles_of_outline ho)
  · simp [hps, hsize]

theorem map_bodies_of_solve (h : island.solve bodies r step = .ok sol) :
    sol.bodies.map (·.1) = island.bodies.filter fun i ↦ !isStaticAt bodies i := by
  obtain ⟨members, hm, -, states, hlen, hb⟩ := of_solve_eq_ok h
  have hids : (members.zip states).map (·.1.1) = island.bodies := by
    have hzip : (members.zip states).map Prod.fst = members :=
      List.map_fst_zip (Nat.le_of_eq hlen.symm)
    rw [← map_members hm, ← congrArg (List.map (·.1)) hzip, List.map_map]
    rfl
  have hfst : ∀ (x : (BodyId × Body α) × Placement α × Velocity α) y,
      (if x.1.2.isStatic then none else some (x.1.1, x.2)) = some y → y.1 = x.1.1 := by
    intro x y hy
    cases (Option.ite_none_left_eq_some.1 hy).2
    rfl
  rw [hb, map_filterMap_eq hfst, ← hids, List.filter_map]
  refine congrArg _ (List.filter_congr fun x hx ↦ ?_)
  have hbody := getElem?_of_mem_members hm (List.of_mem_zip hx).1
  cases hs : x.1.2.isStatic <;> simp [isStaticAt, hbody, hs]

theorem mem_bodies_of_solve (h : island.solve bodies r step = .ok sol) {i : BodyId} :
    i ∈ sol.bodies.map (·.1) ↔ i ∈ island.bodies ∧ IsMoving bodies i := by
  obtain ⟨members, hm, -⟩ := of_solve_eq_ok h
  rw [map_bodies_of_solve h, List.mem_filter, isMoving_iff, Bool.not_eq_true']
  exact and_congr_right fun hi ↦ (and_iff_right (lt_size_of_mem_bodies hm hi)).symm

theorem map_impulses_of_solve (h : island.solve bodies r step = .ok sol) :
    (sol.impulses.map (·.1)).Sublist island.contacts := by
  obtain ⟨members, -, hi, -⟩ := of_solve_eq_ok h
  rw [hi, solver, Solver.handles_ofContacts]
  refine (List.filter_sublist.map _).trans ?_
  rw [map_current]
  exact List.filter_sublist

/-- Of an island whose contacts are live, have points and join bodies of the island, no contact is
left out. -/
theorem handles_solver (hm : island.members bodies = .ok members) (hn : island.bodies.Nodup)
    (hc : ∀ h ∈ island.contacts, ∃ c, r.get? h = some c ∧ c.bodyA ∈ island.bodies ∧
      c.bodyB ∈ island.bodies ∧ c.manifold.isEmpty = false) (step : TimeStep α) :
    (island.solver members r step).constraints.map (·.handle) = island.contacts := by
  have hlive : (island.current r).map (·.1) = island.contacts := by
    rw [map_current, List.filter_eq_self]
    intro h hh
    obtain ⟨c, hget, -⟩ := hc h hh
    rw [hget]
    rfl
  -- A body of the island has a place, and the solver's list of bodies has an entry there.
  have hplace : ∀ i ∈ island.bodies, ∃ k a, island.place? i = some k ∧
      (members.map (.ofBody ·.2)).toArray[k]? = some (a : SolverBody α) := by
    intro i hi
    obtain ⟨k, hk⟩ := List.mem_iff_getElem?.1 hi
    rw [← map_members hm, List.getElem?_map, Option.map_eq_some_iff] at hk
    obtain ⟨m, hmk, rfl⟩ := hk
    refine ⟨k, .ofBody m.2, (place?_eq_some_iff hn).2 ?_, ?_⟩
    · rw [← map_members hm, List.getElem?_map, hmk]
      rfl
    · rw [List.getElem?_toArray, List.getElem?_map, hmk]
      rfl
  rw [solver, Solver.handles_ofContacts, List.filter_eq_self.2 ?_, hlive]
  intro e he
  obtain ⟨hh, hget⟩ := mem_current.1 he
  obtain ⟨c, hc, hA, hB, hp⟩ := hc e.1 hh
  cases hget.symm.trans hc
  obtain ⟨i, a, hi, ha⟩ := hplace _ hA
  obtain ⟨j, b, hj, hb⟩ := hplace _ hB
  exact Option.isSome_iff_exists.2
    ⟨_, Constraint.ofContact?_eq_some_iff.2 ⟨i, j, a, b, hi, hj, ha, hb, hp, rfl⟩⟩

/-! ### Faults of solving -/

section

variable {p : Fault → Prop} {P : α → Prop}
  (hrow : ∀ (c : Constraint α) (r : Row α) v, P c.friction → FaultsOnly p (r.solve c v))
  (hP : ∀ h ∈ island.contacts, ∀ c, r.get? h = some c → P c.friction)

include hrow hP

theorem faultsOnly_solveVelocities (members : List (BodyId × Body α)) (step : TimeStep α) (n : Nat)
    (start : BodyId × Body α → Velocity α) :
    FaultsOnly p (island.solveVelocities members r step n start) := by
  obtain ⟨s, hs⟩ : ∃ s, (island.solver members r step).prepare
      (members.map (·.2.placement)).toArray (members.map start).toArray = .ok s :=
    Solver.exists_prepare_ofContacts _ _ _ (by simp) (by simp)
  have hfriction : ∀ c ∈ s.constraints, P c.friction := by
    refine Solver.forall_friction (Solver.outline_prepare hs).2 fun c hc ↦ ?_
    obtain ⟨e, he, hec⟩ := List.mem_filterMap.1 hc
    obtain ⟨hh, hget⟩ := mem_current.1 he
    obtain ⟨i, j, a, b, -, -, -, -, -, rfl⟩ := Constraint.ofContact?_eq_some_iff.1 hec
    exact hP e.1 hh e.2 hget
  rw [solveVelocities, hs]
  exact Solver.faultsOnly_velocityPasses hrow hfriction n _

/-- Solving an island whose bodies exist faults only where rows or corrections do. -/
theorem faultsOnly_solve (hb : ∀ i ∈ island.bodies, i < bodies.size)
    (hcorr : ∀ separation, FaultsOnly p (Constraint.correction step.settings separation)) :
    FaultsOnly p (island.solve bodies r step) := by
  obtain ⟨members, hm⟩ := exists_members hb
  rw [solve_eq, hm]
  refine (faultsOnly_solveVelocities hrow hP members step _ _).bind ?_
  rintro ⟨s, vs⟩ hs
  have hstep := (of_solveVelocities_eq_ok hs).1
  exact (Solver.faultsOnly_positionPasses (hstep ▸ hcorr) _ _).bind fun x _ ↦ faultsOnly_ok _

end

end Island

end PlanarDynamics
