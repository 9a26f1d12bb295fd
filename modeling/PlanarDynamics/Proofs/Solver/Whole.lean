import PlanarDynamics.Proofs.World.Solving

/-!
# Solving islands or the whole

One solver over all bodies and all contacts to be solved comes to the same velocities and impulses
as a solver for each island: `Island.velocitySolution_partition`.  A run of the whole solver is
watched from an island.  The constraints of the island do in the whole what they do by themselves,
with bodies at other places (`Constraint.relocate`).  All other constraints leave the bodies of the
island alone, as they can only have its static bodies, which impulses do not move
(`Island.Fits`).  So the velocities of the island's bodies stay the same in both runs
(`Island.Matches`), and the rows of its constraints with them.
-/

namespace PlanarDynamics

/-- A sublist of a list without repetitions is known by its members. -/
theorem eq_filter_of_sublist {β : Type} [DecidableEq β] {l l' : List β} (h : l.Sublist l')
    (hn : l'.Nodup) : l = l'.filter (· ∈ l) := by
  induction h with
  | slnil => rfl
  | cons a h ih =>
    obtain ⟨ha, hn⟩ := List.nodup_cons.1 hn
    rw [List.filter_cons_of_neg (by simpa using fun hl ↦ ha (h.subset hl))]
    exact ih hn
  | @cons_cons l l' a h ih =>
    obtain ⟨ha, hn⟩ := List.nodup_cons.1 hn
    rw [List.filter_cons_of_pos (by simp)]
    refine congrArg (a :: ·) ((ih hn).trans (List.filter_congr fun x hx ↦ ?_))
    have hxa : x ≠ a := fun he ↦ ha (he ▸ hx)
    simp [hxa]

/-! ## Bodies at other places -/

namespace Constraint

variable {α : Type} [Scalar α]

/-- The constraint with its bodies at other places. -/
def relocate (f : Nat → Nat) (c : Constraint α) : Constraint α :=
  { c with a := { c.a with place := f c.a.place }, b := { c.b with place := f c.b.place } }

theorem prepare_relocate (f : Nat → Nat) (c : Constraint α) (threshold : α) (pa pb : Placement α)
    (v : Velocity α × Velocity α) :
    (c.relocate f).prepare threshold pa pb v = (c.prepare threshold pa pb v).relocate f := by
  simp only [prepare, apply_ite (relocate f)]
  rfl

theorem ofContact?_relocate {f : Nat → Nat} {scale : α} {masses masses' : Array (SolverBody α)}
    {place place' : BodyId → Option Nat} {k : Contact α}
    (hA : place' k.bodyA = (place k.bodyA).map f) (hB : place' k.bodyB = (place k.bodyB).map f)
    (hm : ∀ i, place k.bodyA = some i ∨ place k.bodyB = some i → masses'[f i]? = masses[i]?)
    (h : Handle) :
    ofContact? scale masses' place' h k = (ofContact? scale masses place h k).map (relocate f) := by
  rw [ofContact?, ofContact?, hA, hB]
  cases hi : place k.bodyA with
  | none => rfl
  | some i =>
    cases hj : place k.bodyB with
    | none => rfl
    | some j =>
      simp only [Option.map_some, Option.bind_eq_bind, Option.bind_some, hm i (.inl hi),
        hm j (.inr hj)]
      cases masses[i]? <;> cases masses[j]? <;> cases k.manifold.isEmpty <;> rfl

theorem solveRows_relocate (f : Nat → Nat) (c : Constraint α) (rows : List (Row α))
    (v : Velocity α × Velocity α) : (c.relocate f).solveRows rows v = c.solveRows rows v := by
  induction rows generalizing v with
  | nil => rfl
  | cons r rows ih =>
    have hr : r.solve (c.relocate f) v = r.solve c v := rfl
    simp only [solveRows, hr, ih]

end Constraint

namespace Island

/-! ## Seen from an island -/

section Matches

variable {I : Island} {β : Type} {xs ys : Array β} {i j : BodyId}

/-- The place of a body of the island. -/
def seat (I : Island) (i : BodyId) : Nat := (I.place? i).getD 0

theorem place?_eq_seat (hn : I.bodies.Nodup) (hi : i ∈ I.bodies) :
    I.place? i = some (I.seat i) := by
  obtain ⟨k, hk⟩ := List.mem_iff_getElem?.1 hi
  rw [seat, (place?_eq_some_iff hn).2 hk]
  rfl

theorem getElem?_seat (hn : I.bodies.Nodup) (hi : i ∈ I.bodies) :
    I.bodies[I.seat i]? = some i :=
  (place?_eq_some_iff hn).1 (place?_eq_seat hn hi)

theorem seat_inj (hn : I.bodies.Nodup) (hi : i ∈ I.bodies) (hj : j ∈ I.bodies) :
    I.seat i = I.seat j ↔ i = j := by
  refine ⟨fun h ↦ ?_, fun h ↦ h ▸ rfl⟩
  have hij := getElem?_seat hn hi
  rw [h, getElem?_seat hn hj] at hij
  exact (Option.some.inj hij).symm

/-- The entries for all bodies, and those for the bodies of the island. -/
def Matches (I : Island) (xs ys : Array β) : Prop := ∀ i ∈ I.bodies, ys[I.seat i]? = xs[i]?

theorem Matches.twoOf?_seat (hm : I.Matches xs ys) (hn : I.bodies.Nodup) (hi : i ∈ I.bodies)
    (hj : j ∈ I.bodies) : twoOf? ys (I.seat i) (I.seat j) = twoOf? xs i j := by
  simp only [twoOf?, seat_inj hn hi hj, hm i hi, hm j hj]

theorem Matches.setTwo_seat (hm : I.Matches xs ys) (hn : I.bodies.Nodup) (hi : i ∈ I.bodies)
    (hj : j ∈ I.bodies) (v : β × β) :
    I.Matches (setTwo xs i j v) (setTwo ys (I.seat i) (I.seat j) v) := by
  intro k hk
  simp only [getElem?_setTwo, seat_inj hn hi hk, seat_inj hn hj hk, hm k hk]

/-- What happens elsewhere does not matter. -/
theorem Matches.of_eq {xs' : Array β} (hm : I.Matches xs ys)
    (h : ∀ i ∈ I.bodies, xs'[i]? = xs[i]?) : I.Matches xs' ys :=
  fun i hi ↦ (hm i hi).trans (h i hi).symm

end Matches

variable {I : Island} {c c' : Constraint ℝ} {cs cs' : List (Constraint ℝ)}
  {xs xs' ys : Array (Velocity ℝ)}

/-- A constraint of the island has its bodies in the island.  Any other constraint has no bodies of
the island but fixed ones. -/
structure Fits (I : Island) (c : Constraint ℝ) : Prop where
  inside : c.handle ∈ I.contacts → c.a.place ∈ I.bodies ∧ c.b.place ∈ I.bodies
  outside : c.handle ∉ I.contacts → (c.a.place ∈ I.bodies → c.a.IsFixed) ∧
    (c.b.place ∈ I.bodies → c.b.IsFixed)

theorem Fits.of_outline (he : c.outline = c'.outline) (h : I.Fits c) : I.Fits c' := by
  have hh := Constraint.handle_eq_of_outline he
  have ha : c.outline.a = c'.outline.a := congrArg _ he
  have hb : c.outline.b = c'.outline.b := congrArg _ he
  change c.a = c'.a at ha
  change c.b = c'.b at hb
  exact ⟨hh ▸ ha ▸ hb ▸ h.inside, hh ▸ ha ▸ hb ▸ h.outside⟩

/-- The constraints of the island, with the places that its bodies have there. -/
def restrict {α : Type} (I : Island) (cs : List (Constraint α)) : List (Constraint α) :=
  (cs.filter (·.handle ∈ I.contacts)).map (·.relocate I.seat)

theorem restrict_cons_of_mem (hc : c.handle ∈ I.contacts) :
    I.restrict (c :: cs) = c.relocate I.seat :: I.restrict cs := by
  simp [restrict, hc]

theorem restrict_cons_of_not_mem (hc : c.handle ∉ I.contacts) :
    I.restrict (c :: cs) = I.restrict cs := by
  simp [restrict, hc]

/-- Constraints of the island may be made from its contacts, or found among all. -/
theorem filterMap_filter_eq_restrict {scale : ℝ} {masses masses' : Array (SolverBody ℝ)}
    {place place' : BodyId → Option Nat} {l : List (Handle × Contact ℝ)}
    (h : ∀ e ∈ l, e.1 ∈ I.contacts → Constraint.ofContact? scale masses' place' e.1 e.2 =
      (Constraint.ofContact? scale masses place e.1 e.2).map (Constraint.relocate I.seat)) :
    (l.filter (·.1 ∈ I.contacts)).filterMap
        (fun e ↦ Constraint.ofContact? scale masses' place' e.1 e.2) =
      I.restrict (l.filterMap fun e ↦ Constraint.ofContact? scale masses place e.1 e.2) := by
  induction l with
  | nil => rfl
  | cons e l ih =>
    obtain ⟨he, hl⟩ := List.forall_mem_cons.1 h
    have ih := ih hl
    by_cases hin : e.1 ∈ I.contacts
    · have he := he hin
      cases hc : Constraint.ofContact? scale masses place e.1 e.2 with
      | none => simp_all
      | some c =>
        have hh : c.handle ∈ I.contacts := Constraint.handle_of_ofContact? hc ▸ hin
        simp_all [restrict_cons_of_mem hh]
    · cases hc : Constraint.ofContact? scale masses place e.1 e.2 with
      | none => simp_all
      | some c =>
        have hh : c.handle ∉ I.contacts := Constraint.handle_of_ofContact? hc ▸ hin
        simp_all [restrict_cons_of_not_mem hh]

/-! ### One constraint -/

theorem Matches.solveVelocity_inside (hm : I.Matches xs ys) (hn : I.bodies.Nodup)
    (ha : c.a.place ∈ I.bodies) (hb : c.b.place ∈ I.bodies)
    (h : c.solveVelocity xs = .ok (c', xs')) :
    ∃ ys', (c.relocate I.seat).solveVelocity ys = .ok (c'.relocate I.seat, ys') ∧
      I.Matches xs' ys' := by
  have htwo : twoOf? ys (c.relocate I.seat).a.place (c.relocate I.seat).b.place =
      twoOf? xs c.a.place c.b.place := hm.twoOf?_seat hn ha hb
  simp only [Constraint.solveVelocity, htwo, Constraint.solveRows_relocate] at h ⊢
  split at h
  · cases h
    exact ⟨ys, rfl, hm⟩
  · obtain ⟨x, hx, h⟩ := bind_eq_ok_iff.1 h
    cases h
    have hrows : (c.relocate I.seat).rows = c.rows := rfl
    rw [hrows, hx]
    exact ⟨_, rfl, hm.setTwo_seat hn ha hb x.2⟩

theorem Matches.solveVelocity_outside (hm : I.Matches xs ys) (hc : I.Fits c)
    (hout : c.handle ∉ I.contacts) (h : c.solveVelocity xs = .ok (c', xs')) : I.Matches xs' ys := by
  refine hm.of_eq fun i hi ↦ ?_
  exact Constraint.getElem?_solveVelocity h (fun he ↦ (hc.outside hout).1 (he ▸ hi))
    fun he ↦ (hc.outside hout).2 (he ▸ hi)

theorem Matches.warmStart_inside (hm : I.Matches xs ys) (hn : I.bodies.Nodup)
    (ha : c.a.place ∈ I.bodies) (hb : c.b.place ∈ I.bodies) :
    I.Matches (c.warmStart xs) ((c.relocate I.seat).warmStart ys) := by
  have htwo : twoOf? ys (c.relocate I.seat).a.place (c.relocate I.seat).b.place =
      twoOf? xs c.a.place c.b.place := hm.twoOf?_seat hn ha hb
  rw [Constraint.warmStart, Constraint.warmStart, htwo]
  cases twoOf? xs c.a.place c.b.place with
  | none => exact hm
  | some v => exact hm.setTwo_seat hn ha hb _

theorem Matches.warmStart_outside (hm : I.Matches xs ys) (hc : I.Fits c)
    (hout : c.handle ∉ I.contacts) : I.Matches (c.warmStart xs) ys := by
  refine hm.of_eq fun i hi ↦ ?_
  exact Constraint.getElem?_warmStart xs (fun he ↦ (hc.outside hout).1 (he ▸ hi))
    fun he ↦ (hc.outside hout).2 (he ▸ hi)

/-! ### All constraints -/

/-- The solver of the island that goes with a solver of the whole. -/
def restrictSolver {α : Type} (I : Island) (s : Solver α) : Solver α :=
  { s with constraints := I.restrict s.constraints }

theorem mapM_restrict {f g : Constraint ℝ → Except Fault (Constraint ℝ)}
    (hf : ∀ c ∈ cs, ∀ c', f c = .ok c' → c'.handle = c.handle ∧
      (c.handle ∈ I.contacts → g (c.relocate I.seat) = .ok (c'.relocate I.seat)))
    (h : cs.mapM f = .ok cs') : (I.restrict cs).mapM g = .ok (I.restrict cs') := by
  induction mapM_eq_ok_iff.1 h with
  | nil => rfl
  | @cons c c' cs cs' hcc hrest ih =>
    obtain ⟨hc, hcs⟩ := List.forall_mem_cons.1 hf
    obtain ⟨hh, hg⟩ := hc c' hcc
    have hcs' := ih hcs (mapM_eq_ok_iff.2 hrest)
    by_cases hin : c.handle ∈ I.contacts
    · rw [restrict_cons_of_mem hin, restrict_cons_of_mem (hh ▸ hin), List.mapM_cons, hg hin, hcs']
      rfl
    · rwa [restrict_cons_of_not_mem hin, restrict_cons_of_not_mem (hh ▸ hin)]

theorem Matches.prepare {s s' : Solver ℝ} {ps qs : Array (Placement ℝ)} (hp : I.Matches ps qs)
    (hm : I.Matches xs ys) (hfit : ∀ c ∈ s.constraints, I.Fits c)
    (h : s.prepare ps xs = .ok s') :
    (I.restrictSolver s).prepare qs ys = .ok (I.restrictSolver s') := by
  obtain ⟨cs', hcs, h⟩ := bind_eq_ok_iff.1 h
  cases h
  refine bind_eq_ok_iff.2 ⟨_, mapM_restrict (fun c hc c' hcc ↦ ?_) hcs, rfl⟩
  split at hcc
  next pa pb va vb hpa hpb hva hvb =>
    cases hcc
    refine ⟨Constraint.handle_eq_of_outline (c.outline_prepare _ _ _ _), fun hin ↦ ?_⟩
    obtain ⟨ha, hb⟩ := (hfit c hc).inside hin
    have hA : (c.relocate I.seat).a.place = I.seat c.a.place := rfl
    have hB : (c.relocate I.seat).b.place = I.seat c.b.place := rfl
    rw [hA, hB, hp _ ha, hp _ hb, hm _ ha, hm _ hb, hpa, hpb, hva, hvb]
    exact congrArg Except.ok (Constraint.prepare_relocate _ c _ _ _ _)
  · cases hcc

theorem Matches.warmStart (hm : I.Matches xs ys) (hn : I.bodies.Nodup)
    (hfit : ∀ c ∈ cs, I.Fits c) :
    I.Matches (cs.foldl Constraint.warmStart xs)
      ((I.restrict cs).foldl Constraint.warmStart ys) := by
  induction cs generalizing xs ys with
  | nil => exact hm
  | cons c cs ih =>
    obtain ⟨hc, hcs⟩ := List.forall_mem_cons.1 hfit
    by_cases hin : c.handle ∈ I.contacts
    · obtain ⟨ha, hb⟩ := hc.inside hin
      rw [restrict_cons_of_mem hin]
      exact ih (hm.warmStart_inside hn ha hb) hcs
    · rw [restrict_cons_of_not_mem hin]
      exact ih (hm.warmStart_outside hc hin) hcs

theorem Matches.solveConstraints (hm : I.Matches xs ys) (hn : I.bodies.Nodup)
    (hfit : ∀ c ∈ cs, I.Fits c) (h : Solver.solveConstraints cs xs = .ok (cs', xs')) :
    ∃ ys', Solver.solveConstraints (I.restrict cs) ys = .ok (I.restrict cs', ys') ∧
      I.Matches xs' ys' := by
  induction cs generalizing xs ys cs' xs' with
  | nil =>
    cases h
    exact ⟨ys, rfl, hm⟩
  | cons c cs ih =>
    obtain ⟨hc, hcs⟩ := List.forall_mem_cons.1 hfit
    obtain ⟨⟨c₁, xs₁⟩, h₁, h⟩ := bind_eq_ok_iff.1 h
    obtain ⟨⟨cs₂, xs₂⟩, h₂, h⟩ := bind_eq_ok_iff.1 h
    cases h
    have hh := Constraint.handle_eq_of_outline (Constraint.of_solveVelocity_eq_ok h₁).1
    by_cases hin : c.handle ∈ I.contacts
    · obtain ⟨ha, hb⟩ := hc.inside hin
      obtain ⟨ys₁, hy₁, hm₁⟩ := hm.solveVelocity_inside hn ha hb h₁
      obtain ⟨ys₂, hy₂, hm₂⟩ := ih hm₁ hcs h₂
      refine ⟨ys₂, ?_, hm₂⟩
      rw [restrict_cons_of_mem hin, restrict_cons_of_mem (hh ▸ hin)]
      exact bind_eq_ok_iff.2 ⟨_, hy₁, bind_eq_ok_iff.2 ⟨_, hy₂, rfl⟩⟩
    · obtain ⟨ys₂, hy₂, hm₂⟩ := ih (hm.solveVelocity_outside hc hin h₁) hcs h₂
      refine ⟨ys₂, ?_, hm₂⟩
      rw [restrict_cons_of_not_mem hin, restrict_cons_of_not_mem (hh ▸ hin)]
      exact hy₂

theorem Matches.velocityPasses {s s' : Solver ℝ} {n : Nat} (hm : I.Matches xs ys)
    (hn : I.bodies.Nodup) (hfit : ∀ c ∈ s.constraints, I.Fits c)
    (h : Solver.velocityPasses n s xs = .ok (s', xs')) :
    ∃ ys', Solver.velocityPasses n (I.restrictSolver s) ys = .ok (I.restrictSolver s', ys') ∧
      I.Matches xs' ys' := by
  induction n generalizing s xs ys with
  | zero =>
    cases h
    exact ⟨ys, rfl, hm⟩
  | succ n ih =>
    obtain ⟨⟨s₁, xs₁⟩, h₁, h⟩ := bind_eq_ok_iff.1 h
    have hfit₁ := Solver.forall_of_outline (fun _ _ ↦ Fits.of_outline)
      (Solver.of_velocityPass_eq_ok h₁).2.1 hfit
    obtain ⟨⟨cs₁, xs₁⟩, h₁, he⟩ := bind_eq_ok_iff.1 h₁
    cases he
    obtain ⟨ys₁, hy₁, hm₁⟩ := hm.solveConstraints hn hfit h₁
    obtain ⟨ys', hy', hm'⟩ := ih hm₁ hfit₁ h
    refine ⟨ys', ?_, hm'⟩
    exact bind_eq_ok_iff.2 ⟨_, bind_eq_ok_iff.2 ⟨_, hy₁, rfl⟩, hy'⟩

/-! ## All bodies and contacts -/

section Whole

variable {α : Type} {bodies : Array (Body α)} {r : Registry α}

/-- All bodies, and all contacts to be solved in the order of their slots. -/
def whole (bodies : Array (Body α)) (r : Registry α) : Island where
  bodies := List.range bodies.size
  contacts := (r.entries.filter (·.2.isSolvable)).map (·.1)

theorem mem_contacts_whole {h : Handle} : h ∈ (whole bodies r).contacts ↔
    ∃ c, r.get? h = some c ∧ c.isSolvable = true := by
  simp [whole]

theorem place?_whole {i : BodyId} (hi : i < bodies.size) :
    (whole bodies r).place? i = some i := by
  rw [place?_eq_some_iff List.nodup_range]
  simp [whole, hi]

/-- The contacts of an island are found among those of another, if the handles are. -/
theorem current_eq_filter {I J : Island} {p : Handle → Bool}
    (h : I.contacts = J.contacts.filter p) :
    I.current r = (J.current r).filter (p ·.1) := by
  rw [current, current, h, List.filterMap_filter, List.filter_filterMap]
  refine List.filterMap_congr fun h _ ↦ ?_
  cases r.get? h <;> cases hp : p h <;> simp [Option.filter, hp]

end Whole

/-- What one expects of bodies and contacts: static bodies have infinite mass, and the contacts to
be solved have bodies, one of which moves, and no negative friction. -/
structure WellPosed (bodies : Array (Body ℝ)) (r : Registry ℝ) : Prop where
  static : ∀ b ∈ bodies, b.isStatic = true → b.invMass = 0 ∧ b.invInertia = 0
  friction : ∀ h c, r.get? h = some c → c.isSolvable = true → 0 ≤ c.friction
  lt_size : ∀ h c, r.get? h = some c → c.isSolvable = true →
    c.bodyA < bodies.size ∧ c.bodyB < bodies.size
  moving : ∀ h c, r.get? h = some c → c.isSolvable = true →
    IsMoving bodies c.bodyA ∨ IsMoving bodies c.bodyB

namespace WellPosed

variable {bodies : Array (Body ℝ)} {r : Registry ℝ} {h : Handle} {k : Contact ℝ}
  {members all : List (BodyId × Body ℝ)}

theorem binds (hp : WellPosed bodies r) (hk : r.get? h = some k) (hs : k.isSolvable = true) :
    Binds bodies r h k.bodyA k.bodyB :=
  ⟨k, hk, hs, (hp.lt_size h k hk hs).1, (hp.lt_size h k hk hs).2, .inl ⟨rfl, rfl⟩⟩

theorem contacts_whole (hp : WellPosed bodies r) :
    (whole bodies r).contacts = (links bodies r).map (·.handle) := by
  have hhandle : ∀ (e : Handle × Contact ℝ) l,
      (if e.2.isSolvable ∧ e.2.bodyA < bodies.size ∧ e.2.bodyB < bodies.size then
        some (⟨e.1, e.2.bodyA, e.2.bodyB⟩ : Link) else none) = some l → l.handle = e.1 := by
    intro e l hl
    cases (Option.ite_some_none_eq_some.1 hl).2
    rfl
  rw [links, map_filterMap_eq hhandle, whole]
  refine congrArg _ (List.filter_congr fun e he ↦ ?_)
  have hget := Registry.mem_entries.1 he
  by_cases hs : e.2.isSolvable = true
  · simp [hs, hp.lt_size e.1 e.2 hget hs]
  · simp [hs]

/-- The contacts of an island in the order of their slots. -/
theorem contacts_eq_filter (hp : WellPosed bodies r) (hI : I ∈ partition bodies r) :
    I.contacts = (whole bodies r).contacts.filter (· ∈ I.contacts) := by
  have hsub := (isComponent_of_mem_partition hI).1.sublist
  rw [← hp.contacts_whole] at hsub
  exact eq_filter_of_sublist hsub (Registry.nodup_handles.sublist (List.filter_sublist.map _))

/-- Bodies are at their own places in the whole. -/
theorem matches_members {β : Type} (hI : I ∈ partition bodies r)
    (hall : (whole bodies r).members bodies = .ok all) (hm : I.members bodies = .ok members)
    (f : BodyId × Body ℝ → β) : I.Matches (all.map f).toArray (members.map f).toArray := by
  intro i hi
  have hseat := getElem?_seat (isComponent_of_mem_partition hI).1.nodup hi
  have hlt := lt_size_of_mem_bodies hm hi
  have hb := Array.getElem?_eq_getElem hlt
  have hrange : (whole bodies r).bodies[i]? = some i := by simp [whole, hlt]
  have hall' := (getElem?_members hall).2 ⟨hrange, hb⟩
  have hm' := (getElem?_members hm).2 ⟨hseat, hb⟩
  simp only [List.getElem?_toArray, List.getElem?_map, hall', hm', Option.map_some]

/-- The constraints of the whole, seen from an island. -/
theorem fits (hp : WellPosed bodies r) (hI : I ∈ partition bodies r)
    (hall : (whole bodies r).members bodies = .ok all) (step : TimeStep ℝ) :
    ∀ c ∈ ((whole bodies r).solver all r step).constraints, I.Fits c := by
  intro c hc
  obtain ⟨e, he, hec⟩ := List.mem_filterMap.1 hc
  obtain ⟨hh, hget⟩ := mem_current.1 he
  obtain ⟨k, hk, hs⟩ := mem_contacts_whole.1 hh
  cases hget.symm.trans hk
  obtain ⟨hA, hB⟩ := hp.lt_size _ _ hk hs
  obtain ⟨i, j, a, b, hi, hj, ha, hb, -, rfl⟩ := Constraint.ofContact?_eq_some_iff.1 hec
  rw [place?_whole hA, Option.some.injEq] at hi
  rw [place?_whole hB, Option.some.injEq] at hj
  subst hi hj
  have hbind := hp.binds hk hs
  -- A body that moves takes its contacts into its island.
  have hfixed : e.1 ∉ I.contacts → ∀ (i : BodyId) (a : SolverBody ℝ), i ∈ I.bodies →
      (∃ j, Binds bodies r e.1 i j) → (all.map (.ofBody ·.2)).toArray[i]? = some a →
      a.IsFixed := by
    intro hout i a hi hj ha
    have hmov : ¬ IsMoving bodies i := fun hmov ↦ hout ((mem_contacts_iff hI).2 ⟨i, hi, hmov, hj⟩)
    rw [List.getElem?_toArray, List.getElem?_map, Option.map_eq_some_iff] at ha
    obtain ⟨⟨i', b⟩, hib, rfl⟩ := ha
    obtain ⟨hi', hb⟩ := (getElem?_members hall).1 hib
    have hrange : (whole bodies r).bodies[i]? = some i := by
      simp [whole, lt_size_of_mem_partition hI hi]
    cases hrange.symm.trans hi'
    have hstatic : b.isStatic = true := by
      by_contra hb'
      exact hmov ⟨b, hb, by simpa using hb'⟩
    obtain ⟨hmass, hinertia⟩ := hp.static b (Array.mem_of_getElem? hb) hstatic
    exact ⟨hmass, hinertia⟩
  refine ⟨fun hin ↦ ?_, fun hout ↦ ?_⟩
  · exact ⟨mem_bodies_of_mem_contacts hI hin hbind,
      mem_bodies_of_mem_contacts hI hin hbind.symm⟩
  · exact ⟨fun hi ↦ hfixed hout _ _ hi ⟨_, hbind⟩ ha,
      fun hj ↦ hfixed hout _ _ hj ⟨_, hbind.symm⟩ hb⟩

theorem solver_eq_restrict (hp : WellPosed bodies r) (hI : I ∈ partition bodies r)
    (hall : (whole bodies r).members bodies = .ok all) (hm : I.members bodies = .ok members)
    (step : TimeStep ℝ) :
    I.solver members r step = I.restrictSolver ((whole bodies r).solver all r step) := by
  have hn := (isComponent_of_mem_partition hI).1.nodup
  -- A contact of the island is made into the same constraint in both.
  have hsame : ∀ e ∈ (whole bodies r).current r, e.1 ∈ I.contacts →
      Constraint.ofContact? (Solver.warmScale step) (members.map (.ofBody ·.2)).toArray I.place?
        e.1 e.2 = (Constraint.ofContact? (Solver.warmScale step)
          (all.map (.ofBody ·.2)).toArray (whole bodies r).place? e.1 e.2).map
            (Constraint.relocate I.seat) := by
    intro e he hin
    obtain ⟨hh, hget⟩ := mem_current.1 he
    obtain ⟨k, hk, hs⟩ := mem_contacts_whole.1 hh
    cases hget.symm.trans hk
    obtain ⟨hA, hB⟩ := hp.lt_size _ _ hk hs
    have hAI := mem_bodies_of_mem_contacts hI hin (hp.binds hk hs)
    have hBI := mem_bodies_of_mem_contacts hI hin (hp.binds hk hs).symm
    refine Constraint.ofContact?_relocate ?_ ?_ (fun i hi ↦ ?_) e.1
    · rw [place?_eq_seat hn hAI, place?_whole hA, Option.map_some]
    · rw [place?_eq_seat hn hBI, place?_whole hB, Option.map_some]
    · rw [place?_whole hA, place?_whole hB, Option.some.injEq, Option.some.injEq] at hi
      rcases hi with rfl | rfl
      · exact matches_members hI hall hm _ _ hAI
      · exact matches_members hI hall hm _ _ hBI
  rw [solver, current_eq_filter (hp.contacts_eq_filter hI)]
  exact congrArg (Solver.mk step) (filterMap_filter_eq_restrict hsame)

end WellPosed

/-! ## The solutions -/

/-- What the velocity passes come to for some bodies and contacts. -/
structure VelocitySolution (α : Type) where
  velocities : List (BodyId × Velocity α)
  impulses : List (Handle × ContactImpulse α)

/-- Prepares the contacts of an island for the velocities `start`, applies the impulses of the step
before, and makes `n` passes. -/
def velocitySolution {α : Type} [Scalar α] (island : Island) (bodies : Array (Body α))
    (r : Registry α) (step : TimeStep α) (n : Nat) (start : BodyId × Body α → Velocity α) :
    Except Fault (VelocitySolution α) := do
  let members ← island.members bodies
  let (solver, velocities) ← island.solveVelocities members r step n start
  return ⟨island.bodies.zip velocities.toList, solver.impulses⟩

section Solutions

variable {bodies : Array (Body ℝ)} {r : Registry ℝ} {step : TimeStep ℝ} {n : Nat}
  {start : BodyId × Body ℝ → Velocity ℝ} {all : VelocitySolution ℝ}

theorem exists_velocitySolution_whole (hp : WellPosed bodies r) (step : TimeStep ℝ) (n : Nat)
    (start : BodyId × Body ℝ → Velocity ℝ) :
    ∃ all, (whole bodies r).velocitySolution bodies r step n start = .ok all := by
  obtain ⟨members, hm⟩ : ∃ members, (whole bodies r).members bodies = .ok members :=
    exists_members fun i hi ↦ List.mem_range.1 hi
  obtain ⟨x, hx⟩ : ∃ x, (whole bodies r).solveVelocities members r step n start = .ok x := by
    refine (faultsOnly_solveVelocities (fun c r v ↦ Row.faultsOnly_solve c r v)
      (fun h hh c hc ↦ ?_) members step n start).exists_ok
    obtain ⟨c', hc', hs⟩ := mem_contacts_whole.1 hh
    cases hc.symm.trans hc'
    exact hasLimits_of_nonneg (hp.friction h c hc hs)
  exact ⟨_, bind_eq_ok_iff.2 ⟨_, hm, bind_eq_ok_iff.2 ⟨_, hx, rfl⟩⟩⟩

/-- The velocity of a body stands at its place. -/
theorem mem_velocities {I : Island} (hn : I.bodies.Nodup) {vs : Array (Velocity ℝ)} {i : BodyId}
    {v : Velocity ℝ} :
    (i, v) ∈ I.bodies.zip vs.toList ↔ i ∈ I.bodies ∧ vs[I.seat i]? = some v := by
  rw [List.mem_iff_getElem?]
  simp only [List.getElem?_zip_eq_some, Array.getElem?_toList]
  constructor
  · rintro ⟨k, hk, hv⟩
    have hi := List.mem_of_getElem? hk
    have hseat := (place?_eq_seat hn hi).symm.trans ((place?_eq_some_iff hn).2 hk)
    cases hseat
    exact ⟨hi, hv⟩
  · rintro ⟨hi, hv⟩
    exact ⟨I.seat i, getElem?_seat hn hi, hv⟩

theorem impulses_restrictSolver (s : Solver ℝ) :
    (I.restrictSolver s).impulses = s.impulses.filter (·.1 ∈ I.contacts) := by
  rw [Solver.impulses, Solver.impulses, restrictSolver, restrict, List.map_map, List.filter_map]
  rfl

/-- An island by itself comes to the same as within the whole. -/
theorem velocitySolution_of_mem_partition (hp : WellPosed bodies r) (hI : I ∈ partition bodies r)
    (hall : (whole bodies r).velocitySolution bodies r step n start = .ok all) :
    ∃ part, I.velocitySolution bodies r step n start = .ok part ∧
      (∀ x, x ∈ part.velocities ↔ x.1 ∈ I.bodies ∧ x ∈ all.velocities) ∧
      part.impulses = all.impulses.filter (·.1 ∈ I.contacts) := by
  have hn := (isComponent_of_mem_partition hI).1.nodup
  obtain ⟨ms, hms, h⟩ := bind_eq_ok_iff.1 hall
  obtain ⟨⟨s, vs⟩, hs, h⟩ := bind_eq_ok_iff.1 h
  cases h
  obtain ⟨s₀, hs₀, hs⟩ := bind_eq_ok_iff.1 hs
  obtain ⟨members, hm⟩ := exists_members fun i ↦ lt_size_of_mem_partition hI
  have hfit := hp.fits hI hms step
  have hstart := WellPosed.matches_members hI hms hm start
  have hprep := (WellPosed.matches_members hI hms hm (·.2.placement)).prepare hstart hfit hs₀
  have hfit₀ := Solver.forall_of_outline (fun _ _ ↦ Fits.of_outline)
    (Solver.outline_prepare hs₀).2 hfit
  obtain ⟨vs', hvs', hm'⟩ :=
    (hstart.warmStart hn hfit₀).velocityPasses hn hfit₀ hs
  rw [← hp.solver_eq_restrict hI hms hm] at hprep
  refine ⟨_, bind_eq_ok_iff.2 ⟨_, hm, bind_eq_ok_iff.2
    ⟨_, bind_eq_ok_iff.2 ⟨_, hprep, hvs'⟩, rfl⟩⟩, ?_, impulses_restrictSolver s⟩
  rintro ⟨i, v⟩
  rw [mem_velocities hn, mem_velocities List.nodup_range]
  refine and_congr_right fun hi ↦ ?_
  have hlt := lt_size_of_mem_partition hI hi
  have hseat : (whole bodies r).seat i = i := by
    rw [seat, place?_whole hlt]
    rfl
  have hmem : i ∈ (whole bodies r).bodies := List.mem_range.2 hlt
  rw [hm' i hi, hseat, and_iff_right hmem]

/-- The whole has one velocity for each body. -/
theorem velocities_whole
    (hall : (whole bodies r).velocitySolution bodies r step n start = .ok all) {i : BodyId}
    (hi : i < bodies.size) : ∃ v, ∀ v', (i, v') ∈ all.velocities ↔ v' = v := by
  obtain ⟨ms, hms, h⟩ := bind_eq_ok_iff.1 hall
  obtain ⟨⟨s, vs⟩, hs, h⟩ := bind_eq_ok_iff.1 h
  cases h
  have hsize : vs.size = bodies.size := by
    rw [(of_solveVelocities_eq_ok hs).2.2, ← List.length_map (·.1), map_members hms]
    exact List.length_range
  have hseat : (whole bodies r).seat i = i := by
    rw [seat, place?_whole hi]
    rfl
  have hmem : i ∈ (whole bodies r).bodies := List.mem_range.2 hi
  have hlt : i < vs.size := hsize ▸ hi
  refine ⟨vs[i], fun v' ↦ ?_⟩
  rw [mem_velocities List.nodup_range, hseat, and_iff_right hmem, Array.getElem?_eq_getElem hlt]
  exact ⟨fun h ↦ (Option.some.inj h).symm, fun h ↦ congrArg some h.symm⟩

/-- The whole has impulses for the contacts to be solved. -/
theorem impulses_whole (hr : r.Reachable) (hp : WellPosed bodies r)
    (hall : (whole bodies r).velocitySolution bodies r step n start = .ok all) :
    all.impulses.map (·.1) = (whole bodies r).contacts := by
  obtain ⟨ms, hms, h⟩ := bind_eq_ok_iff.1 hall
  obtain ⟨⟨s, vs⟩, hs, h⟩ := bind_eq_ok_iff.1 h
  cases h
  have hhandles := Solver.handles_of_outline (of_solveVelocities_eq_ok hs).2.1
  refine ((Solver.fst_impulses s).trans hhandles).trans ?_
  refine handles_solver hms List.nodup_range (fun h hh ↦ ?_) step
  obtain ⟨c, hc, hsol⟩ := mem_contacts_whole.1 hh
  obtain ⟨hA, hB⟩ := hp.lt_size h c hc hsol
  exact ⟨c, hc, List.mem_range.2 hA, List.mem_range.2 hB, (hr.hasPoints hc).of_isSolvable hsol⟩

/-- The whole has one impulse for each contact to be solved. -/
theorem impulse_whole (hr : r.Reachable) (hp : WellPosed bodies r)
    (hall : (whole bodies r).velocitySolution bodies r step n start = .ok all) {h : Handle}
    {c : Contact ℝ} (hc : r.get? h = some c) (hs : c.isSolvable = true) :
    ∃ p, ∀ p', (h, p') ∈ all.impulses ↔ p' = p := by
  have hfst := impulses_whole hr hp hall
  have hn : (all.impulses.map (·.1)).Nodup := by
    rw [hfst]
    exact Registry.nodup_handles.sublist (List.filter_sublist.map _)
  have hmem : h ∈ all.impulses.map (·.1) := hfst ▸ mem_contacts_whole.2 ⟨c, hc, hs⟩
  obtain ⟨⟨_, p⟩, hp, rfl⟩ := List.mem_map.1 hmem
  refine ⟨p, fun p' ↦ ⟨fun hp' ↦ ?_, fun he ↦ he ▸ hp⟩⟩
  exact congrArg Prod.snd (List.inj_on_of_nodup_map hn hp' hp rfl)

/-- **Islands may be solved by themselves.** For contacts of a registry in use, the velocity passes
over the islands one by one give each body that moves the velocity, and each contact to be solved
the impulses, that the passes over all bodies and contacts at once give them. -/
theorem velocitySolution_partition (hr : r.Reachable) (hp : WellPosed bodies r)
    (step : TimeStep ℝ) (n : Nat) (start : BodyId × Body ℝ → Velocity ℝ) :
    ∃ all parts, (whole bodies r).velocitySolution bodies r step n start = .ok all ∧
      (partition bodies r).mapM (·.velocitySolution bodies r step n start) = .ok parts ∧
      (∀ i, IsMoving bodies i → ∃ v, ∀ v', ((i, v') ∈ all.velocities ↔ v' = v) ∧
        ((i, v') ∈ parts.flatMap (·.velocities) ↔ v' = v)) ∧
      ∀ h c, r.get? h = some c → c.isSolvable = true → ∃ p, ∀ p',
        ((h, p') ∈ all.impulses ↔ p' = p) ∧ ((h, p') ∈ parts.flatMap (·.impulses) ↔ p' = p) := by
  obtain ⟨all, hall⟩ := exists_velocitySolution_whole hp step n start
  obtain ⟨parts, hparts⟩ : ∃ parts,
      (partition bodies r).mapM (·.velocitySolution bodies r step n start) = .ok parts := by
    refine (faultsOnly_mapM fun I hI ↦ ?_).exists_ok
    obtain ⟨part, hpart, -⟩ := velocitySolution_of_mem_partition hp hI hall
    rw [hpart]
    exact faultsOnly_ok part
  have hpart : ∀ I ∈ partition bodies r, ∀ part,
      I.velocitySolution bodies r step n start = .ok part →
      (∀ x, x ∈ part.velocities ↔ x.1 ∈ I.bodies ∧ x ∈ all.velocities) ∧
      ∀ x, x ∈ part.impulses ↔ x.1 ∈ I.contacts ∧ x ∈ all.impulses := by
    intro I hI part hpart
    obtain ⟨part', hpart', hv, hi⟩ := velocitySolution_of_mem_partition hp hI hall
    cases hpart.symm.trans hpart'
    refine ⟨hv, fun x ↦ ?_⟩
    rw [hi, List.mem_filter, and_comm, decide_eq_true_iff]
  have hv := mem_flatMap_of_mapM hparts fun I hI part h ↦ (hpart I hI part h).1
  have hi := mem_flatMap_of_mapM hparts fun I hI part h ↦ (hpart I hI part h).2
  refine ⟨all, parts, hall, hparts, fun i hmov ↦ ?_, fun h c hc hs ↦ ?_⟩
  · obtain ⟨v, hall⟩ := velocities_whole hall (isMoving_iff.1 hmov).1
    obtain ⟨I, hI, hiI⟩ := exists_mem_partition (r := r) hmov
    refine ⟨v, fun v' ↦ ⟨hall v', ?_⟩⟩
    rw [hv, ← hall v']
    exact ⟨by rintro ⟨_, _, _, h⟩; exact h, fun h ↦ ⟨I, hI, hiI, h⟩⟩
  · obtain ⟨p, hall⟩ := impulse_whole hr hp hall hc hs
    obtain ⟨hA, hB⟩ := hp.lt_size h c hc hs
    obtain ⟨I, hI, hhI⟩ := exists_mem_contacts hc hs hA hB (hp.moving h c hc hs)
    refine ⟨p, fun p' ↦ ⟨hall p', ?_⟩⟩
    rw [hi, ← hall p']
    exact ⟨by rintro ⟨_, _, _, h⟩; exact h, fun h ↦ ⟨I, hI, hhI, h⟩⟩

/-- Three discs, of which the outer ones touch the one in the middle.  Both contacts get the same
impulses either way. -/
theorem solids_velocitySolution : ∃ (bodies : Array (Body ℝ)) (r : Registry ℝ), r.Reachable ∧
    WellPosed bodies r ∧ ∀ step n start, ∃ all parts,
      (whole bodies r).velocitySolution bodies r step n start = .ok all ∧
      (partition bodies r).mapM (·.velocitySolution bodies r step n start) = .ok parts ∧
      ∀ p, p = .of 0 1 ∨ p = .of 0 2 → ∃ h c i, r.get? h = some c ∧ c.pair = p ∧
        (h, i) ∈ all.impulses ∧ (h, i) ∈ parts.flatMap (·.impulses) := by
  obtain ⟨w, w₁, hw, hl, hw₁, htouch, hc, hfirm, -⟩ :=
    World.exists_solids (some ((Listener.silent ()).auditedAt () []))
  cases (World.updateContacts_eq (World.wf_updatePairs hw.sound.wf)).symm.trans hw₁
  have hr := hw.contacts_updated
  have hready := hw.ready
  have hp : WellPosed w.updatePairs.refreshed.bodies w.updatePairs.refreshed.contacts :=
    ⟨hfirm, fun h c hget _ ↦ (hc h c hget).2, fun h c hget _ ↦ hready.lt_size h c hget,
      fun h c hget _ ↦ hready.moving h c hget⟩
  refine ⟨_, _, hr, hp, fun step n start ↦ ?_⟩
  obtain ⟨all, parts, hall, hparts, -, himpulses⟩ := velocitySolution_partition hr hp step n start
  refine ⟨all, parts, hall, hparts, fun p hpair ↦ ?_⟩
  obtain ⟨h, c, hget, hcp, ht⟩ := htouch p hpair
  obtain ⟨hs, -⟩ := hc h c hget
  have he : c.enabled = true :=
    World.enabled_of_consent hw.sound.wf hl (fun _ ↦ Listener.answers_silent) hget ht hs
  obtain ⟨i, hi⟩ := himpulses h c hget (by simp [Contact.isSolvable, ht, he, hs])
  exact ⟨h, c, i, hget, hcp, (hi i).1.2 rfl, (hi i).2.2 rfl⟩

end Solutions

end Island

end PlanarDynamics
