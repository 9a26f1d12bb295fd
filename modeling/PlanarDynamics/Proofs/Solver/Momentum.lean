import PlanarDynamics.Proofs.Real.Solver

/-!
# Conservation of momentum

Solving for velocities changes neither the linear momentum of all bodies together nor their angular
momentum about the origin: `Solver.momentum_of_velocityPasses`.  All that the solver does to
velocities is to let an impulse act on one body and its opposite on another, at one point: whatever
the impulse is, and so wherever it has been clamped, the two momenta of the pair stay
(`balanced_applyImpulse`).  That it is one point is what preparing the rows sees to, and what
solving them leaves as it is (`Constraint.Meets`).
-/

namespace PlanarDynamics

/-! ## Totals -/

section Total

variable {β γ : Type} {q : β → γ → ℝ} {bs : List β} {a b : β} {i j : Nat}

theorem sum_zipWith_set {l : List γ} {x : γ} (ha : bs[i]? = some a) (hx : l[i]? = some x) (y : γ) :
    (List.zipWith q bs (l.set i y)).sum = (List.zipWith q bs l).sum + (q a y - q a x) := by
  induction bs generalizing l i with
  | nil => cases ha
  | cons b bs ih =>
    cases l with
    | nil => cases hx
    | cons v l =>
      cases i with
      | zero =>
        cases ha
        cases hx
        simp only [List.set_cons_zero, List.zipWith_cons_cons, List.sum_cons]
        ring
      | succ i =>
        simp only [List.set_cons_succ, List.zipWith_cons_cons, List.sum_cons, ih ha hx]
        ring

/-- What two entries add to a sum changes, and nothing else does. -/
theorem sum_zipWith_setTwo {xs : Array γ} {v : γ × γ} (ha : bs[i]? = some a) (hb : bs[j]? = some b)
    (htwo : twoOf? xs i j = some v) (v' : γ × γ) :
    (List.zipWith q bs (setTwo xs i j v').toList).sum =
      (List.zipWith q bs xs.toList).sum + (q a v'.1 + q b v'.2 - (q a v.1 + q b v.2)) := by
  obtain ⟨hij, hi, hj⟩ := twoOf?_eq_some_iff.1 htwo
  rw [← Array.getElem?_toList] at hi hj
  have hj' : (xs.toList.set i v'.1)[j]? = some v.2 := by rw [List.getElem?_set_ne hij, hj]
  rw [setTwo, Array.toList_setIfInBounds, Array.toList_setIfInBounds, sum_zipWith_set hb hj',
    sum_zipWith_set ha hi]
  ring

/-- The sum of a quantity over bodies with their velocities. -/
def total (q : β → Velocity ℝ → ℝ) (bs : List β) (vs : Array (Velocity ℝ)) : ℝ :=
  (List.zipWith q bs vs.toList).sum

theorem total_setTwo {q : β → Velocity ℝ → ℝ} {vs : Array (Velocity ℝ)}
    {v v' : Velocity ℝ × Velocity ℝ} (ha : bs[i]? = some a) (hb : bs[j]? = some b)
    (htwo : twoOf? vs i j = some v) (h : q a v'.1 + q b v'.2 = q a v.1 + q b v.2) :
    total q bs (setTwo vs i j v') = total q bs vs := by
  rw [total, sum_zipWith_setTwo ha hb htwo, h, sub_self, add_zero, total]

end Total

namespace SolverBody

/-- The linear momentum of a body. -/
noncomputable def momentum (b : SolverBody ℝ) (v : Velocity ℝ) : Vec ℝ := v.linear / b.invMass

/-- The angular momentum about the origin of a body whose center of mass is at `center`. -/
noncomputable def angularMomentum (b : SolverBody ℝ) (center : Vec ℝ) (v : Velocity ℝ) : ℝ :=
  center.cross (b.momentum v) + v.angular / b.invInertia

/-- Impulses move the body and turn it. -/
structure IsFree (b : SolverBody ℝ) : Prop where
  invMass : 0 < b.invMass
  invInertia : 0 < b.invInertia

/-- The velocity after an impulse has acted at the end of an arm. -/
noncomputable def push (b : SolverBody ℝ) (arm impulse : Vec ℝ) (v : Velocity ℝ) : Velocity ℝ :=
  ⟨v.linear + impulse * b.invMass, v.angular + b.invInertia * arm.cross impulse⟩

variable {b : SolverBody ℝ} (arm impulse center : Vec ℝ) (v : Velocity ℝ)

theorem momentum_push (hb : b.IsFree) :
    b.momentum (b.push arm impulse v) = b.momentum v + impulse := by
  have hm := hb.invMass.ne'
  ext
  · simp only [momentum, push, Vec.add_x, Vec.mul_x, Vec.div_x]
    field_simp
  · simp only [momentum, push, Vec.add_y, Vec.mul_y, Vec.div_y]
    field_simp

/-- The arm leads from the center to where the impulse acts. -/
theorem angularMomentum_push (hb : b.IsFree) : b.angularMomentum center (b.push arm impulse v) =
    b.angularMomentum center v + (center + arm).cross impulse := by
  have hi := hb.invInertia.ne'
  have hturn : (b.push arm impulse v).angular / b.invInertia =
      v.angular / b.invInertia + arm.cross impulse := by
    rw [push]
    field_simp
  rw [angularMomentum, angularMomentum, momentum_push arm impulse v hb, hturn]
  simp only [Vec.cross, Vec.add_x, Vec.add_y]
  ring

end SolverBody

/-- The linear momentum of all bodies. -/
noncomputable def momentum (bodies : Array (SolverBody ℝ)) (vs : Array (Velocity ℝ)) : Vec ℝ where
  x := total (fun b v ↦ (b.momentum v).x) bodies.toList vs
  y := total (fun b v ↦ (b.momentum v).y) bodies.toList vs

/-- The angular momentum about the origin of all bodies. -/
noncomputable def angularMomentum (bodies : Array (SolverBody ℝ)) (ps : Array (Placement ℝ))
    (vs : Array (Velocity ℝ)) : ℝ :=
  total (fun bp v ↦ bp.1.angularMomentum bp.2.center v) (bodies.toList.zip ps.toList) vs

/-- From the velocities `vs` to `vs'`, the momenta of all bodies have stayed the same. -/
structure Conserved (bodies : Array (SolverBody ℝ)) (ps : Array (Placement ℝ))
    (vs vs' : Array (Velocity ℝ)) : Prop where
  linear : momentum bodies vs' = momentum bodies vs
  angular : angularMomentum bodies ps vs' = angularMomentum bodies ps vs

/-! ## Two bodies -/

/-- From the velocities `v` to `v'`, the momenta of two bodies with their centers at `p` and `q`
have stayed the same. -/
structure Balanced (a b : SolverBody ℝ) (p q : Vec ℝ) (v v' : Velocity ℝ × Velocity ℝ) : Prop where
  linear : a.momentum v'.1 + b.momentum v'.2 = a.momentum v.1 + b.momentum v.2
  angular : a.angularMomentum p v'.1 + b.angularMomentum q v'.2 =
    a.angularMomentum p v.1 + b.angularMomentum q v.2

section Balanced

variable {a b : SolverBody ℝ} {p q : Vec ℝ} {v v' v'' : Velocity ℝ × Velocity ℝ}

theorem Balanced.refl (a b : SolverBody ℝ) (p q : Vec ℝ) (v : Velocity ℝ × Velocity ℝ) :
    Balanced a b p q v v := ⟨rfl, rfl⟩

theorem Balanced.trans (h : Balanced a b p q v v') (h' : Balanced a b p q v' v'') :
    Balanced a b p q v v'' :=
  ⟨h'.linear.trans h.linear, h'.angular.trans h.angular⟩

theorem applyImpulse_eq_push (a b : SolverBody ℝ) (armA armB impulse : Vec ℝ)
    (v : Velocity ℝ × Velocity ℝ) : applyImpulse a b armA armB impulse v =
      (a.push armA (-impulse) v.1, b.push armB impulse v.2) := by
  refine Prod.ext ?_ rfl
  simp only [applyImpulse, SolverBody.push, Vec.cross_neg]
  ext
  · simp only [Vec.sub_x, Vec.add_x, Vec.mul_x, Vec.neg_x]
    ring
  · simp only [Vec.sub_y, Vec.add_y, Vec.mul_y, Vec.neg_y]
    ring
  · ring

/-- An impulse and its opposite, at one point. -/
theorem balanced_applyImpulse (ha : a.IsFree) (hb : b.IsFree) {armA armB : Vec ℝ}
    (harm : p + armA = q + armB) (impulse : Vec ℝ) (v : Velocity ℝ × Velocity ℝ) :
    Balanced a b p q v (applyImpulse a b armA armB impulse v) := by
  rw [applyImpulse_eq_push]
  refine ⟨?_, ?_⟩
  · rw [a.momentum_push armA _ _ ha, b.momentum_push armB _ _ hb]
    ext
    · simp only [Vec.add_x, Vec.neg_x]
      ring
    · simp only [Vec.add_y, Vec.neg_y]
      ring
  · rw [a.angularMomentum_push armA _ p _ ha, b.angularMomentum_push armB _ q _ hb, harm,
      Vec.cross_neg]
    ring

/-- What balances two bodies conserves the momenta of all. -/
theorem Balanced.conserved_setTwo {bodies : Array (SolverBody ℝ)} {ps : Array (Placement ℝ)}
    {vs : Array (Velocity ℝ)} {i j : Nat} {pa pb : Placement ℝ} (ha : bodies[i]? = some a)
    (hb : bodies[j]? = some b) (hpa : ps[i]? = some pa) (hpb : ps[j]? = some pb)
    (htwo : twoOf? vs i j = some v) (h : Balanced a b pa.center pb.center v v') :
    Conserved bodies ps vs (setTwo vs i j v') := by
  rw [← Array.getElem?_toList] at ha hb hpa hpb
  have hzip : ∀ {k : Nat} {d : SolverBody ℝ} {pd : Placement ℝ}, bodies.toList[k]? = some d →
      ps.toList[k]? = some pd → (bodies.toList.zip ps.toList)[k]? = some (d, pd) :=
    fun hd hp ↦ List.getElem?_zip_eq_some.2 ⟨hd, hp⟩
  refine ⟨Vec.ext ?_ ?_, ?_⟩
  · exact total_setTwo ha hb htwo (congrArg Vec.x h.linear)
  · exact total_setTwo ha hb htwo (congrArg Vec.y h.linear)
  · exact total_setTwo (hzip ha hpa) (hzip hb hpb) htwo h.angular

end Balanced

theorem Conserved.refl (bodies : Array (SolverBody ℝ)) (ps : Array (Placement ℝ))
    (vs : Array (Velocity ℝ)) : Conserved bodies ps vs vs := ⟨rfl, rfl⟩

theorem Conserved.trans {bodies : Array (SolverBody ℝ)} {ps : Array (Placement ℝ)}
    {vs vs' vs'' : Array (Velocity ℝ)} (h : Conserved bodies ps vs vs')
    (h' : Conserved bodies ps vs' vs'') : Conserved bodies ps vs vs'' :=
  ⟨h'.linear.trans h.linear, h'.angular.trans h.angular⟩

/-! ## Rows -/

/-- The arms of the row lead to one point from two bodies with their centers at `p` and `q`. -/
def Row.Meets (p q : Vec ℝ) (r : Row ℝ) : Prop := p + r.armA = q + r.armB

namespace Constraint

variable {c c' : Constraint ℝ} {r r' : Row ℝ} {rows rows' : List (Row ℝ)} {p q : Vec ℝ}
  {v v' : Velocity ℝ × Velocity ℝ}

/-- The momenta of the two bodies of the constraint have stayed the same. -/
abbrev Balances (c : Constraint ℝ) (p q : Vec ℝ) (v v' : Velocity ℝ × Velocity ℝ) : Prop :=
  Balanced c.a.toSolverBody c.b.toSolverBody p q v v'

theorem meets_prepareRow (c : Constraint ℝ) (threshold : ℝ) (pa pb : Placement ℝ)
    (v : Velocity ℝ × Velocity ℝ) (normal : Vec ℝ) (row : Row ℝ) (w : WorldPoint ℝ) :
    (c.prepareRow threshold pa pb v normal row w).Meets pa.center pb.center := by
  ext
  · simp [prepareRow]
  · simp [prepareRow]

theorem meets_prepare (c : Constraint ℝ) (threshold : ℝ) (pa pb : Placement ℝ)
    (v : Velocity ℝ × Velocity ℝ) :
    ∀ r ∈ (c.prepare threshold pa pb v).rows, r.Meets pa.center pb.center := by
  intro r hr
  rw [prepare] at hr
  split at hr
  · obtain ⟨k, hk, rfl⟩ := List.mem_iff_getElem.1 hr
    rw [List.getElem_zipWith]
    exact c.meets_prepareRow _ _ _ _ _ _ _
  · cases hr

section

variable (ha : c.a.IsFree) (hb : c.b.IsFree)

include ha hb

/-- Solving a row leaves its arms. -/
theorem balances_solve (hr : r.Meets p q) (h : r.solve c v = .ok (r', v')) :
    r'.Meets p q ∧ c.Balances p q v v' := by
  obtain ⟨x, -, hx⟩ := bind_eq_ok_iff.1 h
  cases hx
  exact ⟨hr, (balanced_applyImpulse ha hb hr _ v).trans (balanced_applyImpulse ha hb hr _ _)⟩

theorem balances_solveRows (hrows : ∀ r ∈ rows, r.Meets p q)
    (h : c.solveRows rows v = .ok (rows', v')) :
    (∀ r ∈ rows', r.Meets p q) ∧ c.Balances p q v v' := by
  induction rows generalizing v rows' v' with
  | nil =>
    cases h
    exact ⟨hrows, .refl _ _ p q v⟩
  | cons r rows ih =>
    obtain ⟨⟨r₁, v₁⟩, h₁, h⟩ := bind_eq_ok_iff.1 h
    obtain ⟨⟨rows₂, v₂⟩, h₂, h⟩ := bind_eq_ok_iff.1 h
    cases h
    obtain ⟨hr, hrest⟩ := List.forall_mem_cons.1 hrows
    obtain ⟨hm₁, hb₁⟩ := balances_solve ha hb hr h₁
    obtain ⟨hm₂, hb₂⟩ := ih hrest h₂
    exact ⟨List.forall_mem_cons.2 ⟨hm₁, hm₂⟩, hb₁.trans hb₂⟩

theorem balances_foldl_warmStart (hrows : ∀ r ∈ rows, r.Meets p q)
    (v : Velocity ℝ × Velocity ℝ) : c.Balances p q v (rows.foldl (Row.warmStart c) v) := by
  induction rows generalizing v with
  | nil => exact .refl _ _ p q v
  | cons r rows ih =>
    obtain ⟨hr, hrest⟩ := List.forall_mem_cons.1 hrows
    exact (balanced_applyImpulse ha hb hr _ v).trans (ih hrest _)

end

/-! ## Constraints -/

variable {bodies : Array (SolverBody ℝ)} {ps : Array (Placement ℝ)} {vs vs' : Array (Velocity ℝ)}

/-- The constraint has the masses of its bodies as they are in the list. -/
structure Knows (bodies : Array (SolverBody ℝ)) (c : Constraint ℝ) : Prop where
  a : bodies[c.a.place]? = some c.a.toSolverBody
  b : bodies[c.b.place]? = some c.b.toSolverBody

/-- Impulses move and turn both bodies of the constraint. -/
structure IsFree (c : Constraint ℝ) : Prop where
  a : c.a.IsFree
  b : c.b.IsFree

/-- The rows of the constraint meet its bodies where they are placed. -/
def Meets (ps : Array (Placement ℝ)) (c : Constraint ℝ) : Prop :=
  ∃ pa pb, ps[c.a.place]? = some pa ∧ ps[c.b.place]? = some pb ∧
    ∀ r ∈ c.rows, r.Meets pa.center pb.center

theorem anchors_of_outline (h : c.outline = c'.outline) : c.a = c'.a ∧ c.b = c'.b := by
  have ha : c.outline.a = c'.outline.a := by rw [h]
  have hb : c.outline.b = c'.outline.b := by rw [h]
  exact ⟨ha, hb⟩

theorem Knows.of_outline (h : c.outline = c'.outline) (hc : c.Knows bodies) : c'.Knows bodies := by
  obtain ⟨ha, hb⟩ := anchors_of_outline h
  exact ⟨ha ▸ hc.a, hb ▸ hc.b⟩

theorem Knows.isFixed (hc : c.Knows bodies) {k : Nat} {b : SolverBody ℝ} (hb : bodies[k]? = some b)
    (hfixed : b.IsFixed) : (c.a.place = k → c.a.IsFixed) ∧ (c.b.place = k → c.b.IsFixed) := by
  refine ⟨fun he ↦ ?_, fun he ↦ ?_⟩
  · have hsame : c.a.toSolverBody = b := Option.some.inj (hc.a.symm.trans (he ▸ hb))
    exact hsame ▸ hfixed
  · have hsame : c.b.toSolverBody = b := Option.some.inj (hc.b.symm.trans (he ▸ hb))
    exact hsame ▸ hfixed

theorem IsFree.of_outline (h : c.outline = c'.outline) (hc : c.IsFree) : c'.IsFree := by
  obtain ⟨ha, hb⟩ := anchors_of_outline h
  exact ⟨ha ▸ hc.a, hb ▸ hc.b⟩

section

variable (hk : c.Knows bodies) (hf : c.IsFree) (hm : c.Meets ps)

include hk hf hm

theorem conserved_solveVelocity (h : c.solveVelocity vs = .ok (c', vs')) :
    c'.Meets ps ∧ Conserved bodies ps vs vs' := by
  obtain ⟨pa, pb, hpa, hpb, hrows⟩ := hm
  rw [solveVelocity] at h
  split at h
  · cases h
    exact ⟨⟨pa, pb, hpa, hpb, hrows⟩, .refl bodies ps vs⟩
  next htwo =>
    obtain ⟨x, hx, h⟩ := bind_eq_ok_iff.1 h
    cases h
    obtain ⟨hmeets, hbal⟩ := balances_solveRows hf.a hf.b hrows hx
    exact ⟨⟨pa, pb, hpa, hpb, hmeets⟩, hbal.conserved_setTwo hk.a hk.b hpa hpb htwo⟩

theorem conserved_warmStart (vs : Array (Velocity ℝ)) :
    Conserved bodies ps vs (warmStart vs c) := by
  obtain ⟨pa, pb, hpa, hpb, hrows⟩ := hm
  rw [warmStart]
  split
  · exact .refl bodies ps vs
  next v htwo =>
    exact (balances_foldl_warmStart hf.a hf.b hrows v).conserved_setTwo hk.a hk.b hpa hpb htwo

end

end Constraint

/-! ## Solvers -/

namespace Solver

variable {bodies : Array (SolverBody ℝ)} {ps : Array (Placement ℝ)}
  {vs vs' vs₀ : Array (Velocity ℝ)} {s s' s₁ : Solver ℝ} {cs cs' : List (Constraint ℝ)}

/-- A solver for some of the bodies, as it is made, or after it has been prepared and has solved for
velocities, any number of times. -/
inductive IsFor (bodies : Array (SolverBody ℝ)) : Solver ℝ → Prop
  | ofContacts (step : TimeStep ℝ) (contacts : List (Handle × Contact ℝ))
    (place : BodyId → Option Nat) : IsFor bodies (ofContacts step contacts bodies place)
  | prepare {s s' : Solver ℝ} {ps : Array (Placement ℝ)} {vs : Array (Velocity ℝ)} :
    IsFor bodies s → s.prepare ps vs = .ok s' → IsFor bodies s'
  | velocityPass {s s' : Solver ℝ} {vs vs' : Array (Velocity ℝ)} :
    IsFor bodies s → s.velocityPass vs = .ok (s', vs') → IsFor bodies s'

theorem IsFor.knows (h : s.IsFor bodies) : ∀ c ∈ s.constraints, c.Knows bodies := by
  induction h with
  | ofContacts step contacts place =>
    intro c hc
    obtain ⟨e, -, he⟩ := List.mem_filterMap.1 hc
    obtain ⟨i, j, a, b, -, -, ha, hb, -, rfl⟩ := Constraint.ofContact?_eq_some_iff.1 he
    exact ⟨ha, hb⟩
  | prepare _ h ih =>
    exact forall_of_outline (fun _ _ ↦ Constraint.Knows.of_outline) (outline_prepare h).2 ih
  | velocityPass _ h ih =>
    exact forall_of_outline (fun _ _ ↦ Constraint.Knows.of_outline) (of_velocityPass_eq_ok h).2.1 ih

/-- All constraints know their bodies, can move them, and meet them where they are placed. -/
def Couples (bodies : Array (SolverBody ℝ)) (ps : Array (Placement ℝ))
    (cs : List (Constraint ℝ)) : Prop :=
  ∀ c ∈ cs, c.Knows bodies ∧ c.IsFree ∧ c.Meets ps

theorem couples_prepare (hs : s.IsFor bodies) (hf : ∀ c ∈ s.constraints, c.IsFree)
    (h : s.prepare ps vs = .ok s') : Couples bodies ps s'.constraints := by
  intro c hc
  refine ⟨(hs.prepare h).knows c hc, ?_, ?_⟩
  · exact forall_of_outline (fun _ _ ↦ Constraint.IsFree.of_outline) (outline_prepare h).2 hf c hc
  · obtain ⟨cs, hcs, h⟩ := bind_eq_ok_iff.1 h
    cases h
    obtain ⟨c₀, -, hc₀⟩ := exists_of_mem_mapM hcs hc
    split at hc₀
    next pa pb va vb hpa hpb _ _ =>
      cases hc₀
      obtain ⟨ha, hb⟩ := Constraint.anchors_of_outline (c₀.outline_prepare _ pa pb (va, vb))
      exact ⟨pa, pb, ha.symm ▸ hpa, hb.symm ▸ hpb, c₀.meets_prepare _ pa pb (va, vb)⟩
    · cases hc₀

theorem conserved_warmStart (hcs : Couples bodies ps cs) (vs : Array (Velocity ℝ)) :
    Conserved bodies ps vs (cs.foldl Constraint.warmStart vs) := by
  induction cs generalizing vs with
  | nil => exact .refl bodies ps vs
  | cons c cs ih =>
    obtain ⟨⟨hk, hf, hm⟩, hcs⟩ := List.forall_mem_cons.1 hcs
    exact (Constraint.conserved_warmStart hk hf hm vs).trans (ih hcs _)

theorem conserved_solveConstraints (hcs : Couples bodies ps cs)
    (h : solveConstraints cs vs = .ok (cs', vs')) :
    Couples bodies ps cs' ∧ Conserved bodies ps vs vs' := by
  induction cs generalizing vs cs' vs' with
  | nil =>
    cases h
    exact ⟨hcs, .refl bodies ps vs⟩
  | cons c cs ih =>
    obtain ⟨⟨c₁, vs₁⟩, hc, h⟩ := bind_eq_ok_iff.1 h
    obtain ⟨⟨cs₁, vs₂⟩, hrest, h⟩ := bind_eq_ok_iff.1 h
    cases h
    obtain ⟨⟨hk, hf, hm⟩, hcs⟩ := List.forall_mem_cons.1 hcs
    have ho := (Constraint.of_solveVelocity_eq_ok hc).1.symm
    obtain ⟨hm₁, hcons₁⟩ := Constraint.conserved_solveVelocity hk hf hm hc
    obtain ⟨hcs₂, hcons₂⟩ := ih hcs hrest
    exact ⟨List.forall_mem_cons.2 ⟨⟨hk.of_outline ho, hf.of_outline ho, hm₁⟩, hcs₂⟩,
      hcons₁.trans hcons₂⟩

theorem conserved_velocityPasses {n : Nat} (hs : Couples bodies ps s.constraints)
    (h : velocityPasses n s vs = .ok (s', vs')) : Conserved bodies ps vs vs' := by
  induction n generalizing s vs with
  | zero =>
    cases h
    exact .refl bodies ps vs'
  | succ n ih =>
    obtain ⟨⟨s₁, vs₁⟩, h₁, h⟩ := bind_eq_ok_iff.1 h
    obtain ⟨x, hx, h₁⟩ := bind_eq_ok_iff.1 h₁
    cases h₁
    obtain ⟨hs₁, hcons⟩ := conserved_solveConstraints hs hx
    exact hcons.trans (ih hs₁ h)

/-- **Momentum is conserved.**  The centers of mass are those for which the solver was prepared.
Its passes return if friction is not negative. -/
theorem momentum_of_velocityPasses (hs : s.IsFor bodies) (hf : ∀ c ∈ s.constraints, c.IsFree)
    (hp : s.prepare ps vs₀ = .ok s₁) (vs : Array (Velocity ℝ)) (n : Nat) :
    (∀ s₂ vs', velocityPasses n s₁ (s₁.warmStart vs) = .ok (s₂, vs') →
      momentum bodies vs' = momentum bodies vs ∧
      angularMomentum bodies ps vs' = angularMomentum bodies ps vs) ∧
    ((∀ c ∈ s.constraints, 0 ≤ c.friction) →
      ∃ s₂ vs', velocityPasses n s₁ (s₁.warmStart vs) = .ok (s₂, vs')) := by
  have hcouples := couples_prepare hs hf hp
  refine ⟨fun s₂ vs' h ↦ ?_, fun hfriction ↦ ?_⟩
  · have hcons := (conserved_warmStart hcouples vs).trans (conserved_velocityPasses hcouples h)
    exact ⟨hcons.linear, hcons.angular⟩
  · have hfriction := forall_friction (outline_prepare hp).2 hfriction
    exact exists_velocityPasses hfriction n (s₁.warmStart vs)

/-- A body moves past the origin and strikes one that rests. -/
theorem strained_momentum : ∃ (s₁ s₂ : Solver ℝ) (vs' : Array (Velocity ℝ)),
    (ofContacts (.of 1 1 0 .default) [(⟨0, 0⟩, .strained)] #[⟨1, 1, 0⟩, ⟨1, 1, 0⟩] some).prepare
      #[⟨⟨0, 1⟩, 0⟩, ⟨⟨1, 1⟩, 0⟩] #[⟨⟨1, 0⟩, 0⟩, ⟨0, 0⟩] = .ok s₁ ∧
    velocityPasses 8 s₁ (s₁.warmStart #[⟨⟨1, 0⟩, 0⟩, ⟨0, 0⟩]) = .ok (s₂, vs') ∧
    s₂.constraints.map (·.handle) = [⟨0, 0⟩] ∧
    momentum #[⟨1, 1, 0⟩, ⟨1, 1, 0⟩] vs' = ⟨1, 0⟩ ∧
    angularMomentum #[⟨1, 1, 0⟩, ⟨1, 1, 0⟩] #[⟨⟨0, 1⟩, 0⟩, ⟨⟨1, 1⟩, 0⟩] vs' = -1 := by
  obtain ⟨s₁, hs₁⟩ : ∃ s₁, (ofContacts (.of 1 1 0 .default) [(⟨0, 0⟩, .strained)]
      #[⟨1, 1, 0⟩, ⟨1, 1, 0⟩] some).prepare #[⟨⟨0, 1⟩, 0⟩, ⟨⟨1, 1⟩, 0⟩]
      #[⟨⟨1, 0⟩, 0⟩, ⟨0, 0⟩] = .ok s₁ := exists_prepare_ofContacts _ _ _ rfl rfl
  have hfree : SolverBody.IsFree ⟨1, 1, 0⟩ := ⟨one_pos, one_pos⟩
  have hmem : ∀ c ∈ (ofContacts (.of 1 1 0 .default) [(⟨0, 0⟩, .strained)]
      #[(⟨1, 1, 0⟩ : SolverBody ℝ), ⟨1, 1, 0⟩] some).constraints,
      c.IsFree ∧ c.friction = Contact.strained.friction := by
    intro c hc
    obtain ⟨e, he, hec⟩ := List.mem_filterMap.1 hc
    cases List.mem_singleton.1 he
    obtain ⟨i, j, a, b, hi, hj, ha, hb, -, rfl⟩ := Constraint.ofContact?_eq_some_iff.1 hec
    cases hi
    cases hj
    cases ha
    cases hb
    exact ⟨⟨hfree, hfree⟩, rfl⟩
  obtain ⟨hcons, hsolve⟩ := momentum_of_velocityPasses (.ofContacts _ _ _)
    (fun c hc ↦ (hmem c hc).1) hs₁ #[⟨⟨1, 0⟩, 0⟩, ⟨0, 0⟩] 8
  obtain ⟨s₂, vs', h⟩ := hsolve fun c hc ↦ (hmem c hc).2 ▸ Contact.friction_strained_nonneg
  obtain ⟨hlin, hang⟩ := hcons s₂ vs' h
  refine ⟨s₁, s₂, vs', hs₁, h, ?_, ?_, ?_⟩
  · have ho := (of_velocityPasses_eq_ok h).2.1.trans (outline_prepare hs₁).2
    rw [handles_of_outline ho]
    rfl
  · rw [hlin]
    ext <;> simp [momentum, total, SolverBody.momentum]
  · rw [hang]
    simp [angularMomentum, total, SolverBody.angularMomentum, SolverBody.momentum, Vec.cross]

end Solver

end PlanarDynamics
