import PlanarDynamics.Proofs.Real.Plane
import PlanarDynamics.Proofs.World.Derived

/-!
# The mass of a body

A body of several parts has their mass, its center of mass is the mean of their centers, and its
inertia about that center is what the parts have about their own centers and what they have by
being away from it (`Body.composite_resetMass`).

The origin of the body stays where it is when its mass changes, so the center of mass moves.  A
rotating body then has another velocity at its center: `Body.reweigh` makes up for that if the body
is dynamic, and not if it is kinematic.  `World.keepsVelocities_iff` says exactly when the points of
a body keep their velocities.
-/

namespace PlanarDynamics

theorem Vec.rotate_eq_zero_iff {v : Vec ℝ} {θ : ℝ} : v.rotate θ = 0 ↔ v = 0 := by
  have hzero : ∀ φ : ℝ, (0 : Vec ℝ).rotate φ = 0 := fun φ ↦ by ext <;> simp [Vec.rotate]
  constructor
  · intro h
    have hback := v.rotate_rotate θ (-θ)
    rw [h, hzero, add_neg_cancel, rotate_zero] at hback
    exact hback.symm
  · rintro rfl
    exact hzero θ

/-! ## Sums over parts -/

namespace MassData

/-- The mean of the centers of parts, weighted by their masses. -/
noncomputable def mean (parts : List (MassData ℝ)) : Vec ℝ :=
  ⟨(parts.map fun m ↦ m.mass * m.center.x).sum / (parts.map (·.mass)).sum,
    (parts.map fun m ↦ m.mass * m.center.y).sum / (parts.map (·.mass)).sum⟩

theorem totalMass_eq (parts : List (MassData ℝ)) : Body.totalMass parts =
    ⟨(parts.map (·.mass)).sum,
      ⟨(parts.map fun m ↦ m.mass * m.center.x).sum, (parts.map fun m ↦ m.mass * m.center.y).sum⟩,
      (parts.map (·.inertia)).sum⟩ := by
  have key : ∀ (parts : List (MassData ℝ)) (s : MassData ℝ),
      parts.foldl (fun sum m ↦
          ⟨sum.mass + m.mass, sum.center + m.center * m.mass, sum.inertia + m.inertia⟩) s =
        ⟨s.mass + (parts.map (·.mass)).sum,
          ⟨s.center.x + (parts.map fun m ↦ m.mass * m.center.x).sum,
            s.center.y + (parts.map fun m ↦ m.mass * m.center.y).sum⟩,
          s.inertia + (parts.map (·.inertia)).sum⟩ := by
    intro parts
    induction parts with
    | nil => simp
    | cons m parts ih =>
      intro s
      simp only [List.foldl_cons, ih, List.map_cons, List.sum_cons, Vec.add_x, Vec.add_y, Vec.mul_x,
        Vec.mul_y, add_assoc, mul_comm]
  rw [Body.totalMass, key]
  simp

/-- What parts have about their own centers, and by being away from a point `c`. -/
theorem sum_central_add_sum_distSq (parts : List (MassData ℝ)) (c : Vec ℝ) :
    (parts.map fun m ↦ m.inertia - m.mass * m.center.normSq).sum +
        (parts.map fun m ↦ m.mass * m.center.distSq c).sum =
      (parts.map (·.inertia)).sum -
        2 * ((parts.map fun m ↦ m.mass * m.center.x).sum * c.x +
          (parts.map fun m ↦ m.mass * m.center.y).sum * c.y) +
        (parts.map (·.mass)).sum * c.normSq := by
  induction parts with
  | nil => simp
  | cons m parts ih =>
    have hdist : m.center.distSq c =
        m.center.normSq - 2 * (m.center.x * c.x + m.center.y * c.y) + c.normSq := by
      simp only [Vec.distSq, Vec.normSq, Vec.dot, Vec.sub_x, Vec.sub_y]
      ring
    simp only [List.map_cons, List.sum_cons, hdist]
    linear_combination ih

/-- The law of parallel axes for several parts and their center of mass. -/
theorem sum_central_add_sum_distSq_mean {parts : List (MassData ℝ)}
    (h : (parts.map (·.mass)).sum ≠ 0) :
    (parts.map fun m ↦ m.inertia - m.mass * m.center.normSq).sum +
        (parts.map fun m ↦ m.mass * m.center.distSq (mean parts)).sum =
      (parts.map (·.inertia)).sum - (parts.map (·.mass)).sum * (mean parts).normSq := by
  have hx : (parts.map fun m ↦ m.mass * m.center.x).sum =
      (parts.map (·.mass)).sum * (mean parts).x := (mul_div_cancel₀ _ h).symm
  have hy : (parts.map fun m ↦ m.mass * m.center.y).sum =
      (parts.map (·.mass)).sum * (mean parts).y := (mul_div_cancel₀ _ h).symm
  rw [sum_central_add_sum_distSq, hx, hy, Vec.normSq, Vec.dot]
  ring

end MassData

/-! ## Bodies of several parts -/

/-- The mass of a body that consists of parts: their total mass, the mean of their centers, and
their inertia about it, unless that is not positive. -/
structure BodyMass.IsComposite (m : BodyMass ℝ) (parts : List (MassData ℝ)) : Prop where
  mass : m.mass = (parts.map (·.mass)).sum
  invMass : m.invMass = 1 / (parts.map (·.mass)).sum
  localCenter : m.localCenter = MassData.mean parts
  inertia : 0 < (parts.map (·.inertia)).sum → m.inertia =
    max 0 ((parts.map fun p ↦ p.inertia - p.mass * p.center.normSq).sum +
      (parts.map fun p ↦ p.mass * p.center.distSq (MassData.mean parts)).sum)
  inertia_eq_zero : (parts.map (·.inertia)).sum ≤ 0 → m.inertia = 0
  invInertia : 0 < m.inertia ∧ m.invInertia = 1 / m.inertia ∨ m.inertia = 0 ∧ m.invInertia = 0

namespace Body

variable {b : Body ℝ} {parts parts' : List (MassData ℝ)}

theorem centralInertia_cases (inertia mass : ℝ) (center : Vec ℝ) :
    (0 < inertia ∧ 0 < inertia - mass * center.normSq ∧ centralInertia inertia mass center =
        (inertia - mass * center.normSq, 1 / (inertia - mass * center.normSq))) ∨
      (inertia ≤ 0 ∨ inertia - mass * center.normSq ≤ 0) ∧
        centralInertia inertia mass center = (0, 0) := by
  by_cases hi : 0 < inertia
  · by_cases hc : 0 < inertia - mass * center.normSq
    · exact .inl ⟨hi, hc, by simp only [centralInertia, if_pos hi, if_pos hc]⟩
    · exact .inr ⟨.inr (not_lt.1 hc), by simp only [centralInertia, if_pos hi, if_neg hc]⟩
  · exact .inr ⟨.inl (not_lt.1 hi), by simp only [centralInertia, if_neg hi]⟩

theorem isDynamic_iff : b.isDynamic = true ↔ b.kind = .dynamic := by simp [isDynamic]

theorem weight_resetMass_of_dynamic (hk : b.kind = .dynamic)
    (hm : 0 < (parts.map (·.mass)).sum) :
    ∃ inertia invInertia, (b.resetMass parts).weight =
        ⟨(parts.map (·.mass)).sum, 1 / (parts.map (·.mass)).sum, inertia, invInertia,
          MassData.mean parts⟩ ∧
      centralInertia (parts.map (·.inertia)).sum (parts.map (·.mass)).sum (MassData.mean parts) =
        (inertia, invInertia) := by
  have hd : b.isDynamic = true := isDynamic_iff.2 hk
  have hcenter : (totalMass parts).center * (1 / (parts.map (·.mass)).sum) =
      MassData.mean parts := by
    rw [MassData.totalMass_eq]
    ext
    · exact mul_one_div _ _
    · exact mul_one_div _ _
  refine ⟨_, _, ?_, rfl⟩
  rw [← hcenter]
  simp only [resetMass, hd, MassData.totalMass_eq, hm]
  rfl

theorem isComposite_resetMass (hk : b.kind = .dynamic) (hm : 0 < (parts.map (·.mass)).sum) :
    (b.resetMass parts).weight.IsComposite parts := by
  obtain ⟨inertia, invInertia, hweight, hcentral⟩ := weight_resetMass_of_dynamic hk hm
  have haxes := MassData.sum_central_add_sum_distSq_mean hm.ne'
  rw [hweight]
  obtain ⟨hi, hc, he⟩ | ⟨hle, he⟩ := centralInertia_cases (parts.map (·.inertia)).sum
    (parts.map (·.mass)).sum (MassData.mean parts)
  · cases hcentral.symm.trans he
    refine ⟨rfl, rfl, rfl, fun _ ↦ ?_, fun h ↦ absurd hi h.not_gt, .inl ⟨hc, rfl⟩⟩
    rw [haxes, max_eq_right hc.le]
  · cases hcentral.symm.trans he
    refine ⟨rfl, rfl, rfl, fun hi ↦ ?_, fun _ ↦ rfl, .inr ⟨rfl, rfl⟩⟩
    rw [haxes, max_eq_left (hle.resolve_left hi.not_ge)]

/-! ## Moving the center of mass -/

/-- The body with another mass.  Its origin stays in place, and if it is dynamic its points keep
their velocities. -/
noncomputable def reweigh (b : Body ℝ) (m : BodyMass ℝ) : Body ℝ :=
  { b with
    mass := m.mass, invMass := m.invMass, inertia := m.inertia, invInertia := m.invInertia
    localCenter := m.localCenter
    position := b.pose.position + m.localCenter.rotate b.rotation
    velocity :=
      if b.isDynamic then
        b.velocity + Vec.outCross b.angularVelocity
          (b.pose.position + m.localCenter.rotate b.rotation - b.position)
      else b.velocity }

theorem resetMass_of_not_dynamic (hk : b.kind ≠ .dynamic) (parts : List (MassData ℝ)) :
    b.resetMass parts = b.withoutMass := by
  rw [resetMass, if_neg (mt isDynamic_iff.1 hk)]

theorem resetMass_eq_reweigh (b : Body ℝ) (parts : List (MassData ℝ)) :
    b.resetMass parts = b.reweigh (b.resetMass parts).weight := by
  by_cases hk : b.kind = .dynamic
  · have hd : b.isDynamic = true := isDynamic_iff.2 hk
    simp only [reweigh, resetMass, hd, if_true, BodyState.weight]
  · have hzero : b.pose.position + (0 : Vec ℝ).rotate b.rotation = b.pose.position := by
      ext <;> simp [Vec.rotate]
    rw [resetMass_of_not_dynamic hk, reweigh, if_neg (mt isDynamic_iff.1 hk)]
    simp only [withoutMass, BodyState.weight, hzero]

theorem position_eq (b : Body ℝ) :
    b.pose.position + b.localCenter.rotate b.rotation = b.position := by
  ext <;> simp [pose, Pose.ofCenter]

theorem reweigh_weight (b : Body ℝ) : b.reweigh b.weight = b := by
  have hrest : b.velocity + Vec.outCross b.angularVelocity (b.position - b.position) =
      b.velocity := by
    ext <;> simp [Vec.outCross]
  simp only [reweigh, BodyState.weight, position_eq, hrest, ite_self]

/-- Giving a body the same parts again changes nothing. -/
theorem resetMass_resetMass (b : Body ℝ) (parts : List (MassData ℝ)) :
    (b.resetMass parts).resetMass parts = b.resetMass parts := by
  have hkind : (b.resetMass parts).kind = b.kind := World.resetMass_kind b parts
  -- The weight comes from the parts and the kind alone, so the second time it is there already.
  rw [resetMass_eq_reweigh (b.resetMass parts), weight_resetMass hkind, reweigh_weight]

theorem resetMass_perm (h : parts'.Perm parts) (b : Body ℝ) :
    b.resetMass parts' = b.resetMass parts := by
  have htotal : totalMass parts' = totalMass parts := by
    rw [MassData.totalMass_eq, MassData.totalMass_eq, (h.map _).sum_eq, (h.map _).sum_eq,
      (h.map _).sum_eq, (h.map _).sum_eq]
  simp only [resetMass, htotal]

theorem weight_resetMass_of_not_dynamic (hk : b.kind ≠ .dynamic) (parts : List (MassData ℝ)) :
    (b.resetMass parts).weight = ⟨0, 0, 0, 0, 0⟩ := by
  rw [resetMass_of_not_dynamic hk]
  rfl

/-- A body that is given parts keeps its origin, and is the same if it is given them once more or in
another order.  A dynamic one becomes the composite of parts with a positive mass, and any other
body has no mass. -/
theorem composite_resetMass (b : Body ℝ) (parts : List (MassData ℝ)) :
    (b.resetMass parts).pose = b.pose ∧
      (b.resetMass parts).resetMass parts = b.resetMass parts ∧
      (b.kind ≠ .dynamic → (b.resetMass parts).weight = ⟨0, 0, 0, 0, 0⟩) ∧
      (b.kind = .dynamic → 0 < (parts.map (·.mass)).sum →
        (b.resetMass parts).weight.IsComposite parts) ∧
      ∀ parts', parts'.Perm parts → b.resetMass parts' = b.resetMass parts :=
  ⟨pose_resetMass b parts, resetMass_resetMass b parts,
    fun hk ↦ weight_resetMass_of_not_dynamic hk parts, isComposite_resetMass,
    fun _ h ↦ resetMass_perm h b⟩

/-- Two weights on the first axis. -/
theorem composite_dumbbell :
    ((ofKind .dynamic 0).resetMass [⟨1, 0, 1⟩, ⟨3, ⟨4, 0⟩, 50⟩]).weight =
      (⟨4, 1 / 4, 15, 1 / 15, ⟨3, 0⟩⟩ : BodyMass ℝ) := by
  have hmean : MassData.mean [⟨1, 0, 1⟩, ⟨3, ⟨4, 0⟩, 50⟩] = ⟨3, 0⟩ := by
    ext <;> norm_num [MassData.mean]
  obtain ⟨-, -, -, hcomposite, -⟩ :=
    composite_resetMass (ofKind .dynamic 0) [⟨1, 0, 1⟩, ⟨3, ⟨4, 0⟩, 50⟩]
  have h := hcomposite rfl (by norm_num)
  have hinertia := h.inertia (by norm_num)
  norm_num [hmean, Vec.distSq, Vec.normSq, Vec.dot] at hinertia
  obtain ⟨-, hinv⟩ | ⟨hzero, -⟩ := h.invInertia
  · ext
    · rw [h.mass]
      norm_num
    · rw [h.invMass]
      norm_num
    · exact hinertia
    · rw [hinv, hinertia]
    · rw [h.localCenter, hmean]
    · rw [h.localCenter, hmean]
  · rw [hinertia] at hzero
    norm_num at hzero

/-! ## Velocities of the points of a body -/

/-- All points of the body have the velocities that they had before. -/
def KeepsVelocities (b b' : Body ℝ) : Prop := ∀ p, b'.velocityAt p = b.velocityAt p

theorem keepsVelocities_reweigh (hk : b.kind = .dynamic) (m : BodyMass ℝ) :
    b.KeepsVelocities (b.reweigh m) := by
  intro p
  have hd : b.isDynamic = true := isDynamic_iff.2 hk
  ext
  · simp only [velocityAt, reweigh, hd, if_true, Vec.outCross, Vec.add_x, Vec.sub_x, Vec.add_y,
      Vec.sub_y]
    ring
  · simp only [velocityAt, reweigh, hd, if_true, Vec.outCross, Vec.add_x, Vec.sub_x, Vec.add_y,
      Vec.sub_y]
    ring

/-- Without mass the velocities of a body belong to other points: those away from them as the origin
is from the former center of mass. -/
theorem velocityAt_withoutMass (b : Body ℝ) (p : Vec ℝ) :
    b.withoutMass.velocityAt p = b.velocityAt (p + b.localCenter.rotate b.rotation) := by
  have hsub : p - (b.position - b.localCenter.rotate b.rotation) =
      p + b.localCenter.rotate b.rotation - b.position := by
    ext
    · simp only [Vec.add_x, Vec.sub_x]
      ring
    · simp only [Vec.add_y, Vec.sub_y]
      ring
  rw [velocityAt, velocityAt, ← hsub]
  rfl

/-- Two points of a body have the same velocity if the body does not turn, or if they are one. -/
theorem velocityAt_add_eq_iff (b : Body ℝ) (p r : Vec ℝ) :
    b.velocityAt (p + r) = b.velocityAt p ↔ b.angularVelocity = 0 ∨ r = 0 := by
  constructor
  · intro h
    have hx := congrArg Vec.x h
    have hy := congrArg Vec.y h
    simp only [velocityAt, Vec.outCross, Vec.add_x, Vec.add_y, Vec.sub_x, Vec.sub_y] at hx hy
    have hturn : b.angularVelocity * r.y = 0 := by linear_combination -hx
    have hturn' : b.angularVelocity * r.x = 0 := by linear_combination hy
    refine or_iff_not_imp_left.2 fun hne ↦ Vec.ext ?_ ?_
    · exact (mul_eq_zero.1 hturn').resolve_left hne
    · exact (mul_eq_zero.1 hturn).resolve_left hne
  · rintro (h | rfl)
    · ext <;> simp [velocityAt, Vec.outCross, h]
    · ext <;> simp [velocityAt, Vec.outCross]

theorem keepsVelocities_resetMass_iff (b : Body ℝ) (parts : List (MassData ℝ)) :
    b.KeepsVelocities (b.resetMass parts) ↔
      b.kind = .dynamic ∨ b.angularVelocity = 0 ∨ b.localCenter = 0 := by
  by_cases hk : b.kind = .dynamic
  · rw [resetMass_eq_reweigh]
    exact iff_of_true (keepsVelocities_reweigh hk _) (.inl hk)
  · have hiff : ∀ p, b.withoutMass.velocityAt p = b.velocityAt p ↔
        b.angularVelocity = 0 ∨ b.localCenter = 0 := fun p ↦ by
      rw [velocityAt_withoutMass, velocityAt_add_eq_iff, Vec.rotate_eq_zero_iff]
    rw [resetMass_of_not_dynamic hk, or_iff_right hk]
    exact ⟨fun h ↦ (hiff 0).1 (h 0), fun h p ↦ (hiff p).2 h⟩

theorem velocityAt_changeKind {kind : BodyKind} (hk : kind ≠ .static) (b : Body ℝ) (p : Vec ℝ) :
    (b.changeKind kind).velocityAt p = b.velocityAt p := by
  simp only [changeKind, if_neg hk]
  rfl

end Body

namespace World

variable {σ : Type} {w : World ℝ σ} {i : BodyId} {b : Body ℝ} {kind : BodyKind}

theorem exists_setKind (hb : w.bodies[i]? = some b) (hne : b.kind ≠ kind) :
    ∃ w', w.setKind i kind = .ok w' ∧
      w'.bodies[i]? = some ((b.changeKind kind).resetMass (w.parts (b.changeKind kind))) := by
  simp only [setKind, hb, if_neg hne]
  refine ⟨_, rfl, ?_⟩
  rw [(rechecked_foldl b.colliders).bodies]
  simp only [refreshMass, Array.getElem?_modify, if_true, hb, Option.map_some]
  rfl

/-- When a body is given parts, its points keep their velocities if and only if it is dynamic, or
does not turn, or has its center of mass at its origin; else each gets the velocity of the point
that is from it as the center of mass was from the origin.  So the points of a body keep their
velocities when it becomes dynamic, and need not when it becomes kinematic. -/
theorem keepsVelocities_iff :
    (∀ (b : Body ℝ) (parts : List (MassData ℝ)), b.KeepsVelocities (b.resetMass parts) ↔
        b.kind = .dynamic ∨ b.angularVelocity = 0 ∨ b.localCenter = 0) ∧
      (∀ (b : Body ℝ) (parts : List (MassData ℝ)), b.kind ≠ .dynamic → ∀ p,
        (b.resetMass parts).velocityAt p =
          b.velocityAt (p + b.localCenter.rotate b.rotation)) ∧
      ∀ (w : World ℝ σ) (i : BodyId) (b : Body ℝ) (kind : BodyKind),
        w.bodies[i]? = some b → kind ≠ .static →
        ∃ w' b', w.setKind i kind = .ok w' ∧ w'.bodies[i]? = some b' ∧
          (b.KeepsVelocities b' ↔
            kind = b.kind ∨ kind = .dynamic ∨ b.angularVelocity = 0 ∨ b.localCenter = 0) := by
  refine ⟨Body.keepsVelocities_resetMass_iff, fun b parts hk p ↦ ?_, fun w i b kind hb hk ↦ ?_⟩
  · rw [Body.resetMass_of_not_dynamic hk, Body.velocityAt_withoutMass]
  by_cases hne : b.kind = kind
  · refine ⟨w, b, by simp [setKind, hb, hne], hb, ?_⟩
    exact iff_of_true (fun _ ↦ rfl) (.inl hne.symm)
  · obtain ⟨w', hw', hb'⟩ := exists_setKind hb hne
    refine ⟨w', _, hw', hb', ?_⟩
    have hiff := Body.keepsVelocities_resetMass_iff (b.changeKind kind)
      (w.parts (b.changeKind kind))
    simp only [Body.KeepsVelocities, Body.velocityAt_changeKind hk] at hiff ⊢
    rw [hiff, or_iff_right (Ne.symm hne)]
    simp only [Body.changeKind, if_neg hk]
    rfl

/-- A disc beside the origin. -/
noncomputable def asideDisc : Collider ℝ := ⟨.circle ⟨1, ⟨1, 0⟩⟩, .default, .default, false, none⟩

theorem mass_asideDisc : asideDisc.massData.mass = Real.pi := by
  change (1 : ℝ) * Real.pi * 1 * 1 = Real.pi
  ring

theorem mean_asideDisc : MassData.mean [asideDisc.massData] = ⟨1, 0⟩ := by
  have hcenter : asideDisc.massData.center = ⟨1, 0⟩ := rfl
  ext
  · simp [MassData.mean, hcenter, mass_asideDisc, Real.pi_ne_zero]
  · simp [MassData.mean, hcenter]

/-- A body that turns gets a disc beside its origin. -/
noncomputable def spin : List (Action ℝ Unit) :=
  [.addBody { Body.ofKind .dynamic 0 with angularVelocity := 1 }, .addCollider 0 asideDisc]

theorem exists_spin : ∃ (w₀ w : World ℝ Unit) (b : Body ℝ),
    ofSettings .default = .ok w₀ ∧ w₀.run spin = .ok w ∧ w.bodies[0]? = some b ∧
      b.kind = .dynamic ∧ b.angularVelocity = 1 ∧ b.localCenter = ⟨1, 0⟩ := by
  obtain ⟨w₀, h₀⟩ := exists_ofSettings_default Unit
  obtain ⟨-, rfl⟩ := ofSettings_eq_ok_iff.1 h₀
  refine ⟨_, _, _, h₀, rfl, rfl, rfl, rfl, ?_⟩
  have hmass : 0 < ([asideDisc.massData].map (·.mass)).sum := by
    simp [mass_asideDisc, Real.pi_pos]
  have hcomposite := Body.isComposite_resetMass
    (b := { Body.ofKind .dynamic 0 with angularVelocity := 1, colliders := [0] }) rfl hmass
  exact hcomposite.localCenter.trans mean_asideDisc

/-- The disc does not keep its velocities when its body becomes kinematic. -/
theorem spin_not_keepsVelocities : ∃ (w₀ w w' : World ℝ Unit) (b b' : Body ℝ),
    ofSettings .default = .ok w₀ ∧ w₀.run spin = .ok w ∧ w.bodies[0]? = some b ∧
      b.kind = .dynamic ∧ w.setKind 0 .kinematic = .ok w' ∧ w'.bodies[0]? = some b' ∧
      ¬ b.KeepsVelocities b' := by
  obtain ⟨w₀, w, b, h₀, hw, hb, hk, hturn, hcenter⟩ := exists_spin
  obtain ⟨w', b', hw', hb', hiff⟩ := keepsVelocities_iff.2.2 w 0 b .kinematic hb (by decide)
  refine ⟨w₀, w, w', b, b', h₀, hw, hb, hk, hw', hb', ?_⟩
  rw [hiff, hk, hturn, hcenter]
  simp [Vec.ext_iff]

end World

end PlanarDynamics
