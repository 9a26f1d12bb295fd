import PlanarDynamics.Proofs.Real.Plane
import PlanarDynamics.Collision.Rule
import PlanarDynamics.Manifold.World

/-!
# Two shapes in the other order

A rule is entered for both orders of its kinds at once, so a table is a mirror image of itself
(`RuleTable.Mirrored`), whatever has been entered and overwritten.  The manifold of two shapes in
the other order is then the same manifold with the roles exchanged, and exchanging them twice
changes nothing.  In the world, both tell of the same points at the same depths, under opposite
normals.
-/

namespace PlanarDynamics

section

variable {α : Type}

/-- The rule, for shapes in the other order. -/
def Rule.flip (r : Rule α) : Rule α := { r with primary := !r.primary }

namespace RuleTable

/-- A rule to be entered, with the kinds that it expects. -/
structure Entry (α : Type) where
  kind : PairKind
  collide : Collide α
  a : ShapeKind
  b : ShapeKind

/-- The table with the given rules, entered in order. -/
def ofEntries (entries : List (Entry α)) : RuleTable α :=
  entries.foldl (fun t e ↦ t.register e.kind e.collide e.a e.b) empty

/-- Two different kinds have the same rule in either order, for one of which it is flipped. -/
def Mirrored (t : RuleTable α) : Prop := ∀ x y, x ≠ y → t.rule? y x = (t.rule? x y).map Rule.flip

theorem mirrored_empty : (empty : RuleTable α).Mirrored := fun _ _ _ ↦ rfl

theorem Mirrored.register {t : RuleTable α} (ht : t.Mirrored) (kind : PairKind)
    (collide : Collide α) (a b : ShapeKind) : (t.register kind collide a b).Mirrored := by
  intro x y hne
  simp only [RuleTable.register]
  by_cases hab : x = a ∧ y = b
  · have hba : ¬ (y = a ∧ x = b) := fun h ↦ hne (hab.1.trans h.1.symm)
    rw [if_neg hba, if_pos hab.symm, if_pos hab]
    rfl
  · by_cases hba : y = a ∧ x = b
    · rw [if_pos hba, if_neg hab, if_pos hba.symm]
      rfl
    · rw [if_neg hba, if_neg fun h ↦ hab h.symm, if_neg hab, if_neg fun h ↦ hba h.symm]
      exact ht x y hne

theorem mirrored_foldl {t : RuleTable α} (ht : t.Mirrored) (entries : List (Entry α)) :
    (entries.foldl (fun t e ↦ t.register e.kind e.collide e.a e.b) t).Mirrored := by
  induction entries generalizing t with
  | nil => exact ht
  | cons e entries ih => exact ih (ht.register e.kind e.collide e.a e.b)

theorem mirrored_ofEntries (entries : List (Entry α)) : (ofEntries entries).Mirrored :=
  mirrored_foldl mirrored_empty entries

theorem mirrored_standard [Scalar α] : (standard : RuleTable α).Mirrored :=
  ((((mirrored_empty.register _ _ _ _).register _ _ _ _).register _ _ _ _).register
    _ _ _ _).register _ _ _ _

end RuleTable

/-! ## Exchanging the roles -/

namespace Manifold

variable (m : Manifold α)

theorem mapPoints_mapPoints (f f' : ManifoldPoint α → ManifoldPoint α) :
    (m.mapPoints f).mapPoints f' = m.mapPoints (f' ∘ f) := by
  simp only [mapPoints, Function.comp_apply, mk.injEq, true_and, and_true]
  constructor
  · split <;> rfl
  · split <;> rfl

theorem mapPoints_id : m.mapPoints id = m := by
  simp [mapPoints]

theorem swapFrames_swapFrames : m.swapFrames.swapFrames = m := by
  obtain ⟨kind, normal, point, first, second, count⟩ := m
  cases kind with
  | circles =>
    by_cases h : 0 < count
    · simp only [swapFrames, h, if_true]
    · simp only [swapFrames, h, if_false]
  | faceA => rfl
  | faceB => rfl

/-- Features and frames are exchanged independently. -/
theorem swapFrames_mapPoints_swap :
    (m.mapPoints fun p ↦ { p with id := p.id.swap }).swapFrames =
      m.swapFrames.mapPoints fun p ↦ { p with id := p.id.swap } := by
  obtain ⟨kind, normal, point, first, second, count⟩ := m
  cases kind with
  | circles =>
    by_cases h : 0 < count
    · simp only [swapFrames, mapPoints, h, if_true]
    · simp only [swapFrames, mapPoints, h, if_false]
  | faceA => rfl
  | faceB => rfl

theorem swapRoles_swapRoles : m.swapRoles.swapRoles = m := by
  have hids : (fun p : ManifoldPoint α ↦ { p with id := p.id.swap }) ∘
      (fun p ↦ { p with id := p.id.swap }) = id := rfl
  calc m.swapRoles.swapRoles
    _ = (m.swapFrames.swapFrames.mapPoints _).mapPoints _ := by
      rw [swapRoles, swapRoles, swapFrames_mapPoints_swap]
    _ = m := by rw [swapFrames_swapFrames, mapPoints_mapPoints, hids, mapPoints_id]

theorem isEmpty_swapRoles : m.swapRoles.isEmpty = m.isEmpty := by
  obtain ⟨kind, normal, point, first, second, count⟩ := m
  cases kind with
  | circles =>
    by_cases h : 0 < count
    · simp only [swapRoles, swapFrames, mapPoints, isEmpty, h, if_true]
    · simp only [swapRoles, swapFrames, mapPoints, isEmpty, h, if_false]
  | faceA => rfl
  | faceB => rfl

end Manifold

/-! ## Colliding in either order -/

/-- Shapes of different kinds collide in either order or in none. -/
theorem RuleTable.Mirrored.collide {t : RuleTable α} (ht : t.Mirrored) {a b : Shape α}
    (hne : a.kind ≠ b.kind) (poseA poseB : Pose α) :
    (t.collide a poseA b poseB = .error (.noRule a.kind b.kind) ∧
      t.collide b poseB a poseA = .error (.noRule b.kind a.kind)) ∨
    ∃ m, t.collide a poseA b poseB = .ok m ∧ t.collide b poseB a poseA = .ok m.swapRoles := by
  have hswap := ht _ _ hne
  cases hr : t.rule? a.kind b.kind with
  | none =>
    rw [hr, Option.map_none] at hswap
    refine .inl ⟨?_, ?_⟩
    · simp only [RuleTable.collide, lookup, hr]
      rfl
    · simp only [RuleTable.collide, lookup, hswap]
      rfl
  | some r =>
    obtain ⟨kind, collide, primary⟩ := r
    rw [hr, Option.map_some] at hswap
    refine .inr ?_
    cases primary with
    | true =>
      refine ⟨collide a poseA b poseB, ?_, ?_⟩
      · simp only [RuleTable.collide, lookup, hr]
        rfl
      · simp only [RuleTable.collide, lookup, hswap]
        rfl
    | false =>
      refine ⟨(collide b poseB a poseA).swapRoles, ?_, ?_⟩
      · simp only [RuleTable.collide, lookup, hr]
        rfl
      · rw [Manifold.swapRoles_swapRoles]
        simp only [RuleTable.collide, lookup, hswap]
        rfl

end

/-! ## In the world -/

namespace Vec

variable {a b : Vec ℝ}

theorem midpoint_comm (a b : Vec ℝ) : a.midpoint b = b.midpoint a := by
  simp only [midpoint]
  ext
  · simp only [mul_x, add_x]
    ring
  · simp only [mul_y, add_y]
    ring

theorem normalizeOr_neg (h : 1e-20 ≤ a.normSq) (b : Vec ℝ) :
    (-a).normalizeOr b = -a.normalizeOr b := by
  have hlong : ∀ v : Vec ℝ, 1e-20 ≤ v.normSq →
      v.normalizeOr b = v * (1 / Scalar.sqrt v.normSq) := by
    intro v hv
    have hone : v.normalize? = some (v * (1 / Scalar.sqrt v.normSq)) := by
      simp only [normalize?, not_lt.2 hv]
      rfl
    rw [normalizeOr, hone, Option.getD_some]
  rw [hlong a h, hlong (-a) (by rw [normSq_neg]; exact h), normSq_neg]
  ext
  · simp only [mul_x, neg_x]
    ring
  · simp only [mul_y, neg_y]
    ring

end Vec

/-- The manifold as told of the shapes in the other order. -/
def WorldManifold.mirror {α : Type} [Scalar α] (w : WorldManifold α) : WorldManifold α :=
  ⟨-w.normal, w.points⟩

namespace WorldManifold

theorem mirror_mirror (w : WorldManifold ℝ) : w.mirror.mirror = w := by
  ext <;> simp [mirror]

end WorldManifold

namespace Manifold

variable {m : Manifold ℝ} {t u : Pose ℝ} {r s : ℝ}

theorem inWorld_swapRoles_of_isEmpty (h : m.isEmpty = true) :
    m.swapRoles.inWorld u s t r = (m.inWorld t r u s).mirror := by
  rw [inWorld, if_pos (m.isEmpty_swapRoles.trans h), inWorld, if_pos h]
  ext <;> simp [WorldManifold.mirror]

/-- Along the opposite normal, from the second surface to the first, is the same distance. -/
theorem between_neg (n a b : Vec ℝ) : WorldPoint.between (-n) b a = WorldPoint.between n a b := by
  ext
  · simp only [WorldPoint.between, Vec.midpoint_comm b a]
  · simp only [WorldPoint.between, Vec.midpoint_comm b a]
  · simp only [WorldPoint.between, Vec.dot, Vec.sub_x, Vec.sub_y, Vec.neg_x, Vec.neg_y]
    ring

theorem circlesNormal_swap {a b : Vec ℝ} (h : 1e-10 ≤ a.dist b) :
    circlesNormal b a = -circlesNormal a b := by
  have hsq : (1e-20 : ℝ) ≤ (a - b).normSq := by
    have hle := (Real.le_sqrt' (by norm_num)).1 h
    norm_num at hle ⊢
    exact hle
  have hneg : b - a = -(a - b) := by
    ext <;> simp
  rw [circlesNormal, circlesNormal, hneg, Vec.normalizeOr_neg hsq]
  ext <;> simp

theorem inWorld_swapRoles_of_circles (hk : m.kind = .circles) (hc : m.count = 1)
    (hd : 1e-10 ≤ (t.apply m.localPoint).dist (u.apply m.first.localPoint)) :
    m.swapRoles.inWorld u s t r = (m.inWorld t r u s).mirror := by
  obtain ⟨kind, normal, point, first, second, count⟩ := m
  cases hk
  cases hc
  set a := t.apply point with ha
  set b := u.apply first.localPoint with hb
  set n := circlesNormal a b with hn
  have hswap : circlesNormal b a = -n := circlesNormal_swap hd
  have hb' : b + -n * s = b - n * s := by
    ext <;> simp [sub_eq_add_neg]
  have ha' : a - -n * r = a + n * r := by
    ext <;> simp
  show WorldManifold.mk (circlesNormal b a)
    [.between (circlesNormal b a) (b + circlesNormal b a * s) (a - circlesNormal b a * r)] =
      ⟨-n, [.between n (a + n * r) (b - n * s)]⟩
  rw [hswap, between_neg, hb', ha']

/-- A face of the first shape is one of the second once the roles are exchanged. -/
theorem inWorld_swapRoles_of_faceA (hk : m.kind = .faceA) :
    m.swapRoles.inWorld u s t r = (m.inWorld t r u s).mirror := by
  obtain ⟨kind, normal, point, first, second, count⟩ := m
  cases hk
  set m : Manifold ℝ := ⟨.faceA, normal, point, first, second, count⟩ with hm
  have hpoints : m.swapRoles.points = m.points.map fun p ↦ { p with id := p.id.swap } :=
    points_mapPoints _ _
  by_cases he : m.isEmpty = true
  · exact inWorld_swapRoles_of_isEmpty he
  · rw [inWorld, if_neg (show ¬ m.swapRoles.isEmpty = true from he), inWorld, if_neg he, hpoints]
    show WorldManifold.mk _ _ = WorldManifold.mk _ _
    rw [List.map_map]
    congr 1
    refine List.map_congr_left fun p _ ↦ ?_
    exact WorldPoint.ext (Vec.midpoint_comm _ _) rfl

/-- A face of the second shape is one of the first in the mirror. -/
theorem inWorld_swapRoles_of_faceB (hk : m.kind = .faceB) :
    m.swapRoles.inWorld u s t r = (m.inWorld t r u s).mirror := by
  have hkind : m.swapRoles.kind = .faceA := by
    rw [swapRoles, swapFrames, hk]
    rfl
  have h := inWorld_swapRoles_of_faceA (t := u) (r := s) (u := t) (s := r) hkind
  rw [swapRoles_swapRoles] at h
  rw [h, WorldManifold.mirror_mirror]

end Manifold

/-- **Colliding two shapes in the other order gives the mirrored answer.** Take any table of rules,
entered in any order and over one another, and two shapes of different kinds.  Either they have a
rule in neither order, or each order gives the manifold of the other one with the roles exchanged.
Exchanging the roles twice changes nothing.  And over the real numbers, the manifold with the roles
exchanged tells of the same points and separations, under the opposite normal.  For circles this
takes core points that are far enough apart to have a direction, and at most one active point. -/
theorem collide_mirrored {α : Type} (entries : List (RuleTable.Entry α)) :
    (∀ (a : Shape α) (poseA : Pose α) (b : Shape α) (poseB : Pose α), a.kind ≠ b.kind →
      let t := RuleTable.ofEntries entries
      (t.collide a poseA b poseB = .error (.noRule a.kind b.kind) ∧
        t.collide b poseB a poseA = .error (.noRule b.kind a.kind)) ∨
      ∃ m, t.collide a poseA b poseB = .ok m ∧ t.collide b poseB a poseA = .ok m.swapRoles) ∧
    (∀ m : Manifold α, m.swapRoles.swapRoles = m) ∧
    ∀ (m : Manifold ℝ) (poseA poseB : Pose ℝ) (radiusA radiusB : ℝ),
      (m.kind = .circles → m.count ≤ 1 ∧ (m.count = 1 →
        1e-10 ≤ (poseA.apply m.localPoint).dist (poseB.apply m.first.localPoint))) →
      m.swapRoles.inWorld poseB radiusB poseA radiusA =
        (m.inWorld poseA radiusA poseB radiusB).mirror := by
  refine ⟨?_, Manifold.swapRoles_swapRoles, ?_⟩
  · intro a poseA b poseB hne t
    exact (RuleTable.mirrored_ofEntries entries).collide hne poseA poseB
  · intro m poseA poseB radiusA radiusB hcircles
    cases hk : m.kind with
    | circles =>
      obtain ⟨hle, hd⟩ := hcircles hk
      rcases Nat.le_one_iff_eq_zero_or_eq_one.1 hle with h₀ | h₁
      · have hempty : m.isEmpty = true := by
          rw [Manifold.isEmpty, h₀]
          rfl
        exact Manifold.inWorld_swapRoles_of_isEmpty hempty
      · exact Manifold.inWorld_swapRoles_of_circles hk h₁ (hd h₁)
    | faceA => exact Manifold.inWorld_swapRoles_of_faceA hk
    | faceB => exact Manifold.inWorld_swapRoles_of_faceB hk

/-- Edges and circles, entered in one order and then anew in the other. -/
noncomputable def RuleTable.reentered : List (RuleTable.Entry ℝ) :=
  [⟨.edgeCircle, fun _ _ _ _ ↦ .empty, .circle, .edge⟩,
    ⟨.edgeCircle, PairKind.edgeCircle.collide, .edge, .circle⟩]

/-- A unit circle and an edge under it have a manifold in each order, and two unit circles that
touch do so at the same point. -/
theorem mirrored_circle_edge : (∃ m : Manifold ℝ,
    (RuleTable.ofEntries RuleTable.reentered).collide (.circle ⟨1, 0⟩) .identity
      (.edge ⟨⟨-1, -1⟩, ⟨1, -1⟩⟩) .identity = .ok m ∧
    (RuleTable.ofEntries RuleTable.reentered).collide (.edge ⟨⟨-1, -1⟩, ⟨1, -1⟩⟩) .identity
      (.circle ⟨1, 0⟩) .identity = .ok m.swapRoles ∧ m.swapRoles.swapRoles = m) ∧
    let m : Manifold ℝ := .single .circles 0 0 (.fresh 0 .first)
    m.swapRoles.inWorld ⟨⟨2, 0⟩, 0⟩ 1 .identity 1 =
      (m.inWorld .identity 1 ⟨⟨2, 0⟩, 0⟩ 1).mirror := by
  obtain ⟨hcollide, htwice, hworld⟩ := collide_mirrored RuleTable.reentered
  constructor
  · rcases hcollide (.circle ⟨1, 0⟩) .identity (.edge ⟨⟨-1, -1⟩, ⟨1, -1⟩⟩) .identity
      (by decide) with ⟨herror, -⟩ | ⟨m, hm, hm'⟩
    · cases herror
    · exact ⟨m, hm, hm', htwice m⟩
  · refine hworld _ _ _ 1 1 fun _ ↦ ⟨le_rfl, fun _ ↦ ?_⟩
    show 1e-10 ≤ ((Pose.identity : Pose ℝ).apply 0).dist ((⟨⟨2, 0⟩, 0⟩ : Pose ℝ).apply 0)
    have hsq : ((Pose.identity : Pose ℝ).apply 0 - (⟨⟨2, 0⟩, 0⟩ : Pose ℝ).apply 0).normSq = 4 := by
      norm_num [Pose.identity, Pose.apply, Pose.rotate, Vec.rotate, Vec.normSq, Vec.dot]
    rw [Vec.dist, Vec.norm, hsq]
    exact Real.le_sqrt_of_sq_le (by norm_num)

end PlanarDynamics
