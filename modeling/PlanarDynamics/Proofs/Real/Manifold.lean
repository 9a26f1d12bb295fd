import PlanarDynamics.Proofs.Real.Plane
import PlanarDynamics.Solver.Position

/-!
# Manifolds over the real numbers

The geometry of a contact is worked out in two places.  Velocities are solved for with the manifold
in the world, which has a point on each of the two surfaces and measures from one to the other.
Positions are corrected with the overlap of one point at a time, which measures between core points
and takes the radii off in the end.  Under a normal of unit length it comes to the same, for each
kind of manifold: `Manifold.overlap_agrees_inWorld`.
-/

namespace PlanarDynamics

/-! ## Finiteness -/

@[simp] theorem WorldManifold.isFinite_real (w : WorldManifold ℝ) : w.isFinite = true := by
  simp [isFinite]

@[simp] theorem Overlap.isFinite_real (o : Overlap ℝ) : o.isFinite = true := by
  simp [isFinite]

/-! ## The two points of a contact -/

/-- Two points that have moved along a unit normal, each towards the other one. -/
theorem Vec.dot_sub_of_normSq {n : Vec ℝ} (hn : n.normSq = 1) (a b : Vec ℝ) (r s : ℝ) :
    ((b - n * s) - (a + n * r)).dot n = (b - a).dot n - r - s := by
  have hsub : ((b - n * s) - (a + n * r)).dot n = (b - a).dot n - n.normSq * (r + s) := by
    simp only [normSq, dot, sub_x, sub_y, add_x, add_y, mul_x, mul_y]
    ring
  rw [hsub, hn]
  ring

namespace Manifold

variable {m : Manifold ℝ} {t u : Pose ℝ} {r s : ℝ}

/-! ## One point -/

theorem normSq_circlesNormal (a b : Vec ℝ) : (circlesNormal a b).normSq = 1 :=
  Vec.normSq_normalizeOr (by simp [Vec.normSq, Vec.dot, Vec.right])

/-- Core points that coincide, or nearly so, have no direction. -/
theorem circlesNormal_of_lt {a b : Vec ℝ} (h : b.distSq a < 1e-20) :
    circlesNormal a b = .right := by
  rw [Vec.distSq] at h
  simp [circlesNormal, Vec.normalizeOr, Vec.normalize?, h]

/-- Core points that are far enough apart to have a direction. -/
theorem overlap_of_far (hk : m.kind = .circles)
    (h : 1e-10 ≤ (u.apply m.first.localPoint).dist (t.apply m.localPoint)) (p : ManifoldPoint ℝ)
    (r s : ℝ) : ∃ n : Vec ℝ, n.normSq = 1 ∧
      u.apply m.first.localPoint - t.apply m.localPoint =
        n * (u.apply m.first.localPoint).dist (t.apply m.localPoint) ∧
      m.overlap p t r u s = ⟨n, (t.apply m.localPoint).midpoint (u.apply m.first.localPoint),
        (u.apply m.first.localPoint).dist (t.apply m.localPoint) - r - s⟩ := by
  have hunit := normSq_circlesNormal (t.apply m.localPoint) (u.apply m.first.localPoint)
  have hway := Vec.eq_normalizeOr_mul h .right
  refine ⟨_, hunit, hway, ?_⟩
  rw [overlap, hk]
  exact Overlap.ext rfl rfl (congrArg (· - r - s) (Vec.dot_eq_of_eq_mul hunit hway))

/-- The surfaces are as far apart as the core point is from the plane, less the radii. -/
theorem dot_facePoints {n : Vec ℝ} (hn : n.normSq = 1) (plane p : Vec ℝ) (r s : ℝ) :
    ((facePoints n plane r p s).2 - (facePoints n plane r p s).1).dot n =
      (p - plane).dot n - r - s := by
  have hpoint : (p - p).dot n = 0 := by simp [Vec.dot]
  rw [facePoints, Vec.dot_sub_of_normSq hn, hpoint]
  ring

/-! ## All points -/

/-- The overlap of each point has the normal and the separation of the manifold in the world. -/
structure Agrees (m : Manifold ℝ) (t : Pose ℝ) (r : ℝ) (u : Pose ℝ) (s : ℝ) : Prop where
  normal : ∀ p ∈ m.points, (m.overlap p t r u s).normal = (m.inWorld t r u s).normal
  separations : (m.inWorld t r u s).points.map WorldPoint.separation =
    m.points.map fun p ↦ (m.overlap p t r u s).separation

theorem agrees_of_circles (hk : m.kind = .circles) (hc : m.count = 1) : m.Agrees t r u s := by
  obtain ⟨kind, normal, point, first, second, count⟩ := m
  cases hk
  cases hc
  refine ⟨fun p _ ↦ rfl, ?_⟩
  exact congrArg (fun x ↦ [x]) (Vec.dot_sub_of_normSq (normSq_circlesNormal _ _) _ _ r s)

theorem agrees_of_faceA (hk : m.kind = .faceA) (hn : m.localNormal.normSq = 1)
    (hne : m.isEmpty = false) : m.Agrees t r u s := by
  have hunit : (t.rotate m.localNormal).normSq = 1 := (Vec.normSq_rotate _ _).trans hn
  constructor
  · intro p _
    simp only [overlap, inWorld, hne, hk, Bool.false_eq_true, if_false]
  · simp only [overlap, inWorld, hne, hk, Bool.false_eq_true, if_false, List.map_map]
    exact List.map_congr_left fun p _ ↦ dot_facePoints hunit _ _ r s

/-- The normal is that of a face of B, and both turn it around. -/
theorem agrees_of_faceB (hk : m.kind = .faceB) (hn : m.localNormal.normSq = 1)
    (hne : m.isEmpty = false) : m.Agrees t r u s := by
  have hunit : (u.rotate m.localNormal).normSq = 1 := (Vec.normSq_rotate _ _).trans hn
  constructor
  · intro p _
    simp only [overlap, inWorld, hne, hk, Bool.false_eq_true, if_false]
  · simp only [overlap, inWorld, hne, hk, Bool.false_eq_true, if_false, List.map_map]
    refine List.map_congr_left fun p _ ↦ (dot_facePoints hunit _ _ s r).trans ?_
    exact sub_right_comm _ s r

theorem isEmpty_eq_false_of_mem {p : ManifoldPoint ℝ} (hp : p ∈ m.points) : m.isEmpty = false := by
  rw [isEmpty, beq_eq_false_iff_ne]
  intro hc
  rw [points, hc, List.take_zero] at hp
  cases hp

/-- **Velocities and positions are solved for with the same geometry.**  Whatever the poses and the
radii are, each active point has the same normal and the same separation in the position pass as in
the world.  This includes the fallback for core points without a direction. -/
theorem overlap_agrees_inWorld (hcircles : m.kind = .circles → m.count ≤ 1)
    (hfaces : m.kind ≠ .circles → m.localNormal.normSq = 1) (t : Pose ℝ) (r : ℝ) (u : Pose ℝ)
    (s : ℝ) {j : Nat} {p : ManifoldPoint ℝ} (hj : m.points[j]? = some p) :
    (∃ w, (m.inWorld t r u s).points[j]? = some w ∧
      (m.overlap p t r u s).separation = w.separation) ∧
    (m.overlap p t r u s).normal = (m.inWorld t r u s).normal ∧
    (m.kind = .circles → (u.apply m.first.localPoint).distSq (t.apply m.localPoint) < 1e-20 →
      (m.inWorld t r u s).normal = .right) := by
  have hmem := List.mem_of_getElem? hj
  have hne := isEmpty_eq_false_of_mem hmem
  have hagrees : m.Agrees t r u s := by
    cases hk : m.kind with
    | circles =>
      have hpos : m.count ≠ 0 := by rwa [isEmpty, beq_eq_false_iff_ne] at hne
      exact agrees_of_circles hk (Nat.le_antisymm (hcircles hk) (Nat.pos_of_ne_zero hpos))
    | faceA => exact agrees_of_faceA hk (hfaces (by simp [hk])) hne
    | faceB => exact agrees_of_faceB hk (hfaces (by simp [hk])) hne
  refine ⟨?_, hagrees.normal p hmem, fun hk hnear ↦ ?_⟩
  · have hsep := congrArg (·[j]?) hagrees.separations
    simp only [List.getElem?_map, hj, Option.map_some] at hsep
    obtain ⟨w, hw, he⟩ := Option.map_eq_some_iff.1 hsep
    exact ⟨w, hw, he.symm⟩
  · rw [← hagrees.normal p hmem, overlap, hk]
    exact circlesNormal_of_lt hnear

/-- The second of two points below a slanting face of the second shape, and two circles in one
place. -/
theorem slanting_agrees_inWorld :
    let m : Manifold ℝ := ((withoutPoints .faceB ⟨3 / 5, 4 / 5⟩ ⟨1, 0⟩).push (.fresh 0 .first)).push
      (.fresh ⟨0, 1⟩ .first)
    let c : Manifold ℝ := .single .circles 0 0 (.fresh 0 .first)
    (∃ w, (m.inWorld .identity 1 ⟨⟨1, 1⟩, 1⟩ 1).points[1]? = some w ∧
      (m.overlap (.fresh ⟨0, 1⟩ .first) .identity 1 ⟨⟨1, 1⟩, 1⟩ 1).separation = w.separation) ∧
    (m.overlap (.fresh ⟨0, 1⟩ .first) .identity 1 ⟨⟨1, 1⟩, 1⟩ 1).normal =
      (m.inWorld .identity 1 ⟨⟨1, 1⟩, 1⟩ 1).normal ∧
    (c.overlap (.fresh 0 .first) .identity 1 .identity 1).normal = .right ∧
    (c.inWorld .identity 1 .identity 1).normal = .right := by
  intro m c
  have hunit : m.localNormal.normSq = 1 := by
    show (⟨3 / 5, 4 / 5⟩ : Vec ℝ).normSq = 1
    norm_num [Vec.normSq, Vec.dot]
  have hplace : ((Pose.identity : Pose ℝ).apply 0).distSq ((Pose.identity : Pose ℝ).apply 0) <
      1e-20 := by
    norm_num [Vec.distSq, Vec.normSq, Vec.dot]
  have hface : m.kind ≠ .circles := by decide
  obtain ⟨hsep, hnormal, -⟩ := overlap_agrees_inWorld (m := m) (j := 1) (fun h ↦ (hface h).elim)
    (fun _ ↦ hunit) .identity 1 ⟨⟨1, 1⟩, 1⟩ 1 rfl
  obtain ⟨-, hsame, hright⟩ := overlap_agrees_inWorld (m := c) (j := 0) (fun _ ↦ Nat.le_refl 1)
    (fun h ↦ (h rfl).elim) .identity 1 .identity 1 rfl
  exact ⟨hsep, hnormal, hsame.trans (hright rfl hplace), hright rfl hplace⟩

end Manifold

end PlanarDynamics
