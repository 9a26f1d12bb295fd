import PlanarDynamics.Solver.Velocity

/-!
# Correcting positions

Overlap that velocities have not removed is taken out by moving bodies apart, one contact point
after the other, each as the ones before it have left the bodies.
-/

namespace PlanarDynamics

variable {α : Type} [Scalar α]

/-- A contact point as the position pass sees it. -/
@[ext] structure Overlap (α : Type) where
  /-- The normal from A to B. -/
  normal : Vec α
  point : Vec α
  separation : α

def Overlap.isFinite (o : Overlap α) : Bool :=
  o.normal.isFinite && o.point.isFinite && Scalar.isFinite o.separation

/-- A point of a manifold under the poses of its shapes. -/
def Manifold.overlap (m : Manifold α) (p : ManifoldPoint α) (poseA : Pose α) (radiusA : α)
    (poseB : Pose α) (radiusB : α) : Overlap α :=
  match m.kind with
  | .circles =>
    let a := poseA.apply m.localPoint
    let b := poseB.apply m.first.localPoint
    let n := circlesNormal a b
    ⟨n, a.midpoint b, (b - a).dot n - radiusA - radiusB⟩
  | .faceA =>
    let n := poseA.rotate m.localNormal
    let q := poseB.apply p.localPoint
    ⟨n, q, (q - poseA.apply m.localPoint).dot n - radiusA - radiusB⟩
  | .faceB =>
    let n := poseB.rotate m.localNormal
    let q := poseA.apply p.localPoint
    ⟨-n, q, (q - poseB.apply m.localPoint).dot n - radiusA - radiusB⟩

/-- The placements of two bodies, and the least separation met so far. -/
structure Correction (α : Type) where
  a : Placement α
  b : Placement α
  least : α

namespace Constraint

/-- How far a pass is to move the surfaces together: a negative amount moves them apart. -/
def correction (s : SolverSettings α) (separation : α) : Except Fault α :=
  clampWithin (-s.maxLinearCorrection) 0 (s.baumgarte * (separation + s.linearSlop))

/-- The impulse along the normal that brings about a correction. -/
def correctionImpulse (c : Constraint α) (armA armB normal : Vec α) (amount : α) : α :=
  let k := resistance c.a.toSolverBody c.b.toSolverBody armA armB normal
  if 0 < k then -amount / k else 0

/-- Corrects one point. A point that is not finite is passed over. -/
def correctPoint (s : SolverSettings α) (c : Constraint α) (st : Correction α)
    (p : ManifoldPoint α) : Except Fault (Correction α) :=
  let o := c.manifold.overlap p (c.a.pose st.a) c.a.radius (c.b.pose st.b) c.b.radius
  if o.isFinite then do
    let armA := o.point - st.a.center
    let armB := o.point - st.b.center
    let amount ← correction s o.separation
    let p := o.normal * c.correctionImpulse armA armB o.normal amount
    return {
      a := ⟨st.a.center - p * c.a.invMass, st.a.angle - c.a.invInertia * armA.cross p⟩
      b := ⟨st.b.center + p * c.b.invMass, st.b.angle + c.b.invInertia * armB.cross p⟩
      least := Scalar.min st.least o.separation }
  else .ok st

/-- Corrects the points of a constraint; keeps the least separation with the placements. -/
def correct (s : SolverSettings α) (st : Array (Placement α) × α) (c : Constraint α) :
    Except Fault (Array (Placement α) × α) :=
  match twoOf? st.1 c.a.place c.b.place with
  | none => .ok st
  | some (a, b) => do
    let r ← c.manifold.points.foldlM (correctPoint s c) ⟨a, b, st.2⟩
    return (setTwo st.1 c.a.place c.b.place (r.a, r.b), r.least)

end Constraint

namespace Solver

/-- One pass over all constraints. It says whether no overlap deeper than three times the slop was
met. -/
def positionPass (s : Solver α) (ps : Array (Placement α)) :
    Except Fault (Array (Placement α) × Bool) := do
  let (ps, least) ← s.constraints.foldlM (Constraint.correct s.step.settings) (ps, 0)
  return (ps, decide (-3.0 * s.step.settings.linearSlop ≤ least))

/-- Passes until one is satisfied, at most `n`. -/
def positionPasses : Nat → Solver α → Array (Placement α) →
    Except Fault (Array (Placement α) × Bool)
  | 0, _, ps => .ok (ps, false)
  | n + 1, s, ps => do
    let (ps, solved) ← s.positionPass ps
    if solved then return (ps, true) else positionPasses n s ps

end Solver

end PlanarDynamics
