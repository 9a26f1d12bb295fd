import PlanarDynamics.Solver.Constraint

/-!
# Solving for velocities

Sequential impulses: one contact point after the other gets the impulse that makes its relative
velocity right, the impulses of all passes add up, and the sum at a point never pulls and never
exceeds what friction can hold.
-/

namespace PlanarDynamics

variable {α : Type} [Scalar α]

/-- `x` moved between `lo` and `hi`, which must be in order. -/
def clampWithin (lo hi x : α) : Except Fault α :=
  if lo ≤ hi then .ok (Scalar.clamp lo hi x) else .error .clampBounds

namespace Row

/-- Brings the normal velocity to the bias, but does not pull. -/
def solveNormal (c : Constraint α) (r : Row α) (v : Velocity α × Velocity α) :
    Row α × (Velocity α × Velocity α) :=
  let vn := (relativeVelocity r.armA r.armB v).dot c.normal
  let impulse := Scalar.max (r.normalImpulse + -r.normalMass * (vn - r.bias)) 0
  ({ r with normalImpulse := impulse },
    applyImpulse c.a.toSolverBody c.b.toSolverBody r.armA r.armB
      (c.normal * (impulse - r.normalImpulse)) v)

/-- Stops the slip as far as the normal impulse lets friction act. -/
def solveFriction (c : Constraint α) (r : Row α) (v : Velocity α × Velocity α) :
    Except Fault (Row α × (Velocity α × Velocity α)) := do
  let vt := (relativeVelocity r.armA r.armB v).dot c.tangent
  let limit := c.friction * r.normalImpulse
  let impulse ← clampWithin (-limit) limit (r.tangentImpulse + -r.tangentMass * vt)
  return ({ r with tangentImpulse := impulse },
    applyImpulse c.a.toSolverBody c.b.toSolverBody r.armA r.armB
      (c.tangent * (impulse - r.tangentImpulse)) v)

/-- The normal, then friction against the new normal impulse. -/
def solve (c : Constraint α) (r : Row α) (v : Velocity α × Velocity α) :
    Except Fault (Row α × (Velocity α × Velocity α)) :=
  let (r, v) := r.solveNormal c v
  r.solveFriction c v

/-- Applies the impulses that the row starts from. -/
def warmStart (c : Constraint α) (v : Velocity α × Velocity α) (r : Row α) :
    Velocity α × Velocity α :=
  applyImpulse c.a.toSolverBody c.b.toSolverBody r.armA r.armB
    (c.normal * r.normalImpulse + c.tangent * r.tangentImpulse) v

end Row

namespace Constraint

/-- Solves rows one after the other. -/
def solveRows (c : Constraint α) : List (Row α) → Velocity α × Velocity α →
    Except Fault (List (Row α) × (Velocity α × Velocity α))
  | [], v => .ok ([], v)
  | r :: rest, v => do
    let (r, v) ← r.solve c v
    let (rest, v) ← c.solveRows rest v
    return (r :: rest, v)

/-- A constraint whose bodies are not two different ones of the island does nothing. -/
def solveVelocity (c : Constraint α) (vs : Array (Velocity α)) :
    Except Fault (Constraint α × Array (Velocity α)) :=
  match twoOf? vs c.a.place c.b.place with
  | none => .ok (c, vs)
  | some v => do
    let (rows, v) ← c.solveRows c.rows v
    return ({ c with rows }, setTwo vs c.a.place c.b.place v)

def warmStart (vs : Array (Velocity α)) (c : Constraint α) : Array (Velocity α) :=
  match twoOf? vs c.a.place c.b.place with
  | none => vs
  | some v => setTwo vs c.a.place c.b.place (c.rows.foldl (Row.warmStart c) v)

end Constraint

namespace Solver

def warmStart (s : Solver α) (vs : Array (Velocity α)) : Array (Velocity α) :=
  s.constraints.foldl Constraint.warmStart vs

/-- Solves constraints one after the other. -/
def solveConstraints : List (Constraint α) → Array (Velocity α) →
    Except Fault (List (Constraint α) × Array (Velocity α))
  | [], vs => .ok ([], vs)
  | c :: rest, vs => do
    let (c, vs) ← c.solveVelocity vs
    let (rest, vs) ← solveConstraints rest vs
    return (c :: rest, vs)

/-- One pass over all constraints. -/
def velocityPass (s : Solver α) (vs : Array (Velocity α)) :
    Except Fault (Solver α × Array (Velocity α)) := do
  let (constraints, vs) ← solveConstraints s.constraints vs
  return ({ s with constraints }, vs)

def velocityPasses : Nat → Solver α → Array (Velocity α) →
    Except Fault (Solver α × Array (Velocity α))
  | 0, s, vs => .ok (s, vs)
  | n + 1, s, vs => do
    let (s, vs) ← s.velocityPass vs
    velocityPasses n s vs

end Solver

end PlanarDynamics
