import PlanarDynamics.Error
import PlanarDynamics.Manifold.Basic

/-!
# Contact impulses

What the solver applied at the points of a contact in one step.
-/

namespace PlanarDynamics

@[ext] structure PointImpulse (α : Type) where
  normal : α
  tangent : α

/-- The impulses at up to two points, of which the first `count` count. -/
@[ext] structure ContactImpulse (α : Type) where
  first : PointImpulse α
  second : PointImpulse α
  count : Nat

variable {α : Type} [Scalar α]

namespace ContactImpulse

/-- The impulses at the given points, of which there are at most two. -/
def ofPoints : List (PointImpulse α) → ContactImpulse α
  | [] => ⟨⟨0, 0⟩, ⟨0, 0⟩, 0⟩
  | [p] => ⟨p, ⟨0, 0⟩, 1⟩
  | p :: q :: _ => ⟨p, q, 2⟩

def points (i : ContactImpulse α) : List (PointImpulse α) := [i.first, i.second].take i.count

/-- The sum of the normal impulses. -/
def normalSum (i : ContactImpulse α) : α := i.points.foldl (fun sum p ↦ sum + p.normal) 0

/-- The sum of the normal impulses, if there are as many as `count` says. -/
def totalNormal (i : ContactImpulse α) : Except Fault α :=
  if i.count ≤ 2 then .ok i.normalSum else .error .outOfRange

end ContactImpulse

/-- The manifold with the given impulses at its active points, as far as there are any. -/
def Manifold.writeImpulses (m : Manifold α) (i : ContactImpulse α) : Manifold α :=
  let write (n : Nat) (imp : PointImpulse α) (p : ManifoldPoint α) : ManifoldPoint α :=
    if n < m.count ∧ n < i.count then p.setImpulses imp.normal imp.tangent else p
  { m with first := write 0 i.first m.first, second := write 1 i.second m.second }

end PlanarDynamics
