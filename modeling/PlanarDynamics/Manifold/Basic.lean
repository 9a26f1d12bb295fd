import PlanarDynamics.Error
import PlanarDynamics.Manifold.Feature
import PlanarDynamics.Vec

/-!
# Contact manifolds

A manifold holds the places where two shapes touch, in local coordinates so that it stays valid
while they move, and for each place the impulses that the solver has built up there.

There is room for two points, of which the first `count` are active.
-/

namespace PlanarDynamics

/-- How the local data of a manifold is meant. -/
inductive ManifoldKind where
  /-- `localPoint` is the core point of shape A, and the point that of shape B. -/
  | circles
  /-- The normal and plane of a face of A, in A's frame; the points are in B's frame. -/
  | faceA
  /-- The normal and plane of a face of B, in B's frame; the points are in A's frame. -/
  | faceB
deriving DecidableEq, Repr

def ManifoldKind.name : ManifoldKind → String
  | circles => "Circles"
  | faceA => "FaceA"
  | faceB => "FaceB"

def ManifoldKind.ofName? (s : String) : Option ManifoldKind :=
  [circles, faceA, faceB].find? (·.name = s)

@[ext] structure ManifoldPoint (α : Type) where
  localPoint : Vec α
  normalImpulse : α
  tangentImpulse : α
  id : FeaturePair

@[ext] structure Manifold (α : Type) where
  kind : ManifoldKind
  localNormal : Vec α
  localPoint : Vec α
  first : ManifoldPoint α
  second : ManifoldPoint α
  /-- How many points are active. A value above two stands for two. -/
  count : Nat

variable {α : Type} [Scalar α]

namespace ManifoldPoint

/-- A point on which no impulse has acted yet. -/
def fresh (localPoint : Vec α) (id : FeaturePair) : ManifoldPoint α := ⟨localPoint, 0, 0, id⟩

def setImpulses (p : ManifoldPoint α) (normal tangent : α) : ManifoldPoint α :=
  { p with normalImpulse := normal, tangentImpulse := tangent }

end ManifoldPoint

namespace Manifold

/-- A manifold without points. -/
def withoutPoints (kind : ManifoldKind) (localNormal localPoint : Vec α) : Manifold α where
  kind := kind
  localNormal := localNormal
  localPoint := localPoint
  first := .fresh 0 .first
  second := .fresh 0 .first
  count := 0

/-- The manifold of shapes that do not touch. -/
def empty : Manifold α := withoutPoints .circles 0 0

def isEmpty (m : Manifold α) : Bool := m.count == 0

/-- The active points. -/
def points (m : Manifold α) : List (ManifoldPoint α) := [m.first, m.second].take m.count

/-- Changes the active points. -/
def mapPoints (f : ManifoldPoint α → ManifoldPoint α) (m : Manifold α) : Manifold α :=
  { m with
    first := if 0 < m.count then f m.first else m.first
    second := if 1 < m.count then f m.second else m.second }

omit [Scalar α] in
@[simp] theorem points_mapPoints (f : ManifoldPoint α → ManifoldPoint α) (m : Manifold α) :
    (m.mapPoints f).points = m.points.map f := by
  match h : m.count with
  | 0 => simp [points, mapPoints, h]
  | 1 => simp [points, mapPoints, h]
  | n + 2 => simp [points, mapPoints, h]

/-- The manifold with one more active point, if there is room. -/
def push? (m : Manifold α) (p : ManifoldPoint α) : Option (Manifold α) :=
  match m.count with
  | 0 => some { m with first := p, count := 1 }
  | 1 => some { m with second := p, count := 2 }
  | _ => none

/-- Adds a point; a full manifold stays as it is. -/
def push (m : Manifold α) (p : ManifoldPoint α) : Manifold α := (m.push? p).getD m

/-- The manifold with one point. -/
def single (kind : ManifoldKind) (localNormal localPoint : Vec α) (p : ManifoldPoint α) :
    Manifold α := (withoutPoints kind localNormal localPoint).push p

/-- Overwrites one of the two points, active or not. -/
def setPoint (m : Manifold α) (i : Nat) (p : ManifoldPoint α) : Except Fault (Manifold α) :=
  match i with
  | 0 => .ok { m with first := p }
  | 1 => .ok { m with second := p }
  | _ => .error .outOfRange

/-- The active point with the given features. -/
def find? (m : Manifold α) (id : FeaturePair) : Option (ManifoldPoint α) :=
  m.points.find? (·.id = id)

def clearImpulses (m : Manifold α) : Manifold α := m.mapPoints (·.setImpulses 0 0)

/-- A point with the impulses of the point with the same features in `old`, or none. -/
def inherit (old : Manifold α) (p : ManifoldPoint α) : ManifoldPoint α :=
  match old.find? p.id with
  | some q => p.setImpulses q.normalImpulse q.tangentImpulse
  | none => p.setImpulses 0 0

/-- Gives the active points the impulses of the points with the same features in `old`. -/
def carryFrom (m old : Manifold α) : Manifold α := m.mapPoints old.inherit

/-- How many active points have their features in `old`. -/
def carriedCount (m old : Manifold α) : Nat := m.points.countP fun p ↦ (old.find? p.id).isSome

/-- Exchanges the frames of the two shapes, and leaves the features. -/
def swapFrames (m : Manifold α) : Manifold α :=
  match m.kind with
  | .circles =>
    if 0 < m.count then
      { m with
        localPoint := m.first.localPoint
        first := { m.first with localPoint := m.localPoint } }
    else m
  | .faceA => { m with kind := .faceB }
  | .faceB => { m with kind := .faceA }

/-- The manifold of the same two shapes in the other order. -/
def swapRoles (m : Manifold α) : Manifold α :=
  m.swapFrames.mapPoints fun p ↦ { p with id := p.id.swap }

end Manifold

end PlanarDynamics
