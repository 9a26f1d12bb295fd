import PlanarDynamics.Vec

/-!
# Outlines

A closed outline of straight sides: its vertices in counter-clockwise order, and for each the
outward normal of the side that starts there.
-/

namespace PlanarDynamics

@[ext] structure Outline (α : Type) where
  vertices : List (Vec α)
  normals : List (Vec α)

/-- One side of an outline, with the numbers of its two end vertices. -/
structure Side (α : Type) where
  index : Nat
  next : Nat
  start : Vec α
  stop : Vec α
  normal : Vec α

namespace Outline

/-- Each vertex with the one that follows it, the first after the last. -/
def successive {β : Type} : List β → List (β × β)
  | [] => []
  | v :: vs => (v :: vs).zip (vs ++ [v])

@[simp] theorem length_successive {β : Type} (vs : List β) :
    (successive vs).length = vs.length := by
  cases vs <;> simp [successive]

def sides {α : Type} (o : Outline α) : List (Side α) :=
  ((successive o.vertices).zip o.normals).zipIdx.map fun ((ends, normal), i) ↦
    { index := i, next := (i + 1) % o.vertices.length, start := ends.1, stop := ends.2, normal }

end Outline

namespace Side

variable {α : Type} [Scalar α]

def center (s : Side α) : Vec α := s.start.midpoint s.stop

/-- How far `p` lies outside the line through the side. -/
def separation (s : Side α) (p : Vec α) : α := s.normal.dot (p - s.start)

end Side

end PlanarDynamics
