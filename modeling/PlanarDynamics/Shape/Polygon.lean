import PlanarDynamics.Error
import PlanarDynamics.Shape.Outline

/-!
# Convex polygons

A polygon is an outline that `Polygon.ofVertices` has accepted: three to eight finite vertices in
counter-clockwise order with a left turn at each.
-/

namespace PlanarDynamics

/-- How a rigid piece of matter resists force and torque. -/
@[ext] structure MassData (α : Type) where
  mass : α
  /-- The center of mass, in local coordinates. -/
  center : Vec α
  /-- The rotational inertia about the local origin. -/
  inertia : α

/-- A polygon has sharp corners: a skin around it, of a width to be added wherever distances from
its sides are compared, would be of width zero for every outline, and is left out. -/
@[ext] structure Polygon (α : Type) extends Outline α where
  three_le_length : 3 ≤ vertices.length
  length_le_eight : vertices.length ≤ 8
  length_normals : normals.length = vertices.length

namespace Polygon

variable {α : Type} [Scalar α]

/-- The signed area within a closed outline, positive if it runs counter-clockwise. -/
def signedArea (vertices : List (Vec α)) : α :=
  (Outline.successive vertices).foldl (fun area (v, w) ↦ area + v.cross w) 0 / 2.0

/-- The unit normal on the right of the way from `v` to `w`. -/
def sideNormal? (v w : Vec α) : Option (Vec α) := ((w - v).crossOut 1).normalize?

/-- The normals of successive sides, numbered from `i`, or the number of the first side too short
to have one. -/
def sideNormals : Nat → List (Vec α × Vec α) → Except Nat (List (Vec α))
  | _, [] => .ok []
  | i, (v, w) :: rest =>
    match sideNormal? v w with
    | none => .error i
    | some n => (sideNormals (i + 1) rest).map (n :: ·)

/-- Whether the way turns left between two successive sides, clearly enough to be a corner. -/
def turnsLeft (e f : Vec α) : Bool := !decide (e.cross f ≤ 1e-12 * e.norm * f.norm)

/-- The first vertex at which the outline does not turn left; the vertex after the first side
comes first. -/
def reflexVertex? (vertices : List (Vec α)) : Option Nat :=
  let sides := (Outline.successive vertices).map fun (v, w) ↦ w - v
  ((Outline.successive sides).zipIdx.find? fun ((e, f), _) ↦ !turnsLeft e f).map fun (_, i) ↦
    (i + 1) % vertices.length

theorem length_of_sideNormals {i : Nat} {ends : List (Vec α × Vec α)} {normals : List (Vec α)}
    (h : sideNormals i ends = .ok normals) : normals.length = ends.length := by
  fun_induction sideNormals i ends generalizing normals with
  | case1 => simp_all
  | case2 => simp at h
  | case3 i v w rest n hn ih =>
    cases hr : sideNormals (i + 1) rest with
    | error => simp [hr, Except.map] at h
    | ok ns =>
      simp only [hr, Except.map, Except.ok.injEq] at h
      simp [← h, ih hr]

/-- The convex polygon with the given vertices, in either order. -/
def ofVertices (vertices : List (Vec α)) : Except Error (Polygon α) :=
  if hcount : ¬ (3 ≤ vertices.length ∧ vertices.length ≤ 8) then
    .error (.degenerate (.vertexCount vertices.length))
  else if vertices.any (!·.isFinite) then
    .error (.degenerate .infiniteVertex)
  else if Scalar.abs (signedArea vertices) < 1e-10 then
    .error (.degenerate .noArea)
  else
    let ordered := if signedArea vertices < 0 then vertices.reverse else vertices
    have hlen : ordered.length = vertices.length := by grind
    match hn : sideNormals 0 (Outline.successive ordered) with
    | .error i => .error (.degenerate (.shortSide i))
    | .ok normals =>
      match reflexVertex? ordered with
      | some i => .error (.degenerate (.reflexVertex i))
      | none => .ok {
          vertices := ordered
          normals
          three_le_length := by omega
          length_le_eight := by omega
          length_normals := by
            rw [length_of_sideNormals hn, Outline.length_successive] }

/-- The box of the given half width and half height about the local origin. -/
def rectangle (halfWidth halfHeight : α) : Except Error (Polygon α) :=
  ofVertices [⟨-halfWidth, -halfHeight⟩, ⟨halfWidth, -halfHeight⟩, ⟨halfWidth, halfHeight⟩,
    ⟨-halfWidth, halfHeight⟩]

def area (p : Polygon α) : α := Scalar.abs (signedArea p.vertices)

/-- The triangles into which the outline falls as seen from its first vertex. -/
def fan : List (Vec α) → List (Vec α × Vec α × Vec α)
  | [] => []
  | v :: vs => (vs.zip vs.tail).map fun (a, b) ↦ (v, a, b)

/-- The center of mass of a uniform polygon. -/
def centroid (p : Polygon α) : Vec α :=
  let (sum, area) := (fan p.vertices).foldl (fun (sum, area) (u, v, w) ↦
    let part := (v - u).cross (w - u) / 2.0
    (sum + (u + v + w) / (3.0 : α) * part, area + part)) ((0 : Vec α), (0 : α))
  sum / area

/-- The second moment of area about the local origin. -/
def secondMoment (p : Polygon α) : α :=
  (Outline.successive p.vertices).foldl
    (fun sum (v, w) ↦ sum + v.cross w * (v.normSq + v.dot w + w.normSq)) 0 / 12.0

def massData (p : Polygon α) (density : α) : MassData α where
  mass := p.area * density
  center := p.centroid
  inertia := p.secondMoment * density

/-- The rotational inertia about the center of mass. -/
def centralInertia (p : Polygon α) (density : α) : α :=
  let m := p.massData density
  Scalar.max (m.inertia - m.mass * m.center.normSq) 0

/-- The vertex furthest along `direction`, the first of several. -/
def support (p : Polygon α) (direction : Vec α) : Vec α :=
  match p.vertices with
  | [] => 0
  | v :: vs => vs.foldl (fun best w ↦ if best.dot direction < w.dot direction then w else best) v

end Polygon

end PlanarDynamics
