import PlanarDynamics.Box
import PlanarDynamics.Proximity.Pair
import Std.Data.HashMap
import Std.Data.TreeMap

/-!
# The proximity grid

Which colliders come near each other. Each has a box in the grid, kept larger than asked for so
that it holds while the collider moves a little. Boxes are sorted into the cells of a uniform grid
that they reach, and only boxes that share a cell are compared.

An update reports the changes to the set of overlapping pairs since the update before.
-/

namespace PlanarDynamics

inductive PairEvent where
  | ends (p : Pair)
  | begins (p : Pair)
deriving DecidableEq, Repr

structure Cell where
  column : Int
  row : Int
deriving DecidableEq, Repr, Hashable

structure Grid (α : Type) where
  /-- One over the width of a cell. -/
  scale : α
  margin : α
  boxes : Std.TreeMap ColliderId (Box α)
  /-- The pairs as of the last update. -/
  pairs : PairSet

namespace Grid

variable {α : Type} [Scalar α]

/-- A grid without boxes. A negative margin counts as none. -/
def ofCellSize (cellSize margin : α) : Except Fault (Grid α) :=
  if 0 < cellSize then
    .ok { scale := 1 / cellSize, margin := Scalar.max margin 0, boxes := ∅, pairs := .empty }
  else .error .cellSize

/-- The grown box of a collider. -/
def box? (g : Grid α) (c : ColliderId) : Option (Box α) := g.boxes[c]?

/-- Whether the box of `c` no longer covers `tight`. -/
def outgrown (g : Grid α) (c : ColliderId) (tight : Box α) : Bool :=
  !(g.box? c).any (·.contains tight)

/-- Makes the box of `c` cover `tight`. One that does stays. -/
def update (g : Grid α) (c : ColliderId) (tight : Box α) : Grid α :=
  if g.outgrown c tight then { g with boxes := g.boxes.insert c (tight.grow g.margin) } else g

/-- Takes the box of `c` out. Its pairs end with the next update. -/
def remove (g : Grid α) (c : ColliderId) : Grid α := { g with boxes := g.boxes.erase c }

/-- Forgets the pairs of `c`, so that those that still overlap begin anew. -/
def touch (g : Grid α) (c : ColliderId) : Grid α :=
  { g with pairs := g.pairs.filter (!·.contains c) }

/-- The integers from `lo` to `hi`. -/
def span (lo hi : Int) : List Int := (List.range (hi - lo + 1).toNat).map fun i ↦ lo + (i : Nat)

def cellAt (g : Grid α) (p : Vec α) : Cell :=
  ⟨Scalar.cell (p.x * g.scale), Scalar.cell (p.y * g.scale)⟩

/-- The cells that a box reaches. -/
def cellsOf (g : Grid α) (b : Box α) : List Cell :=
  let lower := g.cellAt b.lower
  let upper := g.cellAt b.upper
  (span lower.row upper.row).flatMap fun row ↦
    (span lower.column upper.column).map fun column ↦ ⟨column, row⟩

/-- The boxes that reach each cell. -/
def buckets (g : Grid α) : Std.HashMap Cell (List (ColliderId × Box α)) :=
  g.boxes.toList.foldl (fun cells entry ↦
    (g.cellsOf entry.2).foldl (fun cells cell ↦
      cells.alter cell fun bucket ↦ some (entry :: bucket.getD [])) cells) ∅

/-- Each two entries of a list. -/
def couples {β : Type} : List β → List (β × β)
  | [] => []
  | x :: xs => xs.map (x, ·) ++ couples xs

/-- The pairs of colliders whose boxes share a cell and overlap. -/
def overlapping (g : Grid α) : PairSet :=
  .ofList <| g.buckets.toList.flatMap fun (_, bucket) ↦
    (couples bucket).filterMap fun ((c, b), (c', b')) ↦
      if b.overlaps b' then some (.of c c') else none

/-- Brings the pairs up to date. First those that ended are reported, then those that began, each
in ascending order. -/
def updatePairs (g : Grid α) : List PairEvent × Grid α :=
  let current := g.overlapping
  ((g.pairs.diff current).toList.map .ends ++ (current.diff g.pairs).toList.map .begins,
    { g with pairs := current })

end Grid

end PlanarDynamics
