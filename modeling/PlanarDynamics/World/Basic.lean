import PlanarDynamics.Body.Motion
import PlanarDynamics.Contact.Registry
import PlanarDynamics.Proximity.Grid
import PlanarDynamics.World.Listener

/-!
# Worlds

A world holds bodies and their colliders, knows which colliders are near each other, and keeps
their contacts. This module makes changes between steps.
-/

namespace PlanarDynamics

structure World (α σ : Type) where
  bodies : Array (Body α)
  colliders : Array (Collider α)
  contacts : Registry α
  grid : Grid α
  settings : WorldSettings α
  listener : Option (Listener α σ)
  /-- The length of the last step; zero before the first. -/
  previousDt : α

namespace World

variable {α σ : Type} [Scalar α]

/-- An empty world. The mixing of materials and the size of the grid's cells stay as set here. -/
def ofSettings (s : WorldSettings α) : Except Fault (World α σ) := do
  let grid ← Grid.ofCellSize s.cellSize s.boxMargin
  return {
    bodies := #[], colliders := #[], contacts := .ofSettings s, grid, settings := s
    listener := none, previousDt := 0 }

/-- Whether two colliders may touch: they are on different bodies, one of them dynamic, and their
filters accept each other. -/
def mayTouch (w : World α σ) (a b : ColliderId) : Bool :=
  (do
    let ca ← w.colliders[a]?
    let cb ← w.colliders[b]?
    let i ← ca.body
    let j ← cb.body
    let x ← w.bodies[i]?
    let y ← w.bodies[j]?
    return i != j && (x.isDynamic || y.isDynamic) && ca.filter.accepts cb.filter).getD false

/-- Brings the box of a collider up to date. A collider without finite bounds has none. -/
def syncBox (w : World α σ) (i : ColliderId) (c : Collider α) : Grid α :=
  match c.body.bind (w.bodies[·]?) with
  | none => w.grid.remove i
  | some b =>
    let bounds := c.shape.bounds b.pose
    if bounds.isFinite then w.grid.update i bounds else w.grid.remove i

/-- Makes a body consist of its colliders. -/
def refreshMass (w : World α σ) (b : BodyId) : World α σ :=
  { w with bodies := w.bodies.modify b fun body ↦
      body.resetMass (body.colliders.filterMap fun c ↦ w.colliders[c]?.map (·.massData)) }

/-- Has all contacts of a collider checked again, and its pairs begin anew. -/
def recheck (w : World α σ) (c : ColliderId) : World α σ :=
  { w with
    contacts := (w.contacts.contactsOf c).foldl (fun r h ↦ r.modify h .flag) w.contacts
    grid := w.grid.touch c }

/-- Adds a body, without the colliders that it may have elsewhere. -/
def addBody (w : World α σ) (b : Body α) : BodyId × World α σ :=
  (w.bodies.size, { w with bodies := w.bodies.push { b with colliders := [] } })

/-- Attaches a collider to a body. -/
def addCollider (w : World α σ) (b : BodyId) (c : Collider α) :
    Except Error (ColliderId × World α σ) :=
  if b < w.bodies.size then
    let i := w.colliders.size
    let c := { c with body := some b }
    let w := { w with
      grid := w.syncBox i c
      colliders := w.colliders.push c
      bodies := w.bodies.modify b fun body ↦ { body with colliders := body.colliders ++ [i] } }
    .ok (i, w.refreshMass b)
  else .error (.noBody b)

/-- Changes which colliders a collider may touch, with effect from the next step. -/
def setFilter (w : World α σ) (i : ColliderId) (filter : Filter) : Except Error (World α σ) :=
  if i < w.colliders.size then
    .ok ({ w with colliders := w.colliders.modify i ({ · with filter }) }.recheck i)
  else .error (.noCollider i)

/-- Changes the material of a collider. Its contacts and the mass of its body follow. -/
def setMaterial (w : World α σ) (i : ColliderId) (material : Material α) :
    Except Error (World α σ) :=
  match w.colliders[i]? with
  | none => .error (.noCollider i)
  | some c => do
    let colliders := w.colliders.modify i ({ · with material })
    let contacts ← (w.contacts.contactsOf i).foldlM (·.remix · colliders) w.contacts
    let w := { w with colliders, contacts }
    return match c.body with
      | some b => w.refreshMass b
      | none => w

/-- Changes the kind of a body. Its mass and all its contacts follow. -/
def setKind (w : World α σ) (i : BodyId) (kind : BodyKind) : Except Error (World α σ) :=
  match w.bodies[i]? with
  | none => .error (.noBody i)
  | some b =>
    if b.kind = kind then .ok w
    else
      let w := { w with bodies := w.bodies.modify i (·.changeKind kind) }.refreshMass i
      .ok (b.colliders.foldl recheck w)

/-- Changes what a caller may change of a body. -/
def editBody (w : World α σ) (i : BodyId) (f : BodyState α → BodyState α) : World α σ :=
  { w with bodies := w.bodies.modify i fun b ↦ { b with toBodyState := f b.toBodyState } }

/-- Changes the settings. Gravity and the solver follow from the next step on; what was fixed with
the world stays. -/
def changeSettings (w : World α σ) (settings : WorldSettings α) : World α σ := { w with settings }

def setListener (w : World α σ) (listener : Option (Listener α σ)) : World α σ :=
  { w with listener }

end World

end PlanarDynamics
