import PlanarDynamics.World.Step

/-!
# Runs of a world

All that a caller may do to a world, as data. A run is a list of actions, carried out in order; a
refused action leaves the world as it is, and a fault ends the run.
-/

namespace PlanarDynamics

/-- Something that a caller does to a world. -/
inductive Action (α σ : Type) where
  | addBody (b : Body α)
  | addCollider (b : BodyId) (c : Collider α)
  | setFilter (c : ColliderId) (filter : Filter)
  | setMaterial (c : ColliderId) (material : Material α)
  | setKind (b : BodyId) (kind : BodyKind)
  | editBody (b : BodyId) (f : BodyState α → BodyState α)
  | changeSettings (settings : WorldSettings α)
  | setListener (listener : Option (Listener α σ))
  | step (dt : α)

namespace World

variable {α σ : Type} [Scalar α]

/-- Carries out an action. -/
def act (w : World α σ) : Action α σ → Except Fault (World α σ)
  | .addBody b => .ok (w.addBody b).2
  | .addCollider b c => .ok (((w.addCollider b c).map (·.2)).toOption.getD w)
  | .setFilter c filter => .ok ((w.setFilter c filter).toOption.getD w)
  | .setMaterial c material => .ok ((w.setMaterial c material).toOption.getD w)
  | .setKind b kind => .ok ((w.setKind b kind).toOption.getD w)
  | .editBody b f => .ok (w.editBody b f)
  | .changeSettings settings => .ok (w.changeSettings settings)
  | .setListener listener => .ok (w.setListener listener)
  | .step dt => w.step dt

/-- Carries out actions one after the other. -/
def run (w : World α σ) (actions : List (Action α σ)) : Except Fault (World α σ) :=
  actions.foldlM act w

end World

end PlanarDynamics
