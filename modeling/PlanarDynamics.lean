import PlanarDynamics.Body.Basic
import PlanarDynamics.Body.Collider
import PlanarDynamics.Body.Motion
import PlanarDynamics.Box
import PlanarDynamics.Collision.Convex
import PlanarDynamics.Collision.Round
import PlanarDynamics.Collision.Rule
import PlanarDynamics.Contact.Basic
import PlanarDynamics.Contact.Impulse
import PlanarDynamics.Contact.Listing
import PlanarDynamics.Contact.Registry
import PlanarDynamics.Error
import PlanarDynamics.Manifold.Basic
import PlanarDynamics.Manifold.Feature
import PlanarDynamics.Manifold.World
import PlanarDynamics.Material
import PlanarDynamics.Pose
import PlanarDynamics.Proximity.Grid
import PlanarDynamics.Proximity.Pair
import PlanarDynamics.Scalar
import PlanarDynamics.Scalar.Binary64
import PlanarDynamics.Scalar.Decimal
import PlanarDynamics.Settings
import PlanarDynamics.Shape.Basic
import PlanarDynamics.Shape.Circle
import PlanarDynamics.Shape.Edge
import PlanarDynamics.Shape.Kind
import PlanarDynamics.Shape.Outline
import PlanarDynamics.Shape.Polygon
import PlanarDynamics.Solver.Constraint
import PlanarDynamics.Solver.Island
import PlanarDynamics.Solver.Position
import PlanarDynamics.Solver.Velocity
import PlanarDynamics.Vec
import PlanarDynamics.World.Basic
import PlanarDynamics.World.Listener
import PlanarDynamics.World.Run
import PlanarDynamics.World.Step
import PlanarDynamics.Proofs.Proximity.Overlap
import PlanarDynamics.Proofs.Proximity.Run
import PlanarDynamics.Proofs.Registry.View
import PlanarDynamics.Proofs.Registry.Run
import PlanarDynamics.Proofs.Registry.Generation
import PlanarDynamics.Proofs.Registry.Ledger
import PlanarDynamics.Proofs.Solver.Partition
import PlanarDynamics.Proofs.Solver.Solution
import PlanarDynamics.Proofs.Solver.Coasting
import PlanarDynamics.Proofs.World.Basic
import PlanarDynamics.Proofs.World.Edit
import PlanarDynamics.Proofs.World.Pairing
import PlanarDynamics.Proofs.World.Renewal
import PlanarDynamics.Proofs.World.Reachable
import PlanarDynamics.Proofs.World.Lifecycle
import PlanarDynamics.Proofs.World.Notification
import PlanarDynamics.Proofs.Real.Outline
import PlanarDynamics.Proofs.Real.Bounds
import PlanarDynamics.Proofs.Real.Incident
import PlanarDynamics.Proofs.Real.Collision
import PlanarDynamics.Proofs.Real.Overlap
import PlanarDynamics.Proofs.Real.Region
import PlanarDynamics.Proofs.Real.Round
import PlanarDynamics.Proofs.Real.Turning
import PlanarDynamics.Proofs.World.Transparency
import PlanarDynamics.Proofs.World.Sensor
import PlanarDynamics.Proofs.Real.Solver
import PlanarDynamics.Proofs.Registry.Reachable
import PlanarDynamics.Proofs.World.Commit
import PlanarDynamics.Proofs.Solver.Whole
import PlanarDynamics.Proofs.World.Audit
import PlanarDynamics.Proofs.World.Requests
import PlanarDynamics.Proofs.World.Solid
import PlanarDynamics.Proofs.World.Solving
import PlanarDynamics.Proofs.Registry.InPlace
import PlanarDynamics.Proofs.World.InPlace
import PlanarDynamics.Proofs.World.Onlooker
import PlanarDynamics.Proofs.World.Motion
import PlanarDynamics.Proofs.World.References
import PlanarDynamics.Proofs.Solver.Checked
import PlanarDynamics.Proofs.World.Checked
import PlanarDynamics.Proofs.World.Derived
import PlanarDynamics.Proofs.Collision.Mirror
import PlanarDynamics.Proofs.Proximity.Replay
import PlanarDynamics.Proofs.Collision.Invariance
import PlanarDynamics.Proofs.Solver.Cone
import PlanarDynamics.Proofs.Solver.Momentum
import PlanarDynamics.Proofs.Registry.State
import PlanarDynamics.Proofs.World.State
import PlanarDynamics.Proofs.Collision.Cut
import PlanarDynamics.Proofs.Collision.Features
import PlanarDynamics.Proofs.Real.Clipping
import PlanarDynamics.Proofs.Registry.History
import PlanarDynamics.Proofs.Solver.Law
import PlanarDynamics.Proofs.Real.Manifold
import PlanarDynamics.Proofs.Solver.Correction
import PlanarDynamics.Proofs.Solver.Settling
import PlanarDynamics.Proofs.Solver.Energy
import PlanarDynamics.Proofs.Real.Moments
import PlanarDynamics.Proofs.Body.Mass
import PlanarDynamics.Proofs.Real.Enclosure
import PlanarDynamics.Proofs.Registry.Reuse
