import PlanarDynamics.Scalar

/-!
# Binary floating point

The scalar the engine runs on: IEEE double precision.
-/

namespace PlanarDynamics

instance : Scalar Float where
  zero := 0.0
  one := 1.0
  decLT := inferInstance
  decLE := inferInstance
  sqrt := Float.sqrt
  sin := Float.sin
  cos := Float.cos
  atan2 := Float.atan2
  pi := 3.141592653589793
  isFinite := Float.isFinite
  cell x := x.floor.toInt64.toInt

end PlanarDynamics
