/-!
# Scalars

The engine is written once, over any type with the operations below, and assumes no law of them.
Over binary floating point it runs; over the real numbers it can be reasoned about.

Comparisons may fail in both directions, as they do at a floating-point NaN, so every definition
says which way an incomparable value goes.
-/

namespace PlanarDynamics

/-- The arithmetic, order and elementary functions that the engine computes with. -/
class Scalar (α : Type) extends Zero α, One α, Add α, Sub α, Mul α, Div α, Neg α, LT α, LE α,
    BEq α, OfScientific α where
  /-- Decides the strict order. -/
  decLT : DecidableLT α
  /-- Decides the order. -/
  decLE : DecidableLE α
  sqrt : α → α
  sin : α → α
  cos : α → α
  /-- The angle of the direction `(x, y)`, taken as `atan2 y x`. -/
  atan2 : α → α → α
  pi : α
  /-- False at infinities and NaN. -/
  isFinite : α → Bool
  /-- The cell number of a coordinate measured in cells: its floor, cut off at the 64-bit range. -/
  cell : α → Int

namespace Scalar

variable {α : Type} [Scalar α]

instance (priority := low) : DecidableLT α := Scalar.decLT

instance (priority := low) : DecidableLE α := Scalar.decLE

/-- The distance from 1 to the next binary floating-point number, `2⁻⁵²`. -/
def epsilon : α := 1 / 4503599627370496.0

/-- Whether `x` compares with itself: false at NaN only. -/
def isNumber (x : α) : Bool := x ≤ x

/-- The smaller of two values; the other one if one is not a number. -/
def min (a b : α) : α := if a < b then a else if isNumber b then b else a

/-- The larger of two values; the other one if one is not a number. -/
def max (a b : α) : α := if b < a then a else if isNumber b then b else a

def abs (x : α) : α := if x < 0 then -x else x

/-- `x` moved into the interval from `lo` to `hi`. A value that is not a number stays. -/
def clamp (lo hi x : α) : α := if x < lo then lo else if hi < x then hi else x

/-! ## Running extrema

A search for a largest value starts with none. A first candidate is taken if it lies above every
bound from below, so neither NaN nor negative infinity is, and later ones if they are larger. -/

/-- Whether `x` beats the largest value found so far. -/
def raises (x : α) : Option α → Bool
  | none => isFinite x || 0 < x
  | some best => best < x

/-- Whether `x` beats the smallest value found so far. -/
def lowers (x : α) : Option α → Bool
  | none => isFinite x || x < 0
  | some best => x < best

/-- The smallest of those values that are numbers. -/
def least? (xs : List α) : Option α :=
  xs.foldl (fun best x ↦ if isNumber x then some (best.elim x (min · x)) else best) none

end Scalar

end PlanarDynamics
