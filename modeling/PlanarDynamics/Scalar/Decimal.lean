/-!
# Decimal notation

A double is written with as few digits as are needed to read it back.
-/

namespace PlanarDynamics

/-- The bit that precedes the fraction of a double and is not stored. -/
def leadingBit : Nat := 1 <<< 52

/-- The number `digits * 10 ^ exponent`. -/
structure Decimal where
  digits : Nat
  exponent : Int
deriving DecidableEq, Repr

namespace Decimal

/-- The decimal with the given exponent that reads back as the double `m * 2 ^ e` and is next to it,
if there is one. -/
def closest? (m : Nat) (e exponent : Int) : Option Decimal :=
  -- Both sides are four times too large, so that the halves of the gaps are whole numbers.
  let double (n : Nat) : Nat := (n <<< (e - 2).toNat) * Nat.pow 10 (-exponent).toNat
  let decimal (digits : Nat) : Nat := (digits <<< (2 - e).toNat) * Nat.pow 10 exponent.toNat
  -- The gap below a power of two is half as wide as the gap above it.
  let lo := double (4 * m - if m = leadingBit ∧ -1074 < e then 1 else 2)
  let hi := double (4 * m + 2)
  let readsBack (digits : Nat) : Bool :=
    if m % 2 = 0 then lo ≤ decimal digits ∧ decimal digits ≤ hi
    else lo < decimal digits ∧ decimal digits < hi
  let below := double (4 * m) / decimal 1
  let above := below + 1
  let nearer :=
    if double (4 * m) - decimal below ≤ decimal above - double (4 * m) then [below, above]
    else [above, below]
  (nearer.find? fun digits ↦ digits ≠ 0 && readsBack digits).map (⟨·, exponent⟩)

/-- The shortest decimal that reads back as the double `m * 2 ^ e`. -/
def shortest (m : Nat) (e : Int) : Decimal :=
  let top : Int := ((m.log2 : Int) + e + 1) * 30103 / 100000 + 2
  ((List.range 24).findSome? fun (i : Nat) ↦ closest? m e (top - i)).getD ⟨0, 0⟩

/-- How many digits stand before the point. -/
def point (d : Decimal) : Int := (Nat.toDigits 10 d.digits).length + d.exponent

/-- All digits written out, with at least one on each side of the point. -/
def positional (d : Decimal) : String :=
  let digits := Nat.toDigits 10 d.digits
  let whole := digits ++ List.replicate (d.point - digits.length).toNat '0'
  let whole := whole.take d.point.toNat
  let part := List.replicate (-d.point).toNat '0' ++ digits.drop d.point.toNat
  let orZero (digits : List Char) : String := if digits = [] then "0" else String.ofList digits
  orZero whole ++ "." ++ orZero part

/-- One digit before the point, and the power of ten. -/
def scientific (d : Decimal) : String :=
  let digits := Nat.toDigits 10 d.digits
  let part := digits.drop 1
  let part := if part = [] then "" else "." ++ String.ofList part
  String.ofList (digits.take 1) ++ part ++ "e" ++ toString (d.point - 1)

end Decimal

/-- A double in decimal notation, which is positional from `1e-4` up to `1e16`. -/
def writeDouble (x : Float) : String :=
  let bits := x.toBits.toNat
  let exponent : Nat := bits / leadingBit % 2048
  let fraction := bits % leadingBit
  let sign := if bits >>> 63 = 1 then "-" else ""
  let decimal :=
    if exponent = 0 then .shortest fraction (-1074)
    else Decimal.shortest (fraction + leadingBit) (exponent - 1075)
  if x.isNaN then "NaN"
  else if x.isInf then sign ++ "inf"
  else if x == 0.0 then sign ++ "0.0"
  else if 1e-4 ≤ x.abs ∧ x.abs < 1e16 then sign ++ decimal.positional
  else sign ++ decimal.scientific

end PlanarDynamics
