/-
This file finds the fewest decimal digits that name a double.

A decimal names a double if reading it gives that double back. For one digit, two digits and so on
up to seventeen, the value is placed on the grid of decimals with that many digits; only its two
neighbours on the grid can name it, and the first grid on which one of them does is taken. If both
do, the nearer one is chosen, and the upper one if they are equally near. Should no grid answer,
the exact decimal expansion of the double does, which every double has; so the search always ends
with a decimal that reads back.
-/

import LuaStyle.Number.Double

namespace LuaStyle

/-- The number `digits * 10 ^ exponent`. -/
structure Decimal where
  /-- The digits, read as a natural number. -/
  digits : Nat
  /-- The power of ten by which the digits are scaled. -/
  exponent : Int
deriving DecidableEq, Inhabited, Repr

namespace Decimal

/-- The double nearest to the decimal. -/
def toDouble (decimal : Decimal) : Double :=
  Double.ofDecimal decimal.digits decimal.exponent

/-- The number of decimal digits of a natural number. -/
def digitCount (number : Nat) : Nat :=
  (Nat.toDigits 10 number).length

/-- The exponent of the leading decimal digit of a finite, nonzero magnitude. Scaling by a large
power of ten makes even the smallest magnitude a number with an integral part, and the count of
digits of that part gives the exponent. -/
def leadingExponent (units : Nat) : Int :=
  (digitCount (units * Nat.pow 10 400 / Double.unitsInOne) : Int) - 401

/-- The magnitude as a fraction of steps of the grid `10 ^ exponent`. -/
def onGrid (units : Nat) (exponent : Int) : Nat × Nat :=
  (units * Nat.pow 10 (-exponent).toNat, Double.unitsInOne * Nat.pow 10 exponent.toNat)

/-- The decimal with the given number of digits that names the double, if there is one, for the
exponent of the leading digit. -/
def naming? (x : Double) (leading : Int) (count : Nat) : Option Decimal :=
  let exponent := leading - ((count : Int) - 1)
  let (numerator, denominator) := onGrid x.units exponent
  let lower : Decimal := ⟨numerator / denominator, exponent⟩
  let upper : Decimal := ⟨numerator / denominator + 1, exponent⟩
  let candidates :=
    if 2 * (numerator % denominator) < denominator then [lower, upper] else [upper, lower]
  candidates.find? fun candidate => candidate.toDouble.bits == x.bits

/-- The decimal expansion of a finite magnitude, which always ends since a unit is a power of one
half. -/
def expansion (x : Double) : Decimal :=
  ⟨x.units * Nat.pow 5 1074, -1074⟩

/-- The same number without zeros at the end of its digits. The bound is the number of digits. -/
def stripZeros : Nat → Decimal → Decimal
  | 0, decimal => decimal
  | bound + 1, decimal =>
    if decimal.digits % 10 = 0 then stripZeros bound ⟨decimal.digits / 10, decimal.exponent + 1⟩
    else decimal

/-- The shortest decimal that names a finite, positive double. -/
def shortest (x : Double) : Decimal :=
  let leading := leadingExponent x.units
  let decimal := ((List.range' 1 17).findSome? (naming? x leading)).getD (expansion x)
  stripZeros (digitCount decimal.digits) decimal

end Decimal

end LuaStyle
