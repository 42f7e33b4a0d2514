/-
This file holds the double-precision number as the exact fraction it stands for.

A double is kept as its 64 bits, because a literal may hold any of them and the answers show the
bits. Arithmetic never goes through the machine's floating point unit: every finite double is a
whole number of units of `2 ^ -1074`, the smallest positive double, so a magnitude is a natural
number and all comparisons and roundings are exact arithmetic on naturals. Rounding picks the
nearest double and breaks a tie towards the even significand; a number past the largest finite
double rounds to infinity.
-/

namespace LuaStyle

/-- A double-precision number, given by its bits. -/
structure Double where
  /-- The sign bit, eleven exponent bits and fifty-two fraction bits, from high to low. -/
  bits : UInt64
deriving DecidableEq, Inhabited, Repr

namespace Double

/-! ### The parts of a double -/

/-- The value of the sign bit, which is also the number of magnitudes. -/
def signBit : Nat := 0x8000000000000000

/-- The value of the leading bit of a significand, `2 ^ 52`, which the fraction leaves out. -/
def leadingBit : Nat := 0x10000000000000

/-- The number of units in one, `2 ^ 1074`. -/
def unitsInOne : Nat := Nat.pow 2 1074

/-- The sign bit is set. Zero and the numbers that are not a number have a sign too. -/
def isNegative (x : Double) : Bool :=
  signBit ≤ x.bits.toNat

/-- The eleven bits that say how the fraction is scaled. -/
def exponentField (x : Double) : Nat :=
  x.bits.toNat / leadingBit % 2048

/-- The fifty-two low bits. -/
def fractionField (x : Double) : Nat :=
  x.bits.toNat % leadingBit

/-- Neither infinite nor a NaN: the exponent field is not the reserved last one. -/
def isFinite (x : Double) : Bool :=
  x.exponentField < 2047

/-- Not a number. -/
def isNaN (x : Double) : Bool :=
  x.exponentField == 2047 && x.fractionField != 0

/-- The magnitude of a finite double in units of `2 ^ -1074`. Exponent field zero has no implicit
leading bit, and it shares its scale with exponent field one. -/
def units (x : Double) : Nat :=
  if x.exponentField = 0 then x.fractionField
  else (leadingBit + x.fractionField) * Nat.pow 2 (x.exponentField - 1)

/-- The double without its sign. -/
def magnitude (x : Double) : Double :=
  ⟨UInt64.ofNat (x.bits.toNat % signBit)⟩

/-- Positive zero. -/
def zero : Double := ⟨0⟩

/-- Positive infinity. -/
def infinity : Double := ⟨0x7FF0000000000000⟩

/-- Equality of numbers: a NaN equals nothing, and the two zeros equal each other. -/
def sameNumber (x y : Double) : Bool :=
  !x.isNaN && !y.isNaN && (x.bits == y.bits || (x.bits <<< 1 == 0 && y.bits <<< 1 == 0))

/-! ### Rounding -/

/-- The natural number nearest to a fraction, the even one of two that are equally near. -/
def nearest (numerator denominator : Nat) : Nat :=
  let quotient := numerator / denominator
  let twice := 2 * (numerator % denominator)
  if denominator < twice ∨ (twice = denominator ∧ quotient % 2 = 1) then quotient + 1 else quotient

/-- The double nearest to a fraction of a unit count. With fifty-three bits kept, the scale is the
number of bits beyond those, and since the implicit bit of the significand adds one to the exponent
field, scale and significand add up to the bits. -/
def ofUnits (numerator denominator : Nat) : Double :=
  let scale := Nat.log2 (numerator / denominator) - 52
  let bits := scale * leadingBit + nearest numerator (denominator * Nat.pow 2 scale)
  if bits < infinity.bits.toNat then ⟨UInt64.ofNat bits⟩ else infinity

/-- The double nearest to `digits * 10 ^ exponent`. Exponents so large or so small that the result
is past every finite double, or below half a unit, are settled without computing the power. -/
def ofDecimal (digits : Nat) (exponent : Int) : Double :=
  if digits = 0 then zero
  else if 400 < exponent then infinity
  else if exponent < -401 - (Nat.log2 digits : Int) then zero
  else if 0 ≤ exponent then ofUnits (digits * Nat.pow 10 exponent.toNat * unitsInOne) 1
  else ofUnits (digits * unitsInOne) (Nat.pow 10 (-exponent).toNat)

/-- Sixteen times a double plus a digit, rounded once: the step by which hexadecimal digits are
read. Infinity stays infinite. -/
def appendHexDigit (x : Double) (digit : Nat) : Double :=
  if x.isFinite then ofUnits (16 * x.units + digit * unitsInOne) 1 else x

end Double

end LuaStyle
