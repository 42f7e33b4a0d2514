/-
This file writes doubles as text.

A double has two written forms, both made of the shortest digits that name it: positional, with as
many zeros as it takes to reach the point, and scientific, with one digit before the point and an
exponent. The normal form of a number is the shorter of the two, and the positional one if they are
equally long, so a thousand is `1e3` and a hundred is `100`.
-/

import LuaStyle.Number.Shortest

namespace LuaStyle.Double

/-- Digits with a point behind the first `point` of them; zeros fill what is missing on either
side. A point at or before the first digit gets a zero in front of it. -/
def placePoint (digits : List Char) (point : Int) : List Char :=
  if point ≤ 0 then
    '0' :: '.' :: List.replicate (-point).toNat '0' ++ digits
  else if (digits.length : Int) ≤ point then
    digits ++ List.replicate (point - digits.length).toNat '0'
  else
    digits.take point.toNat ++ '.' :: digits.drop point.toNat

/-- Positional notation for a decimal. -/
def positional (decimal : Decimal) : List Char :=
  let digits := Nat.toDigits 10 decimal.digits
  placePoint digits (digits.length + decimal.exponent)

/-- A whole number with a minus sign if it is negative. -/
def signed (number : Int) : List Char :=
  if number < 0 then '-' :: Nat.toDigits 10 number.natAbs else Nat.toDigits 10 number.natAbs

/-- Scientific notation for a decimal. -/
def scientific (decimal : Decimal) : List Char :=
  let digits := Nat.toDigits 10 decimal.digits
  let significand :=
    match digits with
    | [] => []
    | [digit] => [digit]
    | digit :: digits => digit :: '.' :: digits
  significand ++ 'e' :: signed (digits.length + decimal.exponent - 1)

/-- A double written by a notation for the decimals, with its sign. What is not finite has a name
instead of digits. -/
def written (style : Decimal → List Char) (x : Double) : List Char :=
  if x.isNaN then ['N', 'a', 'N']
  else
    let magnitude :=
      if !x.isFinite then ['i', 'n', 'f']
      else if x.units = 0 then style ⟨0, 0⟩
      else style (Decimal.shortest x.magnitude)
    if x.isNegative then '-' :: magnitude else magnitude

/-- The normal form of a double: the shorter of its two written forms. -/
def normalForm (x : Double) : List Char :=
  let plain := written positional x
  let short := written scientific x
  if short.length < plain.length then short else plain

end LuaStyle.Double
