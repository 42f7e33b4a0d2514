/-
This file writes natural numbers in decimal digits.
-/

namespace LuaStyle

/-- A number in decimal digits, at least one. -/
def decimalDigits (number : Nat) : List Char :=
  Nat.toDigits 10 number

end LuaStyle
