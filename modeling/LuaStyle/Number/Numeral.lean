/-
This file reads number literals.

A numeral is either hexadecimal, `0x` and at least one hexadecimal digit, or decimal: digits with at
most one point and at least one digit in all, then perhaps `e`, a sign if wanted, and at least one
digit. Reading is split in two. `Numeral.read?` decides whether a text is a numeral and which, and
`Numeral.value` rounds it to a double. A decimal is rounded once; a hexadecimal one is rounded at
every digit, so the two agree with the nearest double only as long as no digit is lost.
-/

import LuaStyle.Number.Double

namespace LuaStyle

/-- A number as it is written down. -/
inductive Numeral where
  /-- Hexadecimal digits, the most significant first. -/
  | hexadecimal (digits : List Nat)
  /-- The number `digits * 10 ^ exponent`. -/
  | decimal (digits : Nat) (exponent : Int)
deriving DecidableEq, Inhabited, Repr

/-- The value of a hexadecimal digit of either case. -/
def hexDigitValue? (c : Char) : Option Nat :=
  if c.isDigit then some (c.toNat - '0'.toNat)
  else if 'a' ≤ c ∧ c ≤ 'f' then some (c.toNat - 'a'.toNat + 10)
  else if 'A' ≤ c ∧ c ≤ 'F' then some (c.toNat - 'A'.toNat + 10)
  else none

namespace Numeral

/-- The text of the digits, at least one, is read as a natural number. -/
def natural? (digits : List Char) : Option Nat :=
  if digits ≠ [] ∧ digits.all Char.isDigit then some (Nat.ofDigitChars 10 digits 0) else none

/-- An exponent with the letter that announces it. No text at all is the exponent zero. -/
def exponent? : List Char → Option Int
  | [] => some 0
  | _ :: '+' :: digits => (natural? digits).map Int.ofNat
  | _ :: '-' :: digits => (natural? digits).map fun exponent => -Int.ofNat exponent
  | _ :: digits => (natural? digits).map Int.ofNat

/-- The letter starts the exponent of a decimal. -/
def isExponentMark (c : Char) : Bool :=
  c == 'e' || c == 'E'

/-- Reads a decimal numeral. The digits behind the point lower the exponent. -/
def decimal? (text : List Char) : Option Numeral :=
  let mantissa := text.takeWhile (!isExponentMark ·)
  let whole := mantissa.takeWhile (· != '.')
  let fraction := (mantissa.dropWhile (· != '.')).drop 1
  (natural? (whole ++ fraction)).bind fun digits =>
    (exponent? (text.dropWhile (!isExponentMark ·))).map fun exponent =>
      .decimal digits (exponent - fraction.length)

/-- Reads the digits of a hexadecimal numeral. -/
def hexadecimal? (digits : List Char) : Option Numeral :=
  if digits = [] then none else (digits.mapM hexDigitValue?).map .hexadecimal

/-- Reads a numeral, or answers that the text is none. -/
def read? : List Char → Option Numeral
  | '0' :: 'x' :: digits => hexadecimal? digits
  | '0' :: 'X' :: digits => hexadecimal? digits
  | text => decimal? text

/-- The double that a numeral stands for. -/
def value : Numeral → Double
  | hexadecimal digits => digits.foldl Double.appendHexDigit .zero
  | decimal digits exponent => .ofDecimal digits exponent

/-- The double that a text stands for when it is a numeral. -/
def valueOf? (text : List Char) : Option Double :=
  (read? text).map value

end Numeral

end LuaStyle
