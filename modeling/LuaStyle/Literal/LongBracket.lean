/-
This file is about long brackets, `[==[` and `]==]`, which enclose long strings and block comments.

A long bracket has a level, the number of equals signs in it, and an opening bracket is closed by
the first closing bracket of the same level. Text between long brackets is taken as it stands, so
enclosing a text means choosing a level whose closing bracket does not come too early; the lowest
such level is chosen. What comes too early includes a bracket made from the end of the text and the
first character of the closing bracket itself.
-/

namespace LuaStyle.LongBracket

/-! ### Brackets -/

/-- The opening bracket of a level. -/
def opening (level : Nat) : List Char :=
  '[' :: List.replicate level '=' ++ ['[']

/-- The closing bracket of a level. -/
def closing (level : Nat) : List Char :=
  ']' :: List.replicate level '=' ++ [']']

/-- The level of the opening bracket that the text starts with, if it starts with one. -/
def level? : List Char → Option Nat
  | '[' :: rest =>
    let level := (rest.takeWhile (· == '=')).length
    if (rest.drop level).head? = some '[' then some level else none
  | _ => none

/-- The number of characters up to the end of the first closing bracket of the level, if the text
has one. -/
def lengthToClose? (level : Nat) : List Char → Option Nat
  | [] => none
  | c :: rest =>
    if closing level <+: c :: rest then some (level + 2)
    else (lengthToClose? level rest).map (· + 1)

/-! ### Enclosing a text -/

/-- Enclosed in brackets of this level, the text would be closed before its end. -/
def closesEarly (level : Nat) (text : List Char) : Bool :=
  (lengthToClose? level (text ++ [']'])).isSome

/-- The lowest level at which the text is not closed early. A text of `n` characters has no room for
a closing bracket of level `n`, so a search up to there finds one. -/
def lowestLevel (text : List Char) : Nat :=
  ((List.range (text.length + 1)).find? fun level => !closesEarly level text).getD 0

/-- The text enclosed in long brackets of the lowest level that holds it. -/
def enclose (text : List Char) : List Char :=
  let level := lowestLevel text
  opening level ++ text ++ closing level

/-! ### Reading what is enclosed -/

/-- What stands between brackets of a level, both of which the text includes. -/
def inside (level : Nat) (text : List Char) : List Char :=
  (text.drop (level + 2)).take (text.length - 2 * (level + 2))

/-- The text without a line break at its start. A carriage return and a line feed, in either order,
are one line break. -/
def dropLineBreak : List Char → List Char
  | '\r' :: '\n' :: rest => rest
  | '\n' :: '\r' :: rest => rest
  | '\n' :: rest => rest
  | '\r' :: rest => rest
  | text => text

/-- The text with each line break, of any of the four forms, read as a line feed. -/
def readLineBreaks : List Char → List Char
  | '\r' :: '\n' :: rest => '\n' :: readLineBreaks rest
  | '\n' :: '\r' :: rest => '\n' :: readLineBreaks rest
  | '\r' :: rest => '\n' :: readLineBreaks rest
  | c :: rest => c :: readLineBreaks rest
  | [] => []

/-- The value of a long string, brackets included: the text inside without a line break at its
start, and with each line break read as a line feed. -/
def value (text : List Char) : List Char :=
  readLineBreaks (dropLineBreak (inside ((level? text).getD 0) text))

end LuaStyle.LongBracket
