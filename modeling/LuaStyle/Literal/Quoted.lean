/-
This file writes bytes as a quoted string.

The text between the quotes has no line break and no control character: those with a letter of their
own are written as a backslash and the letter, and the others, like every byte that is not part of a
UTF-8 character, as a backslash and three decimal digits. Three digits are written even where fewer
would do, so a digit that follows is never read as part of the escape.

Either quote can be preferred, and a string that holds the preferred quote but not the other one is
written in the other, where it needs no escapes for it.
-/

import LuaStyle.Text.Utf8

namespace LuaStyle

/-- Which of the two quotes is preferred. -/
inductive QuoteStyle where
  | double
  | single
deriving DecidableEq, Inhabited, Repr

namespace QuoteStyle

/-- The preferred quote and the other one. -/
def quotes : QuoteStyle → Char × Char
  | double => ('\x22', '\x27')
  | single => ('\x27', '\x22')

/-- The quote in which to write the bytes. -/
def quoteFor (style : QuoteStyle) (bytes : List UInt8) : Char :=
  let (preferred, other) := style.quotes
  if bytes.contains preferred.toUInt8 && !bytes.contains other.toUInt8 then other else preferred

end QuoteStyle

namespace Quoted

/-- A byte as a decimal escape of three digits. -/
def decimalEscape (byte : UInt8) : List Char :=
  let number := byte.toNat
  ['\\', Nat.digitChar (number / 100), Nat.digitChar (number / 10 % 10),
    Nat.digitChar (number % 10)]

/-- A character between two quotes. -/
def escapeChar (quote c : Char) : List Char :=
  match c with
  | '\\' => ['\\', '\\']
  | '\x07' => ['\\', 'a']
  | '\x08' => ['\\', 'b']
  | '\x0c' => ['\\', 'f']
  | '\n' => ['\\', 'n']
  | '\r' => ['\\', 'r']
  | '\t' => ['\\', 't']
  | '\x0b' => ['\\', 'v']
  | c =>
    if c = quote then ['\\', c]
    else if c.toNat < 0x20 ∨ c.toNat = 0x7F then decimalEscape c.toUInt8
    else [c]

/-- The bytes as the text between two quotes. Where the bytes continue with a UTF-8 character, that
character is written, and where they do not, a single byte is. -/
def escapeBytes (quote : Char) (bytes : List UInt8) : List Char :=
  match bytes with
  | [] => []
  | byte :: rest =>
    match Utf8.first? (byte :: rest) with
    | some c => escapeChar quote c ++ escapeBytes quote (rest.drop (c.utf8Size - 1))
    | none => decimalEscape byte ++ escapeBytes quote rest
termination_by bytes.length
decreasing_by
  all_goals simp only [List.length_drop, List.length_cons]; omega

/-- The bytes as a quoted string. -/
def encode (bytes : List UInt8) (style : QuoteStyle) : List Char :=
  let quote := style.quoteFor bytes
  quote :: escapeBytes quote bytes ++ [quote]

end Quoted

end LuaStyle
