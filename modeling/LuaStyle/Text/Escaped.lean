/-
This file displays a text on one line, with every character that would not show spelled out.

The displayed form has no line breaks and no invisible characters. Quotes and backslashes get a
backslash, the four control characters with a letter of their own get that letter, and whatever else
is not printable is written as its code point in hexadecimal between braces. So is the first
character of a text if it would attach itself to what is displayed before the text.
-/

import LuaStyle.Text.Extending
import LuaStyle.Text.Printable

namespace LuaStyle.Escaped

/-- The digits of a number in lowercase hexadecimal, at least one. -/
def hexDigits (number : Nat) : List Char :=
  Nat.toDigits 16 number

/-- A character as its code point. -/
def codePoint (c : Char) : List Char :=
  '\\' :: 'u' :: '\x7b' :: hexDigits c.toNat ++ ['\x7d']

/-- The displayed form of a character that another one stands before. -/
def ofChar (c : Char) : List Char :=
  if c = '\x00' then ['\\', '0']
  else if c = '\t' then ['\\', 't']
  else if c = '\r' then ['\\', 'r']
  else if c = '\n' then ['\\', 'n']
  else if c = '\\' || c = '\x22' || c = '\x27' then ['\\', c]
  else if isPrintable c then [c]
  else codePoint c

/-- The displayed form of a text. -/
def ofText : List Char → List Char
  | [] => []
  | first :: rest =>
    (if isExtending first then codePoint first else ofChar first) ++ rest.flatMap ofChar

end LuaStyle.Escaped
