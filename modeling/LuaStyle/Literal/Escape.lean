/-
This file reads the content of a quoted string.

The content is what stands between the quotes, and its value is a list of bytes: characters stand
for their UTF-8 bytes, and escapes, which start with a backslash, for one byte, for a line feed, or
for nothing. An escape that is none of the known ones is an error, and the error tells the bytes of
the content that are to blame: the backslash and as much of what follows as the escape would have
used. That stretch is counted in bytes, so with a character of several bytes behind the backslash
it may end within the character.
-/

import LuaStyle.Number.Numeral
import LuaStyle.Source.Span
import LuaStyle.Text.Utf8

namespace LuaStyle.Escape

/-! ### Single escapes -/

/-- The byte that a letter or mark behind a backslash stands for. -/
def named? : Char → Option UInt8
  | 'a' => some 0x07
  | 'b' => some 0x08
  | 'f' => some 0x0C
  | 'n' => some 0x0A
  | 'r' => some 0x0D
  | 't' => some 0x09
  | 'v' => some 0x0B
  | '\\' => some 0x5C
  | '\x22' => some 0x22
  | '\x27' => some 0x27
  | _ => none

/-- The characters that the escape `\z` skips. -/
def isSkipped (c : Char) : Bool :=
  c == ' ' || c == '\t' || c == '\n' || c == '\x0b' || c == '\x0c' || c == '\r'

/-- The other character of a two-character line break that starts with this one follows. -/
def lineBreakGoesOn (c : Char) (rest : List Char) : Bool :=
  (c == '\n' && rest.head? == some '\r') || (c == '\r' && rest.head? == some '\n')

/-- What an escape stands for, and how many characters behind the one that names it belong to it;
or, for an escape that is not valid, the number of bytes to blame, counted from the backslash.

A decimal escape takes up to three digits and has to fit a byte, a hexadecimal one takes exactly
two. -/
def read (c : Char) (rest : List Char) : Except Nat (List UInt8 × Nat) :=
  match named? c with
  | some byte => .ok ([byte], 0)
  | none =>
    if c = '\n' ∨ c = '\r' then
      .ok ([0x0A], if lineBreakGoesOn c rest then 1 else 0)
    else if c = 'x' then
      match rest.take 2 |>.mapM hexDigitValue? with
      | some [high, low] => .ok ([UInt8.ofNat (16 * high + low)], 2)
      | _ => .error 4
    else if c = 'z' then
      .ok ([], (rest.takeWhile isSkipped).length)
    else if c.isDigit then
      let digits := c :: (rest.take 2).takeWhile Char.isDigit
      let code := Nat.ofDigitChars 10 digits 0
      if code < 256 then .ok ([UInt8.ofNat code], digits.length - 1)
      else .error (digits.length + 1)
    else
      .error 2

/-! ### Whole contents -/

/-- Reads content that starts at a byte offset. An error gives the offset of the backslash and the
number of bytes to blame. -/
def decodeFrom (offset : Nat) (content : List Char) : Except (Nat × Nat) (List UInt8) :=
  match content with
  | [] => .ok []
  | '\\' :: [] => .error (offset, 1)
  | '\\' :: c :: rest =>
    match read c rest with
    | .error length => .error (offset, length)
    | .ok (bytes, count) =>
      (decodeFrom (offset + 1 + c.utf8Size + byteLength (rest.take count)) (rest.drop count)).map
        (bytes ++ ·)
  | c :: rest => (decodeFrom (offset + c.utf8Size) rest).map (String.utf8EncodeChar c ++ ·)
termination_by content.length
decreasing_by
  all_goals simp only [List.length_drop, List.length_cons]; omega

/-- The value of a string's content, or the stretch of the content, counted from its first byte,
that is not a valid escape. The stretch never reaches past the content. -/
def decode (content : List Char) : Except Span (List UInt8) :=
  (decodeFrom 0 content).mapError fun (offset, length) =>
    ⟨offset, min (offset + length) (byteLength content)⟩

end LuaStyle.Escape
