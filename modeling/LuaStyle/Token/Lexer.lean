/-
This file cuts a source text into tokens.

Every source has tokens: text that makes no sense becomes a token of a malformed kind, and nothing
between tokens is lost but the six space characters. A token is decided by its first character and
what follows it. `shape` says which kind starts there and how many of the following characters
belong to it; the first character always belongs, so each token takes at least one character and the
cutting ends.

Numbers are read greedily: everything that could go on a number is part of it, so `3abc` is one
malformed number and not a number beside a name.
-/

import LuaStyle.Literal.LongBracket
import LuaStyle.Source.Span
import LuaStyle.Token.Kind

namespace LuaStyle

/-- A piece of source text with its kind and the byte offset it starts at. -/
structure Token where
  /-- What the token is. -/
  kind : Token.Kind
  /-- The text of the token. -/
  text : List Char
  /-- The offset of its first byte. -/
  start : Nat
deriving DecidableEq, Inhabited, Repr

namespace Token

/-- The number of bytes in the token. -/
def length (token : Token) : Nat :=
  byteLength token.text

/-- The offset behind the last byte of the token. -/
def stop (token : Token) : Nat :=
  token.start + token.length

/-- The stretch of source that the token takes up. -/
def span (token : Token) : Span :=
  ⟨token.start, token.stop⟩

/-! ### Character classes -/

/-- The characters that separate tokens. -/
def isSpace (c : Char) : Bool :=
  c == ' ' || c == '\t' || c == '\r' || c == '\n' || c == '\x0b' || c == '\x0c'

/-- The characters that end a line. -/
def isLineBreak (c : Char) : Bool :=
  c == '\n' || c == '\r'

/-- The characters that a name starts with. -/
def isNameStart (c : Char) : Bool :=
  c.isAlpha || c == '_'

/-- The characters that go on a name. -/
def isNamePart (c : Char) : Bool :=
  c.isAlphanum || c == '_'

/-! ### The extent of each kind of token -/

/-- A comment, given the text behind its two dashes. A long bracket right behind the dashes makes it
end where the bracket is closed; otherwise it ends where the line does. -/
def commentShape (text : List Char) : Kind × Nat :=
  match LongBracket.level? text with
  | some level =>
    match LongBracket.lengthToClose? level (text.drop (level + 2)) with
    | some length => (.comment, level + 2 + length)
    | none => (.unterminatedComment, text.length)
  | none => (.comment, (text.takeWhile (!isLineBreak ·)).length)

/-- A string between quotes, given the text behind the opening quote. A backslash takes the next
character with it, and both characters of a carriage return and line feed. A line break without a
backslash ends the string too soon, and is not part of it. -/
def quotedShape (quote : Char) : List Char → Kind × Nat
  | [] => (.unterminatedString, 0)
  | '\\' :: '\r' :: '\n' :: rest => (quotedShape quote rest).map id (· + 3)
  | '\\' :: _ :: rest => (quotedShape quote rest).map id (· + 2)
  | '\\' :: [] => (.unterminatedString, 1)
  | c :: rest =>
    if isLineBreak c then (.unterminatedString, 0)
    else if c = quote then (.quotedString, 1)
    else (quotedShape quote rest).map id (· + 1)

/-- A string between long brackets of a level, given the text behind the first character. -/
def longStringShape (level : Nat) (text : List Char) : Kind × Nat :=
  match LongBracket.lengthToClose? level (text.drop (level + 1)) with
  | some length => (.longString, level + 1 + length)
  | none => (.unterminatedString, text.length)

/-- How many characters go on a number, given the character before them. A sign goes on a decimal
number directly behind the letter of an exponent. -/
def numberLength (isHexadecimal : Bool) (previous : Char) : List Char → Nat
  | [] => 0
  | c :: rest =>
    let isSign := (c == '+' || c == '-') && (previous == 'e' || previous == 'E') && !isHexadecimal
    if c.isAlphanum || c == '.' || c == '_' || isSign then
      numberLength isHexadecimal c rest + 1
    else
      0

/-- The text is that of a hexadecimal number. -/
def startsHexadecimal : List Char → Bool
  | '0' :: 'x' :: _ => true
  | '0' :: 'X' :: _ => true
  | _ => false

/-- A number starts here: with a digit, or with a point and a digit. -/
def startsNumber (c : Char) (rest : List Char) : Bool :=
  c.isDigit || (c == '.' && rest.head?.any Char.isDigit)

/-- The kind of a word: reserved, or a name. -/
def wordKind (word : List Char) : Kind :=
  match Keyword.ofText? word with
  | some keyword => .keyword keyword
  | none => .name

/-! ### Cutting -/

/-- The kind of the token that starts with a character, and how many of the characters that follow
belong to the token as well. -/
def shape (c : Char) (rest : List Char) : Kind × Nat :=
  if c = '-' ∧ rest.head? = some '-' then
    (commentShape (rest.drop 1)).map id (· + 1)
  else if c = '\x22' ∨ c = '\x27' then
    quotedShape c rest
  else if startsNumber c rest then
    (.number, numberLength (startsHexadecimal (c :: rest)) c rest)
  else if isNameStart c then
    let length := (rest.takeWhile isNamePart).length
    (wordKind (c :: rest.take length), length)
  else
    match LongBracket.level? (c :: rest) with
    | some level => longStringShape level rest
    | none =>
      match Symbol.first? (c :: rest) with
      | some symbol => (.symbol symbol, symbol.text.length - 1)
      | none => (.unknown, 0)

/-- The tokens of a text that starts at a byte offset. -/
def tokensFrom (offset : Nat) (text : List Char) : List Token :=
  match text with
  | [] => []
  | c :: rest =>
    if isSpace c then tokensFrom (offset + c.utf8Size) rest
    else
      let (kind, count) := shape c rest
      let token : Token := ⟨kind, c :: rest.take count, offset⟩
      token :: tokensFrom token.stop (rest.drop count)
termination_by text.length
decreasing_by
  all_goals simp only [List.length_drop, List.length_cons]; omega

/-- The tokens of a source, comments included. Offsets have no bound here. Where they have 32 bits,
a source is required to have fewer than 0xFFFFFFFF bytes. -/
def ofText (source : List Char) : List Token :=
  tokensFrom 0 source

end Token

end LuaStyle
