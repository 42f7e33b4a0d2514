/-
This file provides the state in which tokens are read, and its elementary steps.

A cursor is what remains of the tokens, together with the end of the last token that was used. Every
step that reads something returns a cursor with less remaining, and says so in its type: `Parsed`
bundles a value with the cursor behind it and a bound that the remaining tokens stay under. The
recursion of the grammar rests on these bounds, so it needs no allowance of steps from outside.
-/

import LuaStyle.Parser.Error
import LuaStyle.Tree.Basic

namespace LuaStyle

/-- A place between two tokens. -/
structure Cursor where
  /-- The tokens that follow, comments left out. -/
  remaining : List Token
  /-- The offset behind the last token before the place, or zero. -/
  lastStop : Nat
  /-- The length of the source in bytes. -/
  sourceLength : Nat
deriving DecidableEq, Inhabited, Repr

/-- How many tokens follow. -/
def Cursor.size (cursor : Cursor) : Nat :=
  cursor.remaining.length

/-- A value that was read, and the cursor behind it, with fewer tokens remaining than the bound. -/
structure Parsed (bound : Nat) (Value : Type) where
  /-- What was read. -/
  value : Value
  /-- The place behind it. -/
  rest : Cursor
  /-- Fewer tokens than the bound remain. -/
  within : rest.size < bound

namespace Cursor

/-- The token that follows; at the end of the source, a token without text that says so. -/
def current (cursor : Cursor) : Token :=
  cursor.remaining.headD ⟨.endOfSource, [], cursor.sourceLength⟩

/-- The kind of the token that follows. -/
def kind (cursor : Cursor) : Token.Kind :=
  cursor.current.kind

/-- The kind of the token after the one that follows. -/
def kindAfter (cursor : Cursor) : Token.Kind :=
  match cursor.remaining with
  | _ :: token :: _ => token.kind
  | _ => .endOfSource

/-- From an offset to the end of the last token that was used. -/
def spanFrom (cursor : Cursor) (start : Nat) : Span :=
  ⟨start, cursor.lastStop⟩

/-! ### Errors -/

/-- An error about the token that follows. A malformed token is reported as what it is, whatever
else would have been wrong with it. -/
def unexpected (cursor : Cursor) (cause : Token → ParseError) : ParseError :=
  match cursor.kind with
  | .unknown => .unknownCharacter cursor.current
  | .unterminatedString => .unterminatedString cursor.current
  | .unterminatedComment => .unterminatedComment cursor.current
  | _ => cause cursor.current

/-- The error that a token of a kind does not follow. -/
def missing (cursor : Cursor) (kind : Token.Kind) : ParseError :=
  cursor.unexpected (.expected kind)

/-! ### Steps -/

/-- Uses the token that follows, if one does. -/
def next? (cursor : Cursor) : Option (Parsed cursor.size Token) :=
  match same : cursor.remaining with
  | [] => none
  | token :: rest =>
    some ⟨token, ⟨rest, token.stop, cursor.sourceLength⟩, by simp [size, same]⟩

/-- Uses the token that follows if it is of this kind. -/
def accept? (cursor : Cursor) (kind : Token.Kind) : Option (Parsed cursor.size Token) :=
  cursor.next?.filter fun parsed => parsed.value.kind == kind

/-- Uses the token that follows, which has to be of this kind. -/
def expect (cursor : Cursor) (kind : Token.Kind) : Except ParseError (Parsed cursor.size Token) :=
  match cursor.accept? kind with
  | some parsed => .ok parsed
  | none => .error (cursor.missing kind)

/-- Uses the token that follows, which has to be a name. -/
def name (cursor : Cursor) : Except ParseError (Parsed cursor.size Name) :=
  (cursor.expect .name).map fun ⟨token, rest, within⟩ => ⟨⟨token.text, token.span⟩, rest, within⟩

end Cursor

end LuaStyle
