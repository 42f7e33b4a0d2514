/-
This file lists the ways in which a source can fail to be a Lua program.

An error names its cause and the place that is to blame, which is a token, or a stretch of source
inside a string, or an expression that cannot be assigned to. The wording is decided here and
nowhere else: a short title, a message, and the span of the place.
-/

import LuaStyle.Token.Lexer

namespace LuaStyle

/-- Why a source is not a program. -/
inductive ParseError where
  /-- A token of one kind was needed where another one stands. -/
  | expected (expected : Token.Kind) (received : Token)
  /-- No expression starts with this token. -/
  | expectedExpression (received : Token)
  /-- No statement starts with this token. -/
  | expectedStatement (received : Token)
  /-- The token is a character that means nothing. -/
  | unknownCharacter (token : Token)
  /-- The token is a string that is not closed. -/
  | unterminatedString (token : Token)
  /-- The token is a comment that is not closed. -/
  | unterminatedComment (token : Token)
  /-- The token starts like a number and is none. -/
  | invalidNumber (token : Token)
  /-- The stretch of a string is not an escape. -/
  | invalidEscape (span : Span)
  /-- The expression cannot be assigned to. -/
  | invalidAssignmentTarget (span : Span)
deriving DecidableEq, Inhabited, Repr

namespace ParseError

/-- The title under which the error is reported. -/
def title : ParseError → List Char
  | expected kind _ => "Expected ".toList ++ kind.label
  | expectedExpression _ => "Expected Expression".toList
  | expectedStatement _ => "Expected Statement".toList
  | unknownCharacter _ => "Unknown Character".toList
  | unterminatedString _ => "Unterminated String".toList
  | unterminatedComment _ => "Unterminated Comment".toList
  | invalidNumber _ => "Invalid Number".toList
  | invalidEscape _ => "Invalid Escape Sequence".toList
  | invalidAssignmentTarget _ => "Invalid Assignment Target".toList

/-- What went wrong, in a sentence. -/
def message : ParseError → List Char
  | expected kind received =>
    "expected ".toList ++ kind.label ++ " but got ".toList ++ received.kind.label
  | expectedExpression received => "expected expression but got ".toList ++ received.kind.label
  | expectedStatement received => "expected statement but got ".toList ++ received.kind.label
  | unknownCharacter _ => "got unknown character".toList
  | unterminatedString _ => "missing closing quote or bracket for string".toList
  | unterminatedComment _ => "missing closing bracket for comment".toList
  | invalidNumber _ => "number literal is malformed".toList
  | invalidEscape _ => "invalid escape sequence in string".toList
  | invalidAssignmentTarget _ => "can only assign to variables, fields, and indexes".toList

/-- The place that is to blame. -/
def span : ParseError → Span
  | expected _ token | expectedExpression token | expectedStatement token
  | unknownCharacter token | unterminatedString token | unterminatedComment token
  | invalidNumber token => token.span
  | invalidEscape span | invalidAssignmentTarget span => span

end ParseError

end LuaStyle
