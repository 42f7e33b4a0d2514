/-
This file reads a whole source as a program.

Comments are taken out of the tokens first, so the grammar never meets one, and are kept beside the
tree in the order they appear. A comment is delimited as a block exactly when a long bracket opens
right behind its two dashes.
-/

import LuaStyle.Parser.Grammar

namespace LuaStyle

/-- The comment that a comment token stands for. -/
def Comment.ofToken (token : Token) : Comment :=
  let content := token.text.drop 2
  match LongBracket.level? content with
  | some level => ⟨LongBracket.inside level content, token.text, .block, token.span⟩
  | none => ⟨content, token.text, .line, token.span⟩

namespace Program

/-- The place before the first token of a source. -/
def start (source : List Char) : Cursor :=
  ⟨(Token.ofText source).filter (·.kind != .comment), 0, byteLength source⟩

/-- The comments of a source. -/
def commentsOf (source : List Char) : List Comment :=
  ((Token.ofText source).filter (·.kind == .comment)).map Comment.ofToken

/-- Reads a source as a program, up to its end. -/
def parse (source : List Char) : Except ParseError Program := do
  let ⟨body, rest, _⟩ ← Grammar.block (start source)
  if rest.kind = .endOfSource then
    return ⟨⟨body, ⟨0, byteLength source⟩⟩, commentsOf source⟩
  else
    throw (rest.missing .endOfSource)

end Program

end LuaStyle
