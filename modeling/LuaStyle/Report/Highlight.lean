/-
This file shows source text in colours.

The text may be any, malformed or cut out of the middle of a token: it is cut into tokens anew, and
each token is painted by its kind. What is shown is cut out of the source by its offsets, the tokens
and what stands between them, which is not painted; what stands behind the last one is left out,
which is nothing but spaces.
-/

import LuaStyle.Report.Style
import LuaStyle.Token.Lexer

namespace LuaStyle

namespace Style

/-- The style in which a kind of token is shown. -/
def ofKind : Token.Kind → Style
  | .number | .keyword .trueWord | .keyword .falseWord | .keyword .nilWord => blue
  | .quotedString | .longString | .unterminatedString => green
  | .keyword .localWord | .keyword .functionWord => magenta
  | .keyword _ => cyan
  | .comment | .unterminatedComment => dimmed
  | _ => plain

end Style

namespace Highlight

/-- The stretches of a source that are shown from an offset on: the tokens, each with its style, and
the gaps before them, which have none. -/
def slicesFrom (offset : Nat) : List Token → List (Option Style × Span)
  | [] => []
  | token :: rest =>
    let others := (some (Style.ofKind token.kind), token.span) :: slicesFrom token.stop rest
    if token.start = offset then others else (none, ⟨offset, token.start⟩) :: others

/-- The stretches of a source that are shown. -/
def slices (source : List Char) : List (Option Style × Span) :=
  slicesFrom 0 (Token.ofText source)

/-- The text in a style, if there is one. -/
def shown (palette : Palette) (style : Option Style) (text : List Char) : Parts :=
  match style with
  | none => [text]
  | some style => palette.paint style text

/-- The source in colours. -/
def parts (palette : Palette) (source : List Char) : Parts :=
  (slices source).flatMap fun slice => shown palette slice.1 ((slice.2.text? source).getD [])

/-- The text of the source in colours. -/
def text (palette : Palette) (source : List Char) : List Char :=
  (parts palette source).flatten

end Highlight

end LuaStyle
