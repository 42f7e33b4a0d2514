/-
This file paints text for terminals.

How a terminal is told to write in another way is not settled here. A palette has what is written
before text in a style and what is written behind it, and whatever is shown in colours is shown with
a palette. Painted text is kept in parts, one for each piece that is written at a time, because a
terminal, and whatever stands in for one, sees the parts one after the other; the text itself is
what the parts say together.
-/

namespace LuaStyle

/-- Text in the parts in which it is written. -/
abbrev Parts := List (List Char)

/-- The ways in which text can be painted. -/
inductive Style where
  /-- As text that has no style. -/
  | plain
  | blue | green | magenta | cyan | dimmed | bold
  /-- Bold and red. -/
  | alarm
  /-- Slanted and cyan. -/
  | aside
deriving DecidableEq, Inhabited, Repr

/-- What text in a style is painted with. -/
structure Palette where
  /-- What is written before the text. -/
  before : Style → Parts
  /-- What is written behind the text. -/
  after : Style → Parts

/-- The text in a style. -/
def Palette.paint (palette : Palette) (style : Style) (text : List Char) : Parts :=
  palette.before style ++ [text] ++ palette.after style

end LuaStyle
