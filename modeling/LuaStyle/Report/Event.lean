/-
This file words what happens while a program is formatted.

Each event has a level of detail and a message. The events of a step come in the order in which the
step goes through the tree.
-/

import LuaStyle.Layout.Format
import LuaStyle.Text.Digits

namespace LuaStyle

/-- Something that happens while a program is formatted. -/
inductive Event where
  /-- Formatting begins. -/
  | formatting (statements comments : Nat)
  /-- A clause was made to reach its end. -/
  | extended (extension : Extension)
  /-- A comment is taken out of the expression it stands in. -/
  | movedOut (comment : Comment)
  /-- A comment was put into a list of statements or fields. -/
  | placed (comment : Comment) (index : Nat)
deriving DecidableEq, Inhabited, Repr

namespace Event

/-- The level and the message of an event. -/
def text : Event → List Char
  | formatting statements comments =>
    "DEBUG Formatting ".toList ++ decimalDigits statements ++ " statements with ".toList
      ++ decimalDigits comments ++ " comments".toList
  | extended extension =>
    "TRACE Extended clause at ".toList ++ decimalDigits extension.start ++ " to end at ".toList
      ++ decimalDigits extension.stop
  | movedOut comment =>
    "DEBUG Moved comment at ".toList ++ decimalDigits comment.span.start
      ++ " out of an expression".toList
  | placed comment index =>
    "TRACE Placed comment at ".toList ++ decimalDigits comment.span.start ++ " at position ".toList
      ++ decimalDigits index

/-- The events of making clauses reach their ends. -/
def ofExtensions (chunk : Chunk) : List Event :=
  chunk.extensions.map extended

/-- The events of putting comments among statements. -/
def ofPlacements (placements : List (Comment × Placement)) : List Event :=
  placements.flatMap fun (comment, placement) =>
    (if placement.movedOut then [movedOut comment] else []) ++ [placed comment placement.index]

/-- The events of formatting a program. -/
def ofFormat (program : Program) : List Event :=
  formatting program.chunk.body.length program.comments.length ::
    ofExtensions program.chunk ++ ofPlacements program.placements

end Event

end LuaStyle
