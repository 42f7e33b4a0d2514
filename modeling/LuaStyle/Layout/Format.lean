/-
This file formats programs.

Formatting takes three steps. Clauses are made to reach over what is written in them, so that every
position has an innermost block; then comments are put into the tree; then the tree is laid out and
the document becomes text. The program that was read is not changed by it.
-/

import LuaStyle.Comment.Placement
import LuaStyle.Layout.Printer
import LuaStyle.Parser.Program
import LuaStyle.Tree.ClauseReach

namespace LuaStyle

namespace Program

/-- The statements of a program with its comments among them. -/
def arrange (program : Program) : Chunk :=
  (program.chunk.extendClauses.placeComments program.comments).1

/-- How each comment of the program is put among its statements. -/
def placements (program : Program) : List (Comment × Placement) :=
  (program.chunk.extendClauses.placeComments program.comments).2

/-- The laid-out text of a program. -/
def format (config : Config) (program : Program) : Except FormatError (List Char) :=
  (program.arrange.doc config).map fun doc =>
    doc.render config.indentation.text config.lineEnding.text

end Program

/-- The laid-out text of a source. -/
def formatText (config : Config) (source : List Char) : Except FormatError (List Char) :=
  match Program.parse source with
  | .ok program => program.format config
  | .error error => .error (.malformedInput error)

end LuaStyle
