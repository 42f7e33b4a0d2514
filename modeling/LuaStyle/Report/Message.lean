/-
This file words the messages that are shown to the user.
-/

import LuaStyle.Layout.Error
import LuaStyle.Report.Style

namespace LuaStyle

/-- A message about something that went wrong. -/
structure Message where
  /-- What it is about. -/
  title : List Char
  /-- What went wrong; nothing is shown if it is empty. -/
  body : List Char := []
  /-- What to make of it. -/
  hint : Option (List Char) := none
deriving DecidableEq, Inhabited, Repr

namespace Message

/-- The message as it is shown: a line for the title, and one each for the body and the hint if
there are any. -/
def parts (palette : Palette) (message : Message) : Parts :=
  palette.paint .alarm "✕ Error".toList ++ palette.paint .bold [':'] ++ [[' ']]
    ++ palette.paint .bold message.title ++ [['\n']]
    ++ (if message.body.isEmpty then [] else [message.body, ['\n']])
    ++ match message.hint with
      | none => []
      | some hint => palette.paint .aside "hint:".toList ++ [[' '], hint, ['\n']]

/-- The text of the message. -/
def text (palette : Palette) (message : Message) : List Char :=
  (message.parts palette).flatten

/-- The message about a source that is not a program. -/
def ofParseError (error : ParseError) : Message :=
  ⟨error.title, error.message, none⟩

/-- The message about a program that has no layout. -/
def ofFormatError (error : FormatError) : Message :=
  match error with
  | .malformedInput cause => ofParseError cause
  | .unsupportedNode _ => ⟨"Unsupported Node".toList, error.message, none⟩
  | .changedNumber _ _ =>
    ⟨"Number Changed Value".toList, error.message,
      some "the file has been left unchanged".toList⟩

end Message

end LuaStyle
