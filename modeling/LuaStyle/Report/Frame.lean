/-
This file shows the lines of a source that a span touches.

A frame has a heading with the name of the source and the number of the first line, then every line
from the one where the span starts to the one where it ends, numbered and in colours, and a closing
line. A span out of order or past the end of the source has a frame as well: it touches at least
one line, and the lines it touches are always among those that exist.
-/

import LuaStyle.Report.Highlight
import LuaStyle.Source.Lines
import LuaStyle.Text.Blank
import LuaStyle.Text.Digits

namespace LuaStyle

/-- How the source behind a file name is called. -/
def displayName (file : List Char) : List Char :=
  if file = ['-'] then "STDIN".toList else file

/-- A number in at least three columns, with spaces before it. Each space is written by itself. -/
def paddedNumber (number : Nat) : Parts :=
  let digits := decimalDigits number
  List.replicate (3 - digits.length) [' '] ++ [digits]

/-- A stretch of a source to be shown. -/
structure Frame where
  /-- The name of the source. -/
  title : List Char
  /-- The source. -/
  source : List Char
  /-- What is to be shown. -/
  span : Span
deriving DecidableEq, Inhabited, Repr

namespace Frame

/-- The number of the first line that is shown. -/
def firstLine (frame : Frame) : Nat :=
  max (Line.firstOf (Line.ofText frame.source) frame.span) 1

/-- The number of the last line that is shown. -/
def lastLine (frame : Frame) : Nat :=
  max (Line.lastOf (Line.ofText frame.source) frame.span) frame.firstLine

/-- The lines that are shown, with their numbers. -/
def lines (frame : Frame) : List (Nat × List Char) :=
  let all := Line.ofText frame.source
  (List.range' frame.firstLine (frame.lastLine + 1 - frame.firstLine)).map fun number =>
    (number, ((all[number - 1]?).map Line.text).getD [])

variable (palette : Palette)

/-- A line as it is shown, without its line break. -/
def lineParts (number : Nat) (text : List Char) : Parts :=
  let content := dropTrailing Token.isLineBreak text
  paddedNumber number ++ [[' ']] ++ palette.paint .dimmed ['│']
    ++ (if content.isEmpty then [] else [[' ']]) ++ Highlight.parts palette content ++ [['\n']]

/-- The frame as it is shown. -/
def parts (frame : Frame) : Parts :=
  [[' ', ' ', ' ', ' ']] ++ palette.paint .dimmed ['╭', '─', '['] ++ [displayName frame.title]
    ++ palette.paint .dimmed [':'] ++ [decimalDigits frame.firstLine]
    ++ palette.paint .dimmed [']'] ++ [['\n']]
    ++ frame.lines.flatMap (fun (number, text) => lineParts palette number text)
    ++ palette.paint .dimmed ['─', '─', '─', '─', '╯']

/-- The text of the frame. -/
def text (frame : Frame) : List Char :=
  (frame.parts palette).flatten

end Frame

end LuaStyle
