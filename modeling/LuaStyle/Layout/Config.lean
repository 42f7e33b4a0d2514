/-
This file lists what a user can choose about the layout.
-/

import LuaStyle.Literal.Quoted

namespace LuaStyle

/-- What a line is indented with for each level of depth. -/
inductive Indentation where
  | tab
  | spaces (count : Nat)
deriving DecidableEq, Inhabited, Repr

namespace Indentation

/-- The indentation for a size in spaces, where size zero asks for tabs. -/
def ofSize : Nat → Indentation
  | 0 => tab
  | size => spaces size

/-- The text of one level of indentation. -/
def text : Indentation → List Char
  | tab => ['\t']
  | spaces count => List.replicate count ' '

end Indentation

/-- What ends a line. -/
inductive LineEnding where
  /-- What the system uses, which is a line feed. -/
  | native
  /-- A line feed. -/
  | lineFeed
  /-- A carriage return and a line feed. -/
  | carriageReturnLineFeed
deriving DecidableEq, Inhabited, Repr

/-- The text that ends a line. -/
def LineEnding.text : LineEnding → List Char
  | native | lineFeed => ['\n']
  | carriageReturnLineFeed => ['\r', '\n']

/-- The choices of a user. -/
structure Config where
  /-- Function declarations are set off by empty lines. -/
  extraNewlines : Bool := true
  /-- A block of one short statement may stay on the line it starts on. -/
  inlineBlocks : Bool := true
  /-- A short table may stay on one line. -/
  inlineTables : Bool := true
  /-- The preferred quote. -/
  quoteStyle : QuoteStyle := .double
  /-- How lines are indented. -/
  indentation : Indentation := .tab
  /-- How lines end. -/
  lineEnding : LineEnding := .native
deriving DecidableEq, Inhabited, Repr

end LuaStyle
