/-
This file divides a source text into lines and finds the line a position lies on.

Only a line feed ends a line, and it belongs to the line it ends. The last line is what stands
behind the last line feed, so it may be empty, and an empty source has one empty line. Lines are
numbered from one. A position past the end of the source lies on the last line: the line of a
position is the number of lines that start at or before it.
-/

import LuaStyle.Source.Span

namespace LuaStyle

/-- One line of a source, with the line feed that ends it. -/
structure Line where
  /-- The offset at which the line starts. -/
  start : Nat
  /-- The text of the line, up to and including its line feed. -/
  text : List Char
deriving DecidableEq, Inhabited, Repr

namespace Line

/-- The stretch of the source that the line takes up. -/
def span (line : Line) : Span :=
  ⟨line.start, line.start + byteLength line.text⟩

/-- The texts of the lines of a source. There is always one, and joined they are the source. -/
def textsOf : List Char → List (List Char)
  | [] => [[]]
  | c :: rest =>
    if c = '\n' then
      [c] :: textsOf rest
    else
      match textsOf rest with
      | [] => [[c]]
      | text :: texts => (c :: text) :: texts

theorem textsOf_ne_nil (source : List Char) : textsOf source ≠ [] := by
  fun_cases textsOf source <;> simp

/-- Joined, the lines are the source. -/
theorem flatten_textsOf (source : List Char) : (textsOf source).flatten = source := by
  fun_induction textsOf source with
  | case1 => rfl
  | case2 rest inductionHypothesis => simp [inductionHypothesis]
  | case3 c rest goesOn none inductionHypothesis => simpa [none] using inductionHypothesis
  | case4 c rest goesOn text texts same inductionHypothesis => simp_all

/-- Lines laid end to end from an offset on. -/
def place (start : Nat) : List (List Char) → List Line
  | [] => []
  | text :: texts => ⟨start, text⟩ :: place (start + byteLength text) texts

/-- The lines of a source. As for its tokens, offsets of 32 bits would ask for fewer than 0xFFFFFFFF
bytes. -/
def ofText (source : List Char) : List Line :=
  place 0 (textsOf source)

/-- The number of the line that a position lies on. -/
def numberAt (lines : List Line) (position : Nat) : Nat :=
  lines.countP fun line => line.start ≤ position

/-- The number of the line that a span starts on. -/
def firstOf (lines : List Line) (span : Span) : Nat :=
  numberAt lines span.start

/-- The number of the line that the last byte of a span lies on. A span that holds no byte counts
as ending where it starts. -/
def lastOf (lines : List Line) (span : Span) : Nat :=
  numberAt lines (max (span.stop - 1) span.start)

end Line

end LuaStyle
