/-
This file proves that the frame of a span shows the lines that the span touches.

A frame is a heading, a row for each line and an end. What is said of it is said of the whole of
what is written, with the colours left out: how the heading and the end read, and for the rows that
there is one for each line from the first to the last, in order, that it has the number of the line,
and that it has the text of the line up to spaces at its end. The lines are looked up by their
numbers, and none is looked up that does not exist, whatever the span.
-/

import LuaStyle.Proofs.Highlighting
import LuaStyle.Proofs.LineNumbers
import LuaStyle.Report.Frame
import Mathlib.Data.List.Forall2
import Mathlib.Data.List.TakeWhile

namespace LuaStyle

/-! ### Rows -/

/-- The row shows the line of a number: the number, in three columns at least, then a bar, and
behind a space the text of the line, up to spaces at its end. A line that has nothing but a line
break has no space behind its bar. -/
def ShowsLine (number : Nat) (text row : List Char) : Prop :=
  ∃ shown rest, shown ++ rest = text ∧ (∀ c ∈ rest, Token.isSpace c) ∧
    row = List.replicate (3 - (Nat.toDigits 10 number).length) ' ' ++ Nat.toDigits 10 number
      ++ [' ', '│'] ++ (if text.all fun c => c == '\n' || c == '\r' then [] else [' ']) ++ shown
      ++ ['\n']

/-- Only characters that satisfy the test are dropped at the end of a text. -/
theorem exists_dropTrailing_append (test : Char → Bool) (text : List Char) :
    ∃ dropped, dropTrailing test text ++ dropped = text ∧ ∀ c ∈ dropped, test c := by
  refine ⟨(text.reverse.takeWhile test).reverse, ?_, fun c member =>
    List.all_eq_true.1 List.all_takeWhile c (List.mem_reverse.1 member)⟩
  rw [dropTrailing, ← List.reverse_append, List.takeWhile_append_dropWhile, List.reverse_reverse]

/-- Nothing is left of a text if all of its characters are dropped at its end. -/
theorem dropTrailing_eq_nil_iff {test : Char → Bool} {text : List Char} :
    dropTrailing test text = [] ↔ ∀ c ∈ text, test c := by
  rw [dropTrailing, List.reverse_eq_nil_iff, List.dropWhile_eq_nil_iff]
  exact forall_congr' fun c => imp_congr_left List.mem_reverse

theorem flatten_paddedNumber (number : Nat) :
    (paddedNumber number).flatten =
      List.replicate (3 - (Nat.toDigits 10 number).length) ' ' ++ Nat.toDigits 10 number := by
  rw [paddedNumber, List.flatten_append, List.flatten_singleton, decimalDigits]
  induction 3 - (Nat.toDigits 10 number).length with
  | zero => rfl
  | succ count inductionHypothesis =>
    rw [List.replicate_succ, List.flatten_cons, List.append_assoc, inductionHypothesis,
      List.replicate_succ]
    rfl

namespace Frame

variable (palette : Palette)

/-- What a frame writes for a line is a row that shows it. -/
theorem exists_row (number : Nat) (text : List Char) :
    ∃ row, ShowsLine number text row ∧ Tells palette (lineParts palette number text) row := by
  obtain ⟨dropped, whole, breaks⟩ := exists_dropTrailing_append Token.isLineBreak text
  obtain ⟨shown, rest, tells, content, spaces⟩ :=
    Highlight.exists_tells palette (dropTrailing Token.isLineBreak text)
  have bare : (dropTrailing Token.isLineBreak text).isEmpty ↔
      text.all fun c => c == '\n' || c == '\r' := by
    rw [List.isEmpty_iff, dropTrailing_eq_nil_iff, List.all_eq_true]
    rfl
  have gap : Tells palette (if (dropTrailing Token.isLineBreak text).isEmpty then [] else [[' ']])
      (if text.all fun c => c == '\n' || c == '\r' then [] else [' ']) := by
    by_cases breaksOnly : text.all fun c => c == '\n' || c == '\r'
    · rw [if_pos breaksOnly, if_pos (bare.2 breaksOnly)]
      exact tells_unpainted palette []
    · rw [if_neg breaksOnly, if_neg (mt bare.1 breaksOnly)]
      exact tells_unpainted palette [[' ']]
  refine ⟨_, ⟨shown, rest ++ dropped, ?_, ?_, rfl⟩, ?_⟩
  · rw [← List.append_assoc, content, whole]
  · exact List.forall_mem_append.2
      ⟨spaces, fun c member => Token.isSpace_of_isLineBreak (breaks c member)⟩
  · have front := (tells_unpainted palette (paddedNumber number ++ [[' ']])).append
      (tells_paint palette .dimmed ['│'])
    have row := ((front.append gap).append tells).append (tells_unpainted palette [['\n']])
    rw [List.flatten_append, flatten_paddedNumber, List.flatten_singleton, List.flatten_singleton,
      List.append_assoc _ [' '] ['│']] at row
    exact row

/-- Lines that exist are shown, each in a row of its own and in the order in which they are looked
up. -/
theorem exists_rows {lines : List Line} (numbers : List Nat)
    (exist : ∀ number ∈ numbers, 1 ≤ number ∧ number ≤ lines.length) :
    ∃ rows, List.Forall₂ (fun number row => ∃ line, lines[number - 1]? = some line ∧
        ShowsLine number line.text row) numbers rows ∧
      Tells palette (numbers.flatMap fun number =>
        lineParts palette number ((lines[number - 1]?.map Line.text).getD [])) rows.flatten := by
  induction numbers with
  | nil => exact ⟨[], .nil, tells_unpainted palette []⟩
  | cons number numbers inductionHypothesis =>
    obtain ⟨⟨least, most⟩, others⟩ := List.forall_mem_cons.1 exist
    obtain ⟨rows, shown, tells⟩ := inductionHypothesis others
    have inside : number - 1 < lines.length := by omega
    obtain ⟨row, showsLine, rowTells⟩ := exists_row palette number lines[number - 1].text
    have found : lines[number - 1]? = some lines[number - 1] := List.getElem?_eq_getElem inside
    refine ⟨row :: rows, .cons ⟨_, found, showsLine⟩ shown, ?_⟩
    rw [List.flatMap_cons, found, List.flatten_cons]
    exact rowTells.append tells

/-! ### Frames -/

/-- The frame shows the lines from one to another, each once and in order, and no others. -/
structure Shows (frame : Frame) (first last : Nat) : Prop where
  /-- The lines exist. -/
  exist : 1 ≤ first ∧ first ≤ last ∧ last ≤ (Line.ofText frame.source).length
  /-- They are the lines that are looked up. -/
  lookedUp : frame.lines.map Prod.fst = List.range' first (last + 1 - first)
  /-- What is written is a heading with the name of the source and the number of the first line, a
  row for each of the lines, and an end. -/
  tells : ∃ rows, Tells palette (frame.parts palette)
      ([' ', ' ', ' ', ' ', '╭', '─', '[']
        ++ (if frame.title = ['-'] then "STDIN".toList else frame.title)
        ++ [':'] ++ Nat.toDigits 10 first ++ [']', '\n'] ++ rows.flatten
        ++ ['─', '─', '─', '─', '╯']) ∧
    List.Forall₂ (fun number row => ∃ line, (Line.ofText frame.source)[number - 1]? = some line ∧
      ShowsLine number line.text row) (List.range' first (last + 1 - first)) rows

variable (frame : Frame)

/-- The line a span starts on is the first that its frame shows. -/
theorem firstLine_eq : frame.firstLine = Line.firstOf (Line.ofText frame.source) frame.span :=
  Nat.max_eq_left (Line.one_le_firstOf ..)

/-- The line that the last byte of a span lies on is the last that its frame shows. -/
theorem lastLine_eq : frame.lastLine = Line.lastOf (Line.ofText frame.source) frame.span := by
  rw [lastLine, firstLine_eq]
  exact Nat.max_eq_left (Line.firstOf_le_lastOf ..)

/-- A frame shows the lines from the one its span starts on to the one its span ends on. -/
theorem shows : frame.Shows palette (Line.firstOf (Line.ofText frame.source) frame.span)
    (Line.lastOf (Line.ofText frame.source) frame.span) := by
  have least := Line.one_le_firstOf frame.source frame.span
  have order := Line.firstOf_le_lastOf (Line.ofText frame.source) frame.span
  have most := Line.lastOf_le_length (Line.ofText frame.source) frame.span
  rw [← firstLine_eq] at least order ⊢
  rw [← lastLine_eq] at order most ⊢
  have exist : ∀ number ∈ List.range' frame.firstLine (frame.lastLine + 1 - frame.firstLine),
      1 ≤ number ∧ number ≤ (Line.ofText frame.source).length := by
    intro number inside
    have bounds := List.mem_range'_1.1 inside
    omega
  obtain ⟨rows, shown, tells⟩ := exists_rows palette _ exist
  refine ⟨⟨least, order, most⟩, ?_, rows, ?_, shown⟩
  · rw [lines, List.map_map]
    exact List.map_id _
  · have heading := ((tells_unpainted palette [[' ', ' ', ' ', ' ']]).append
      (tells_paint palette .dimmed ['╭', '─', '['])).append
      (tells_unpainted palette [displayName frame.title])
    have number := (tells_paint palette .dimmed [':']).append
      (tells_unpainted palette [decimalDigits frame.firstLine])
    have close := (tells_paint palette .dimmed [']']).append (tells_unpainted palette [['\n']])
    have whole := (((heading.append number).append close).append tells).append
      (tells_paint palette .dimmed ['─', '─', '─', '─', '╯'])
    simpa only [parts, lines, List.flatMap_map, displayName, decimalDigits, List.flatten_singleton,
      List.append_assoc, List.cons_append, List.nil_append] using whole

end Frame

/-- A position lies on the line after the line feeds before it, and a search among the starts of the
lines finds that line; the lines make up the source; and the frame of any span shows the lines that
the span touches. -/
theorem lines_match_positions (source : List Char) :
    (Line.ofText source).map Line.start =
        0 :: (Utf8.encode source).findIdxs (· == Utf8.lineFeed) 1 ∧
      (∀ position, (∃ answer, Line.Answers ((Line.ofText source).map Line.start) position answer) ∧
        ∀ answer, Line.Answers ((Line.ofText source).map Line.start) position answer →
          Line.numberOf answer = 1 + ((Utf8.encode source).take position).count Utf8.lineFeed) ∧
      (∀ span, Line.firstOf (Line.ofText source) span =
        1 + ((Utf8.encode source).take span.start).count Utf8.lineFeed) ∧
      Line.Tile source (Line.ofText source) ∧
      ∀ palette title span, Frame.Shows palette ⟨title, source, span⟩
        (Line.firstOf (Line.ofText source) span) (Line.lastOf (Line.ofText source) span) := by
  have order := Line.pairwise_map_start source
  refine ⟨Line.map_start_ofText source,
    fun position => ⟨Line.exists_answers order position, fun answer answers => ?_⟩,
    fun span => Line.numberAt_ofText source span.start, Line.tile_ofText source,
    fun palette title span => Frame.shows palette ⟨title, source, span⟩⟩
  rw [Line.numberOf_eq_countP order answers, ← Line.numberAt_eq_countP, Line.numberAt_ofText]

/-- Whatever the source, every slice that is shown in colours lies within it and between
characters, and the slices together are the source, up to spaces at its end; what is shown are the
slices, some of them in colours. So a frame shows each of its lines up to spaces at its end. -/
theorem highlighting_only_adds_colour (palette : Palette) (source : List Char) :
    (∀ slice ∈ Highlight.slices source,
      slice.2.start ≤ slice.2.stop ∧ slice.2.stop ≤ byteLength source ∧
        IsBoundary source slice.2.start ∧ IsBoundary source slice.2.stop) ∧
      (∃ pieces rest,
        (Highlight.slices source).map (fun slice => slice.2.text? source) = pieces.map some ∧
          Coloured palette pieces (Highlight.parts palette source) ∧
          pieces.flatten ++ rest = source ∧ ∀ c ∈ rest, Token.isSpace c) ∧
      ∀ title span, Frame.Shows palette ⟨title, source, span⟩
        (Line.firstOf (Line.ofText source) span) (Line.lastOf (Line.ofText source) span) := by
  obtain ⟨pieces, rest, cut, whole, spacesOnly⟩ := Highlight.exists_pieces_slices source
  exact ⟨cut.isBoundary, ⟨pieces, rest, cut, cut.coloured palette, whole, spacesOnly⟩,
    fun title span => Frame.shows palette ⟨title, source, span⟩⟩

end LuaStyle
