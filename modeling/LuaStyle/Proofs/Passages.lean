/-
This file describes laid-out text by its lines.

A passage is what a document consists of when no line of it is empty or has blank characters at its
ends: a text, and perhaps, at some depth below it, another passage. Where the passage says that its
parts are set off from each other, an empty line may be left between them. So a passage is laid out
in two ways, and since the depths and texts are the passage's own, both have the same lines whatever
a level of indentation and the end of a line turn out to be.

Passages are put together as the documents of the printer are: in one line, with a text between
them, or below each other.
-/

import LuaStyle.Proofs.ContentLines
import LuaStyle.Proofs.Writing
import Mathlib.Data.List.Chain
import Mathlib.Data.List.ReduceOption

namespace LuaStyle

/-! ### Lines -/

/-- A line of a program: how deep it is indented, and what it says. -/
structure IndentedLine where
  /-- How many levels of indentation are in front of the line. -/
  depth : Nat
  /-- The text of the line. It is not empty, and neither starts nor ends with a blank character. -/
  text : List Char
  isLine : Comment.IsLine text

namespace IndentedLine

/-- The text of a line, or of an empty line, with its indentation. -/
def written (unit : List Char) : Option IndentedLine → List Char
  | some line => (List.replicate line.depth unit).flatten ++ line.text
  | none => []

/-- The text of lines, and of empty lines among them. -/
def join (unit ending : List Char) (rows : List (Option IndentedLine)) : List Char :=
  ending.intercalate (rows.map (written unit))

theorem join_cons (unit ending : List Char) (row : Option IndentedLine)
    {rows : List (Option IndentedLine)} (nonempty : rows ≠ []) :
    join unit ending (row :: rows) = written unit row ++ ending ++ join unit ending rows := by
  cases rows with
  | nil => exact absurd rfl nonempty
  | cons next rows => exact List.intercalate_cons_cons

/-- The rows are the lines, with single empty lines between some of them. -/
structure IsSpacing (lines : List IndentedLine) (rows : List (Option IndentedLine)) : Prop where
  /-- Without the empty lines there remain the lines. -/
  keeps : rows.reduceOption = lines
  /-- The first row is a line. -/
  first : ∀ row ∈ rows.head?, row.isSome
  /-- The last row is a line. -/
  last : ∀ row ∈ rows.getLast?, row.isSome
  /-- Of two rows below each other one is a line. -/
  single : rows.IsChain fun row next => row.isSome ∨ next.isSome

end IndentedLine

/-! ### Passages -/

/-- Lines below each other, of which those that are set off may have an empty line above them. The
depth of the first line is left open, since it may stand behind something else. -/
inductive Passage where
  /-- A single line. -/
  | line (text : List Char) (isLine : Comment.IsLine text)
  /-- A line with the others below it, the next of them at the depth. -/
  | above (text : List Char) (isLine : Comment.IsLine text) (isSetOff : Bool) (depth : Nat)
    (rest : Passage)

namespace Passage

/-- The document of a passage, in which empty lines are left or not. -/
def doc (isSpaced : Bool) : Passage → Doc
  | line text _ => Doc.ofText text
  | above text _ isSetOff depth rest =>
    Doc.ofText text ++ (if isSpaced && isSetOff then [.lineBreak 0] else [])
      ++ .lineBreak depth :: rest.doc isSpaced

/-- The lines of a passage whose first line has the depth. -/
def lines (first : Nat) : Passage → List IndentedLine
  | line text isLine => [⟨first, text, isLine⟩]
  | above text isLine _ depth rest => ⟨first, text, isLine⟩ :: rest.lines depth

/-- The lines of a passage with the empty lines among them. -/
def rows (isSpaced : Bool) (first : Nat) : Passage → List (Option IndentedLine)
  | line text isLine => [some ⟨first, text, isLine⟩]
  | above text isLine isSetOff depth rest =>
    some ⟨first, text, isLine⟩ :: (if isSpaced && isSetOff then [none] else [])
      ++ rest.rows isSpaced depth

theorem rows_ne_nil (isSpaced : Bool) (first : Nat) (passage : Passage) :
    passage.rows isSpaced first ≠ [] := by
  cases passage <;> exact List.cons_ne_nil _ _

theorem isSome_head?_rows (isSpaced : Bool) (first : Nat) (passage : Passage) :
    ∀ row ∈ (passage.rows isSpaced first).head?, row.isSome := by
  cases passage <;>
  · rintro _ ⟨⟩
    rfl

/-- Without empty lines there are just the lines. -/
theorem rows_false (first : Nat) (passage : Passage) :
    passage.rows false first = (passage.lines first).map some := by
  induction passage generalizing first with
  | line => rfl
  | above text isLine isSetOff depth rest inductionHypothesis =>
    rw [rows, inductionHypothesis, lines, List.map_cons]
    rfl

/-- The empty lines in a passage are single and never outside of it. -/
theorem isSpacing_rows (isSpaced : Bool) (first : Nat) (passage : Passage) :
    IndentedLine.IsSpacing (passage.lines first) (passage.rows isSpaced first) := by
  induction passage generalizing first with
  | line text isLine =>
    refine ⟨rfl, ?_, ?_, .singleton _⟩ <;>
    · rintro _ ⟨⟩
      rfl
  | above text isLine isSetOff depth rest inductionHypothesis =>
    obtain ⟨keeps, head, last, single⟩ := inductionHypothesis depth
    refine ⟨?_, isSome_head?_rows isSpaced first (.above text isLine isSetOff depth rest), ?_, ?_⟩
    · rw [rows, List.reduceOption_append, keeps]
      cases isSpaced && isSetOff <;> rfl
    · rwa [rows, List.getLast?_append_of_ne_nil _ (rest.rows_ne_nil isSpaced depth)]
    · rw [rows]
      refine List.isChain_append.2 ⟨?_, single, fun _ _ next among => .inr (head next among)⟩
      cases isSpaced && isSetOff with
      | true => exact .cons_cons (.inl rfl) (.singleton _)
      | false => exact .singleton _

/-! ### The text of a passage -/

/-- Behind the indentation of its first line, a passage is written as its rows are. -/
theorem written_doc (config : Config) (isSpaced : Bool) (first : Nat) (passage : Passage) :
    (List.replicate first config.indentation.text).flatten ++
        (passage.doc isSpaced).written config =
      IndentedLine.join config.indentation.text config.lineEnding.text
        (passage.rows isSpaced first) := by
  induction passage generalizing first with
  | line text isLine =>
    rw [doc, Doc.written_ofText config isLine.noLineFeed]
    exact (List.append_nil _).symm
  | above text isLine isSetOff depth rest inductionHypothesis =>
    have nonempty := rest.rows_ne_nil isSpaced depth
    rw [doc, rows, Doc.written_append, Doc.written_append, Doc.written_cons_lineBreak,
      inductionHypothesis, Doc.written_ofText config isLine.noLineFeed]
    cases isSpaced && isSetOff with
    | true =>
      rw [if_pos rfl, if_pos rfl, List.cons_append, List.singleton_append,
        IndentedLine.join_cons _ _ _ (List.cons_ne_nil _ _),
        IndentedLine.join_cons _ _ _ nonempty, Doc.written_cons_lineBreak]
      simp only [IndentedLine.written, List.append_assoc, List.nil_append]
      rfl
    | false =>
      rw [if_neg Bool.false_ne_true, if_neg Bool.false_ne_true, List.singleton_append,
        IndentedLine.join_cons _ _ _ nonempty]
      simp only [IndentedLine.written, List.append_assoc]
      rfl

/-! ### Putting passages together -/

/-- A passage behind a text. -/
def prepend {opening : List Char} (opens : Comment.Opens opening) : Passage → Passage
  | line text isLine => line (opening ++ text) (isLine.prepend opens)
  | above text isLine isSetOff depth rest =>
    above (opening ++ text) (isLine.prepend opens) isSetOff depth rest

/-- A passage in front of a text. -/
def append {closing : List Char} (closes : Comment.Closes closing) : Passage → Passage
  | line text isLine => line (text ++ closing) (isLine.append closes)
  | above text isLine isSetOff depth rest =>
    above text isLine isSetOff depth (rest.append closes)

/-- Two passages with a text between them, in one line with both. -/
def beside {gap : List Char} (unbroken : Comment.Unbroken gap) :
    Passage → Passage → Passage
  | line _ isLine, next => next.prepend (isLine.opens_append unbroken)
  | above text isLine isSetOff depth rest, next =>
    above text isLine isSetOff depth (rest.beside unbroken next)

/-- A passage with another one below it. -/
def atop (isSetOff : Bool) (depth : Nat) : Passage → Passage → Passage
  | line text isLine, next => above text isLine isSetOff depth next
  | above text isLine isUpper upper rest, next =>
    above text isLine isUpper upper (rest.atop isSetOff depth next)

variable (isSpaced : Bool)

theorem doc_prepend {opening : List Char} (opens : Comment.Opens opening) (passage : Passage) :
    (passage.prepend opens).doc isSpaced = Doc.ofText opening ++ passage.doc isSpaced := by
  cases passage with
  | line => exact Doc.ofText_append ..
  | above text isLine isSetOff depth rest =>
    rw [prepend, doc, doc, Doc.ofText_append, List.append_assoc, List.append_assoc,
      List.append_assoc]

theorem doc_append {closing : List Char} (closes : Comment.Closes closing) (passage : Passage) :
    (passage.append closes).doc isSpaced = passage.doc isSpaced ++ Doc.ofText closing := by
  induction passage with
  | line => exact Doc.ofText_append ..
  | above text isLine isSetOff depth rest inductionHypothesis =>
    rw [append, doc, doc, inductionHypothesis]
    simp only [List.append_assoc, List.cons_append]

theorem doc_beside {gap : List Char} (unbroken : Comment.Unbroken gap)
    (first second : Passage) : (first.beside unbroken second).doc isSpaced =
      first.doc isSpaced ++ Doc.ofText gap ++ second.doc isSpaced := by
  induction first with
  | line text isLine => rw [beside, doc_prepend, Doc.ofText_append, doc]
  | above text isLine isSetOff depth rest inductionHypothesis =>
    rw [beside, doc, doc, inductionHypothesis]
    simp only [List.append_assoc, List.cons_append]

theorem doc_atop (isSetOff : Bool) (depth : Nat) (first second : Passage) :
    (first.atop isSetOff depth second).doc isSpaced = first.doc isSpaced
      ++ (if isSpaced && isSetOff then [.lineBreak 0] else [])
      ++ .lineBreak depth :: second.doc isSpaced := by
  induction first with
  | line => rfl
  | above text isLine isUpper upper rest inductionHypothesis =>
    rw [atop, doc, doc, inductionHypothesis]
    simp only [List.append_assoc, List.cons_append]

end Passage

end LuaStyle
