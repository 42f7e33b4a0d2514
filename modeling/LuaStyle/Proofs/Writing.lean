/-
This file follows the lexer through a document.

A document is laid out from parts, and what is proved about the text of each part is put together as
the document is. A line break becomes space characters whatever the indentation and the line ending
are, so nothing that is said about documents depends on the two.
-/

import LuaStyle.Layout.Config
import LuaStyle.Layout.Doc
import LuaStyle.Proofs.Cutting

namespace LuaStyle

/-- The rest starts with a line break, or there is none. -/
def LineEnds (rest : List Char) : Prop :=
  ∀ c ∈ rest.head?, Token.isLineBreak c

theorem LineEnds.stops {rest : List Char} (ends : LineEnds rest) : Token.Stops rest := by
  intro c first
  have lineBreak := ends c first
  rw [Token.isLineBreak, Bool.or_eq_true, beq_iff_eq, beq_iff_eq] at lineBreak
  rcases lineBreak with rfl | rfl <;> rfl

namespace Doc

theorem ofText_append (first second : List Char) :
    ofText (first ++ second) = ofText first ++ ofText second :=
  List.map_append

theorem commaSeparated_singleton (doc : Doc) : commaSeparated [doc] = doc :=
  List.append_nil doc

theorem commaSeparated_cons (first second : Doc) (docs : List Doc) :
    commaSeparated (first :: second :: docs) =
      first ++ (ofText Token.Symbol.comma.text
        ++ .char ' ' :: commaSeparated (second :: docs)) := by
  rw [commaSeparated, List.intercalate, List.intersperse_cons_cons, List.flatten_cons,
    List.flatten_cons]
  rfl

variable (config : Config)

/-! ### The text of a document -/

/-- The text that the document becomes. -/
def written (doc : Doc) : List Char :=
  doc.render config.indentation.text config.lineEnding.text

theorem written_append (first second : Doc) :
    written config (first ++ second) = written config first ++ written config second :=
  List.flatMap_append

theorem written_char (c : Char) (doc : Doc) :
    written config (.char c :: doc) = c :: written config doc := rfl

theorem written_ofText {text : List Char} (single : '\n' ∉ text) :
    written config (ofText text) = text := by
  induction text with
  | nil => rfl
  | cons c rest inductionHypothesis =>
    rw [List.mem_cons, not_or] at single
    obtain ⟨different, others⟩ := single
    have step : ofText (c :: rest) = .char c :: ofText rest := by
      rw [ofText, List.map_cons, if_neg (Ne.symm different)]
      rfl
    rw [step, written_char, inductionHypothesis others]

theorem written_cons_lineBreak (depth : Nat) (doc : Doc) :
    written config (.lineBreak depth :: doc) = config.lineEnding.text ++
      ((List.replicate depth config.indentation.text).flatten ++ written config doc) :=
  List.append_assoc ..

/-- A line break becomes space characters, of which the first ends the line. -/
theorem written_lineBreak (depth : Nat) : ∃ c blank, Token.isLineBreak c ∧
    (∀ d ∈ blank, Token.isSpace d) ∧
      ∀ doc, written config (.lineBreak depth :: doc) = c :: blank ++ written config doc := by
  have indented : ∀ d ∈ (List.replicate depth config.indentation.text).flatten,
      Token.isSpace d := by
    intro d member
    obtain ⟨unit, among, member⟩ := List.mem_flatten.1 member
    cases List.eq_of_mem_replicate among
    cases indentation : config.indentation with
    | tab =>
      rw [indentation] at member
      cases List.mem_singleton.1 member
      rfl
    | spaces count =>
      rw [indentation] at member
      cases List.eq_of_mem_replicate member
      rfl
  obtain ⟨c, more, same, lineBreak, blank⟩ : ∃ c more, config.lineEnding.text = c :: more ∧
      Token.isLineBreak c ∧ ∀ d ∈ more, Token.isSpace d := by
    cases config.lineEnding with
    | native | lineFeed => exact ⟨'\n', [], rfl, rfl, fun _ member => nomatch member⟩
    | carriageReturnLineFeed => exact ⟨'\r', ['\n'], rfl, rfl, List.forall_mem_singleton.2 rfl⟩
  refine ⟨c, more ++ _, lineBreak, List.forall_mem_append.2 ⟨blank, indented⟩, fun doc => ?_⟩
  rw [written_cons_lineBreak, same, ← List.append_assoc]
  rfl

/-! ### Parts of a document -/

/-- With the rest behind it, the document is cut into tokens of which the condition holds. -/
def Cuts (doc : Doc) (rest : List Char) (holds : List Token → Prop) : Prop :=
  Token.Cuts (doc.written config) rest holds

/-- One token of the kind. -/
def One (kind : Token.Kind) (tokens : List Token) : Prop :=
  ∃ token, tokens = [token] ∧ token.kind = kind

variable {config}

namespace Cuts

variable {doc first second : Doc} {rest : List Char} {holds weaker before after : List Token → Prop}

theorem mono (cuts : doc.Cuts config rest holds)
    (implies : ∀ tokens, holds tokens → weaker tokens) :
    doc.Cuts config rest weaker :=
  Token.Cuts.mono cuts implies

theorem nil : Cuts config [] rest (· = []) :=
  Token.Cuts.nil

theorem append (cuts : first.Cuts config (second.written config ++ rest) before)
    (further : second.Cuts config rest after) :
    (first ++ second).Cuts config rest (Token.Joined before after) := by
  rw [Cuts, written_append]
  exact Token.Cuts.append cuts further

theorem space (cuts : doc.Cuts config rest holds) : Cuts config (.char ' ' :: doc) rest holds :=
  Token.Cuts.space rfl cuts

theorem lineBreak (depth : Nat) (cuts : doc.Cuts config rest holds) :
    Cuts config (.lineBreak depth :: doc) rest holds := by
  obtain ⟨c, blank, lineBreak, blanks, same⟩ := written_lineBreak config depth
  rw [Cuts, same]
  exact Token.Cuts.spaces
    (List.forall_mem_cons.2 ⟨Token.isSpace_of_isLineBreak lineBreak, blanks⟩) cuts

/-- A single space at the end. -/
theorem thenSpace (cuts : doc.Cuts config (' ' :: rest) holds) :
    Cuts config (doc ++ [.char ' ']) rest holds := by
  rw [Cuts, written_append]
  exact Token.Cuts.trailing cuts (List.forall_mem_singleton.2 rfl)

/-- A single line break at the end. -/
theorem thenLineBreak (depth : Nat)
    (cuts : doc.Cuts config (written config [.lineBreak depth] ++ rest) holds) :
    Cuts config (doc ++ [.lineBreak depth]) rest holds := by
  rw [Cuts, written_append]
  obtain ⟨c, blank, lineBreak, blanks, same⟩ := written_lineBreak config depth
  refine Token.Cuts.trailing cuts ?_
  rw [same, written, render, List.flatMap_nil, List.append_nil]
  exact List.forall_mem_cons.2 ⟨Token.isSpace_of_isLineBreak lineBreak, blanks⟩

end Cuts

theorem lineEnds_lineBreak (depth : Nat) (doc : Doc) (rest : List Char) :
    LineEnds (written config (.lineBreak depth :: doc) ++ rest) := by
  obtain ⟨c, blank, lineBreak, -, same⟩ := written_lineBreak config depth
  rw [same]
  intro d first
  cases first
  exact lineBreak

theorem not_mem_word (word : Token.Keyword) : '\n' ∉ word.text := by
  cases word <;> decide

theorem not_mem_symbol (mark : Token.Symbol) : '\n' ∉ mark.text := by
  cases mark <;> decide

theorem not_mem_name {text : List Char} (named : Token.IsName text) : '\n' ∉ text := by
  obtain ⟨c, rest, rfl, start, parts, -⟩ := named
  rw [List.mem_cons, not_or]
  refine ⟨?_, fun member => nomatch parts _ member⟩
  rintro rfl
  cases start

/-- A reserved word. -/
theorem cuts_word (word : Token.Keyword) {rest : List Char} (ends : Token.EndsName rest) :
    (ofText word.text).Cuts config rest (One (.keyword word)) := by
  rw [Cuts, written_ofText config (not_mem_word word)]
  refine (Token.cuts_word word ends).mono ?_
  rintro _ ⟨token, rfl, kind, -⟩
  exact ⟨token, rfl, kind⟩

/-- A symbol. -/
theorem cuts_symbol (mark : Token.Symbol) {rest : List Char} (ends : mark.EndsIn rest) :
    (ofText mark.text).Cuts config rest (One (.symbol mark)) := by
  rw [Cuts, written_ofText config (not_mem_symbol mark)]
  refine (Token.cuts_symbol mark ends).mono ?_
  rintro _ ⟨token, rfl, kind, -⟩
  exact ⟨token, rfl, kind⟩

end Doc

end LuaStyle
