/-
This file is about the content lines of a text, by which comments are compared.

Blank characters around a text make no difference to its content lines, and a text that is cut at a
line break has the content lines of its two parts, one after the other. So however lines are
indented and ended, the content lines of what is written are the lines that were to be written. A
line itself is told by its ends: no blank character is there, and no line break anywhere.
-/

import LuaStyle.Layout.Printer
import LuaStyle.Proofs.Spelled

namespace LuaStyle

/-! ### Trimming -/

theorem trim_cons_of_isBlank {c : Char} (blank : isBlank c) (text : List Char) :
    trim (c :: text) = trim text := by
  rw [trim, trim, List.dropWhile_cons, if_pos blank]

theorem trim_concat_of_isBlank {c : Char} (blank : isBlank c) (text : List Char) :
    trim (text ++ [c]) = trim text := by
  rw [trim, trim, List.dropWhile_append]
  cases inner : text.dropWhile isBlank with
  | nil =>
    rw [List.isEmpty_nil, if_pos rfl, List.dropWhile_cons, if_pos blank]
    rfl
  | cons d rest =>
    rw [List.isEmpty_cons, if_neg Bool.false_ne_true, dropTrailing, List.reverse_append,
      List.reverse_singleton, List.singleton_append, List.dropWhile_cons, if_pos blank,
      dropTrailing]

/-- A text that neither starts nor ends with a blank character stays when it is trimmed. -/
theorem trim_eq_self {text : List Char} (first : ∀ c ∈ text.head?, isBlank c = false)
    (last : ∀ c ∈ text.getLast?, isBlank c = false) : trim text = text := by
  rw [trim, dropWhile_eq_self first, dropTrailing, dropWhile_eq_self, List.reverse_reverse]
  rw [List.head?_reverse]
  exact last

/-- Blank characters around it are all that a text has besides the trimmed text. -/
theorem exists_eq_append_trim (text : List Char) :
    ∃ before after, text = before ++ trim text ++ after ∧ (∀ c ∈ before, isBlank c) ∧
      ∀ c ∈ after, isBlank c := by
  refine ⟨text.takeWhile isBlank, ((text.dropWhile isBlank).reverse.takeWhile isBlank).reverse,
    ?_, fun c member => List.all_eq_true.1 List.all_takeWhile c member, fun c member =>
      List.all_eq_true.1 List.all_takeWhile c (List.mem_reverse.1 member)⟩
  rw [trim, dropTrailing, List.append_assoc, ← List.reverse_append, List.takeWhile_append_dropWhile,
    List.reverse_reverse, List.takeWhile_append_dropWhile]

/-- A trimmed text does not start with a blank. -/
theorem head?_trim (text : List Char) : ∀ c ∈ (trim text).head?, isBlank c = false := by
  intro c first
  obtain ⟨more, same⟩ : trim text <+: text.dropWhile isBlank := by
    rw [trim, dropTrailing]
    have suffix := List.dropWhile_suffix isBlank (l := (text.dropWhile isBlank).reverse)
    exact List.reverse_suffix.1 (by rwa [List.reverse_reverse])
  refine head?_dropWhile text c ?_
  rw [← same, List.head?_append, first]
  rfl

/-- A trimmed text does not end with a blank. -/
theorem getLast?_trim (text : List Char) : ∀ c ∈ (trim text).getLast?, isBlank c = false := by
  intro c last
  rw [trim, dropTrailing, List.getLast?_reverse] at last
  exact head?_dropWhile _ c last

theorem trim_trim (text : List Char) : trim (trim text) = trim text :=
  trim_eq_self (head?_trim text) (getLast?_trim text)

theorem mem_of_mem_trim {text : List Char} {c : Char} (member : c ∈ trim text) : c ∈ text := by
  obtain ⟨before, after, same, -⟩ := exists_eq_append_trim text
  rw [same]
  exact List.mem_append_left _ (List.mem_append_right _ member)

/-- A text is blank throughout if nothing remains of it. -/
theorem isBlank_of_trim_eq_nil {text : List Char} (none : trim text = []) :
    ∀ c ∈ text, isBlank c := by
  obtain ⟨before, after, same, blankBefore, blankAfter⟩ := exists_eq_append_trim text
  rw [none, List.append_nil] at same
  rw [same]
  exact List.forall_mem_append.2 ⟨blankBefore, blankAfter⟩

theorem isBlank_of_isLineBreak {c : Char} (lineBreak : Token.isLineBreak c) : isBlank c := by
  rw [Token.isLineBreak, Bool.or_eq_true, beq_iff_eq, beq_iff_eq] at lineBreak
  rcases lineBreak with rfl | rfl <;> rfl

/-! ### Content lines -/

namespace Comment

theorem split_ne_nil (text : List Char) : split text ≠ [] := by
  cases text with
  | nil => exact List.cons_ne_nil _ _
  | cons c rest =>
    rw [split]
    split
    · exact List.cons_ne_nil _ _
    · split <;> exact List.cons_ne_nil _ _

/-- A line break divides the lines before it from those behind it. -/
theorem split_append (first rest : List Char) {c : Char} (lineBreak : Token.isLineBreak c) :
    split (first ++ c :: rest) = split first ++ split rest := by
  induction first with
  | nil =>
    show split (c :: rest) = [] :: split rest
    rw [split, if_pos lineBreak]
  | cons d first inductionHypothesis =>
    rw [List.cons_append, split, split, inductionHypothesis]
    split
    · rfl
    · cases lines : split first with
      | nil => exact absurd lines (split_ne_nil first)
      | cons line lines => rfl

theorem split_of_noLineBreak {text : List Char}
    (none : ∀ c ∈ text, Token.isLineBreak c = false) : split text = [text] := by
  induction text with
  | nil => rfl
  | cons c rest inductionHypothesis =>
    obtain ⟨first, others⟩ := List.forall_mem_cons.1 none
    rw [split, first, if_neg Bool.false_ne_true, inductionHypothesis others]

/-- A text that is cut at a line break has the content lines of its two parts. -/
theorem contentLines_append (first rest : List Char) {c : Char}
    (lineBreak : Token.isLineBreak c) :
    contentLines (first ++ c :: rest) = contentLines first ++ contentLines rest := by
  rw [contentLines, split_append first rest lineBreak, List.map_append, List.filter_append]
  rfl

theorem contentLines_nil : contentLines [] = [] := rfl

theorem contentLines_of_noLineBreak {text : List Char}
    (none : ∀ c ∈ text, Token.isLineBreak c = false) :
    contentLines text = if trim text = [] then [] else [trim text] := by
  rw [contentLines, split_of_noLineBreak none, List.map_singleton]
  split
  next empty => rw [empty]; rfl
  next some => rw [List.filter_cons, List.isEmpty_eq_false_iff.2 some]; rfl

theorem contentLines_cons_of_isBlank {c : Char} (blank : isBlank c) (text : List Char) :
    contentLines (c :: text) = contentLines text := by
  rw [contentLines, split]
  split
  · rfl
  · rw [contentLines]
    cases lines : split text with
    | nil => exact absurd lines (split_ne_nil text)
    | cons line lines =>
      dsimp only
      rw [List.map_cons, List.map_cons, trim_cons_of_isBlank blank]

/-- Blanks in front of a text do not change its content. -/
theorem contentLines_append_of_isBlank {blank : List Char} (isBlank : ∀ c ∈ blank, isBlank c)
    (text : List Char) : contentLines (blank ++ text) = contentLines text := by
  induction blank with
  | nil => rfl
  | cons c rest inductionHypothesis =>
    obtain ⟨first, others⟩ := List.forall_mem_cons.1 isBlank
    rw [List.cons_append, contentLines_cons_of_isBlank first, inductionHypothesis others]

/-- A text goes on to its first line break, or to its end. -/
theorem line_or_cut (text : List Char) :
    (∀ c ∈ text, Token.isLineBreak c = false) ∨
      ∃ line c rest, text = line ++ c :: rest ∧ (∀ d ∈ line, Token.isLineBreak d = false) ∧
        Token.isLineBreak c := by
  induction text with
  | nil => exact .inl fun _ member => nomatch member
  | cons c rest inductionHypothesis =>
    cases lineBreak : Token.isLineBreak c with
    | true => exact .inr ⟨[], c, rest, rfl, fun _ member => (nomatch member), lineBreak⟩
    | false =>
      rcases inductionHypothesis with none | ⟨line, d, more, rfl, none, cut⟩
      · exact .inl (List.forall_mem_cons.2 ⟨lineBreak, none⟩)
      · exact .inr ⟨c :: line, d, more, rfl, List.forall_mem_cons.2 ⟨lineBreak, none⟩, cut⟩

theorem contentLines_concat_of_isBlank {c : Char} (blank : isBlank c) (text : List Char) :
    contentLines (text ++ [c]) = contentLines text := by
  cases lineBreak : Token.isLineBreak c with
  | true => rw [contentLines_append text [] lineBreak, contentLines_nil, List.append_nil]
  | false =>
    induction length : text.length using Nat.strongRecOn generalizing text with
    | ind bound inductionHypothesis =>
      rcases line_or_cut text with none | ⟨line, d, rest, rfl, none, cut⟩
      · have both : ∀ d ∈ text ++ [c], Token.isLineBreak d = false :=
          List.forall_mem_append.2 ⟨none, fun d member => by
            rw [List.mem_singleton.1 member]
            exact lineBreak⟩
        rw [contentLines_of_noLineBreak both, contentLines_of_noLineBreak none,
          trim_concat_of_isBlank blank]
      · have shorter : rest.length < bound := by
          rw [← length, List.length_append, List.length_cons]
          omega
        rw [List.append_assoc, List.cons_append, contentLines_append line _ cut,
          contentLines_append line _ cut, inductionHypothesis _ shorter rest rfl]

/-- Blanks behind a text do not change its content. -/
theorem contentLines_append_of_isBlank_right {blank : List Char}
    (isBlank : ∀ c ∈ blank, isBlank c) (text : List Char) :
    contentLines (text ++ blank) = contentLines text := by
  induction blank generalizing text with
  | nil => rw [List.append_nil]
  | cons c rest inductionHypothesis =>
    obtain ⟨first, others⟩ := List.forall_mem_cons.1 isBlank
    rw [← List.singleton_append, ← List.append_assoc, inductionHypothesis others,
      contentLines_concat_of_isBlank first]

/-- Trimming a text does not change its content lines. -/
theorem contentLines_trim (text : List Char) : contentLines (trim text) = contentLines text := by
  obtain ⟨before, after, same, blankBefore, blankAfter⟩ := exists_eq_append_trim text
  conv => rhs; rw [same]
  rw [contentLines_append_of_isBlank_right blankAfter,
    contentLines_append_of_isBlank blankBefore]

/-- A content line is not empty, has no blank characters around it, and is one line. -/
structure IsLine (line : List Char) : Prop where
  nonempty : line ≠ []
  trimmed : trim line = line
  noLineBreak : ∀ c ∈ line, Token.isLineBreak c = false

theorem noLineBreak_of_mem_split {text line : List Char} (member : line ∈ split text) :
    ∀ c ∈ line, Token.isLineBreak c = false := by
  induction text generalizing line with
  | nil =>
    cases List.mem_singleton.1 member
    exact fun _ member => nomatch member
  | cons c rest inductionHypothesis =>
    rw [split] at member
    split at member
    · rcases List.mem_cons.1 member with rfl | member
      · exact fun _ member => nomatch member
      · exact inductionHypothesis member
    next noLineBreak =>
      have first : Token.isLineBreak c = false := Bool.eq_false_iff.2 noLineBreak
      cases lines : split rest with
      | nil => exact absurd lines (split_ne_nil rest)
      | cons head tail =>
        rw [lines] at member inductionHypothesis
        rcases List.mem_cons.1 member with rfl | member
        · exact List.forall_mem_cons.2 ⟨first, inductionHypothesis List.mem_cons_self⟩
        · exact inductionHypothesis (List.mem_cons_of_mem _ member)

/-- Every content line is a line: not empty, trimmed, and without line breaks. -/
theorem isLine_of_mem_contentLines {text line : List Char} (member : line ∈ contentLines text) :
    IsLine line := by
  obtain ⟨member, nonempty⟩ := List.mem_filter.1 member
  obtain ⟨raw, inside, rfl⟩ := List.mem_map.1 member
  refine ⟨?_, trim_trim raw,
    fun c among => noLineBreak_of_mem_split inside c (mem_of_mem_trim among)⟩
  rintro empty
  rw [empty] at nonempty
  cases nonempty

/-- A line is its own only content line. -/
theorem IsLine.contentLines_eq {line : List Char} (isLine : IsLine line) :
    contentLines line = [line] := by
  rw [contentLines_of_noLineBreak isLine.noLineBreak, isLine.trimmed, if_neg isLine.nonempty]

/-- However lines are set apart, they are the content lines of what is written. -/
theorem contentLines_written {lines : List (List Char)} (areLines : ∀ line ∈ lines, IsLine line)
    {before after : List Char} {c d : Char} (firstBreak : Token.isLineBreak c)
    (lastBreak : Token.isLineBreak d) (blankBefore : ∀ e ∈ before, isBlank e)
    (blankAfter : ∀ e ∈ after, isBlank e) :
    contentLines (lines.flatMap (fun line => c :: before ++ line) ++ d :: after) = lines := by
  induction lines with
  | nil =>
    rw [List.flatMap_nil, contentLines_append [] _ lastBreak, contentLines_nil,
      ← List.append_nil after, contentLines_append_of_isBlank blankAfter]
    rfl
  | cons line others inductionHypothesis =>
    obtain ⟨isLine, othersAreLines⟩ := List.forall_mem_cons.1 areLines
    have written := inductionHypothesis othersAreLines
    have blankFirst : ∀ e ∈ c :: before, isBlank e :=
      List.forall_mem_cons.2 ⟨isBlank_of_isLineBreak firstBreak, blankBefore⟩
    rw [List.flatMap_cons, List.append_assoc, List.append_assoc,
      contentLines_append_of_isBlank blankFirst]
    cases others with
    | nil =>
      rw [List.flatMap_nil, contentLines_append [] _ lastBreak] at written
      rw [List.flatMap_nil, List.nil_append, contentLines_append line _ lastBreak,
        isLine.contentLines_eq]
      exact congrArg _ written
    | cons second others =>
      rw [List.flatMap_cons, List.cons_append, List.cons_append, List.cons_append,
        contentLines_cons_of_isBlank (isBlank_of_isLineBreak firstBreak)] at written
      rw [List.flatMap_cons, List.cons_append, List.cons_append, List.cons_append,
        contentLines_append line _ firstBreak, isLine.contentLines_eq]
      exact congrArg _ written

/-! ### The ends of a line -/

/-- No line break is in the text. -/
def Unbroken (text : List Char) : Prop :=
  ∀ c ∈ text, Token.isLineBreak c = false

/-- A line can start with the text. -/
def Opens (text : List Char) : Prop :=
  (∀ c ∈ text.head?, isBlank c = false) ∧ Unbroken text

/-- A line can end with the text. -/
def Closes (text : List Char) : Prop :=
  (∀ c ∈ text.getLast?, isBlank c = false) ∧ Unbroken text

variable {text first second : List Char}

instance (text : List Char) : Decidable (Unbroken text) :=
  decidable_of_iff (text.all fun c => !Token.isLineBreak c) (by simp [Unbroken])

instance (text : List Char) : Decidable (Opens text) :=
  decidable_of_iff ((text.head?.all fun c => !isBlank c) ∧ Unbroken text) (by
    rw [Opens]
    cases text.head? <;> simp)

instance (text : List Char) : Decidable (Closes text) :=
  decidable_of_iff ((text.getLast?.all fun c => !isBlank c) ∧ Unbroken text) (by
    rw [Closes]
    cases text.getLast? <;> simp)

theorem isLine_iff : IsLine text ↔ text ≠ [] ∧ Opens text ∧ Closes text := by
  constructor
  · intro isLine
    have head := head?_trim text
    have last := getLast?_trim text
    rw [isLine.trimmed] at head last
    exact ⟨isLine.nonempty, ⟨head, isLine.noLineBreak⟩, last, isLine.noLineBreak⟩
  · rintro ⟨nonempty, ⟨head, unbroken⟩, last, -⟩
    exact ⟨nonempty, trim_eq_self head last, unbroken⟩

instance (text : List Char) : Decidable (IsLine text) :=
  decidable_of_iff (text.isEmpty = false ∧ Opens text ∧ Closes text) (by
    rw [isLine_iff, List.isEmpty_eq_false_iff])

theorem IsLine.opens (isLine : IsLine text) : Opens text :=
  (isLine_iff.1 isLine).2.1

theorem IsLine.closes (isLine : IsLine text) : Closes text :=
  (isLine_iff.1 isLine).2.2

theorem IsLine.noLineFeed (isLine : IsLine text) : '\n' ∉ text :=
  fun member => Bool.false_ne_true (isLine.noLineBreak '\n' member).symm

/-- A text is a line if it has no blank characters at all. -/
theorem isLine_of_noBlank (nonempty : text ≠ []) (solid : ∀ c ∈ text, isBlank c = false) :
    IsLine text := by
  have unbroken : Unbroken text := fun c member => by
    refine Bool.eq_false_iff.2 fun lineBreak => ?_
    cases (isBlank_of_isLineBreak lineBreak).symm.trans (solid c member)
  exact isLine_iff.2 ⟨nonempty, ⟨fun c head => solid c (List.mem_of_head? head), unbroken⟩,
    fun c last => solid c (List.mem_of_getLast? last), unbroken⟩

/-- What stands behind the start of a line does not change how it starts. -/
theorem IsLine.opens_append (isLine : IsLine first) (unbroken : Unbroken second) :
    Opens (first ++ second) := by
  refine ⟨?_, List.forall_mem_append.2 ⟨isLine.noLineBreak, unbroken⟩⟩
  cases first with
  | nil => exact absurd rfl isLine.nonempty
  | cons c first => exact isLine.opens.1

theorem IsLine.prepend (isLine : IsLine text) (opens : Opens first) : IsLine (first ++ text) := by
  have unbroken : Unbroken (first ++ text) :=
    List.forall_mem_append.2 ⟨opens.2, isLine.noLineBreak⟩
  refine isLine_iff.2 ⟨List.append_ne_nil_of_right_ne_nil _ isLine.nonempty, ⟨?_, unbroken⟩, ?_,
    unbroken⟩
  · cases first with
    | nil => exact isLine.opens.1
    | cons c first => exact opens.1
  · cases text with
    | nil => exact absurd rfl isLine.nonempty
    | cons c text =>
      rw [List.getLast?_append, List.getLast?_cons, Option.some_or, ← List.getLast?_cons]
      exact isLine.closes.1

theorem IsLine.append (isLine : IsLine text) (closes : Closes second) :
    IsLine (text ++ second) := by
  have unbroken : Unbroken (text ++ second) :=
    List.forall_mem_append.2 ⟨isLine.noLineBreak, closes.2⟩
  refine isLine_iff.2 ⟨List.append_ne_nil_of_left_ne_nil isLine.nonempty _,
    isLine.opens_append closes.2, ?_, unbroken⟩
  cases second with
  | nil =>
    rw [List.append_nil]
    exact isLine.closes.1
  | cons c second =>
    rw [List.getLast?_append, List.getLast?_cons, Option.some_or, ← List.getLast?_cons]
    exact closes.1

end Comment

end LuaStyle
