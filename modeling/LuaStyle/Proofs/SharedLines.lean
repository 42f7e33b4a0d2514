/-
This file proves that the parts of the printer lay out passages.

Two sets of choices that differ at most in how a level is indented, how a line ends and whether
empty lines are left have documents that are layouts of one passage. Whatever the printer makes of
such documents are again layouts of one passage: a text that it adds in front or behind does not
start or end with a space, it breaks a line only between two such documents, and what it measures
differs only if there is a line break anyhow. Blocks that are not closed yet, and tables, are put
together from what stands before them.
-/

import LuaStyle.Proofs.LaidStatements
import LuaStyle.Proofs.Passages

namespace LuaStyle

/-! ### Texts on one line -/

theorem LongBracket.isLine_closing (level : Nat) : Comment.IsLine (closing level) :=
  Comment.isLine_of_noBlank (closing_ne_nil level) (isBlank_of_mem_closing level)

theorem LongBracket.isLine_opening (level : Nat) : Comment.IsLine (opening level) := by
  refine Comment.isLine_of_noBlank (List.cons_ne_nil _ _) fun c member => ?_
  simp only [opening, List.mem_append, List.mem_cons, List.mem_replicate, List.not_mem_nil,
    or_false] at member
  rcases member with (rfl | ⟨-, rfl⟩) | rfl <;> rfl

theorem Literal.isLine_doc {config : Config} {constant : Literal}
    (grammatical : constant.IsGrammatical) {doc : Doc} (laid : constant.doc config = .ok doc) :
    ∃ text, Comment.IsLine text ∧ doc = Doc.ofText text := by
  obtain ⟨value, raw, span⟩ := constant
  cases value with
  | nil =>
    cases laid
    exact ⟨raw, (show raw = _ from grammatical) ▸ Token.Keyword.isLine_text _, rfl⟩
  | boolean value =>
    cases laid
    cases value <;>
      exact ⟨raw, (show raw = _ from grammatical) ▸ Token.Keyword.isLine_text _, rfl⟩
  | vararg =>
    cases laid
    exact ⟨raw, (show raw = _ from grammatical) ▸ Token.Symbol.isLine_text _, rfl⟩
  | number value =>
    obtain ⟨isNumber, named⟩ := grammatical
    rw [Literal.doc] at laid
    dsimp only at laid
    rw [Literal.numberDoc_eq_ok named] at laid
    cases laid
    exact ⟨_, (Token.isNumber_normalNumber isNumber named).isLine, rfl⟩
  | string bytes =>
    cases laid
    exact ⟨_, Quoted.isLine_encode bytes config.quoteStyle, rfl⟩

/-! ### Documents with the same lines -/

/-- The choices lay out the same lines: they differ at most in indentation, the end of a line, and
whether empty lines are left. -/
structure Config.Agrees (first second : Config) : Prop where
  inlineBlocks : first.inlineBlocks = second.inlineBlocks
  inlineTables : first.inlineTables = second.inlineTables
  quoteStyle : first.quoteStyle = second.quoteStyle

/-- The documents are layouts of one passage, with empty lines as the choices have them. -/
def Doc.ShareLines (first second : Config) (doc other : Doc) : Prop :=
  ∃ passage : Passage,
    passage.doc first.extraNewlines = doc ∧ passage.doc second.extraNewlines = other

variable {first second : Config}

namespace Doc.ShareLines

variable {doc other upper otherUpper lower otherLower : Doc}

theorem ofText {text : List Char} (isLine : Comment.IsLine text) :
    ShareLines first second (Doc.ofText text) (Doc.ofText text) :=
  ⟨.line text isLine, rfl, rfl⟩

theorem prepend (share : ShareLines first second doc other) {opening : List Char}
    (opens : Comment.Opens opening) :
    ShareLines first second (Doc.ofText opening ++ doc) (Doc.ofText opening ++ other) := by
  obtain ⟨passage, rfl, rfl⟩ := share
  exact ⟨passage.prepend opens, passage.doc_prepend _ opens, passage.doc_prepend _ opens⟩

theorem append (share : ShareLines first second doc other) {closing : List Char}
    (closes : Comment.Closes closing) :
    ShareLines first second (doc ++ Doc.ofText closing) (other ++ Doc.ofText closing) := by
  obtain ⟨passage, rfl, rfl⟩ := share
  exact ⟨passage.append closes, passage.doc_append _ closes, passage.doc_append _ closes⟩

theorem beside (upperShare : ShareLines first second upper otherUpper)
    (lowerShare : ShareLines first second lower otherLower) {gap : List Char}
    (unbroken : Comment.Unbroken gap) :
    ShareLines first second (upper ++ Doc.ofText gap ++ lower)
      (otherUpper ++ Doc.ofText gap ++ otherLower) := by
  obtain ⟨before, rfl, rfl⟩ := upperShare
  obtain ⟨after, rfl, rfl⟩ := lowerShare
  exact ⟨before.beside unbroken after, before.doc_beside _ unbroken after,
    before.doc_beside _ unbroken after⟩

theorem join (upperShare : ShareLines first second upper otherUpper)
    (lowerShare : ShareLines first second lower otherLower) :
    ShareLines first second (upper ++ lower) (otherUpper ++ otherLower) := by
  have together := upperShare.beside lowerShare (List.forall_mem_nil _)
  rwa [Doc.ofText, List.map_nil, List.append_nil, List.append_nil] at together

/-- A document with another one below it, from which it may be set off. -/
theorem setOff (upperShare : ShareLines first second upper otherUpper)
    (lowerShare : ShareLines first second lower otherLower) (isSetOff : Bool) (depth : Nat) :
    ShareLines first second
      (upper ++ (if first.extraNewlines && isSetOff then [.lineBreak 0] else [])
        ++ .lineBreak depth :: lower)
      (otherUpper ++ (if second.extraNewlines && isSetOff then [.lineBreak 0] else [])
        ++ .lineBreak depth :: otherLower) := by
  obtain ⟨before, rfl, rfl⟩ := upperShare
  obtain ⟨after, rfl, rfl⟩ := lowerShare
  exact ⟨before.atop isSetOff depth after, before.doc_atop _ isSetOff depth after,
    before.doc_atop _ isSetOff depth after⟩

theorem atop (upperShare : ShareLines first second upper otherUpper)
    (lowerShare : ShareLines first second lower otherLower) (depth : Nat) :
    ShareLines first second (upper ++ .lineBreak depth :: lower)
      (otherUpper ++ .lineBreak depth :: otherLower) := by
  have together := upperShare.setOff lowerShare false depth
  rwa [Bool.and_false, Bool.and_false, if_neg Bool.false_ne_true, List.append_nil,
    List.append_nil] at together

theorem spaced (upperShare : ShareLines first second upper otherUpper)
    (lowerShare : ShareLines first second lower otherLower) :
    ShareLines first second (upper ++ .char ' ' :: lower)
      (otherUpper ++ .char ' ' :: otherLower) := by
  have gap : Comment.Unbroken [' '] := by decide
  have together := upperShare.beside lowerShare gap
  rwa [List.append_assoc, List.append_assoc] at together

/-- Two documents with a space or a line break between them. -/
theorem across (upperShare : ShareLines first second upper otherUpper)
    (lowerShare : ShareLines first second lower otherLower) (isInline : Bool) (depth : Nat) :
    ShareLines first second (upper ++ (if isInline then .char ' ' else .lineBreak depth) :: lower)
      (otherUpper ++ (if isInline then .char ' ' else .lineBreak depth) :: otherLower) := by
  cases isInline with
  | true => exact upperShare.spaced lowerShare
  | false => exact upperShare.atop lowerShare depth

/-! ### What is measured -/

/-- One document fits into a line if the other one does: otherwise both have a line break. -/
theorem fitsInline_eq (share : ShareLines first second doc other) :
    doc.fitsInline = other.fitsInline := by
  obtain ⟨passage, rfl, rfl⟩ := share
  cases passage with
  | line => rfl
  | above text isLine isSetOff depth rest =>
    have broken (isSpaced : Bool) :
        (Passage.doc isSpaced (.above text isLine isSetOff depth rest)).any isLineBreak := by
      rw [Passage.doc, List.any_append, List.any_cons]
      exact Bool.or_eq_true .. ▸ .inr rfl
    rw [fitsInline, fitsInline, broken, broken, Bool.not_true, Bool.and_false, Bool.and_false]

theorem head?_eq (share : ShareLines first second doc other) : doc.head? = other.head? := by
  obtain ⟨passage, rfl, rfl⟩ := share
  cases passage with
  | line => rfl
  | above text isLine isSetOff depth rest =>
    cases text with
    | nil => exact absurd rfl isLine.nonempty
    | cons c text => rfl

/-! ### Parentheses and commas -/

theorem parenthesize (share : ShareLines first second doc other) (needed : Bool) :
    ShareLines first second (Doc.parenthesize needed doc) (Doc.parenthesize needed other) := by
  cases needed with
  | false => exact share
  | true =>
    exact (share.prepend (Token.Symbol.isLine_text .leftParen).opens).append
      (Token.Symbol.isLine_text .rightParen).closes

end Doc.ShareLines

/-- Of each item there are two documents that share lines. -/
inductive Doc.ShareAll {Item : Type} (first second : Config) :
    List Item → List Doc → List Doc → Prop
  | nil : ShareAll first second [] [] []
  | cons {item items doc other docs others} : ShareLines first second doc other →
    ShareAll first second items docs others →
      ShareAll first second (item :: items) (doc :: docs) (other :: others)

namespace Doc.ShareAll

variable {Item : Type} {items : List Item} {docs others : List Doc}

theorem commaSeparated (share : ShareAll first second items docs others) (nonempty : items ≠ []) :
    ShareLines first second (Doc.commaSeparated docs) (Doc.commaSeparated others) := by
  induction share with
  | nil => exact absurd rfl nonempty
  | @cons item items doc other docs others single share inductionHypothesis =>
    cases share with
    | nil => rwa [commaSeparated_singleton, commaSeparated_singleton]
    | cons next share =>
      have further := inductionHypothesis (List.cons_ne_nil _ _)
      have gap : Comment.Unbroken [',', ' '] := by decide
      rw [Doc.commaSeparated, Doc.commaSeparated, List.intercalate_cons_cons,
        List.intercalate_cons_cons]
      exact single.beside further gap

theorem inParens (share : ShareAll first second items docs others) :
    ShareLines first second (Doc.parenthesize true (Doc.commaSeparated docs))
      (Doc.parenthesize true (Doc.commaSeparated others)) := by
  cases items with
  | nil =>
    cases share
    exact .ofText (show Comment.IsLine ['(', ')'] by decide)
  | cons item items => exact (share.commaSeparated (List.cons_ne_nil _ _)).parenthesize true

theorem all_fitsInline_eq (share : ShareAll first second items docs others) :
    docs.all fitsInline = others.all fitsInline := by
  induction share with
  | nil => rfl
  | cons single _ inductionHypothesis =>
    rw [List.all_cons, List.all_cons, single.fitsInline_eq, inductionHypothesis]

/-- Items whose layout does not depend on the choices. -/
theorem map {layout : Item → Doc}
    (each : ∀ item ∈ items, ShareLines first second (layout item) (layout item)) :
    ShareAll first second items (items.map layout) (items.map layout) := by
  induction items with
  | nil => exact .nil
  | cons item items inductionHypothesis =>
    obtain ⟨single, others⟩ := List.forall_mem_cons.1 each
    exact .cons single (inductionHypothesis others)

end Doc.ShareAll

namespace Doc.ShareLines

variable {doc other : Doc}

/-! ### Expressions -/

theorem binaryDoc {left right : Expression} {leftDoc rightDoc otherLeft otherRight : Doc}
    (leftShare : ShareLines first second leftDoc otherLeft)
    (rightShare : ShareLines first second rightDoc otherRight) (operator : BinaryOperator) :
    ShareLines first second (Expression.binaryDoc operator left right leftDoc rightDoc)
      (Expression.binaryDoc operator left right otherLeft otherRight) := by
  have isLine : Comment.IsLine operator.text := by
    cases operator <;> decide
  have leftSpaced := (leftShare.parenthesize (left.withoutParens.needsParensOnLeft operator)).spaced
    (.ofText isLine)
  exact leftSpaced.spaced
    (rightShare.parenthesize (right.withoutParens.needsParensOnRight operator))

theorem unaryDoc (share : ShareLines first second doc other) (operator : UnaryOperator)
    (argument : Expression) :
    ShareLines first second (Expression.unaryDoc operator argument doc)
      (Expression.unaryDoc operator argument other) := by
  have isLine : Comment.IsLine operator.text := by
    cases operator <;> decide
  rw [Expression.unaryDoc, Expression.unaryDoc]
  split
  · exact (share.parenthesize true).prepend isLine.opens
  split
  · exact (ofText isLine).spaced share
  · exact share.prepend isLine.opens

theorem baseDoc (share : ShareLines first second doc other) (base : Expression) :
    ShareLines first second (base.baseDoc doc) (base.baseDoc other) :=
  share.parenthesize _

end Doc.ShareLines

theorem Doc.ShareAll.argumentsDoc {arguments : List Expression} {docs others : List Doc}
    (share : ShareAll first second arguments docs others) :
    ShareLines first second (Expression.argumentsDoc arguments docs)
      (Expression.argumentsDoc arguments others) := by
  cases arguments with
  | nil => exact share.inParens
  | cons argument rest =>
    cases rest with
    | nil => exact (share.commaSeparated (List.cons_ne_nil _ _)).parenthesize _
    | cons next rest => exact share.inParens

/-- Names with commas between them. -/
theorem Name.shareLines_docs {names : List Name} (nonempty : names ≠ [])
    (named : ∀ name ∈ names, name.IsGrammatical) :
    Doc.ShareLines first second (docs names) (docs names) :=
  (Doc.ShareAll.map fun name member => .ofText (isLine_text (named name member))).commaSeparated
    nonempty

/-- Parameters in parentheses. -/
theorem Parameter.shareLines_docs {parameters : List Parameter}
    (grammatical : AreGrammatical parameters) :
    Doc.ShareLines first second (docs parameters) (docs parameters) := by
  refine (Doc.ShareAll.map fun parameter member => ?_).inParens
  cases parameter with
  | name identifier => exact .ofText (Name.isLine_text (grammatical.1 _ member))
  | vararg => exact .ofText (Token.Symbol.isLine_text .dotDotDot)

/-! ### Blocks -/

theorem Doc.ShareLines.guarded {doc other : Doc} (share : ShareLines first second doc other) :
    ShareLines first second (Statement.guarded doc) (Statement.guarded other) := by
  rw [Statement.guarded, Statement.guarded, share.head?_eq]
  split
  · exact share.prepend (Token.Symbol.isLine_text .semicolon).opens
  · exact share

namespace Doc.ShareAll

variable {body : List Statement} {docs others : List Doc}

/-- Statements below each other. Between the same two of them an empty line may be left. -/
theorem stack (share : ShareAll first second body docs others) (nonempty : body ≠ [])
    (depth : Nat) :
    ShareLines first second (Statement.stack first depth body docs)
      (Statement.stack second depth body others) := by
  -- A statement below another one may get a semicolon, so the documents change on the way down.
  induction body generalizing docs others with
  | nil => exact absurd rfl nonempty
  | cons statement rest inductionHypothesis =>
    cases share with
    | cons single share =>
      cases share with
      | nil => exact single
      | cons next share =>
        have further := inductionHypothesis (.cons next.guarded share) (List.cons_ne_nil _ _)
        exact single.setOff further _ depth

end Doc.ShareAll

namespace Statement

/-- The block stays on the line it starts on. -/
def staysInline (config : Config) (depth : Nat) (body : List Statement) (docs : List Doc) : Bool :=
  body.isEmpty ||
    (config.inlineBlocks && isSingle body && (stack config (depth + 1) body docs).fitsInline)

/-- An open block, unless it is empty, starts with a space or a line break. -/
theorem blockDoc_false (config : Config) (depth : Nat) (statement : Statement)
    (rest : List Statement) (docs : List Doc) :
    blockDoc config depth false (statement :: rest) docs =
      (if staysInline config depth (statement :: rest) docs then .char ' '
        else .lineBreak (depth + 1)) :: stack config (depth + 1) (statement :: rest) docs := by
  rw [blockDoc, staysInline, List.isEmpty_cons, if_neg Bool.false_ne_true, Bool.false_or]
  split <;> exact List.append_nil _

/-- A closed block is an open one with a space or a line break behind it. -/
theorem blockDoc_true (config : Config) (depth : Nat) (body : List Statement) (docs : List Doc) :
    blockDoc config depth true body docs = blockDoc config depth false body docs
      ++ [if staysInline config depth body docs then .char ' ' else .lineBreak depth] := by
  cases body with
  | nil => rfl
  | cons statement rest =>
    rw [blockDoc_false, blockDoc, staysInline, List.isEmpty_cons, if_neg Bool.false_ne_true,
      Bool.false_or]
    split <;> rfl

variable {body : List Statement} {docs others : List Doc}
  {opening otherOpening closing otherClosing : Doc}

theorem staysInline_eq (agrees : first.Agrees second)
    (share : Doc.ShareAll first second body docs others) (depth : Nat) :
    staysInline first depth body docs = staysInline second depth body others := by
  cases body with
  | nil => rfl
  | cons statement rest =>
    have inner := share.stack (List.cons_ne_nil _ _) (depth + 1)
    rw [staysInline, staysInline, agrees.inlineBlocks, inner.fitsInline_eq]

/-- A block that is not closed, behind what opens it. -/
theorem shareLines_openBlock (agrees : first.Agrees second)
    (openingShare : Doc.ShareLines first second opening otherOpening)
    (share : Doc.ShareAll first second body docs others) (depth : Nat) :
    Doc.ShareLines first second (opening ++ blockDoc first depth false body docs)
      (otherOpening ++ blockDoc second depth false body others) := by
  cases body with
  | nil =>
    rw [blockDoc, blockDoc, List.isEmpty_nil, if_pos rfl, if_pos rfl, if_neg Bool.false_ne_true,
      List.append_nil, List.append_nil]
    exact openingShare
  | cons statement rest =>
    rw [blockDoc_false, blockDoc_false, staysInline_eq agrees share]
    exact openingShare.across (share.stack (List.cons_ne_nil _ _) (depth + 1)) _ (depth + 1)

/-- A block between what opens and what closes it. -/
theorem shareLines_block (agrees : first.Agrees second)
    (openingShare : Doc.ShareLines first second opening otherOpening)
    (share : Doc.ShareAll first second body docs others)
    (closingShare : Doc.ShareLines first second closing otherClosing) (depth : Nat) :
    Doc.ShareLines first second (opening ++ blockDoc first depth true body docs ++ closing)
      (otherOpening ++ blockDoc second depth true body others ++ otherClosing) := by
  have opened := shareLines_openBlock agrees openingShare share depth
  have closed := opened.across closingShare (staysInline first depth body docs) depth
  rw [blockDoc_true, blockDoc_true, ← staysInline_eq agrees share]
  simpa only [List.append_assoc, List.singleton_append] using closed

end Statement

/-! ### Tables -/

namespace Field

variable {fields : List Field} {docs others : List Doc} {opening otherOpening : Doc}

/-- The fields of a table below what opens it. -/
theorem shareLines_stack (openingShare : Doc.ShareLines first second opening otherOpening)
    (share : Doc.ShareAll first second fields docs others) (depth : Nat) :
    Doc.ShareLines first second (opening ++ stack depth fields docs)
      (otherOpening ++ stack depth fields others) := by
  -- What stands before a field includes the fields above it.
  induction share generalizing opening otherOpening with
  | nil =>
    rw [stack, List.append_nil, List.append_nil]
    · exact openingShare
    · rintro _ _ _ _ ⟨⟩
  | @cons field rest doc other docs others single _ inductionHypothesis =>
    have below := openingShare.atop single depth
    rw [stack, stack]
    split
    · simp only [← List.append_assoc]
      exact inductionHypothesis (below.append (Token.Symbol.isLine_text .comma).closes)
    · simp only [List.append_nil, ← List.append_assoc]
      exact inductionHypothesis below

theorem shareLines_tableDoc (agrees : first.Agrees second)
    (share : Doc.ShareAll first second fields docs others) (depth : Nat) :
    Doc.ShareLines first second (tableDoc first depth fields docs)
      (tableDoc second depth fields others) := by
  rw [tableDoc, tableDoc, agrees.inlineTables, share.all_fitsInline_eq]
  split
  · exact .ofText (by decide)
  next some =>
    split
    · have nonempty : fields ≠ [] := by
        rintro rfl
        exact some rfl
      exact ((share.commaSeparated nonempty).prepend (by decide)).append (by decide)
    · have opened := shareLines_stack
        (.ofText (Token.Symbol.isLine_text .leftCurly)) share (depth + 1)
      exact opened.atop (.ofText (Token.Symbol.isLine_text .rightCurly)) depth

end Field

/-! ### Comments -/

namespace Comment

/-- Lines below what opens them. -/
theorem shareLines_lines {opening otherOpening : Doc}
    (openingShare : Doc.ShareLines first second opening otherOpening)
    {lines : List (List Char)} (areLines : ∀ line ∈ lines, IsLine line) (depth : Nat) :
    Doc.ShareLines first second
      (opening ++ lines.flatMap fun line => .lineBreak depth :: Doc.ofText line)
      (otherOpening ++ lines.flatMap fun line => .lineBreak depth :: Doc.ofText line) := by
  induction lines generalizing opening otherOpening with
  | nil =>
    rw [List.flatMap_nil, List.append_nil, List.append_nil]
    exact openingShare
  | cons line lines inductionHypothesis =>
    obtain ⟨isLine, areLines⟩ := List.forall_mem_cons.1 areLines
    rw [List.flatMap_cons, ← List.append_assoc, ← List.append_assoc]
    exact inductionHypothesis (openingShare.atop (.ofText isLine) depth) areLines

theorem shareLines_doc {comment : Comment} (spelled : comment.IsSpelled) (depth : Nat) :
    Doc.ShareLines first second (comment.doc depth) (comment.doc depth) := by
  cases multi : comment.isMulti with
  | true =>
    rw [doc_of_isMulti multi, blockDoc]
    have dashes : IsLine ['-', '-'] := by decide
    have areLines : ∀ line ∈ contentLines comment.text, IsLine line :=
      fun _ member => isLine_of_mem_contentLines member
    exact (shareLines_lines ((Doc.ShareLines.ofText dashes).join
      (.ofText (LongBracket.isLine_opening _))) areLines (depth + 1)).atop
        (.ofText (LongBracket.isLine_closing _)) depth
  | false =>
    rw [doc_of_isSingle multi]
    exact .ofText (spelled.isLine_of_isSingle multi)

end Comment

end LuaStyle
