/-
This file proves that a layout is made of the same lines whatever they are indented with and end in.

Two sets of choices that agree on what stays inline and on quotes go through a tree together: where
both lay out a part of it, the two documents are layouts of one passage. So the passage, and with it
the depths and texts of all lines, belongs to the program, and so do the places where an empty line
may be left.
-/

import LuaStyle.Proofs.ReadBack
import LuaStyle.Proofs.SharedLines

namespace LuaStyle

/-! ### Two computations -/

/-- The values of two computations are related if there are any. -/
def Related {Value Other : Type} (relation : Value → Other → Prop)
    (first : Except FormatError Value) (second : Except FormatError Other) : Prop :=
  ∀ value other, first = .ok value → second = .ok other → relation value other

section

variable {Value Other Result Further : Type} {relation : Value → Other → Prop}
  {final : Result → Further → Prop}

theorem Related.pure {value : Value} {other : Other} (related : relation value other) :
    Related relation (pure value) (pure other) := by
  rintro _ _ ⟨⟩ ⟨⟩
  exact related

theorem Related.bind {first : Except FormatError Value} {second : Except FormatError Other}
    (related : Related relation first second) {next : Value → Except FormatError Result}
    {nextOther : Other → Except FormatError Further}
    (step : ∀ {value other}, relation value other → Related final (next value) (nextOther other)) :
    Related final (first >>= next) (second >>= nextOther) := by
  intro result further firstLaid secondLaid
  obtain ⟨value, found, firstLaid⟩ := bind_eq_ok.1 firstLaid
  obtain ⟨other, otherFound, secondLaid⟩ := bind_eq_ok.1 secondLaid
  exact step (related value other found otherFound) result further firstLaid secondLaid

end

/-! ### Clauses -/

namespace Clause

/-- What stands behind a clause. -/
def closing (isLast : Bool) : Doc :=
  if isLast then Doc.ofText "end".toList else []

/-- The block of a clause, behind what opens it and in front of what closes it. -/
theorem shareLines_block {first second : Config} (agrees : first.Agrees second)
    {opening otherOpening : Doc} {body : List Statement} {docs others : List Doc}
    (openingShare : Doc.ShareLines first second opening otherOpening)
    (share : Doc.ShareAll first second body docs others) (depth : Nat) (isLast : Bool) :
    Doc.ShareLines first second
      (opening ++ Statement.blockDoc first depth isLast body docs ++ closing isLast)
      (otherOpening ++ Statement.blockDoc second depth isLast body others ++ closing isLast) := by
  cases isLast with
  | true =>
    exact Statement.shareLines_block agrees openingShare share (.ofText (by decide)) depth
  | false =>
    rw [closing, if_neg Bool.false_ne_true, List.append_nil, List.append_nil]
    exact Statement.shareLines_openBlock agrees openingShare share depth

end Clause

/-- Of each clause of an `if` statement there are two documents that share lines, for which the last
one still has to be closed. -/
inductive Clause.ShareAll (first second : Config) : List Doc → List Doc → Prop
  | last {doc other} :
    Doc.ShareLines first second (doc ++ closing true) (other ++ closing true) →
      ShareAll first second [doc] [other]
  | cons {doc other docs others} : Doc.ShareLines first second doc other →
    ShareAll first second docs others → ShareAll first second (doc :: docs) (other :: others)

/-- Clauses below each other, in front of what closes the last one. -/
theorem Clause.ShareAll.intercalate {first second : Config} {docs others : List Doc}
    (share : ShareAll first second docs others) (depth : Nat) :
    Doc.ShareLines first second ([Piece.lineBreak depth].intercalate docs ++ closing true)
      ([Piece.lineBreak depth].intercalate others ++ closing true) := by
  induction share with
  | last single => rwa [intercalate_singleton, intercalate_singleton]
  | cons single share inductionHypothesis =>
    have below := single.atop inductionHypothesis depth
    cases share <;>
    · rw [intercalate_cons, intercalate_cons, List.append_assoc, List.append_assoc]
      exact below

/-! ### Trees -/

section

variable {first second : Config} (agrees : first.Agrees second)

include agrees

theorem Literal.shareLines_doc {constant : Literal} (grammatical : constant.IsGrammatical) :
    Related (Doc.ShareLines first second) (constant.doc first) (constant.doc second) := by
  have same : constant.doc first = constant.doc second := by
    rw [Literal.doc, Literal.doc, agrees.quoteStyle]
  rw [same]
  intro doc other laid otherLaid
  cases laid.symm.trans otherLaid
  obtain ⟨text, isLine, rfl⟩ := Literal.isLine_doc grammatical laid
  exact .ofText isLine

set_option linter.unusedSectionVars false in
mutual

theorem Expression.shareLines_doc (depth : Nat) : ∀ expression : Expression,
    Node.AreWritable expression.nodes →
      Related (Doc.ShareLines first second) (expression.doc first depth)
        (expression.doc second depth)
  | .binary operator left right _, writable => by
    obtain ⟨-, inner⟩ := Node.areWritable_cons.1 writable
    obtain ⟨leftWritable, rightWritable⟩ := Node.areWritable_append.1 inner
    rw [Expression.doc, Expression.doc]
    exact (left.shareLines_doc depth leftWritable).bind fun leftShare =>
      (right.shareLines_doc depth rightWritable).bind fun rightShare =>
        .pure (leftShare.binaryDoc rightShare operator)
  | .unary operator argument _, writable => by
    obtain ⟨-, inner⟩ := Node.areWritable_cons.1 writable
    rw [Expression.doc, Expression.doc]
    exact (argument.shareLines_doc depth inner).bind fun share =>
      .pure (share.unaryDoc operator argument)
  | .call base arguments _, writable => by
    obtain ⟨-, inner⟩ := Node.areWritable_cons.1 writable
    obtain ⟨baseWritable, argumentsWritable⟩ := Node.areWritable_append.1 inner
    rw [Expression.doc, Expression.doc]
    exact (base.shareLines_doc depth baseWritable).bind fun baseShare =>
      (Expression.shareAll_docs depth arguments argumentsWritable).bind fun share =>
        .pure ((baseShare.baseDoc base).join share.argumentsDoc)
  | .stringCall base argument _, writable => by
    obtain ⟨⟨⟨-, isString⟩, -⟩, inner⟩ := Node.areWritable_cons.1 writable
    rw [Expression.doc, Expression.doc]
    exact (base.shareLines_doc depth inner).bind fun baseShare =>
      (Literal.shareLines_doc agrees (Literal.isGrammatical_of_isString isString)).bind fun share =>
        .pure ((baseShare.baseDoc base).join share)
  | .tableCall base fields _ _, writable => by
    obtain ⟨-, inner⟩ := Node.areWritable_cons.1 writable
    obtain ⟨baseWritable, fieldsWritable⟩ := Node.areWritable_append.1 inner
    rw [Expression.doc, Expression.doc]
    exact (base.shareLines_doc depth baseWritable).bind fun baseShare =>
      (Field.shareAll_docs (depth + 1) fields fieldsWritable).bind fun share =>
        .pure ((baseShare.baseDoc base).join (Field.shareLines_tableDoc agrees share depth))
  | .function head parameters body _, writable => by
    obtain ⟨⟨⟨rfl, parametersGrammatical, -⟩, -⟩, bodyWritable⟩ := Node.areWritable_cons.1 writable
    rw [Expression.doc, Expression.doc, FunctionHead.doc_anonymous]
    exact (Statement.shareAll_docs (depth + 1) body bodyWritable).bind fun share =>
      .pure (Statement.shareLines_block agrees
        ((Parameter.shareLines_docs parametersGrammatical).prepend (by decide)) share
        (.ofText (by decide)) depth)
  | .group inner _, writable => by
    obtain ⟨-, innerWritable⟩ := Node.areWritable_cons.1 writable
    rw [Expression.doc, Expression.doc]
    exact (inner.shareLines_doc depth innerWritable).bind fun share =>
      .pure (share.parenthesize _)
  | .name _, writable => by
    obtain ⟨⟨named, -⟩, -⟩ := Node.areWritable_cons.1 writable
    rw [Expression.doc, Expression.doc]
    exact .pure (.ofText (Name.isLine_text named))
  | .index base key _, writable => by
    obtain ⟨-, inner⟩ := Node.areWritable_cons.1 writable
    obtain ⟨baseWritable, keyWritable⟩ := Node.areWritable_append.1 inner
    rw [Expression.doc, Expression.doc]
    exact (base.shareLines_doc depth baseWritable).bind fun baseShare =>
      (key.shareLines_doc depth keyWritable).bind fun keyShare =>
        .pure (((baseShare.baseDoc base).join
          (keyShare.prepend (Token.Symbol.isLine_text .leftSquare).opens)).append
            (Token.Symbol.isLine_text .rightSquare).closes)
  | .member base selector _ _, writable => by
    obtain ⟨⟨⟨-, named⟩, -⟩, baseWritable⟩ := Node.areWritable_cons.1 writable
    have closes : Comment.Closes selector.text := by
      cases selector <;> decide
    rw [Expression.doc, Expression.doc]
    exact (base.shareLines_doc depth baseWritable).bind fun baseShare =>
      .pure (((baseShare.baseDoc base).append closes).join (.ofText (Name.isLine_text named)))
  | .literal _, writable => by
    obtain ⟨⟨grammatical, -⟩, -⟩ := Node.areWritable_cons.1 writable
    rw [Expression.doc, Expression.doc]
    exact Literal.shareLines_doc agrees grammatical
  | .table fields _, writable => by
    obtain ⟨-, fieldsWritable⟩ := Node.areWritable_cons.1 writable
    rw [Expression.doc, Expression.doc]
    exact (Field.shareAll_docs (depth + 1) fields fieldsWritable).bind fun share =>
      .pure (Field.shareLines_tableDoc agrees share depth)

theorem Expression.shareAll_docs (depth : Nat) : ∀ expressions : List Expression,
    Node.AreWritable (Expression.nodesOfAll expressions) →
      Related (Doc.ShareAll first second expressions) (Expression.docs first depth expressions)
        (Expression.docs second depth expressions)
  | [], _ => by
    rw [Expression.docs, Expression.docs]
    exact .pure .nil
  | expression :: rest, writable => by
    obtain ⟨firstWritable, restWritable⟩ := Node.areWritable_append.1 writable
    rw [Expression.docs, Expression.docs]
    exact (expression.shareLines_doc depth firstWritable).bind fun single =>
      (Expression.shareAll_docs depth rest restWritable).bind fun others =>
        .pure (.cons single others)

theorem Expression.shareAll_optionalDocs (depth : Nat) : ∀ optional : Option Expression,
    Node.AreWritable (Expression.nodesOfOptional optional) →
      Related (Doc.ShareAll first second optional.toList)
        (Expression.optionalDocs first depth optional)
        (Expression.optionalDocs second depth optional)
  | none, _ => by
    rw [Expression.optionalDocs, Expression.optionalDocs]
    exact .pure .nil
  | some expression, writable => by
    rw [Expression.optionalDocs, Expression.optionalDocs]
    exact (expression.shareLines_doc depth writable).bind fun single => .pure (.cons single .nil)

theorem Field.shareLines_doc (depth : Nat) : ∀ field : Field, Node.AreWritable field.nodes →
    Related (Doc.ShareLines first second) (field.doc first depth) (field.doc second depth)
  | .keyed key value _, writable => by
    obtain ⟨-, inner⟩ := Node.areWritable_cons.1 writable
    obtain ⟨keyWritable, valueWritable⟩ := Node.areWritable_append.1 inner
    rw [Field.doc, Field.doc]
    exact (key.shareLines_doc depth keyWritable).bind fun keyShare =>
      (value.shareLines_doc depth valueWritable).bind fun valueShare =>
        .pure ((keyShare.prepend (Token.Symbol.isLine_text .leftSquare).opens).beside valueShare
          (by decide))
  | .named _ value _, writable => by
    obtain ⟨⟨⟨named, -⟩, -⟩, valueWritable⟩ := Node.areWritable_cons.1 writable
    rw [Field.doc, Field.doc]
    exact (value.shareLines_doc depth valueWritable).bind fun share =>
      .pure ((Doc.ShareLines.ofText (Name.isLine_text named)).beside share (by decide))
  | .positional value, writable => by
    obtain ⟨-, valueWritable⟩ := Node.areWritable_cons.1 writable
    rw [Field.doc, Field.doc]
    exact value.shareLines_doc depth valueWritable
  | .comment remark, writable => by
    obtain ⟨⟨-, spelled⟩, -⟩ := Node.areWritable_cons.1 writable
    rw [Field.doc, Field.doc]
    exact .pure (remark.shareLines_doc (spelled remark (List.mem_singleton_self _)) depth)

theorem Field.shareAll_docs (depth : Nat) : ∀ fields : List Field,
    Node.AreWritable (Field.nodesOfAll fields) →
      Related (Doc.ShareAll first second fields) (Field.docs first depth fields)
        (Field.docs second depth fields)
  | [], _ => by
    rw [Field.docs, Field.docs]
    exact .pure .nil
  | field :: rest, writable => by
    obtain ⟨firstWritable, restWritable⟩ := Node.areWritable_append.1 writable
    rw [Field.docs, Field.docs]
    exact (field.shareLines_doc depth firstWritable).bind fun single =>
      (Field.shareAll_docs depth rest restWritable).bind fun others => .pure (.cons single others)

theorem Clause.shareLines_doc (depth : Nat) (isLast : Bool) : ∀ clause : Clause,
    Node.AreWritable clause.nodes →
      Related (fun doc other => Doc.ShareLines first second (doc ++ Clause.closing isLast)
        (other ++ Clause.closing isLast)) (clause.doc first depth isLast)
          (clause.doc second depth isLast)
  | .guarded word condition body _, writable => by
    obtain ⟨-, inner⟩ := Node.areWritable_cons.1 writable
    obtain ⟨conditionWritable, bodyWritable⟩ := Node.areWritable_append.1 inner
    rw [Clause.doc.eq_def, Clause.doc.eq_def]
    refine (Statement.shareAll_docs (depth + 1) body bodyWritable).bind fun share =>
      (condition.shareLines_doc depth conditionWritable).bind fun conditionShare => .pure ?_
    cases word <;>
      exact Clause.shareLines_block agrees ((conditionShare.prepend (by decide)).append (by decide))
        share depth isLast
  | .otherwise body _, writable => by
    obtain ⟨-, bodyWritable⟩ := Node.areWritable_cons.1 writable
    rw [Clause.doc, Clause.doc]
    exact (Statement.shareAll_docs (depth + 1) body bodyWritable).bind fun share =>
      .pure (Clause.shareLines_block agrees (.ofText (by decide)) share depth isLast)

theorem Clause.shareAll_docs (depth : Nat) : ∀ clauses : List Clause, clauses ≠ [] →
    Node.AreWritable (Clause.nodesOfAll clauses) →
      Related (Clause.ShareAll first second) (Clause.docs first depth clauses)
        (Clause.docs second depth clauses)
  | [], nonempty, _ => absurd rfl nonempty
  | [clause], _, writable => by
    obtain ⟨clauseWritable, -⟩ := Node.areWritable_append.1 writable
    rw [Clause.docs, Clause.docs, Clause.docs, Clause.docs]
    exact (clause.shareLines_doc depth true clauseWritable).bind fun share => .pure (.last share)
  | clause :: next :: rest, _, writable => by
    obtain ⟨clauseWritable, restWritable⟩ := Node.areWritable_append.1 writable
    rw [Clause.docs, Clause.docs]
    refine (clause.shareLines_doc depth false clauseWritable).bind fun single =>
      (Clause.shareAll_docs depth (next :: rest) (List.cons_ne_nil _ _) restWritable).bind
        fun others => .pure (.cons ?_ others)
    rwa [Clause.closing, if_neg Bool.false_ne_true, List.append_nil, List.append_nil] at single

theorem Statement.shareLines_doc (depth : Nat) : ∀ statement : Statement,
    Node.AreWritable statement.nodes →
      Related (Doc.ShareLines first second) (statement.doc first depth)
        (statement.doc second depth)
  | .assignment targets values _, writable => by
    obtain ⟨⟨⟨someTargets, -, someValues, -⟩, -⟩, inner⟩ := Node.areWritable_cons.1 writable
    obtain ⟨targetsWritable, valuesWritable⟩ := Node.areWritable_append.1 inner
    rw [Statement.doc, Statement.doc]
    exact (Expression.shareAll_docs depth targets targetsWritable).bind fun targetsShare =>
      (Expression.shareAll_docs depth values valuesWritable).bind fun valuesShare =>
        .pure ((targetsShare.commaSeparated someTargets).beside
          (valuesShare.commaSeparated someValues) (by decide))
  | .breakLoop _, _ => by
    rw [Statement.doc, Statement.doc]
    exact .pure (.ofText (by decide))
  | .call expression _, writable => by
    obtain ⟨⟨isCall, -⟩, expressionWritable⟩ := Node.areWritable_cons.1 writable
    have isCall : expression.isCall := isCall
    rw [Statement.doc, Statement.doc, if_pos isCall, if_pos isCall]
    exact expression.shareLines_doc depth expressionWritable
  | .comment remark, writable => by
    obtain ⟨⟨-, spelled⟩, -⟩ := Node.areWritable_cons.1 writable
    rw [Statement.doc, Statement.doc]
    exact .pure (remark.shareLines_doc (spelled remark (List.mem_singleton_self _)) depth)
  | .doBlock body _, writable => by
    obtain ⟨-, bodyWritable⟩ := Node.areWritable_cons.1 writable
    rw [Statement.doc, Statement.doc]
    exact (Statement.shareAll_docs (depth + 1) body bodyWritable).bind fun share =>
      .pure (Statement.shareLines_block agrees (.ofText (by decide)) share (.ofText (by decide))
        depth)
  | .genericFor declared iterators body _, writable => by
    obtain ⟨⟨⟨someNames, named, someIterators, -⟩, -⟩, inner⟩ := Node.areWritable_cons.1 writable
    obtain ⟨iteratorsWritable, bodyWritable⟩ := Node.areWritable_append.1 inner
    have names : Doc.ShareLines first second _ _ := Name.shareLines_docs someNames named
    rw [Statement.doc, Statement.doc]
    exact (Expression.shareAll_docs depth iterators iteratorsWritable).bind fun iteratorsShare =>
      (Statement.shareAll_docs (depth + 1) body bodyWritable).bind fun share =>
        .pure (Statement.shareLines_block agrees
          (((names.prepend (by decide)).beside (iteratorsShare.commaSeparated someIterators)
            (by decide)).append (by decide)) share (.ofText (by decide)) depth)
  | .numericFor _ start last step body _, writable => by
    obtain ⟨⟨⟨named, -⟩, -⟩, inner⟩ := Node.areWritable_cons.1 writable
    obtain ⟨inner, bodyWritable⟩ := Node.areWritable_append.1 inner
    obtain ⟨inner, stepWritable⟩ := Node.areWritable_append.1 inner
    obtain ⟨startWritable, lastWritable⟩ := Node.areWritable_append.1 inner
    have counter : Doc.ShareLines first second _ _ := .ofText (Name.isLine_text named)
    rw [Statement.doc, Statement.doc]
    exact (start.shareLines_doc depth startWritable).bind fun startShare =>
      (last.shareLines_doc depth lastWritable).bind fun lastShare =>
        (Expression.shareAll_optionalDocs depth step stepWritable).bind fun stepShare =>
          (Statement.shareAll_docs (depth + 1) body bodyWritable).bind fun share =>
            .pure (Statement.shareLines_block agrees
              (((counter.prepend (by decide)).beside
                ((stepShare.cons lastShare).cons startShare |>.commaSeparated
                  (List.cons_ne_nil start (last :: step.toList))) (by decide)).append (by decide))
              share (.ofText (by decide)) depth)
  | .function ⟨none, _⟩ _ _ _, writable => by
    exact (Node.areWritable_cons.1 writable).1.1.1.elim
  | .function ⟨some name, isLocal⟩ parameters body _, writable => by
    obtain ⟨⟨⟨⟨named, -⟩, parametersGrammatical, -⟩, -⟩, bodyWritable⟩ :=
      Node.areWritable_cons.1 writable
    have opens : Comment.Opens
        (if isLocal then "local function ".toList else "function ".toList) := by
      cases isLocal <;> decide
    have named : Doc.ShareLines first second _ _ := .ofText (FunctionName.isLine_text named)
    have head := (named.prepend opens).join (Parameter.shareLines_docs parametersGrammatical)
    rw [← FunctionHead.doc_named] at head
    rw [Statement.doc, Statement.doc]
    exact (Statement.shareAll_docs (depth + 1) body bodyWritable).bind fun share =>
      .pure (Statement.shareLines_block agrees head share (.ofText (by decide)) depth)
  | .goto _ _, writable => by
    obtain ⟨⟨named, -⟩, -⟩ := Node.areWritable_cons.1 writable
    rw [Statement.doc, Statement.doc]
    exact .pure (.ofText ((Name.isLine_text named).prepend (by decide)))
  | .ifElse clauses _, writable => by
    obtain ⟨⟨grammatical, -⟩, clausesWritable⟩ := Node.areWritable_cons.1 writable
    cases clauses with
    | nil => cases grammatical
    | cons clause rest =>
      rw [Statement.doc, Statement.doc]
      exact (Clause.shareAll_docs depth (clause :: rest) (List.cons_ne_nil _ _)
        clausesWritable).bind fun share => .pure (share.intercalate depth)
  | .label _ _, writable => by
    obtain ⟨⟨named, -⟩, -⟩ := Node.areWritable_cons.1 writable
    rw [Statement.doc, Statement.doc]
    exact .pure (.ofText (((Name.isLine_text named).prepend (by decide)).append (by decide)))
  | .localVariables _ values _, writable => by
    obtain ⟨⟨⟨someNames, named, -⟩, -⟩, valuesWritable⟩ := Node.areWritable_cons.1 writable
    have names : Doc.ShareLines first second _ _ := Name.shareLines_docs someNames named
    rw [Statement.doc, Statement.doc]
    refine (Expression.shareAll_docs depth values valuesWritable).bind fun share => .pure ?_
    cases values with
    | nil =>
      rw [List.isEmpty_nil, if_pos rfl, if_pos rfl, List.append_nil]
      exact names.prepend (by decide)
    | cons value rest =>
      rw [List.isEmpty_cons, if_neg Bool.false_ne_true, if_neg Bool.false_ne_true,
        ← List.append_assoc, ← List.append_assoc]
      exact (names.prepend (by decide)).beside (share.commaSeparated (List.cons_ne_nil _ _))
        (by decide)
  | .repeatUntil body condition _, writable => by
    obtain ⟨-, inner⟩ := Node.areWritable_cons.1 writable
    obtain ⟨bodyWritable, conditionWritable⟩ := Node.areWritable_append.1 inner
    rw [Statement.doc, Statement.doc]
    refine (Statement.shareAll_docs (depth + 1) body bodyWritable).bind fun share =>
      (condition.shareLines_doc depth conditionWritable).bind fun conditionShare => .pure ?_
    rw [List.append_assoc, List.append_assoc _ (Doc.ofText "until ".toList)]
    exact Statement.shareLines_block agrees (.ofText (by decide)) share
      (conditionShare.prepend (by decide)) depth
  | .returnValues values _, writable => by
    obtain ⟨-, valuesWritable⟩ := Node.areWritable_cons.1 writable
    rw [Statement.doc, Statement.doc]
    refine (Expression.shareAll_docs depth values valuesWritable).bind fun share => .pure ?_
    have word : Comment.IsLine "return".toList := by decide
    cases values with
    | nil =>
      rw [List.isEmpty_nil, if_pos rfl, if_pos rfl, List.append_nil]
      exact .ofText word
    | cons value rest =>
      exact (Doc.ShareLines.ofText word).spaced (share.commaSeparated (List.cons_ne_nil _ _))
  | .whileLoop condition body _, writable => by
    obtain ⟨-, inner⟩ := Node.areWritable_cons.1 writable
    obtain ⟨conditionWritable, bodyWritable⟩ := Node.areWritable_append.1 inner
    rw [Statement.doc, Statement.doc]
    exact (condition.shareLines_doc depth conditionWritable).bind fun conditionShare =>
      (Statement.shareAll_docs (depth + 1) body bodyWritable).bind fun share =>
        .pure (Statement.shareLines_block agrees
          ((conditionShare.prepend (by decide)).append (by decide)) share (.ofText (by decide))
          depth)

theorem Statement.shareAll_docs (depth : Nat) : ∀ body : List Statement,
    Node.AreWritable (Statement.nodesOfAll body) →
      Related (Doc.ShareAll first second body) (Statement.docs first depth body)
        (Statement.docs second depth body)
  | [], _ => by
    rw [Statement.docs, Statement.docs]
    exact .pure .nil
  | statement :: rest, writable => by
    obtain ⟨firstWritable, restWritable⟩ := Node.areWritable_append.1 writable
    rw [Statement.docs, Statement.docs]
    exact (statement.shareLines_doc depth firstWritable).bind fun single =>
      (Statement.shareAll_docs depth rest restWritable).bind fun others =>
        .pure (.cons single others)

end

end

/-! ### Programs -/

namespace Program

variable {source : List Char} {program : Program}

/-- A program with statements or comments is a passage under all choices that agree on what stays
inline and on quotes. -/
theorem exists_passage (config : Config) (parsed : parse source = .ok program)
    (nonempty : program.arrange.body ≠ []) :
    ∃ passage : Passage, ∀ other, config.Agrees other → ∀ docs,
      Statement.docs other 0 program.arrange.body = .ok docs →
        Statement.stack other 0 program.arrange.body docs = passage.doc other.extraNewlines := by
  have writable := areWritable_arrange parsed
  have together {one other : Config} {docs others : List Doc}
      (laid : Statement.docs one 0 program.arrange.body = .ok docs)
      (otherLaid : Statement.docs other 0 program.arrange.body = .ok others)
      (agrees : one.Agrees other) :
      Doc.ShareLines one other (Statement.stack one 0 program.arrange.body docs)
        (Statement.stack other 0 program.arrange.body others) :=
    (Statement.shareAll_docs agrees 0 _ writable docs others laid otherLaid).stack nonempty 0
  have laidOut (isSpaced : Bool) :=
    exists_docs_arrange { config with extraNewlines := isSpaced } parsed
  -- The passage is found under two choices, one with empty lines and one without; any other choice
  -- treats empty lines as one of the two does and therefore shares its document with it.
  obtain ⟨closeDocs, closeLaid⟩ := laidOut false
  obtain ⟨spacedDocs, spacedLaid⟩ := laidOut true
  obtain ⟨passage, close, spaced⟩ := together closeLaid spacedLaid ⟨rfl, rfl, rfl⟩
  refine ⟨passage, fun other agrees docs laid => ?_⟩
  have same : ∃ docs, Statement.docs { config with extraNewlines := other.extraNewlines } 0
      program.arrange.body = .ok docs ∧
        passage.doc other.extraNewlines = Statement.stack
          { config with extraNewlines := other.extraNewlines } 0 program.arrange.body docs := by
    cases other.extraNewlines with
    | false => exact ⟨closeDocs, closeLaid, close⟩
    | true => exact ⟨spacedDocs, spacedLaid, spaced⟩
  obtain ⟨base, baseLaid, baseSame⟩ := same
  obtain ⟨again, first, second⟩ :=
    together baseLaid laid ⟨agrees.inlineBlocks, agrees.inlineTables, agrees.quoteStyle⟩
  exact second.symm.trans (first.trans baseSame.symm)

/-- Nothing is put into a program without comments. -/
theorem arrange_body_of_empty (noStatement : program.chunk.body = [])
    (noComment : program.comments = []) : program.arrange.body = [] := by
  rw [arrange, noComment]
  show Statement.extendAll program.chunk.body = []
  rw [noStatement]
  rfl

/-- The text of a program with neither statements nor comments is empty. -/
theorem formatText_of_arrange_eq_nil (config : Config) (parsed : parse source = .ok program)
    (empty : program.arrange.body = []) : formatText config source = .ok [] := by
  obtain ⟨docs, laid⟩ := exists_docs_arrange config parsed
  rw [formatText_of_docs parsed laid]
  rw [empty, Statement.docs] at laid
  cases laid
  rw [empty]
  rfl

end Program

/-- For a source that is read, and for any choice of what stays inline and of quotes, there are
lines, and a way to leave single empty lines between some of them, of which its layout is made:
without empty lines of the lines alone, otherwise of the lines and the empty ones, and in any case
with the indentation in front of each line as often as it is deep and with the ending behind each
line but the last. -/
theorem format_is_made_of_lines (config : Config) {source : List Char} {program : Program}
    (parsed : Program.parse source = .ok program) :
    (∃ lines rows, IndentedLine.IsSpacing lines rows ∧ ∀ indentation lineEnding,
      formatText { config with extraNewlines := false, indentation, lineEnding } source =
        .ok (IndentedLine.join indentation.text lineEnding.text (lines.map some)) ∧
      formatText { config with extraNewlines := true, indentation, lineEnding } source =
        .ok (IndentedLine.join indentation.text lineEnding.text rows)) ∧
    (program.chunk.body = [] → program.comments = [] → formatText config source = .ok []) := by
  refine ⟨?_, fun noStatement noComment => Program.formatText_of_arrange_eq_nil config parsed
    (Program.arrange_body_of_empty noStatement noComment)⟩
  by_cases empty : program.arrange.body = []
  · exact ⟨[], [], ⟨rfl, by rintro _ ⟨⟩, by rintro _ ⟨⟩, .nil⟩,
      fun indentation lineEnding => ⟨Program.formatText_of_arrange_eq_nil _ parsed empty,
        Program.formatText_of_arrange_eq_nil _ parsed empty⟩⟩
  · obtain ⟨passage, laidOut⟩ := Program.exists_passage config parsed empty
    have formatted (other : Config) (agrees : config.Agrees other) :
        formatText other source = .ok (IndentedLine.join other.indentation.text
          other.lineEnding.text (passage.rows other.extraNewlines 0)) := by
      obtain ⟨docs, laid⟩ := Program.exists_docs_arrange other parsed
      rw [Program.formatText_of_docs parsed laid, laidOut other agrees docs laid,
        ← passage.written_doc other other.extraNewlines 0]
      rfl
    refine ⟨passage.lines 0, passage.rows true 0, passage.isSpacing_rows true 0,
      fun indentation lineEnding => ⟨?_, formatted _ ⟨rfl, rfl, rfl⟩⟩⟩
    rw [← passage.rows_false 0]
    exact formatted _ ⟨rfl, rfl, rfl⟩

theorem format_is_made_of_lines_of_functions :
    ∃ program, Program.parse "f()function g()h()end".toList = .ok program ∧
      ∃ lines rows, IndentedLine.IsSpacing lines rows ∧ ∀ indentation lineEnding,
        formatText { extraNewlines := false, indentation, lineEnding }
            "f()function g()h()end".toList =
          .ok (IndentedLine.join indentation.text lineEnding.text (lines.map some)) ∧
        formatText { extraNewlines := true, indentation, lineEnding }
            "f()function g()h()end".toList =
          .ok (IndentedLine.join indentation.text lineEnding.text rows) := by
  obtain ⟨program, parsed⟩ := Program.exists_of_isOk
    (show (Program.parse "f()function g()h()end".toList).isOk by decide +kernel)
  exact ⟨program, parsed, (format_is_made_of_lines {} parsed).1⟩

end LuaStyle
