/-
This file proves that the parser reads a copy of some tokens as it reads the tokens.

Every function of the grammar, started at a token and at its copy, answers with a tree and the same
tree written elsewhere, or fails both times for the same cause. No function looks at places to
decide what to read, so both runs take the same branches: a branch is taken for the kinds of the
tokens that follow or for the form of what was read before, and neither changes. There is one
statement for each function, and they follow the recursion of the grammar together.
-/

import LuaStyle.Proofs.Grammatical
import LuaStyle.Proofs.Relocation
import LuaStyle.Proofs.Transcription

namespace LuaStyle

namespace Grammar

open Transcription

theorem member_recast (transcription : Transcription) (base : Expression) (selector : Selector)
    (name : Name) :
    (member base selector name).recast transcription.recasting =
      member (base.recast transcription.recasting) selector
        (name.recast transcription.recasting) := by
  rw [member, member, Expression.recast, Expression.span_recast]
  rfl

/-! ### Statements and expressions -/

/-- All functions of the grammar that are called behind a token answer alike when they start at
these two cursors. -/
structure Transcribed (transcription : Transcription) (cursor copy : Cursor) : Prop where
  call : ∀ base : Expression,
    transcription.Answer (fun value other => other = value.recast transcription.recasting)
      (Grammar.call base cursor) (Grammar.call (base.recast transcription.recasting) copy)
  suffixes : ∀ base : Expression,
    transcription.Answer (fun value other => other = value.recast transcription.recasting)
      (Grammar.suffixes base cursor) (Grammar.suffixes (base.recast transcription.recasting) copy)
  suffixed :
    transcription.Answer (fun value other => other = value.recast transcription.recasting)
      (Grammar.suffixed cursor) (Grammar.suffixed copy)
  operators : ∀ (limit : Nat) (left : Expression),
    transcription.Answer (fun value other => other = value.recast transcription.recasting)
      (Grammar.operators limit left cursor)
      (Grammar.operators limit (left.recast transcription.recasting) copy)
  expression : ∀ limit : Nat,
    transcription.Answer (fun value other => other = value.recast transcription.recasting)
      (Grammar.expression limit cursor) (Grammar.expression limit copy)
  expressions :
    transcription.Answer
      (fun values others => others = Expression.recastAll transcription.recasting values)
      (Grammar.expressions cursor) (Grammar.expressions copy)
  fields :
    transcription.Answer
      (fun values others => others = Field.recastAll transcription.recasting values)
      (Grammar.fields cursor) (Grammar.fields copy)
  tableBody :
    transcription.Answer
      (fun value other => other.1 = Field.recastAll transcription.recasting value.1 ∧
        transcription.Carries value.2 other.2)
      (Grammar.tableBody cursor) (Grammar.tableBody copy)
  callArguments :
    transcription.Answer
      (fun value other => other.1 = Expression.recastAll transcription.recasting value.1 ∧
        transcription.Carries value.2 other.2)
      (Grammar.callArguments cursor) (Grammar.callArguments copy)
  returnValues : ∀ {keyword keywordCopy : Token}, transcription.Carries keyword keywordCopy →
    transcription.Answer (fun value other => value.recast transcription.recasting = [other])
      (Grammar.returnValues keyword cursor) (Grammar.returnValues keywordCopy copy)
  optionalStep :
    transcription.Answer
      (fun value other => other = Expression.recastOptional transcription.recasting value)
      (Grammar.optionalStep cursor) (Grammar.optionalStep copy)
  functionBody :
    transcription.Answer
      (fun value other => other.1 = value.1.map (Parameter.recast transcription.recasting) ∧
        other.2 = Statement.recastAll transcription.recasting value.2)
      (Grammar.functionBody cursor) (Grammar.functionBody copy)
  guardedClause : ∀ (word : ClauseWord) {keyword keywordCopy : Token},
    transcription.Carries keyword keywordCopy →
      transcription.Answer (fun value other => other = value.recast transcription.recasting)
        (Grammar.guardedClause word keyword cursor) (Grammar.guardedClause word keywordCopy copy)
  furtherClauses :
    transcription.Answer
      (fun values others => others = Clause.recastAll transcription.recasting values)
      (Grammar.furtherClauses cursor) (Grammar.furtherClauses copy)
  localDeclaration : ∀ {keyword keywordCopy : Token}, transcription.Carries keyword keywordCopy →
    transcription.Answer (fun value other => value.recast transcription.recasting = [other])
      (Grammar.localDeclaration keyword cursor) (Grammar.localDeclaration keywordCopy copy)
  forLoop : ∀ {keyword keywordCopy : Token}, transcription.Carries keyword keywordCopy →
    transcription.Answer (fun value other => value.recast transcription.recasting = [other])
      (Grammar.forLoop keyword cursor) (Grammar.forLoop keywordCopy copy)
  assignmentTargets : ∀ first : Expression,
    transcription.Answer
      (fun values others => others = Expression.recastAll transcription.recasting values)
      (Grammar.assignmentTargets first cursor)
      (Grammar.assignmentTargets (first.recast transcription.recasting) copy)
  block :
    transcription.Answer
      (fun values others => others = Statement.recastAll transcription.recasting values)
      (Grammar.block cursor) (Grammar.block copy)

/-- The functions answer alike at all cursors with fewer tokens and their copies. -/
def TranscribedBelow (transcription : Transcription) (cursor : Cursor) : Prop :=
  ∀ {further copy : Cursor}, further.size < cursor.size → transcription.Moves further copy →
    Transcribed transcription further copy

section

variable {transcription : Transcription} {cursor copy : Cursor}
  (below : TranscribedBelow transcription cursor) (moves : transcription.Moves cursor copy)

include moves

theorem unplaced_expectedExpression :
    (copy.unexpected .expectedExpression).unplaced =
      (cursor.unexpected .expectedExpression).unplaced :=
  moves.unexpected fun _ _ same => by rw [ParseError.unplaced, ParseError.unplaced, same]

theorem unplaced_expectedStatement :
    (copy.unexpected .expectedStatement).unplaced =
      (cursor.unexpected .expectedStatement).unplaced :=
  moves.unexpected fun _ _ same => by rw [ParseError.unplaced, ParseError.unplaced, same]

include below

theorem answer_primary :
    transcription.Answer (fun value other => other = value.recast transcription.recasting)
      (primary cursor) (primary copy) := by
  rw [primary, primary]
  rcases moves.next? with ⟨none, noneCopy⟩ |
    ⟨token, other, rest, restCopy, within, withinCopy, found, foundCopy, carries, further⟩
  · rw [none, noneCopy]
    exact .error (unplaced_expectedExpression moves)
  rw [found, foundCopy]
  dsimp only
  rw [carries.kind]
  split
  next kind =>
    refine answer_ok ?_ further
    rw [carries.text (by rw [kind]; rfl), carries.span]
    rfl
  next kind =>
    refine ((below within further).expression 0).andThen fun _ _ sameInner afterInner => ?_
    refine (afterInner.expect _).andThen fun _ _ closing afterClosing => ?_
    subst sameInner
    refine answer_ok ?_ afterClosing
    rw [carries.start, closing.1.stop]
    rfl
  · exact .error (unplaced_expectedExpression moves)

theorem answer_call (base : Expression) :
    transcription.Answer (fun value other => other = value.recast transcription.recasting)
      (call base cursor) (call (base.recast transcription.recasting) copy) := by
  rw [call, call]
  rcases moves.next? with ⟨none, noneCopy⟩ |
    ⟨token, other, rest, restCopy, within, withinCopy, found, foundCopy, carries, further⟩
  · rw [none, noneCopy]
    exact .error (moves.missing _)
  rw [found, foundCopy]
  dsimp only
  rw [carries.kind, Expression.span_recast]
  have string (kind : token.kind = .quotedString ∨ token.kind = .longString) :
      transcription.Answer (fun value other => other = value.recast transcription.recasting)
        (stringLiteral token >>= fun argument =>
          .ok (⟨.stringCall base argument ⟨base.span.start, token.stop⟩, rest, within⟩ :
            Parsed cursor.size Expression))
        (stringLiteral other >>= fun argument =>
          .ok (⟨.stringCall (base.recast transcription.recasting) argument
            ⟨(transcription.recasting.span base.span).start, other.stop⟩, restCopy, withinCopy⟩ :
            Parsed copy.size Expression)) := by
    refine (carries.stringLiteral kind).bind fun same => ?_
    subst same
    refine answer_ok ?_ further
    rw [carries.stop]
    rfl
  split
  next kind => exact string (.inl kind)
  next kind => exact string (.inr kind)
  next kind =>
    refine (below within further).tableBody.andThen fun _ _ same afterBody => ?_
    obtain ⟨sameFields, closing⟩ := same
    refine answer_ok ?_ afterBody
    rw [sameFields, carries.start, closing.stop]
    rfl
  next kind =>
    refine (below within further).callArguments.andThen fun _ _ same afterArguments => ?_
    obtain ⟨sameArguments, closing⟩ := same
    refine answer_ok ?_ afterArguments
    rw [sameArguments, closing.stop]
    rfl
  · exact .error (moves.missing _)

theorem answer_suffixes (base : Expression) :
    transcription.Answer (fun value other => other = value.recast transcription.recasting)
      (suffixes base cursor) (suffixes (base.recast transcription.recasting) copy) := by
  rw [suffixes, suffixes]
  rcases moves.next? with ⟨none, noneCopy⟩ |
    ⟨token, other, rest, restCopy, within, withinCopy, found, foundCopy, carries, further⟩
  · rw [none, noneCopy]
    exact answer_ok rfl moves
  rw [found, foundCopy]
  dsimp only
  rw [carries.kind, Expression.span_recast]
  have called :
      transcription.Answer (fun value other => other = value.recast transcription.recasting)
        (call base cursor >>= fun called => suffixes called.value called.rest >>= fun parsed =>
          .ok (⟨parsed.value, parsed.rest, by
            have := called.within
            have := parsed.within
            omega⟩ : Parsed (cursor.size + 1) Expression))
        (call (base.recast transcription.recasting) copy >>= fun called =>
          suffixes called.value called.rest >>= fun parsed =>
          .ok (⟨parsed.value, parsed.rest, by
            have := called.within
            have := parsed.within
            omega⟩ : Parsed (copy.size + 1) Expression)) := by
    refine (answer_call below moves base).andThen fun _ _ sameCall afterCall => ?_
    subst sameCall
    refine ((below (by assumption) afterCall).suffixes _).andThen fun _ _ same rest => ?_
    exact answer_ok same rest
  split
  · refine further.name.andThen fun _ _ sameName afterName => ?_
    subst sameName
    dsimp only
    rw [← member_recast]
    refine ((below (by omega) afterName).suffixes _).andThen fun _ _ same rest => ?_
    exact answer_ok same rest
  · refine further.name.andThen fun _ _ sameName afterName => ?_
    subst sameName
    dsimp only
    rw [← member_recast]
    refine ((below (by omega) afterName).call _).andThen fun _ _ sameCall afterCall => ?_
    subst sameCall
    refine ((below (by omega) afterCall).suffixes _).andThen fun _ _ same rest => ?_
    exact answer_ok same rest
  · refine ((below within further).expression 0).andThen fun _ _ sameKey afterKey => ?_
    refine (afterKey.expect _).andThen fun _ _ closing afterClosing => ?_
    subst sameKey
    dsimp only
    rw [closing.1.stop]
    refine ((below (by omega) afterClosing).suffixes (.index _ _ _)).andThen fun _ _ same rest => ?_
    exact answer_ok same rest
  · exact called
  · exact called
  · exact called
  · exact called
  · exact answer_ok rfl moves

theorem answer_suffixed :
    transcription.Answer (fun value other => other = value.recast transcription.recasting)
      (suffixed cursor) (suffixed copy) := by
  rw [suffixed, suffixed]
  refine (answer_primary below moves).andThen fun _ _ sameBase afterBase => ?_
  subst sameBase
  refine ((below (by assumption) afterBase).suffixes _).andThen fun _ _ same rest => ?_
  exact answer_ok same rest

theorem answer_operand :
    transcription.Answer (fun value other => other = value.recast transcription.recasting)
      (operand cursor) (operand copy) := by
  rw [operand, operand]
  rcases moves.next? with ⟨none, noneCopy⟩ |
    ⟨token, other, rest, restCopy, within, withinCopy, found, foundCopy, carries, further⟩
  · rw [none, noneCopy]
    exact answer_suffixed below moves
  rw [found, foundCopy]
  dsimp only
  rw [carries.kind]
  split
  · refine ((below within further).expression _).andThen fun _ _ same afterArgument => ?_
    subst same
    refine answer_ok ?_ afterArgument
    rw [Expression.recast, Expression.span_recast, carries.start]
    rfl
  split
  next kind =>
    exact answer_ok (congrArg _ (carries.literal (fun _ => LiteralValue.noConfusion)
      (by rw [kind]; rfl))) further
  next kind =>
    exact answer_ok (congrArg _ (carries.literal (fun _ => LiteralValue.noConfusion)
      (by rw [kind]; rfl))) further
  next kind =>
    exact answer_ok (congrArg _ (carries.literal (fun _ => LiteralValue.noConfusion)
      (by rw [kind]; rfl))) further
  next kind =>
    exact answer_ok (congrArg _ (carries.literal (fun _ => LiteralValue.noConfusion)
      (by rw [kind]; rfl))) further
  next kind =>
    refine (carries.numberLiteral kind).bind fun same => ?_
    exact answer_ok (congrArg _ same) further
  next kind =>
    refine (carries.stringLiteral (.inl kind)).bind fun same => ?_
    exact answer_ok (congrArg _ same) further
  next kind =>
    refine (carries.stringLiteral (.inr kind)).bind fun same => ?_
    exact answer_ok (congrArg _ same) further
  · refine (below within further).tableBody.andThen fun _ _ same afterBody => ?_
    obtain ⟨sameFields, closing⟩ := same
    refine answer_ok ?_ afterBody
    rw [sameFields, carries.start, closing.stop]
    rfl
  · refine (below within further).functionBody.andThen fun _ _ same afterBody => ?_
    obtain ⟨sameParameters, sameBody⟩ := same
    refine answer_ok ?_ afterBody
    rw [sameParameters, sameBody, carries.start, afterBody.spanFrom]
    rfl
  · exact answer_suffixed below moves

theorem answer_operators (limit : Nat) (left : Expression) :
    transcription.Answer (fun value other => other = value.recast transcription.recasting)
      (operators limit left cursor)
      (operators limit (left.recast transcription.recasting) copy) := by
  rw [operators, operators]
  rcases moves.next? with ⟨none, noneCopy⟩ |
    ⟨token, other, rest, restCopy, within, withinCopy, found, foundCopy, carries, further⟩
  · rw [none, noneCopy]
    exact answer_ok rfl moves
  rw [found, foundCopy]
  dsimp only
  rw [carries.kind]
  split
  · exact answer_ok rfl moves
  split
  · exact answer_ok rfl moves
  next operator _ _ =>
    refine ((below within further).expression _).andThen
      fun {right _ _ _} _ _ sameRight afterRight => ?_
    subst sameRight
    dsimp only
    have joined := (below (by omega) afterRight).operators limit
      (.binary operator left right (left.span.merge right.span))
    rw [Expression.recast] at joined
    rw [Expression.span_recast, Expression.span_recast]
    refine Answer.andThen (show transcription.Answer _ _ (Grammar.operators limit
      (.binary operator _ _ ((transcription.span left.span).merge (transcription.span right.span)))
      _) by rwa [← span_merge]) fun _ _ same rest => ?_
    exact answer_ok same rest

theorem answer_expression (limit : Nat) :
    transcription.Answer (fun value other => other = value.recast transcription.recasting)
      (expression limit cursor) (expression limit copy) := by
  rw [expression, expression]
  refine (answer_operand below moves).andThen fun _ _ sameLeft afterLeft => ?_
  subst sameLeft
  refine ((below (by assumption) afterLeft).operators limit _).andThen fun _ _ same rest => ?_
  exact answer_ok same rest

theorem answer_expressions :
    transcription.Answer
      (fun values others => others = Expression.recastAll transcription.recasting values)
      (expressions cursor) (expressions copy) := by
  rw [expressions, expressions]
  refine (answer_expression below moves 0).andThen fun _ _ sameFirst afterFirst => ?_
  subst sameFirst
  dsimp only
  rcases afterFirst.accept? (.symbol .comma) with ⟨none, noneCopy⟩ |
    ⟨token, other, rest, restCopy, within, withinCopy, found, foundCopy, -, further, -⟩
  · rw [none, noneCopy]
    exact answer_ok rfl afterFirst
  · rw [found, foundCopy]
    refine (below (by omega) further).expressions.andThen fun _ _ sameOthers afterOthers => ?_
    subst sameOthers
    exact answer_ok rfl afterOthers

theorem answer_field :
    transcription.Answer (fun value other => value.recast transcription.recasting = [other])
      (field cursor) (field copy) := by
  rw [field, field]
  rcases moves.accept? (.symbol .leftSquare) with ⟨none, noneCopy⟩ |
    ⟨token, other, rest, restCopy, within, withinCopy, found, foundCopy, carries, further, -⟩
  · rw [none, noneCopy]
    dsimp only
    rw [moves.kind_eq, moves.kindAfter_eq]
    split
    · refine moves.name.andThen fun _ _ sameName afterName => ?_
      refine (afterName.expect _).andThen fun _ _ _ afterEqual => ?_
      refine ((below (by omega) afterEqual).expression 0).andThen fun _ _ same rest => ?_
      subst sameName same
      refine answer_ok ?_ rest
      exact congrArg (fun span => [Field.named _ _ span]) (rest.spanFrom _).symm
    · refine (answer_expression below moves 0).andThen fun _ _ same rest => ?_
      subst same
      exact answer_ok rfl rest
  · rw [found, foundCopy]
    refine ((below within further).expression 0).andThen fun _ _ sameKey afterKey => ?_
    refine (afterKey.expect _).andThen fun _ _ _ afterClosing => ?_
    refine (afterClosing.expect _).andThen fun _ _ _ afterEqual => ?_
    refine ((below (by omega) afterEqual).expression 0).andThen fun _ _ same rest => ?_
    subst sameKey same
    refine answer_ok ?_ rest
    rw [carries.start, rest.spanFrom]
    rfl

theorem answer_fields :
    transcription.Answer
      (fun values others => others = Field.recastAll transcription.recasting values)
      (fields cursor) (fields copy) := by
  rw [fields, fields, moves.kind_eq]
  split
  · exact answer_ok rfl moves
  refine (answer_field below moves).andThen fun _ _ sameFirst afterFirst => ?_
  dsimp only
  rcases afterFirst.acceptEither (.symbol .comma) (.symbol .semicolon) with ⟨none, noneCopy⟩ |
    ⟨token, other, rest, restCopy, within, withinCopy, found, foundCopy, further⟩
  · rw [none, noneCopy]
    refine answer_ok ?_ afterFirst
    rw [Field.recastAll, sameFirst]
    rfl
  · rw [found, foundCopy]
    refine (below (by omega) further).fields.andThen fun _ _ sameOthers afterOthers => ?_
    refine answer_ok ?_ afterOthers
    rw [Field.recastAll, sameFirst, sameOthers]
    rfl

theorem answer_tableBody :
    transcription.Answer
      (fun value other => other.1 = Field.recastAll transcription.recasting value.1 ∧
        transcription.Carries value.2 other.2)
      (tableBody cursor) (tableBody copy) := by
  rw [tableBody, tableBody]
  refine (answer_fields below moves).andThen fun _ _ same afterFields => ?_
  refine (afterFields.expect _).andThen fun _ _ closing rest => ?_
  exact answer_ok ⟨same, closing.1⟩ rest

theorem answer_callArguments :
    transcription.Answer
      (fun value other => other.1 = Expression.recastAll transcription.recasting value.1 ∧
        transcription.Carries value.2 other.2)
      (callArguments cursor) (callArguments copy) := by
  rw [callArguments, callArguments]
  rcases moves.accept? (.symbol .rightParen) with ⟨none, noneCopy⟩ |
    ⟨token, other, rest, restCopy, within, withinCopy, found, foundCopy, carries, further, -⟩
  · rw [none, noneCopy]
    refine (answer_expressions below moves).andThen fun _ _ same afterLast => ?_
    refine (afterLast.expect _).andThen fun _ _ closing rest => ?_
    exact answer_ok ⟨same, closing.1⟩ rest
  · rw [found, foundCopy]
    exact answer_ok ⟨rfl, carries⟩ further

theorem answer_optionalExpressions :
    transcription.Answer
      (fun values others => others = Expression.recastAll transcription.recasting values)
      (optionalExpressions cursor) (optionalExpressions copy) := by
  rw [optionalExpressions, optionalExpressions, moves.kind_eq]
  split
  · exact answer_ok rfl moves
  refine (answer_expressions below moves).andThen fun _ _ same rest => ?_
  exact answer_ok same rest

theorem answer_returnValues {keyword keywordCopy : Token}
    (carries : transcription.Carries keyword keywordCopy) :
    transcription.Answer (fun value other => value.recast transcription.recasting = [other])
      (returnValues keyword cursor) (returnValues keywordCopy copy) := by
  rw [returnValues, returnValues]
  refine (answer_optionalExpressions below moves).andThen fun _ _ same afterValues => ?_
  subst same
  dsimp only
  rw [carries.start]
  rcases afterValues.accept? (.symbol .semicolon) with ⟨none, noneCopy⟩ |
    ⟨token, other, rest, restCopy, within, withinCopy, found, foundCopy, -, further, -⟩
  · rw [none, noneCopy]
    refine answer_ok ?_ afterValues
    rw [afterValues.spanFrom]
    rfl
  · rw [found, foundCopy]
    refine answer_ok ?_ further
    rw [further.spanFrom]
    rfl

theorem answer_optionalStep :
    transcription.Answer
      (fun value other => other = Expression.recastOptional transcription.recasting value)
      (optionalStep cursor) (optionalStep copy) := by
  rw [optionalStep, optionalStep]
  rcases moves.accept? (.symbol .comma) with ⟨none, noneCopy⟩ |
    ⟨token, other, rest, restCopy, within, withinCopy, found, foundCopy, -, further, -⟩
  · rw [none, noneCopy]
    exact answer_ok rfl moves
  · rw [found, foundCopy]
    refine ((below within further).expression 0).andThen fun _ _ same rest => ?_
    subst same
    exact answer_ok rfl rest

theorem answer_functionBody :
    transcription.Answer
      (fun value other => other.1 = value.1.map (Parameter.recast transcription.recasting) ∧
        other.2 = Statement.recastAll transcription.recasting value.2)
      (functionBody cursor) (functionBody copy) := by
  rw [functionBody, functionBody]
  refine (answer_parameters moves).andThen fun _ _ sameParameters afterParameters => ?_
  refine (below (by assumption) afterParameters).block.andThen fun _ _ sameBody afterBody => ?_
  refine (afterBody.expect _).andThen fun _ _ _ rest => ?_
  exact answer_ok ⟨sameParameters, sameBody⟩ rest

theorem answer_guardedClause (word : ClauseWord) {keyword keywordCopy : Token}
    (carries : transcription.Carries keyword keywordCopy) :
    transcription.Answer (fun value other => other = value.recast transcription.recasting)
      (guardedClause word keyword cursor) (guardedClause word keywordCopy copy) := by
  rw [guardedClause, guardedClause]
  refine (answer_expression below moves 0).andThen fun _ _ sameCondition afterCondition => ?_
  refine (afterCondition.expect _).andThen fun _ _ _ afterThen => ?_
  refine (below (by omega) afterThen).block.andThen fun _ _ sameBody rest => ?_
  subst sameCondition sameBody
  refine answer_ok ?_ rest
  rw [carries.start, afterThen.spanFrom]
  rfl

theorem answer_furtherClauses :
    transcription.Answer
      (fun values others => others = Clause.recastAll transcription.recasting values)
      (furtherClauses cursor) (furtherClauses copy) := by
  rw [furtherClauses, furtherClauses]
  rcases moves.accept? (.keyword .elseifWord) with ⟨none, noneCopy⟩ |
    ⟨token, other, rest, restCopy, within, withinCopy, found, foundCopy, carries, further, -⟩
  · rw [none, noneCopy]
    dsimp only
    rcases moves.accept? (.keyword .elseWord) with ⟨none, noneCopy⟩ |
      ⟨token, other, rest, restCopy, within, withinCopy, found, foundCopy, carries, further, -⟩
    · rw [none, noneCopy]
      exact answer_ok rfl moves
    · rw [found, foundCopy]
      refine (below within further).block.andThen fun _ _ sameBody rest => ?_
      subst sameBody
      refine answer_ok ?_ rest
      rw [carries.span]
      rfl
  · rw [found, foundCopy]
    refine ((below within further).guardedClause _ carries).andThen
      fun _ _ sameClause afterClause => ?_
    refine (below (by omega) afterClause).furtherClauses.andThen fun _ _ sameOthers rest => ?_
    subst sameClause sameOthers
    exact answer_ok rfl rest

theorem answer_localDeclaration {keyword keywordCopy : Token}
    (carries : transcription.Carries keyword keywordCopy) :
    transcription.Answer (fun value other => value.recast transcription.recasting = [other])
      (localDeclaration keyword cursor) (localDeclaration keywordCopy copy) := by
  rw [localDeclaration, localDeclaration, carries.start]
  rcases moves.accept? (.keyword .functionWord) with ⟨none, noneCopy⟩ |
    ⟨token, other, rest, restCopy, within, withinCopy, found, foundCopy, -, further, -⟩
  · rw [none, noneCopy]
    refine (answer_names moves).andThen fun _ _ sameNames afterNames => ?_
    subst sameNames
    dsimp only
    rcases afterNames.accept? (.symbol .equal) with ⟨none, noneCopy⟩ |
      ⟨token, other, rest, restCopy, within, withinCopy, found, foundCopy, -, further, -⟩
    · rw [none, noneCopy]
      refine answer_ok ?_ afterNames
      rw [afterNames.spanFrom]
      rfl
    · rw [found, foundCopy]
      refine (below (by omega) further).expressions.andThen fun _ _ sameValues rest => ?_
      subst sameValues
      refine answer_ok ?_ rest
      rw [rest.spanFrom]
      rfl
  · rw [found, foundCopy]
    refine further.name.andThen fun _ _ sameName afterName => ?_
    refine (below (by omega) afterName).functionBody.andThen fun _ _ same rest => ?_
    obtain ⟨sameParameters, sameBody⟩ := same
    subst sameName
    refine answer_ok ?_ rest
    rw [sameParameters, sameBody, rest.spanFrom]
    rfl

theorem answer_forLoop {keyword keywordCopy : Token}
    (carries : transcription.Carries keyword keywordCopy) :
    transcription.Answer (fun value other => value.recast transcription.recasting = [other])
      (forLoop keyword cursor) (forLoop keywordCopy copy) := by
  rw [forLoop, forLoop, carries.start]
  refine moves.name.andThen fun _ _ sameName afterName => ?_
  subst sameName
  dsimp only
  rcases afterName.accept? (.symbol .equal) with ⟨none, noneCopy⟩ |
    ⟨token, other, rest, restCopy, within, withinCopy, found, foundCopy, -, further, -⟩
  · rw [none, noneCopy]
    refine (answer_furtherNames _ afterName).andThen fun _ _ sameNames afterNames => ?_
    refine (afterNames.expect _).andThen fun _ _ _ afterIn => ?_
    refine (below (by omega) afterIn).expressions.andThen fun _ _ sameIterators afterLast => ?_
    refine (afterLast.expect _).andThen fun _ _ _ afterDo => ?_
    refine (below (by omega) afterDo).block.andThen fun _ _ sameBody afterBody => ?_
    refine (afterBody.expect _).andThen fun _ _ _ rest => ?_
    subst sameNames sameIterators sameBody
    refine answer_ok ?_ rest
    rw [rest.spanFrom]
    rfl
  · rw [found, foundCopy]
    refine ((below (by omega) further).expression 0).andThen fun _ _ sameFirst afterFirst => ?_
    refine (afterFirst.expect _).andThen fun _ _ _ afterComma => ?_
    refine ((below (by omega) afterComma).expression 0).andThen fun _ _ sameLast afterLast => ?_
    refine (below (by omega) afterLast).optionalStep.andThen fun _ _ sameStep afterStep => ?_
    refine (afterStep.expect _).andThen fun _ _ _ afterDo => ?_
    refine (below (by omega) afterDo).block.andThen fun _ _ sameBody afterBody => ?_
    refine (afterBody.expect _).andThen fun _ _ _ rest => ?_
    subst sameFirst sameLast sameStep sameBody
    refine answer_ok ?_ rest
    rw [rest.spanFrom]
    rfl

theorem answer_assignmentTargets (first : Expression) :
    transcription.Answer
      (fun values others => others = Expression.recastAll transcription.recasting values)
      (assignmentTargets first cursor)
      (assignmentTargets (first.recast transcription.recasting) copy) := by
  rw [assignmentTargets, assignmentTargets, Expression.isAssignable_recast]
  split
  · rcases moves.accept? (.symbol .comma) with ⟨none, noneCopy⟩ |
      ⟨token, other, rest, restCopy, within, withinCopy, found, foundCopy, -, further, -⟩
    · rw [none, noneCopy]
      exact answer_ok rfl moves
    · rw [found, foundCopy]
      refine (below within further).suffixed.andThen fun _ _ sameSecond afterSecond => ?_
      subst sameSecond
      refine ((below (by omega) afterSecond).assignmentTargets _).andThen
        fun _ _ sameOthers rest => ?_
      subst sameOthers
      exact answer_ok rfl rest
  · exact .error rfl

theorem answer_assignmentOrCall :
    transcription.Answer (fun value other => value.recast transcription.recasting = [other])
      (assignmentOrCall cursor) (assignmentOrCall copy) := by
  rw [assignmentOrCall, assignmentOrCall]
  refine (answer_suffixed below moves).andThen fun _ _ sameFirst afterFirst => ?_
  subst sameFirst
  dsimp only
  rw [afterFirst.kind_eq, Expression.isCall_recast, Expression.span_recast]
  split
  · refine ((below (by assumption) afterFirst).assignmentTargets _).andThen
      fun _ _ sameTargets afterTargets => ?_
    refine (afterTargets.expect _).andThen fun _ _ _ afterEqual => ?_
    refine (below (by omega) afterEqual).expressions.andThen fun _ _ sameValues rest => ?_
    subst sameTargets sameValues
    refine answer_ok ?_ rest
    exact congrArg (fun span => [Statement.assignment _ _ span]) (rest.spanFrom _).symm
  split
  · exact answer_ok rfl afterFirst
  · exact .error (afterFirst.missing _)

theorem answer_statement :
    transcription.Answer (fun value other => value.recast transcription.recasting = [other])
      (statement cursor) (statement copy) := by
  rw [statement, statement]
  rcases moves.next? with ⟨none, noneCopy⟩ |
    ⟨token, other, rest, restCopy, within, withinCopy, found, foundCopy, carries, further⟩
  · rw [none, noneCopy]
    exact .error (unplaced_expectedStatement moves)
  rw [found, foundCopy]
  dsimp only
  rw [carries.kind, carries.span, carries.start]
  split
  · exact answer_ok rfl further
  · refine further.name.andThen fun _ _ sameName afterName => ?_
    refine (afterName.expect _).andThen fun _ _ _ rest => ?_
    subst sameName
    refine answer_ok ?_ rest
    rw [rest.spanFrom]
    rfl
  · refine (below within further).block.andThen fun _ _ sameBody afterBody => ?_
    refine (afterBody.expect _).andThen fun _ _ _ rest => ?_
    subst sameBody
    refine answer_ok ?_ rest
    rw [rest.spanFrom]
    rfl
  · refine ((below within further).forLoop carries).andThen fun _ _ same rest => ?_
    exact answer_ok same rest
  · refine (answer_functionName further).andThen fun _ _ sameName afterName => ?_
    refine (below (by omega) afterName).functionBody.andThen fun _ _ same rest => ?_
    obtain ⟨sameParameters, sameBody⟩ := same
    subst sameName
    refine answer_ok ?_ rest
    rw [sameParameters, sameBody, rest.spanFrom]
    rfl
  · refine further.name.andThen fun _ _ sameName rest => ?_
    subst sameName
    refine answer_ok ?_ rest
    rw [rest.spanFrom]
    rfl
  · refine ((below within further).guardedClause _ carries).andThen
      fun _ _ sameFirst afterFirst => ?_
    refine (below (by omega) afterFirst).furtherClauses.andThen fun _ _ sameOthers after => ?_
    refine (after.expect _).andThen fun _ _ _ rest => ?_
    subst sameFirst sameOthers
    refine answer_ok ?_ rest
    rw [rest.spanFrom]
    rfl
  · refine ((below within further).localDeclaration carries).andThen fun _ _ same rest => ?_
    exact answer_ok same rest
  · refine (below within further).block.andThen fun _ _ sameBody afterBody => ?_
    refine (afterBody.expect _).andThen fun _ _ _ afterUntil => ?_
    refine ((below (by omega) afterUntil).expression 0).andThen fun _ _ sameCondition rest => ?_
    subst sameBody sameCondition
    refine answer_ok ?_ rest
    rw [rest.spanFrom]
    rfl
  · refine ((below within further).expression 0).andThen fun _ _ sameCondition afterCondition => ?_
    refine (afterCondition.expect _).andThen fun _ _ _ afterDo => ?_
    refine (below (by omega) afterDo).block.andThen fun _ _ sameBody afterBody => ?_
    refine (afterBody.expect _).andThen fun _ _ _ rest => ?_
    subst sameCondition sameBody
    refine answer_ok ?_ rest
    rw [rest.spanFrom]
    rfl
  · exact answer_assignmentOrCall below moves
  · exact answer_assignmentOrCall below moves
  · exact .error (unplaced_expectedStatement moves)

theorem answer_block :
    transcription.Answer
      (fun values others => others = Statement.recastAll transcription.recasting values)
      (block cursor) (block copy) := by
  rw [block, block, moves.kind_eq]
  split
  · exact answer_ok rfl moves
  rcases moves.accept? (.symbol .semicolon) with ⟨none, noneCopy⟩ |
    ⟨token, other, rest, restCopy, within, withinCopy, found, foundCopy, -, further, -⟩
  · rw [none, noneCopy]
    dsimp only
    rcases moves.accept? (.keyword .returnWord) with ⟨none, noneCopy⟩ |
      ⟨token, other, rest, restCopy, within, withinCopy, found, foundCopy, carries, further, -⟩
    · rw [none, noneCopy]
      refine (answer_statement below moves).andThen fun _ _ sameFirst afterFirst => ?_
      refine (below (by assumption) afterFirst).block.andThen fun _ _ sameOthers rest => ?_
      subst sameOthers
      refine answer_ok ?_ rest
      rw [Statement.recastAll, sameFirst]
      rfl
    · rw [found, foundCopy]
      refine ((below within further).returnValues carries).andThen fun _ _ sameLast rest => ?_
      dsimp only
      rw [rest.kind_eq]
      split
      · refine answer_ok ?_ rest
        rw [Statement.recastAll, sameLast]
        rfl
      · exact .error (rest.missing _)
  · rw [found, foundCopy]
    refine (below within further).block.andThen fun _ _ same rest => ?_
    exact answer_ok same rest

end

/-- Two cursors at copies of each other are read alike, by induction on what remains. -/
theorem transcribed (transcription : Transcription) {cursor copy : Cursor}
    (moves : transcription.Moves cursor copy) : Transcribed transcription cursor copy := by
  induction size : cursor.size using Nat.strongRecOn generalizing cursor copy with
  | ind bound inductionHypothesis =>
    have below : TranscribedBelow transcription cursor := fun shorter further =>
      inductionHypothesis _ (size ▸ shorter) further rfl
    exact {
      call := answer_call below moves
      suffixes := answer_suffixes below moves
      suffixed := answer_suffixed below moves
      operators := answer_operators below moves
      expression := answer_expression below moves
      expressions := answer_expressions below moves
      fields := answer_fields below moves
      tableBody := answer_tableBody below moves
      callArguments := answer_callArguments below moves
      returnValues := answer_returnValues below moves
      optionalStep := answer_optionalStep below moves
      functionBody := answer_functionBody below moves
      guardedClause := fun word {_ _} carries => answer_guardedClause below moves word carries
      furtherClauses := answer_furtherClauses below moves
      localDeclaration := answer_localDeclaration below moves
      forLoop := answer_forLoop below moves
      assignmentTargets := answer_assignmentTargets below moves
      block := answer_block below moves }

end Grammar

end LuaStyle
