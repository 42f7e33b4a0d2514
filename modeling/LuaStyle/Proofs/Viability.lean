/-
This file proves that the rules of the grammar work by foresight.

First comes what each rule reads when there is nothing else for it to read: no statement in a block,
the word `nil` for an expression, one name where names are listed. The main theorem is an induction
on a bound for the tokens that follow. Its step goes through the rules one by one, and for each rule
the lemmas on sequences and choices ask only two things: that the rules it goes through work by
foresight, and that the filler of each of them starts with a token at which the one in front may
stop.

What an expression is completed to matters at one place. A statement that starts with an expression
has to be completed to a call, and a target of an assignment to something that can be assigned to,
so the rules for such expressions are told which of the two they end in.
-/

import LuaStyle.Proofs.Foresight
import LuaStyle.Proofs.Resumption

namespace LuaStyle

/-- What turns an expression into one of the shape. -/
def Expression.Shape.ending : Expression.Shape → List Token.Kind
  | .call => [.symbol .leftParen, .symbol .rightParen]
  | .target => [.symbol .dot, .name]
  | .other => []

namespace Reader

open Token.Kind (keyword symbol)

/-! ### What may follow -/

/-- No expression that members are selected from goes on with a token of the kind. -/
def endsSuffixes (kind : Token.Kind) : Bool :=
  !Grammar.goesOn kind

/-- No expression goes on with a token of the kind. -/
def endsExpression (kind : Token.Kind) : Bool :=
  endsSuffixes kind && (BinaryOperator.ofToken? kind).isNone

/-- Nor does a list of expressions. -/
def endsList (kind : Token.Kind) : Bool :=
  endsExpression kind && kind != .symbol .comma

/-- What ends an expression ends the selections and calls at its end. -/
theorem endsSuffixes_of_endsExpression (kind : Token.Kind) (ends : endsExpression kind) :
    endsSuffixes kind := by
  rw [endsExpression, Bool.and_eq_true] at ends
  exact ends.1

/-- What ends a list of expressions ends its last expression. -/
theorem endsExpression_of_endsList (kind : Token.Kind) (ends : endsList kind) :
    endsExpression kind := by
  rw [endsList, Bool.and_eq_true] at ends
  exact ends.1

/-- What ends a block ends a list of expressions in front of it. -/
theorem endsList_of_isBlockEnd (kind : Token.Kind) (ends : Grammar.isBlockEnd kind) :
    endsList kind := by
  unfold Grammar.isBlockEnd at ends
  split at ends
  all_goals first
    | rfl
    | cases ends

theorem endsExpression_of_isBlockEnd (kind : Token.Kind) (ends : Grammar.isBlockEnd kind) :
    endsExpression kind :=
  endsExpression_of_endsList kind (endsList_of_isBlockEnd kind ends)

theorem not_comma_of_isBlockEnd (kind : Token.Kind) (ends : Grammar.isBlockEnd kind) :
    (kind != .symbol .comma) = true := by
  have list := endsList_of_isBlockEnd kind ends
  rw [endsList, Bool.and_eq_true] at list
  exact list.2

/-- What may follow at all may follow where one kind of token has to. -/
theorem holds_of_beq {kind : Token.Kind} {test : Token.Kind → Bool} (holds : test kind) :
    ∀ other, (other == kind) = true → test other := by
  intro other same
  rw [eq_of_beq same]
  exact holds

/-! ### Names and parameters -/

section

variable {separator : Token.Kind} {stop : Token.Kind → Bool}

/-- There may be no further names. -/
theorem accepts_furtherNames (plain : separator.isFiller) (ends : stop separator = false) :
    (furtherNames separator).Accepts (Token.gistsOf []) stop fun _ => True := by
  have real := Token.Kind.ne_endOfSource (Token.Kind.isUsable_of_isFiller plain)
  rw [furtherNames_eq real]
  exact .ifNext_here_nil ends (accepts_pure trivial)

/-- Whatever is read of further names, they can be completed within the bound. -/
theorem serves_furtherNames (plain : separator.isFiller) (ends : stop separator = false)
    (bound : Nat) : (furtherNames separator).Serves bound [] stop fun _ => True := by
  have real := Token.Kind.ne_endOfSource (Token.Kind.isUsable_of_isFiller plain)
  refine ⟨?_, accepts_furtherNames plain ends, rfl⟩
  induction bound with
  | zero => exact foresees_zero
  | succ bound inductionHypothesis =>
    rw [furtherNames_eq real]
    exact .ifNext_succ (Token.Kind.isUsable_of_isFiller plain)
      (.afterToken rfl ⟨inductionHypothesis, accepts_furtherNames plain ends, rfl⟩)
      (foresees_pure ())

theorem serves_names (ends : stop (.symbol .comma) = false) (bound : Nat) :
    names.Serves bound [.name] stop fun _ => True := by
  rw [names_eq]
  exact .afterToken rfl (serves_furtherNames rfl ends bound)

/-- The name of a function is completed by one name, and parameters follow it. -/
theorem serves_functionName (bound : Nat) :
    functionName.Serves bound [.name] (· == .symbol .leftParen) fun _ => True := by
  have path : (furtherNames (.symbol .dot)).Serves bound [] (· != .symbol .dot) fun _ => True :=
    serves_furtherNames rfl rfl bound
  rw [functionName_eq]
  exact .afterToken rfl (path.bind
    (fun _ => serves_optional rfl (serves_expect rfl) rfl) (holds_of_beq rfl))

/-- One name completes a list of parameters. -/
theorem accepts_parametersFrom :
    parametersFrom.Accepts (Token.gistsOf [.name]) (· == .symbol .rightParen) fun _ => True := by
  rw [parametersFrom_eq]
  refine .ifNext_here_cons (by decide) ?_
  exact .afterToken (.ifNext_here_nil rfl (accepts_pure trivial))

theorem serves_parametersFrom (bound : Nat) :
    parametersFrom.Serves bound [.name] (· == .symbol .rightParen) fun _ => True := by
  refine ⟨?_, accepts_parametersFrom, rfl⟩
  induction bound with
  | zero => exact foresees_zero
  | succ bound inductionHypothesis =>
    rw [parametersFrom_eq]
    exact .ifNext_succ rfl (serves_pure trivial) (.afterToken rfl
      (serves_optional rfl ⟨inductionHypothesis, accepts_parametersFrom, rfl⟩ rfl))

/-- A pair of parentheses completes parameters. -/
theorem serves_parameters (bound : Nat) :
    parameters.Serves bound [.symbol .leftParen, .symbol .rightParen] stop fun _ => True := by
  rw [parameters_eq]
  refine .afterToken rfl ⟨?_, .ifNext_behind (accepts_pure trivial), rfl⟩
  exact .ifNext rfl (serves_pure trivial)
    ((serves_parametersFrom bound).foresees.bind (fun _ => serves_expect rfl) rfl)

end

/-! ### What is read when there is nothing else to read -/

section

variable {stop : Token.Kind → Bool}

/-- A block may be empty. -/
theorem accepts_block :
    block.Accepts (Token.gistsOf []) Grammar.isBlockEnd fun _ => True := by
  rw [block_eq]
  refine .look_nil fun kind ends => ?_
  rw [if_pos ends]
  exact accepts_pure trivial

/-- Behind an operand there may be no operator. -/
theorem accepts_operators (limit : Nat) :
    (operators limit).Accepts (Token.gistsOf []) endsExpression fun _ => True := by
  rw [operators_eq]
  refine .look_nil fun kind ends => ?_
  rw [endsExpression, Bool.and_eq_true, Option.isNone_iff_eq_none] at ends
  rw [ends.2]
  exact accepts_pure trivial

/-- A single word is an operand. -/
theorem accepts_operand :
    operand.Accepts (Token.gistsOf [.keyword .nilWord]) stop fun _ => True := by
  rw [operand_eq]
  exact .look_filler (accepts_token (.keyword .nilWord))

/-- A single word is an expression, whatever the limit. -/
theorem accepts_expression (limit : Nat) :
    (expression limit).Accepts (Token.gistsOf [.keyword .nilWord]) endsExpression
      fun _ => True := by
  rw [expression_eq]
  exact accepts_operand.followed (fun _ _ => accepts_operators limit) (fits_anything [])

theorem accepts_expressions :
    expressions.Accepts (Token.gistsOf [.keyword .nilWord]) endsList fun _ => True := by
  rw [expressions_eq]
  exact (accepts_expression 0).followed (fun _ _ => .ifNext_here_nil rfl (accepts_pure trivial))
    endsExpression_of_endsList

theorem accepts_optionalExpressions :
    optionalExpressions.Accepts (Token.gistsOf []) Grammar.isBlockEnd fun _ => True := by
  rw [optionalExpressions_eq]
  refine .look_nil fun kind ends => ?_
  rw [if_pos (.inr ends)]
  exact accepts_pure trivial

/-- A function may return nothing. -/
theorem accepts_returnValues :
    returnValues.Accepts (Token.gistsOf []) Grammar.isBlockEnd fun _ => True := by
  rw [Reader.returnValues]
  exact accepts_optionalExpressions.followed
    (fun _ _ => .ifNext_here_nil rfl (accepts_pure trivial)) fun _ ends => ends

/-- The shortest function has no parameters and an empty block. -/
theorem accepts_functionBody :
    functionBody.Accepts
      (Token.gistsOf [.symbol .leftParen, .symbol .rightParen, .keyword .endWord]) stop
      fun _ => True := by
  rw [functionBody_eq]
  exact (serves_parameters 0).accepts.followed (fun _ _ => accepts_block.followed
    (fun _ _ => accepts_token (.keyword .endWord)) rfl) (fits_anything _)

/-- The shortest clause has a word as its condition and an empty block. -/
theorem accepts_guardedClause :
    guardedClause.Accepts (Token.gistsOf [.keyword .nilWord, .keyword .thenWord])
      Grammar.isBlockEnd fun _ => True := by
  rw [Reader.guardedClause]
  exact (accepts_expression 0).followed (fun _ _ => .afterToken accepts_block) rfl

/-- There may be no further clauses. -/
theorem accepts_furtherClauses :
    furtherClauses.Accepts (Token.gistsOf []) (· == .keyword .endWord) fun _ => True := by
  rw [furtherClauses_eq]
  exact .ifNext_here_nil rfl (.ifNext_here_nil rfl (accepts_pure trivial))

/-- A loop that counts may have no step. -/
theorem accepts_optionalStep :
    optionalStep.Accepts (Token.gistsOf []) (· == .keyword .doWord) fun _ => True := by
  rw [optionalStep_eq]
  exact .ifNext_here_nil rfl (accepts_pure trivial)

theorem accepts_fields :
    fields.Accepts (Token.gistsOf []) (· == .symbol .rightCurly) fun _ => True := by
  rw [fields_eq]
  refine .look_nil fun kind ends => ?_
  rw [if_pos (eq_of_beq ends)]
  exact accepts_pure trivial

/-- The shortest table has no fields. -/
theorem accepts_tableBody :
    tableBody.Accepts (Token.gistsOf [.symbol .rightCurly]) stop fun _ => True := by
  rw [tableBody_eq]
  exact accepts_fields.followed (fun _ _ => accepts_token (.symbol .rightCurly)) rfl

theorem accepts_callArguments :
    callArguments.Accepts (Token.gistsOf [.symbol .rightParen]) stop fun _ => True := by
  rw [callArguments_eq]
  exact .ifNext_behind (accepts_pure trivial)

/-- The shortest call has no arguments. -/
theorem accepts_call :
    call.Accepts (Token.gistsOf [.symbol .leftParen, .symbol .rightParen]) stop
      fun _ => True := by
  rw [Reader.call]
  exact .look_filler (.afterToken accepts_callArguments)

theorem accepts_suffixes_nil (shape : Expression.Shape) :
    (suffixes shape).Accepts (Token.gistsOf []) endsSuffixes (· = shape) := by
  rw [suffixes_eq]
  refine .look_nil fun kind ends => ?_
  split
  all_goals first
    | cases ends
    | exact accepts_pure rfl

/-- Behind an expression, the selections and calls can be completed to one of each shape that has
any completion. -/
theorem accepts_suffixes (shape wanted : Expression.Shape) (possible : wanted ≠ .other) :
    (suffixes shape).Accepts (Token.gistsOf wanted.ending) endsSuffixes (· = wanted) := by
  rw [suffixes_eq]
  cases wanted with
  | call =>
    exact .look_filler (accepts_call.followed (fun _ _ => accepts_suffixes_nil .call)
      (fits_anything []))
  | target =>
    exact .look_filler (.afterToken (.afterToken (accepts_suffixes_nil .target)))
  | other => exact absurd rfl possible

theorem accepts_primary :
    primary.Accepts (Token.gistsOf [.name]) stop fun _ => True := by
  rw [primary_eq]
  exact .look_filler (.afterToken (accepts_pure trivial))

/-- A name and the end of the shape make an expression of each shape that has any. -/
theorem accepts_suffixed (wanted : Expression.Shape) (possible : wanted ≠ .other) :
    suffixed.Accepts (Token.gistsOf (.name :: wanted.ending)) endsSuffixes (· = wanted) := by
  rw [suffixed_eq]
  exact accepts_primary.followed (fun _ _ => accepts_suffixes _ wanted possible) (fits_anything _)

theorem accepts_assignmentTargets :
    (assignmentTargets .target).Accepts (Token.gistsOf []) (· == .symbol .equal)
      fun _ => True := by
  rw [assignmentTargets_eq, if_pos rfl]
  exact .ifNext_here_nil rfl (accepts_pure trivial)

/-- The shortest local declaration is one name. -/
theorem accepts_localDeclaration :
    localDeclaration.Accepts (Token.gistsOf [.name]) Grammar.isBlockEnd fun _ => True := by
  rw [Reader.localDeclaration]
  exact .ifNext_here_cons (by decide) ((serves_names rfl 0).accepts.followed
    (fun _ _ => .ifNext_here_nil rfl (accepts_pure trivial)) not_comma_of_isBlockEnd)

/-- The shortest loop counts between two words and has an empty block. -/
theorem accepts_forLoop :
    forLoop.Accepts (Token.gistsOf [.name, .symbol .equal, .keyword .nilWord, .symbol .comma,
      .keyword .nilWord, .keyword .doWord, .keyword .endWord]) stop fun _ => True := by
  rw [Reader.forLoop]
  refine .afterToken (.ifNext_behind ?_)
  refine (accepts_expression 0).followed (fun _ _ => .afterToken ?_) rfl
  refine (accepts_expression 0).followed (fun _ _ => ?_) rfl
  refine accepts_optionalStep.followed (fun _ _ => .afterToken ?_) rfl
  exact accepts_block.followed (fun _ _ => accepts_token (.keyword .endWord)) rfl

end

/-! ### Every reader works by foresight -/

/-- A call takes at least one token. -/
theorem consumes_call : call.Consumes := by
  intro cursor answer rest read
  rw [← erase_call default, skip_apply] at read
  exact consumes_skip read

/-- The readers that are called behind a token work by foresight where fewer tokens than the bound
follow. -/
structure Foreseen (bound : Nat) : Prop where
  block : block.Foresees bound Grammar.isBlockEnd fun _ => True
  assignmentTargets : ∀ shape,
    (assignmentTargets shape).Foresees bound (· == .symbol .equal) fun _ => True
  forLoop : ∀ {stop}, forLoop.Foresees bound stop fun _ => True
  optionalStep : optionalStep.Foresees bound (· == .keyword .doWord) fun _ => True
  functionBody : ∀ {stop}, functionBody.Foresees bound stop fun _ => True
  guardedClause : guardedClause.Foresees bound Grammar.isBlockEnd fun _ => True
  furtherClauses : furtherClauses.Foresees bound (· == .keyword .endWord) fun _ => True
  localDeclaration : localDeclaration.Foresees bound Grammar.isBlockEnd fun _ => True
  returnValues : returnValues.Foresees bound Grammar.isBlockEnd fun _ => True
  expressions : expressions.Foresees bound endsList fun _ => True
  expression : ∀ limit, (expression limit).Foresees bound endsExpression fun _ => True
  operators : ∀ limit, (operators limit).Foresees bound endsExpression fun _ => True
  suffixed : ∀ wanted, wanted ≠ .other → suffixed.Foresees bound endsSuffixes (· = wanted)
  suffixes : ∀ shape wanted, wanted ≠ .other →
    (suffixes shape).Foresees bound endsSuffixes (· = wanted)
  call : ∀ {stop}, call.Foresees bound stop fun _ => True
  callArguments : ∀ {stop}, callArguments.Foresees bound stop fun _ => True
  tableBody : ∀ {stop}, tableBody.Foresees bound stop fun _ => True
  fields : fields.Foresees bound (· == .symbol .rightCurly) fun _ => True

namespace Foreseen

variable {bound : Nat} {stop : Token.Kind → Bool} (foreseen : Foreseen bound)

include foreseen

theorem serves_block : Reader.block.Serves bound [] Grammar.isBlockEnd fun _ => True :=
  ⟨foreseen.block, accepts_block, rfl⟩

/-- A block up to the word `end`. -/
theorem serves_ended : Serves (do Reader.block; expect (.keyword .endWord)) bound
    [.keyword .endWord] stop fun _ => True :=
  foreseen.serves_block.bind (fun _ => serves_expect rfl) rfl

theorem serves_functionBody : Reader.functionBody.Serves bound
    [.symbol .leftParen, .symbol .rightParen, .keyword .endWord] stop fun _ => True :=
  ⟨foreseen.functionBody, accepts_functionBody, rfl⟩

theorem serves_expressions :
    Reader.expressions.Serves bound [.keyword .nilWord] endsList fun _ => True :=
  ⟨foreseen.expressions, accepts_expressions, rfl⟩

theorem serves_expression (limit : Nat) :
    (Reader.expression limit).Serves bound [.keyword .nilWord] endsExpression fun _ => True :=
  ⟨foreseen.expression limit, accepts_expression limit, rfl⟩

theorem serves_operators (limit : Nat) :
    (Reader.operators limit).Serves bound [] endsExpression fun _ => True :=
  ⟨foreseen.operators limit, accepts_operators limit, rfl⟩

/-- Whatever is read of selections and calls, they can be completed to the wanted shape. -/
theorem serves_suffixes (shape : Expression.Shape) {wanted : Expression.Shape}
    (possible : wanted ≠ .other) :
    (Reader.suffixes shape).Serves bound wanted.ending endsSuffixes (· = wanted) :=
  ⟨foreseen.suffixes shape wanted possible, accepts_suffixes shape wanted possible,
    by cases wanted <;> rfl⟩

theorem serves_tableBody :
    Reader.tableBody.Serves bound [.symbol .rightCurly] stop fun _ => True :=
  ⟨foreseen.tableBody, accepts_tableBody, rfl⟩

theorem serves_call :
    Reader.call.Serves bound [.symbol .leftParen, .symbol .rightParen] stop fun _ => True :=
  ⟨foreseen.call, accepts_call, rfl⟩

/-! #### Expressions -/

/-- What an expression starts with is read alike wherever the tokens look alike. -/
theorem foresees_primary : primary.Foresees (bound + 1) stop fun _ => True := by
  rw [primary_eq]
  refine .look fun kind => ?_
  split
  · exact .afterToken rfl ((foreseen.serves_expression 0).bind
      (fun _ => .afterToken rfl (serves_pure trivial)) rfl)
  · exact .afterToken rfl (serves_pure trivial)
  · exact foresees_fail isBlame_expectedExpression

theorem foresees_suffixed (wanted : Expression.Shape) (possible : wanted ≠ .other) :
    Reader.suffixed.Foresees (bound + 1) endsSuffixes (· = wanted) := by
  rw [suffixed_eq]
  exact foreseen.foresees_primary.next consumes_of
    (fun shape => foreseen.serves_suffixes shape possible) (fits_anything _)

/-- If the rules below the bound foresee what follows, so does an operand. -/
theorem foresees_operand : operand.Foresees (bound + 1) endsExpression fun _ => True := by
  rw [operand_eq]
  refine .look fun kind => ?_
  split
  next operator found =>
    refine .afterToken ?_ (foreseen.serves_expression _)
    rw [UnaryOperator.token_eq_of_ofToken? found]
    cases operator <;> rfl
  split
  · exact foresees_literal rfl
  · exact foresees_literal rfl
  · exact foresees_literal rfl
  · exact foresees_expect rfl
  · exact foresees_expect rfl
  · exact foresees_expect rfl
  · exact foresees_expect rfl
  · exact .afterToken rfl foreseen.serves_tableBody
  · exact .afterToken rfl foreseen.serves_functionBody
  · exact (foreseen.foresees_suffixed .call (by decide)).bind (fun _ => serves_pure trivial)
      endsSuffixes_of_endsExpression

theorem foresees_operators (limit : Nat) :
    (Reader.operators limit).Foresees (bound + 1) endsExpression fun _ => True := by
  rw [operators_eq]
  refine .look fun kind => ?_
  split
  · exact foresees_pure ()
  next operator found =>
  split
  · exact foresees_pure ()
  · refine .afterToken ?_ ((foreseen.serves_expression _).bind
      (fun _ => foreseen.serves_operators limit) fun _ ends => ends)
    rw [BinaryOperator.token_eq_of_ofToken? found]
    cases operator <;> rfl

/-- If the rules below the bound foresee what follows, so does an expression. -/
theorem foresees_expression (limit : Nat) :
    (Reader.expression limit).Foresees (bound + 1) endsExpression fun _ => True := by
  rw [expression_eq]
  exact foreseen.foresees_operand.next consumes_skip (fun _ => foreseen.serves_operators limit)
    fun _ ends => ends

theorem foresees_expressions :
    Reader.expressions.Foresees (bound + 1) endsList fun _ => True := by
  rw [expressions_eq]
  exact (foreseen.foresees_expression 0).next consumes_skip
    (fun _ => serves_optional rfl foreseen.serves_expressions rfl)
    endsExpression_of_endsList

theorem foresees_callArguments :
    Reader.callArguments.Foresees (bound + 1) stop fun _ => True := by
  rw [callArguments_eq]
  exact .ifNext_succ rfl (serves_pure trivial)
    (foreseen.foresees_expressions.bind (fun _ => serves_expect rfl) rfl)

theorem foresees_field :
    field.Foresees (bound + 1) (· == .symbol .rightCurly) fun _ => True := by
  have ends : ∀ kind, (kind == .symbol .rightCurly) = true → endsExpression kind := holds_of_beq rfl
  have value : (Reader.expression 0).Serves bound [.keyword .nilWord] (· == .symbol .rightCurly)
      fun _ => True := (foreseen.serves_expression 0).mono ends
  -- behind the brackets of a key
  have keyed : Serves (do
      Reader.expression 0
      expect (.symbol .rightSquare)
      expect (.symbol .equal)
      Reader.expression 0) bound
      [.keyword .nilWord, .symbol .rightSquare, .symbol .equal, .keyword .nilWord]
      (· == .symbol .rightCurly) fun _ => True :=
    (foreseen.serves_expression 0).bind (fun _ => .afterToken rfl (.afterToken rfl value)) rfl
  -- behind the name that the field starts with
  have named : Serves (ifNext (.symbol .equal) (Reader.expression 0) (do
      let _ ← Reader.suffixes .target
      Reader.operators 0)) bound [.symbol .equal, .keyword .nilWord] (· == .symbol .rightCurly)
      fun _ => True := by
    refine ⟨.ifNext rfl value ?_, .ifNext_behind value.accepts, rfl⟩
    exact ((foreseen.suffixes .target .call (by decide)).bind
      (fun _ => foreseen.serves_operators 0) endsSuffixes_of_endsExpression).mono ends
  rw [field_eq]
  refine .ifNext_succ rfl keyed (.ifNext_succ rfl named ?_)
  exact (foreseen.foresees_expression 0).mono ends

/-- The fields of a table look no further than the brace behind them. -/
theorem foresees_fields :
    Reader.fields.Foresees (bound + 1) (· == .symbol .rightCurly) fun _ => True := by
  have others : Reader.fields.Serves bound [] (· == .symbol .rightCurly) fun _ => True :=
    ⟨foreseen.fields, accepts_fields, rfl⟩
  have further : Serves (ifNext (.symbol .comma) Reader.fields
      (optional (.symbol .semicolon) Reader.fields)) bound [] (· == .symbol .rightCurly)
      fun _ => True := by
    have semicolon : Serves (optional (.symbol .semicolon) Reader.fields) bound []
        (· == .symbol .rightCurly) fun _ => True := serves_optional rfl others rfl
    exact ⟨.ifNext rfl others semicolon.foresees,
      .ifNext_here_nil rfl semicolon.accepts, rfl⟩
  rw [fields_eq]
  refine .look fun kind => ?_
  split
  · exact foresees_pure ()
  · exact foreseen.foresees_field.next consumes_skip (fun _ => further) fun _ ends => ends

theorem foresees_tableBody : Reader.tableBody.Foresees (bound + 1) stop fun _ => True := by
  rw [tableBody_eq]
  exact foreseen.foresees_fields.bind (fun _ => serves_expect rfl) rfl

theorem foresees_call : Reader.call.Foresees (bound + 1) stop fun _ => True := by
  rw [Reader.call]
  refine .look fun kind => ?_
  split
  · exact .afterToken rfl ⟨foreseen.callArguments, accepts_callArguments, rfl⟩
  · exact .afterToken rfl foreseen.serves_tableBody
  · exact foresees_literal rfl
  · exact foresees_literal rfl
  · exact foresees_fail (isBlame_expected _)

theorem foresees_suffixes (shape wanted : Expression.Shape) (possible : wanted ≠ .other) :
    (Reader.suffixes shape).Foresees (bound + 1) endsSuffixes (· = wanted) := by
  have selected : Serves (do expect .name; Reader.suffixes .target) bound
      (.name :: wanted.ending) endsSuffixes (· = wanted) :=
    .afterToken rfl (foreseen.serves_suffixes .target possible)
  have called : Serves (do Reader.call; Reader.suffixes .call) bound
      ([.symbol .leftParen, .symbol .rightParen] ++ wanted.ending) endsSuffixes (· = wanted) :=
    foreseen.serves_call.bind (fun _ => foreseen.serves_suffixes .call possible) (fits_anything _)
  have direct : Foresees (do Reader.call; Reader.suffixes .call) (bound + 1) endsSuffixes
      (· = wanted) :=
    foreseen.foresees_call.next consumes_call
      (fun _ => foreseen.serves_suffixes .call possible) (fits_anything _)
  rw [suffixes_eq]
  refine .look fun kind => ?_
  split
  · exact direct
  · exact direct
  · exact direct
  · exact direct
  · exact .afterToken rfl selected
  · exact .afterToken rfl (.afterToken rfl called)
  · exact .afterToken rfl ((foreseen.serves_expression 0).bind (fun _ => .afterToken rfl
      (foreseen.serves_suffixes .target possible)) rfl)
  · exact foresees_pure shape

/-! #### Statements -/

theorem foresees_functionBody : Reader.functionBody.Foresees (bound + 1) stop fun _ => True := by
  rw [functionBody_eq]
  exact (serves_parameters (bound + 1)).foresees.next consumes_skip
    (fun _ => foreseen.serves_ended) (fits_anything _)

theorem foresees_optionalStep :
    Reader.optionalStep.Foresees (bound + 1) (· == .keyword .doWord) fun _ => True := by
  rw [optionalStep_eq]
  exact .ifNext_succ rfl ((foreseen.serves_expression 0).mono (holds_of_beq rfl))
    (foresees_pure ())

theorem foresees_guardedClause :
    Reader.guardedClause.Foresees (bound + 1) Grammar.isBlockEnd fun _ => True := by
  rw [Reader.guardedClause]
  exact (foreseen.foresees_expression 0).next consumes_skip
    (fun _ => .afterToken rfl foreseen.serves_block) rfl

/-- Clauses look no further than the word behind them. -/
theorem foresees_furtherClauses :
    Reader.furtherClauses.Foresees (bound + 1) (· == .keyword .endWord) fun _ => True := by
  have ends : ∀ kind, (kind == .keyword .endWord) = true → Grammar.isBlockEnd kind :=
    holds_of_beq rfl
  have guarded : Serves (do Reader.guardedClause; Reader.furtherClauses) bound
      [.keyword .nilWord, .keyword .thenWord] (· == .keyword .endWord) fun _ => True :=
    Serves.bind ⟨foreseen.guardedClause, accepts_guardedClause, rfl⟩
      (fun _ => ⟨foreseen.furtherClauses, accepts_furtherClauses, rfl⟩) ends
  rw [furtherClauses_eq]
  exact .ifNext_succ rfl guarded (.ifNext_succ rfl
    (foreseen.serves_block.mono ends) (foresees_pure ()))

theorem foresees_optionalExpressions :
    optionalExpressions.Foresees (bound + 1) Grammar.isBlockEnd fun _ => True := by
  rw [optionalExpressions_eq]
  refine .look fun kind => ?_
  split
  · exact foresees_pure ()
  · exact foreseen.foresees_expressions.mono endsList_of_isBlockEnd

theorem foresees_returnValues :
    Reader.returnValues.Foresees (bound + 1) Grammar.isBlockEnd fun _ => True := by
  rw [Reader.returnValues]
  exact foreseen.foresees_optionalExpressions.bind
    (fun _ => serves_optional rfl (serves_pure trivial) rfl) fun _ ends => ends

theorem foresees_localDeclaration :
    Reader.localDeclaration.Foresees (bound + 1) Grammar.isBlockEnd fun _ => True := by
  have values : Serves (optional (.symbol .equal) Reader.expressions) bound []
      Grammar.isBlockEnd fun _ => True :=
    serves_optional rfl (foreseen.serves_expressions.mono endsList_of_isBlockEnd) rfl
  rw [Reader.localDeclaration]
  exact .ifNext_succ rfl (.afterToken rfl foreseen.serves_functionBody)
    ((serves_names rfl (bound + 1)).foresees.next consumes_skip (fun _ => values)
      not_comma_of_isBlockEnd)

theorem foresees_forLoop : Reader.forLoop.Foresees (bound + 1) stop fun _ => True := by
  have body : Serves (do
      expect (.keyword .doWord)
      Reader.block
      expect (.keyword .endWord)) bound [.keyword .doWord, .keyword .endWord] stop
      fun _ => True :=
    .afterToken rfl foreseen.serves_ended
  have numeric : Serves (do
      Reader.expression 0
      expect (.symbol .comma)
      Reader.expression 0
      Reader.optionalStep
      expect (.keyword .doWord)
      Reader.block
      expect (.keyword .endWord)) bound [.keyword .nilWord, .symbol .comma, .keyword .nilWord,
        .keyword .doWord, .keyword .endWord] stop fun _ => True :=
    (foreseen.serves_expression 0).bind (fun _ => .afterToken rfl
      ((foreseen.serves_expression 0).bind (fun _ =>
        Serves.bind ⟨foreseen.optionalStep, accepts_optionalStep, rfl⟩ (fun _ => body) rfl)
        rfl)) rfl
  have names : (Reader.furtherNames (.symbol .comma)).Serves bound [] (· != .symbol .comma)
      fun _ => True := serves_furtherNames rfl rfl bound
  have generic : Serves (do
      Reader.furtherNames (.symbol .comma)
      expect (.keyword .inWord)
      Reader.expressions
      expect (.keyword .doWord)
      Reader.block
      expect (.keyword .endWord)) bound [.keyword .inWord, .keyword .nilWord, .keyword .doWord,
        .keyword .endWord] stop fun _ => True :=
    names.bind (fun _ => .afterToken rfl (foreseen.serves_expressions.bind (fun _ => body) rfl))
      rfl
  rw [Reader.forLoop]
  exact .afterToken rfl ⟨.ifNext rfl numeric generic.foresees,
    .ifNext_behind numeric.accepts, rfl⟩

theorem foresees_assignmentTargets (shape : Expression.Shape) :
    (Reader.assignmentTargets shape).Foresees (bound + 1) (· == .symbol .equal)
      fun _ => True := by
  have ends : ∀ kind, (kind == .symbol .equal) = true → endsSuffixes kind := holds_of_beq rfl
  have second : Serves (do
      let second ← Reader.suffixed
      Reader.assignmentTargets second) bound [.name, .symbol .dot, .name] (· == .symbol .equal)
      fun _ => True := by
    have target : Expression.Shape.target ≠ .other := by decide
    have supply : ∀ shape, shape = .target → (Reader.assignmentTargets shape).Accepts
        (Token.gistsOf []) (· == .symbol .equal) fun _ => True := by
      rintro _ rfl
      exact accepts_assignmentTargets
    exact ⟨(foreseen.suffixed .target target).bind_passing foreseen.assignmentTargets supply rfl
      ends, (accepts_suffixed .target target).followed supply ends, rfl⟩
  rw [assignmentTargets_eq]
  split
  · exact .ifNext_succ rfl second (foresees_pure ())
  · exact foresees_error rfl

/-- A statement that starts with an expression foresees whether it can become an assignment or a
call. -/
theorem foresees_assignmentOrCall :
    assignmentOrCall.Foresees (bound + 1) Grammar.isBlockEnd fun _ => True := by
  have assigned : ∀ shape, Foresees (do
      Reader.assignmentTargets shape
      expect (.symbol .equal)
      Reader.expressions) bound Grammar.isBlockEnd fun _ => True := by
    intro shape
    exact (foreseen.assignmentTargets shape).bind (fun _ => .afterToken rfl
      (foreseen.serves_expressions.mono endsList_of_isBlockEnd)) rfl
  rw [assignmentOrCall_eq]
  have fits : Fits endsSuffixes [] Grammar.isBlockEnd := fun kind ends =>
    endsSuffixes_of_endsExpression kind (endsExpression_of_isBlockEnd kind ends)
  refine (foreseen.foresees_suffixed .call (by decide)).next_passing consumes_of
    (fun shape => .look fun kind => ?_) (fun shape isCall => .look_nil fun kind ends => ?_) rfl
    fits
  · split
    · exact assigned shape
    · split
      · exact foresees_pure ()
      · exact foresees_fail (isBlame_expected _)
  · rw [if_neg, if_pos isCall]
    · exact accepts_pure trivial
    · rintro (rfl | rfl) <;> cases ends

/-- If the rules below the bound foresee what follows, so does a statement. -/
theorem foresees_statement :
    statement.Foresees (bound + 1) Grammar.isBlockEnd fun _ => True := by
  rw [statement_eq]
  refine .look fun kind => ?_
  split
  · exact foreseen.foresees_assignmentOrCall
  · exact foreseen.foresees_assignmentOrCall
  · exact foresees_expect rfl
  · exact .afterToken rfl (.afterToken rfl (serves_expect rfl))
  · exact .afterToken rfl foreseen.serves_ended
  · exact .afterToken rfl ⟨foreseen.forLoop, accepts_forLoop, rfl⟩
  · exact .afterToken rfl ((serves_functionName bound).bind
      (fun _ => foreseen.serves_functionBody) rfl)
  · exact .afterToken rfl (serves_expect rfl)
  · exact .afterToken rfl (Serves.bind
      ⟨foreseen.guardedClause, accepts_guardedClause, rfl⟩ (fun _ => Serves.bind
        ⟨foreseen.furtherClauses, accepts_furtherClauses, rfl⟩ (fun _ => serves_expect rfl) rfl)
      rfl)
  · exact .afterToken rfl ⟨foreseen.localDeclaration, accepts_localDeclaration, rfl⟩
  · exact .afterToken rfl (foreseen.serves_block.bind (fun _ => .afterToken rfl
      ((foreseen.serves_expression 0).mono endsExpression_of_isBlockEnd)) rfl)
  · exact .afterToken rfl ((foreseen.serves_expression 0).bind (fun _ => .afterToken rfl
      foreseen.serves_ended) rfl)
  · exact foresees_fail isBlame_expectedStatement

/-- If the rules below the bound foresee what follows, so does a block. -/
theorem foresees_block : Reader.block.Foresees (bound + 1) Grammar.isBlockEnd fun _ => True := by
  have returned : Serves (look fun kind =>
      if Grammar.isBlockEnd kind then pure () else fail (.expected (.keyword .endWord))) bound []
      Grammar.isBlockEnd fun _ => True := by
    refine ⟨.look fun kind => ?_, .look_nil fun kind ends => ?_, rfl⟩
    · split
      · exact foresees_pure ()
      · exact foresees_fail (isBlame_expected _)
    · rw [if_pos ends]
      exact accepts_pure trivial
  have last : Serves (do
      Reader.returnValues
      look fun kind =>
        if Grammar.isBlockEnd kind then pure () else fail (.expected (.keyword .endWord))) bound []
      Grammar.isBlockEnd fun _ => True :=
    Serves.bind ⟨foreseen.returnValues, accepts_returnValues, rfl⟩ (fun _ => returned)
      fun _ ends => ends
  rw [block_eq]
  refine .look fun kind => ?_
  split
  · exact foresees_pure ()
  · exact .ifNext_succ rfl foreseen.serves_block (.ifNext_succ rfl last
      (foreseen.foresees_statement.next consumes_skip (fun _ => foreseen.serves_block)
        fun _ ends => ends))

end Foreseen

/-- All rules foresee what follows them, by induction on the bound. -/
theorem foreseen : ∀ bound, Foreseen bound
  | 0 => by
    constructor <;> intros <;> exact foresees_zero
  | bound + 1 => by
    have below := foreseen bound
    exact ⟨below.foresees_block, below.foresees_assignmentTargets, below.foresees_forLoop,
      below.foresees_optionalStep, below.foresees_functionBody, below.foresees_guardedClause,
      below.foresees_furtherClauses, below.foresees_localDeclaration, below.foresees_returnValues,
      below.foresees_expressions, below.foresees_expression, below.foresees_operators,
      below.foresees_suffixed, below.foresees_suffixes, below.foresees_call,
      below.foresees_callArguments, below.foresees_tableBody, below.foresees_fields⟩

end Reader

end LuaStyle
