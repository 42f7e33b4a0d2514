/-
This file says what a source is refused for.

An error of the parser tells of one of four things: of a token where another one would have to
follow, of a number that is malformed, of a string with an escape that is not valid, or of an
expression that stands where something is assigned and cannot be assigned to. Whatever it is, it is
among the tokens behind the cursor at which the refused form starts. So each function of the grammar
either leads from a cursor over some tokens to a cursor further on, or is refused for something
behind the first cursor; what is refused behind a later cursor is refused behind an earlier one, and
that carries errors out of the forms they occur in.
-/

import LuaStyle.Proofs.Soundness

namespace LuaStyle

/-! ### What a refusal is about -/

namespace Cursor

/-- Somewhere behind the cursor, something is wrong of which the error tells. -/
inductive Refuses (cursor : Cursor) : ParseError → Prop
  /-- Another token would have to follow. -/
  | unexpected {tokens rest cause} :
    cursor.Steps tokens rest → (∀ token, (cause token).span = token.span) →
      Refuses cursor (rest.unexpected cause)
  /-- A number is malformed. -/
  | number {token} : token ∈ cursor.remaining → Refuses cursor (.invalidNumber token)
  /-- A string has an escape that is not valid. -/
  | string {token error} :
    token ∈ cursor.remaining → token.kind = .quotedString ∨ token.kind = .longString →
      Grammar.stringLiteral token = .error error → Refuses cursor error
  /-- An expression cannot be assigned to. -/
  | target {tokens} {expression : Expression} :
    tokens <:+: cursor.remaining → expression.Reads false tokens →
      Refuses cursor (.invalidAssignmentTarget expression.span)

variable {cursor rest : Cursor} {tokens : List Token} {token : Token}

/-- What is wrong behind a cursor further on is wrong behind this one. -/
theorem Refuses.after {error : ParseError} (refuses : rest.Refuses error)
    (steps : cursor.Steps tokens rest) : cursor.Refuses error := by
  have suffix : rest.remaining <:+ cursor.remaining := ⟨tokens, steps.remaining.symm⟩
  cases refuses with
  | unexpected further about => exact .unexpected (steps.trans further) about
  | number member => exact .number (suffix.mem member)
  | string member kind failed => exact .string (suffix.mem member) kind failed
  | target part reads => exact .target (part.trans suffix.isInfix) reads

/-- The run leads from the cursor over some tokens, or is refused for what is wrong behind it. -/
def Tracks (cursor : Cursor) {bound : Nat} {Value : Type}
    (run : Except ParseError (Parsed bound Value)) : Prop :=
  match run with
  | .ok parsed => ∃ tokens, cursor.Steps tokens parsed.rest
  | .error error => cursor.Refuses error

section

variable {bound later : Nat} {First Second Value : Type}

/-- What reads nothing refuses nothing. -/
theorem tracks_here {value : Value} {within : cursor.size < bound} :
    cursor.Tracks (.ok ⟨value, cursor, within⟩) :=
  ⟨[], .refl cursor⟩

/-- An error about the next token is about where the cursor stands. -/
theorem tracks_unexpected {cause : Token → ParseError}
    (about : ∀ token, (cause token).span = token.span) :
    cursor.Tracks (.error (cursor.unexpected cause) : Except ParseError (Parsed bound Value)) :=
  Refuses.unexpected (.refl cursor) about

/-- An error about a missing token is about where the cursor stands. -/
theorem tracks_missing (kind : Token.Kind) :
    cursor.Tracks (.error (cursor.missing kind) : Except ParseError (Parsed bound Value)) :=
  tracks_unexpected fun _ => rfl

/-- What is run further on is tracked from here. -/
theorem Tracks.after {run : Except ParseError (Parsed bound Value)} (tracks : rest.Tracks run)
    (steps : cursor.Steps tokens rest) : cursor.Tracks run := by
  cases run with
  | ok parsed =>
    obtain ⟨more, further⟩ := tracks
    exact ⟨tokens ++ more, steps.trans further⟩
  | error error => exact Refuses.after tracks steps

/-- A refusal of the second part is one of the whole, behind what the first part used. -/
theorem Tracks.andThen {run : Except ParseError (Parsed bound First)}
    {next : Parsed bound First → Except ParseError (Parsed later Second)}
    (first : cursor.Tracks run)
    (second : ∀ value rest within, run = .ok ⟨value, rest, within⟩ →
      cursor.Tracks (next ⟨value, rest, within⟩)) :
    cursor.Tracks (run >>= next) := by
  cases run with
  | error error => exact first
  | ok parsed => exact second _ _ _ rfl

/-- A sequence refuses what its parts refuse. -/
theorem Tracks.bind {run : Except ParseError (Parsed bound First)}
    {next : Parsed bound First → Except ParseError (Parsed later Second)}
    (first : cursor.Tracks run)
    (second : ∀ value rest within, Cursor.Tracks rest (next ⟨value, rest, within⟩)) :
    cursor.Tracks (run >>= next) := by
  refine first.andThen fun value rest within found => ?_
  subst found
  obtain ⟨tokens, steps⟩ := first
  exact (second value rest within).after steps

/-- A literal is behind its token, or the token is to blame. -/
theorem tracks_literal {result : Except ParseError Literal} {answer : Literal → Value}
    {within : rest.size < bound} (steps : cursor.Steps tokens rest)
    (refuses : ∀ error, result = .error error → cursor.Refuses error) :
    cursor.Tracks (do return ⟨answer (← result), rest, within⟩) := by
  cases result with
  | ok constant => exact ⟨tokens, steps⟩
  | error error => exact refuses error rfl

theorem tracks_expect (kind : Token.Kind) : cursor.Tracks (cursor.expect kind) := by
  rw [Cursor.expect]
  split
  next accepted => exact ⟨_, (Steps.of_accept? accepted).1⟩
  · exact tracks_missing kind

theorem tracks_name : cursor.Tracks cursor.name := by
  have tracks : cursor.Tracks (cursor.expect .name) := tracks_expect .name
  rw [Cursor.name]
  cases result : cursor.expect .name with
  | ok parsed =>
    rw [result] at tracks
    exact tracks
  | error error =>
    rw [result] at tracks
    exact tracks

end

end Cursor

namespace Grammar

open Cursor

variable {cursor : Cursor}

/-! ### Forms without statements or expressions inside -/

/-- Further names refuse at what is no name. -/
theorem tracks_furtherNames (separator : Token.Kind) (cursor : Cursor) :
    cursor.Tracks (furtherNames separator cursor) := by
  rw [furtherNames]
  split
  · exact tracks_here
  next mark rest shorter accepted =>
    have step : cursor.Steps [mark] rest := (Steps.of_accept? accepted).1
    refine .after ?_ step
    refine tracks_name.bind fun name afterName within => ?_
    exact (tracks_furtherNames separator afterName).bind fun _ _ _ => tracks_here
termination_by cursor.size

theorem tracks_names : cursor.Tracks (names cursor) :=
  tracks_name.bind fun _ _ _ => (tracks_furtherNames _ _).bind fun _ _ _ => tracks_here

/-- The name of a function refuses at what is no name. -/
theorem tracks_functionName : cursor.Tracks (functionName cursor) := by
  rw [functionName]
  refine tracks_name.bind fun first afterFirst _ => ?_
  refine (tracks_furtherNames _ _).bind fun further afterPath _ => ?_
  dsimp only
  split
  · exact tracks_here
  next accepted =>
    refine .after ?_ (Steps.of_accept? accepted).1
    exact tracks_name.bind fun _ _ _ => tracks_here

/-- Parameters refuse at what is neither a parameter nor their end. -/
theorem tracks_parametersFrom (cursor : Cursor) : cursor.Tracks (parametersFrom cursor) := by
  rw [parametersFrom]
  split
  next accepted => exact tracks_here.after (Steps.of_accept? accepted).1
  · refine tracks_name.bind fun name afterName within => ?_
    dsimp only
    split
    · exact tracks_here
    next mark rest shorter accepted =>
      have step : afterName.Steps [mark] rest := (Steps.of_accept? accepted).1
      refine .after ?_ step
      exact (tracks_parametersFrom rest).bind fun _ _ _ => tracks_here
termination_by cursor.size

theorem tracks_parameters : cursor.Tracks (parameters cursor) := by
  rw [parameters]
  refine (tracks_expect _).bind fun _ inside _ => ?_
  dsimp only
  split
  next accepted => exact tracks_here.after (Steps.of_accept? accepted).1
  · refine (tracks_parametersFrom inside).bind fun _ _ _ => ?_
    exact (tracks_expect _).bind fun _ _ _ => tracks_here

/-- A string is refused because of an escape inside it. -/
theorem refuses_stringLiteral {token : Token} {rest : Cursor} (step : cursor.Steps [token] rest)
    (kind : token.kind = .quotedString ∨ token.kind = .longString) :
    ∀ error, stringLiteral token = .error error → cursor.Refuses error := by
  intro error failed
  refine .string ?_ kind failed
  rw [step.remaining]
  exact List.mem_cons_self

/-- A number is refused because of its own token. -/
theorem refuses_numberLiteral {token : Token} {rest : Cursor} (step : cursor.Steps [token] rest) :
    ∀ error, numberLiteral token = .error error → cursor.Refuses error := by
  intro error failed
  unfold numberLiteral at failed
  split at failed <;> cases failed
  refine .number ?_
  rw [step.remaining]
  exact List.mem_cons_self

/-! ### Statements and expressions -/

/-- The functions of the grammar that are called behind a token are tracked where fewer tokens than
the bound follow. -/
structure Tracked (bound : Nat) : Prop where
  block : ∀ cursor : Cursor, cursor.size < bound → cursor.Tracks (block cursor)
  assignmentTargets : ∀ (first : Expression) (before : Cursor) (tokens : List Token)
    (cursor : Cursor), cursor.size < bound → before.Steps tokens cursor → first.Reads false tokens →
      before.Tracks (assignmentTargets first cursor)
  forLoop : ∀ (keyword : Token) (cursor : Cursor), cursor.size < bound →
    cursor.Tracks (forLoop keyword cursor)
  optionalStep : ∀ cursor : Cursor, cursor.size < bound → cursor.Tracks (optionalStep cursor)
  functionBody : ∀ cursor : Cursor, cursor.size < bound → cursor.Tracks (functionBody cursor)
  guardedClause : ∀ (word : ClauseWord) (keyword : Token) (cursor : Cursor), cursor.size < bound →
    cursor.Tracks (guardedClause word keyword cursor)
  furtherClauses : ∀ cursor : Cursor, cursor.size < bound → cursor.Tracks (furtherClauses cursor)
  localDeclaration : ∀ (keyword : Token) (cursor : Cursor), cursor.size < bound →
    cursor.Tracks (localDeclaration keyword cursor)
  returnValues : ∀ (keyword : Token) (cursor : Cursor), cursor.size < bound →
    cursor.Tracks (returnValues keyword cursor)
  expressions : ∀ cursor : Cursor, cursor.size < bound → cursor.Tracks (expressions cursor)
  expression : ∀ (limit : Nat) (cursor : Cursor), cursor.size < bound →
    cursor.Tracks (expression limit cursor)
  operators : ∀ (limit : Nat) (left : Expression) (cursor : Cursor), cursor.size < bound →
    cursor.Tracks (operators limit left cursor)
  suffixed : ∀ cursor : Cursor, cursor.size < bound → cursor.Tracks (suffixed cursor)
  suffixes : ∀ (base : Expression) (cursor : Cursor), cursor.size < bound →
    cursor.Tracks (suffixes base cursor)
  call : ∀ (base : Expression) (cursor : Cursor), cursor.size < bound →
    cursor.Tracks (call base cursor)
  callArguments : ∀ cursor : Cursor, cursor.size < bound → cursor.Tracks (callArguments cursor)
  tableBody : ∀ cursor : Cursor, cursor.size < bound → cursor.Tracks (tableBody cursor)
  fields : ∀ cursor : Cursor, cursor.size < bound → cursor.Tracks (fields cursor)

namespace Tracked

variable {bound : Nat} (tracked : Tracked bound)

include tracked

/-- An expression is refused where none can start. -/
theorem tracks_primary (within : cursor.size < bound + 1) : cursor.Tracks (primary cursor) := by
  rw [primary]
  split
  · exact tracks_unexpected fun _ => rfl
  next token rest shorter next =>
  have step : cursor.Steps [token] rest := Steps.of_next? next
  split
  · exact ⟨_, step⟩
  · refine ((tracked.expression 0 rest (by omega)).bind fun _ afterInner _ => ?_).after step
    exact (tracks_expect _).bind fun _ _ _ => tracks_here
  · exact tracks_unexpected fun _ => rfl

theorem tracks_suffixed (within : cursor.size < bound + 1) :
    cursor.Tracks (Grammar.suffixed cursor) := by
  rw [Grammar.suffixed]
  refine (tracked.tracks_primary within).bind fun base afterBase shorter => ?_
  exact (tracked.suffixes base afterBase (by omega)).bind fun _ _ _ => tracks_here

/-- An operand is refused where none can start, or within a literal. -/
theorem tracks_operand (within : cursor.size < bound + 1) : cursor.Tracks (operand cursor) := by
  rw [operand]
  split
  · exact tracked.tracks_suffixed within
  next token rest shorter next =>
  have step : cursor.Steps [token] rest := Steps.of_next? next
  split
  · refine .after ?_ step
    exact (tracked.expression _ rest (by omega)).bind fun _ _ _ => tracks_here
  split
  · exact ⟨_, step⟩
  · exact ⟨_, step⟩
  · exact ⟨_, step⟩
  · exact ⟨_, step⟩
  · exact tracks_literal step (refuses_numberLiteral step)
  next kind => exact tracks_literal step (refuses_stringLiteral step (.inl kind))
  next kind => exact tracks_literal step (refuses_stringLiteral step (.inr kind))
  · refine .after ?_ step
    exact (tracked.tableBody rest (by omega)).bind fun _ _ _ => tracks_here
  · refine .after ?_ step
    exact (tracked.functionBody rest (by omega)).bind fun _ _ _ => tracks_here
  · exact tracked.tracks_suffixed within

theorem tracks_operators (limit : Nat) (left : Expression) (within : cursor.size < bound + 1) :
    cursor.Tracks (Grammar.operators limit left cursor) := by
  rw [Grammar.operators]
  split
  · exact tracks_here
  next token afterOperator shorter next =>
  split
  · exact tracks_here
  split
  · exact tracks_here
  · have step : cursor.Steps [token] afterOperator := Steps.of_next? next
    refine .after ?_ step
    refine (tracked.expression _ _ (by omega)).bind fun right afterRight shorterStill => ?_
    exact (tracked.operators _ _ _ (by omega)).bind fun _ _ _ => tracks_here

/-- What an expression refuses, its operands or operators refuse. -/
theorem tracks_expression (limit : Nat) (within : cursor.size < bound + 1) :
    cursor.Tracks (Grammar.expression limit cursor) := by
  rw [Grammar.expression]
  refine (tracked.tracks_operand within).bind fun left afterLeft shorter => ?_
  exact (tracked.operators _ _ _ (by omega)).bind fun _ _ _ => tracks_here

theorem tracks_expressions (within : cursor.size < bound + 1) :
    cursor.Tracks (Grammar.expressions cursor) := by
  rw [Grammar.expressions]
  refine (tracked.tracks_expression 0 within).bind fun first afterFirst shorter => ?_
  dsimp only
  split
  · exact tracks_here
  next mark afterComma shorterStill accepted =>
    have step : afterFirst.Steps [mark] afterComma := (Steps.of_accept? accepted).1
    refine .after ?_ step
    exact (tracked.expressions _ (by omega)).bind fun _ _ _ => tracks_here

theorem tracks_callArguments (within : cursor.size < bound + 1) :
    cursor.Tracks (Grammar.callArguments cursor) := by
  rw [Grammar.callArguments]
  split
  next accepted => exact ⟨_, (Steps.of_accept? accepted).1⟩
  · refine (tracked.tracks_expressions within).bind fun arguments afterLast _ => ?_
    exact (tracks_expect _).bind fun _ _ _ => tracks_here

theorem tracks_field (within : cursor.size < bound + 1) : cursor.Tracks (field cursor) := by
  rw [field]
  split
  next opening afterOpening shorter accepted =>
    have step : cursor.Steps [opening] afterOpening := (Steps.of_accept? accepted).1
    refine .after ?_ step
    refine (tracked.expression 0 afterOpening (by omega)).bind fun key afterKey keyed => ?_
    refine (tracks_expect _).bind fun _ afterClosing closed => ?_
    refine (tracks_expect _).bind fun _ afterEqual equal => ?_
    exact (tracked.expression 0 afterEqual (by omega)).bind fun _ _ _ => tracks_here
  split
  · refine tracks_name.bind fun name afterName named => ?_
    refine (tracks_expect _).bind fun _ afterEqual equal => ?_
    exact (tracked.expression 0 afterEqual (by omega)).bind fun _ _ _ => tracks_here
  · exact (tracked.tracks_expression 0 within).bind fun _ _ _ => tracks_here

theorem tracks_fields (within : cursor.size < bound + 1) :
    cursor.Tracks (Grammar.fields cursor) := by
  rw [Grammar.fields]
  split
  · exact tracks_here
  refine (tracked.tracks_field within).bind fun first afterFirst shorter => ?_
  dsimp only
  split
  · exact tracks_here
  next mark afterSeparator shorterStill accepted =>
    have step : afterFirst.Steps [mark] afterSeparator := by
      rcases Option.or_eq_some_iff.1 accepted with comma | ⟨-, semicolon⟩
      · exact (Steps.of_accept? comma).1
      · exact (Steps.of_accept? semicolon).1
    refine .after ?_ step
    exact (tracked.fields _ (by omega)).bind fun _ _ _ => tracks_here

/-- A table is refused at a field or at its end. -/
theorem tracks_tableBody (within : cursor.size < bound + 1) :
    cursor.Tracks (Grammar.tableBody cursor) := by
  rw [Grammar.tableBody]
  refine (tracked.tracks_fields within).bind fun fields afterFields _ => ?_
  exact (tracks_expect _).bind fun _ _ _ => tracks_here

/-- A call is refused at its arguments or at their end. -/
theorem tracks_call (base : Expression) (within : cursor.size < bound + 1) :
    cursor.Tracks (Grammar.call base cursor) := by
  rw [Grammar.call]
  split
  · exact tracks_missing _
  next token afterToken shorter next =>
  have step : cursor.Steps [token] afterToken := Steps.of_next? next
  split
  next kind => exact tracks_literal step (refuses_stringLiteral step (.inl kind))
  next kind => exact tracks_literal step (refuses_stringLiteral step (.inr kind))
  · refine .after ?_ step
    exact (tracked.tableBody _ (by omega)).bind fun _ _ _ => tracks_here
  · refine .after ?_ step
    exact (tracked.callArguments _ (by omega)).bind fun _ _ _ => tracks_here
  · exact tracks_missing _

theorem tracks_suffixes (base : Expression) (within : cursor.size < bound + 1) :
    cursor.Tracks (Grammar.suffixes base cursor) := by
  rw [Grammar.suffixes]
  split
  · exact tracks_here
  next token afterToken shorter next =>
  have step : cursor.Steps [token] afterToken := Steps.of_next? next
  split
  · refine .after ?_ step
    refine tracks_name.bind fun name afterName named => ?_
    exact (tracked.suffixes _ _ (by omega)).bind fun _ _ _ => tracks_here
  · refine .after ?_ step
    refine tracks_name.bind fun name afterName named => ?_
    refine (tracked.call _ _ (by omega)).bind fun call afterCall shorterStill => ?_
    exact (tracked.suffixes _ _ (by omega)).bind fun _ _ _ => tracks_here
  · refine .after ?_ step
    refine (tracked.expression 0 _ (by omega)).bind fun key afterKey keyed => ?_
    refine (tracks_expect _).bind fun closing afterClosing closed => ?_
    exact (tracked.suffixes _ _ (by omega)).bind fun _ _ _ => tracks_here
  case h_4 | h_5 | h_6 | h_7 =>
    refine (tracked.tracks_call base within).bind fun call afterCall shorter => ?_
    exact (tracked.suffixes _ _ (by omega)).bind fun _ _ _ => tracks_here
  · exact tracks_here

/-! #### Statements -/

/-- A function is refused at its parameters, in its block or at its end. -/
theorem tracks_functionBody (within : cursor.size < bound + 1) :
    cursor.Tracks (Grammar.functionBody cursor) := by
  rw [Grammar.functionBody]
  refine tracks_parameters.bind fun parameters afterParameters shorter => ?_
  refine (tracked.block _ (by omega)).bind fun body afterBody _ => ?_
  exact (tracks_expect _).bind fun _ _ _ => tracks_here

theorem tracks_optionalStep (within : cursor.size < bound + 1) :
    cursor.Tracks (Grammar.optionalStep cursor) := by
  rw [Grammar.optionalStep]
  split
  · exact tracks_here
  next mark afterComma shorter accepted =>
    have step : cursor.Steps [mark] afterComma := (Steps.of_accept? accepted).1
    refine .after ?_ step
    exact (tracked.expression 0 _ (by omega)).bind fun _ _ _ => tracks_here

theorem tracks_guardedClause (word : ClauseWord) (keyword : Token)
    (within : cursor.size < bound + 1) :
    cursor.Tracks (Grammar.guardedClause word keyword cursor) := by
  rw [Grammar.guardedClause]
  refine (tracked.tracks_expression 0 within).bind fun condition afterCondition shorter => ?_
  refine (tracks_expect _).bind fun _ afterThen shorterStill => ?_
  exact (tracked.block _ (by omega)).bind fun _ _ _ => tracks_here

theorem tracks_furtherClauses (within : cursor.size < bound + 1) :
    cursor.Tracks (Grammar.furtherClauses cursor) := by
  rw [Grammar.furtherClauses]
  split
  next mark afterKeyword shorter accepted =>
    have step : cursor.Steps [mark] afterKeyword := (Steps.of_accept? accepted).1
    refine .after ?_ step
    refine (tracked.guardedClause _ _ _ (by omega)).bind fun clause afterClause _ => ?_
    exact (tracked.furtherClauses _ (by omega)).bind fun _ _ _ => tracks_here
  · split
    next mark afterKeyword shorter accepted =>
      have step : cursor.Steps [mark] afterKeyword := (Steps.of_accept? accepted).1
      refine .after ?_ step
      exact (tracked.block _ (by omega)).bind fun _ _ _ => tracks_here
    · exact tracks_here

theorem tracks_optionalExpressions (within : cursor.size < bound + 1) :
    cursor.Tracks (optionalExpressions cursor) := by
  rw [optionalExpressions]
  split
  · exact tracks_here
  · exact (tracked.tracks_expressions within).bind fun _ _ _ => tracks_here

theorem tracks_returnValues (keyword : Token) (within : cursor.size < bound + 1) :
    cursor.Tracks (Grammar.returnValues keyword cursor) := by
  rw [Grammar.returnValues]
  refine (tracked.tracks_optionalExpressions within).bind fun values afterValues _ => ?_
  dsimp only
  split
  next accepted => exact ⟨_, (Steps.of_accept? accepted).1⟩
  · exact tracks_here

theorem tracks_localDeclaration (keyword : Token) (within : cursor.size < bound + 1) :
    cursor.Tracks (Grammar.localDeclaration keyword cursor) := by
  rw [Grammar.localDeclaration]
  split
  next mark afterFunction shorter accepted =>
    have step : cursor.Steps [mark] afterFunction := (Steps.of_accept? accepted).1
    refine .after ?_ step
    refine tracks_name.bind fun name afterName named => ?_
    exact (tracked.functionBody _ (by omega)).bind fun _ _ _ => tracks_here
  · refine tracks_names.bind fun declared afterNames shorter => ?_
    dsimp only
    split
    next mark afterEqual shorterStill accepted =>
      have step : afterNames.Steps [mark] afterEqual := (Steps.of_accept? accepted).1
      refine .after ?_ step
      exact (tracked.expressions _ (by omega)).bind fun _ _ _ => tracks_here
    · exact tracks_here

theorem tracks_forLoop (keyword : Token) (within : cursor.size < bound + 1) :
    cursor.Tracks (Grammar.forLoop keyword cursor) := by
  rw [Grammar.forLoop]
  refine tracks_name.bind fun name afterName named => ?_
  dsimp only
  split
  next mark afterEqual shorter accepted =>
    have step : afterName.Steps [mark] afterEqual := (Steps.of_accept? accepted).1
    refine .after ?_ step
    refine (tracked.expression 0 _ (by omega)).bind fun first afterFirst firstRead => ?_
    refine (tracks_expect _).bind fun _ afterComma comma => ?_
    refine (tracked.expression 0 _ (by omega)).bind fun last afterLast lastRead => ?_
    refine (tracked.optionalStep _ (by omega)).bind fun further afterStep stepped => ?_
    refine (tracks_expect _).bind fun _ afterDo doWord => ?_
    refine (tracked.block _ (by omega)).bind fun body afterBody _ => ?_
    exact (tracks_expect _).bind fun _ _ _ => tracks_here
  · refine (tracks_furtherNames _ _).bind fun further afterNames shorter => ?_
    refine (tracks_expect _).bind fun _ afterIn inWord => ?_
    refine (tracked.expressions _ (by omega)).bind fun iterators afterIterators iterated => ?_
    refine (tracks_expect _).bind fun _ afterDo doWord => ?_
    refine (tracked.block _ (by omega)).bind fun body afterBody _ => ?_
    exact (tracks_expect _).bind fun _ _ _ => tracks_here

/-- An assignment is refused at what cannot be assigned to, which was read in full. -/
theorem tracks_assignmentTargets {first : Expression} {before : Cursor} {tokens : List Token}
    (within : cursor.size < bound + 1) (steps : before.Steps tokens cursor)
    (reads : first.Reads false tokens) :
    before.Tracks (Grammar.assignmentTargets first cursor) := by
  rw [Grammar.assignmentTargets]
  split
  · refine .after ?_ steps
    split
    · exact tracks_here
    next mark afterComma shorter accepted =>
    have step : cursor.Steps [mark] afterComma := (Steps.of_accept? accepted).1
    refine .after ?_ step
    refine (tracked.suffixed _ (by omega)).andThen fun second afterSecond read found => ?_
    obtain ⟨more, further, secondReads, -⟩ := (accounted afterComma).suffixed _ found
    dsimp only at further
    refine (tracked.assignmentTargets _ _ _ _ (by omega) further secondReads).bind fun _ _ _ => ?_
    exact tracks_here
  · exact .target ⟨[], cursor.remaining, steps.remaining.symm⟩ reads

/-- A statement that starts with an expression is refused where that is neither a call nor assigned
to. -/
theorem tracks_assignmentOrCall (within : cursor.size < bound + 1) :
    cursor.Tracks (assignmentOrCall cursor) := by
  rw [assignmentOrCall]
  refine (tracked.tracks_suffixed within).andThen fun first afterFirst shorter found => ?_
  obtain ⟨tokens, steps, reads, -⟩ := (accounted cursor).suffixed _ found
  dsimp only at steps ⊢
  split
  · refine (tracked.assignmentTargets _ _ _ _ (by omega) steps reads).bind
      fun targets afterTargets _ => ?_
    refine (tracks_expect _).bind fun _ afterEqual equal => ?_
    exact (tracked.expressions _ (by omega)).bind fun _ _ _ => tracks_here
  split
  · exact ⟨tokens, steps⟩
  · exact (tracks_missing _).after steps

/-- What a statement refuses, one of its parts refuses. -/
theorem tracks_statement (within : cursor.size < bound + 1) :
    cursor.Tracks (statement cursor) := by
  rw [statement]
  split
  · exact tracks_unexpected fun _ => rfl
  next token rest shorter next =>
  have step : cursor.Steps [token] rest := Steps.of_next? next
  split
  · exact ⟨_, step⟩
  · refine .after ?_ step
    refine tracks_name.bind fun name afterName _ => ?_
    exact (tracks_expect _).bind fun _ _ _ => tracks_here
  · refine .after ?_ step
    refine (tracked.block _ (by omega)).bind fun body afterBody _ => ?_
    exact (tracks_expect _).bind fun _ _ _ => tracks_here
  · refine .after ?_ step
    exact (tracked.forLoop _ _ (by omega)).bind fun _ _ _ => tracks_here
  · refine .after ?_ step
    refine tracks_functionName.bind fun name afterName named => ?_
    exact (tracked.functionBody _ (by omega)).bind fun _ _ _ => tracks_here
  · refine .after ?_ step
    exact tracks_name.bind fun _ _ _ => tracks_here
  · refine .after ?_ step
    refine (tracked.guardedClause _ _ _ (by omega)).bind fun first afterFirst firstRead => ?_
    refine (tracked.furtherClauses _ (by omega)).bind fun further afterClauses _ => ?_
    exact (tracks_expect _).bind fun _ _ _ => tracks_here
  · refine .after ?_ step
    exact (tracked.localDeclaration _ _ (by omega)).bind fun _ _ _ => tracks_here
  · refine .after ?_ step
    refine (tracked.block _ (by omega)).bind fun body afterBody bodyRead => ?_
    refine (tracks_expect _).bind fun _ afterUntil untilWord => ?_
    exact (tracked.expression 0 _ (by omega)).bind fun _ _ _ => tracks_here
  · refine .after ?_ step
    refine (tracked.expression 0 _ (by omega)).bind fun condition afterCondition tested => ?_
    refine (tracks_expect _).bind fun _ afterDo doWord => ?_
    refine (tracked.block _ (by omega)).bind fun body afterBody _ => ?_
    exact (tracks_expect _).bind fun _ _ _ => tracks_here
  · exact tracked.tracks_assignmentOrCall within
  · exact tracked.tracks_assignmentOrCall within
  · exact tracks_unexpected fun _ => rfl

/-- What a block refuses, one of its statements refuses. -/
theorem tracks_block (within : cursor.size < bound + 1) :
    cursor.Tracks (Grammar.block cursor) := by
  rw [Grammar.block]
  split
  · exact tracks_here
  split
  next mark afterSemicolon shorter accepted =>
    have step : cursor.Steps [mark] afterSemicolon := (Steps.of_accept? accepted).1
    refine .after ?_ step
    exact (tracked.block _ (by omega)).bind fun _ _ _ => tracks_here
  split
  next mark afterKeyword shorter accepted =>
    have step : cursor.Steps [mark] afterKeyword := (Steps.of_accept? accepted).1
    refine .after ?_ step
    refine (tracked.returnValues _ _ (by omega)).bind fun last rest _ => ?_
    dsimp only
    split
    · exact tracks_here
    · exact tracks_missing _
  · refine (tracked.tracks_statement within).bind fun first afterFirst shorter => ?_
    exact (tracked.block _ (by omega)).bind fun _ _ _ => tracks_here

end Tracked

/-- All rules keep track of what they refuse, by induction on the bound. -/
theorem tracked : ∀ bound, Tracked bound
  | 0 => by
    constructor <;> intros <;> contradiction
  | bound + 1 => by
    have below := tracked bound
    exact ⟨fun _ => below.tracks_block, fun _ _ _ _ => below.tracks_assignmentTargets,
      fun _ _ => below.tracks_forLoop _, fun _ => below.tracks_optionalStep,
      fun _ => below.tracks_functionBody, fun _ _ _ => below.tracks_guardedClause _ _,
      fun _ => below.tracks_furtherClauses, fun _ _ => below.tracks_localDeclaration _,
      fun _ _ => below.tracks_returnValues _, fun _ => below.tracks_expressions,
      fun _ _ => below.tracks_expression _, fun _ _ _ => below.tracks_operators _ _,
      fun _ => below.tracks_suffixed, fun _ _ => below.tracks_suffixes _,
      fun _ _ => below.tracks_call _, fun _ => below.tracks_callArguments,
      fun _ => below.tracks_tableBody, fun _ => below.tracks_fields⟩

end Grammar

/-- A source is refused for something in it. -/
theorem Program.refuses_of_parse {source : List Char} {error : ParseError}
    (failed : parse source = .error error) : (start source).Refuses error := by
  have tracks := (Grammar.tracked _).block (start source) (Nat.lt_succ_self _)
  rw [parse] at failed
  cases result : Grammar.block (start source) with
  | error failure =>
    rw [result] at failed tracks
    cases failed
    exact tracks
  | ok parsed =>
    obtain ⟨body, rest, within⟩ := parsed
    rw [result] at failed tracks
    obtain ⟨tokens, steps⟩ := tracks
    change (if rest.kind = .endOfSource then _ else _) = _ at failed
    split at failed <;> cases failed
    exact .unexpected steps fun _ => rfl

end LuaStyle
