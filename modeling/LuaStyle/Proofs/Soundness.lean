/-
This file proves that the parser accounts for every token.

Whatever a function of the grammar returns is read, in the sense of the relation `Reads`, from the
very tokens between the cursor it was given and the cursor it leaves behind. There is one statement
for each function of the grammar, and together they follow its recursion: a function that completes
a tree it was given says that the tree before, read from any tokens, and the tokens used make up the
tree after.
-/

import LuaStyle.Proofs.Reading
import LuaStyle.Proofs.Steps

namespace LuaStyle

/-! ### Operators and names -/

theorem BinaryOperator.token_eq_of_ofToken? {kind : Token.Kind} {operator : BinaryOperator}
    (found : BinaryOperator.ofToken? kind = some operator) : kind = operator.token := by
  unfold BinaryOperator.ofToken? at found
  have same := List.find?_some found
  exact (eq_of_beq same).symm

theorem UnaryOperator.token_eq_of_ofToken? {kind : Token.Kind} {operator : UnaryOperator}
    (found : UnaryOperator.ofToken? kind = some operator) : kind = operator.token := by
  unfold UnaryOperator.ofToken? at found
  have same := List.find?_some found
  exact (eq_of_beq same).symm

/-- The stretch from the start of the first token used to where the cursor stands is the extent of
the tokens used. -/
theorem Cursor.Steps.spanFrom_extent {first last : Cursor} {token : Token} {tokens : List Token}
    (steps : first.Steps (token :: tokens) last) :
    last.spanFrom token.start = Token.extent (token :: tokens) := by
  rw [Cursor.spanFrom, steps.lastStop, Token.extent, List.getLast?_eq_some_getLast (by simp)]
  rfl

/-- Where the cursor stands is the end of the extent of the tokens used, if there are any. -/
theorem Cursor.Steps.lastStop_extent {first last : Cursor} {tokens : List Token}
    (steps : first.Steps tokens last) (shorter : last.size < first.size) :
    last.lastStop = (Token.extent tokens).stop := by
  cases tokens with
  | nil =>
    rw [steps.eq_of_nil] at shorter
    exact absurd shorter (Nat.lt_irrefl _)
  | cons token tokens => exact congrArg Span.stop steps.spanFrom_extent

theorem Cursor.Steps.of_name {cursor : Cursor} {parsed : Parsed cursor.size Name}
    (found : cursor.name = .ok parsed) :
    ∃ token, cursor.Steps [token] parsed.rest ∧ parsed.value.Reads token := by
  unfold Cursor.name at found
  match expected : cursor.expect .name with
  | .error error =>
    rw [expected] at found
    cases found
  | .ok ⟨token, rest, within⟩ =>
    rw [expected] at found
    cases found
    obtain ⟨steps, kind⟩ := Cursor.Steps.of_expect expected
    exact ⟨token, steps, kind, rfl⟩

/-- The result, if there is one, was read from the tokens that lead from the cursor to the cursor
behind the result, and value and tokens are related as the last argument says. -/
def Cursor.Yields (cursor : Cursor) {bound : Nat} {Value : Type}
    (result : Except ParseError (Parsed bound Value))
    (related : Value → List Token → Prop) : Prop :=
  ∀ parsed, result = .ok parsed →
    ∃ tokens, cursor.Steps tokens parsed.rest ∧ related parsed.value tokens

namespace Grammar

theorem furtherNames_reads {separator : Token.Kind} {cursor : Cursor}
    {parsed : Parsed (cursor.size + 1) (List Name)}
    (found : furtherNames separator cursor = .ok parsed) :
    ∃ tokens, cursor.Steps tokens parsed.rest ∧
      ∀ {name token}, name.Reads token →
        Name.ReadsAll separator (name :: parsed.value) (token :: tokens) := by
  rw [furtherNames] at found
  split at found
  · cases found
    exact ⟨[], .refl cursor, fun reads => .single reads⟩
  next mark afterSeparator shorter accepted =>
    obtain ⟨⟨second, afterName, shorterStill⟩, nameFound, found⟩ := bind_eq_ok.1 found
    obtain ⟨⟨others, rest, within⟩, othersFound, found⟩ := bind_eq_ok.1 found
    cases found
    obtain ⟨markStep, markKind⟩ := Cursor.Steps.of_accept? accepted
    obtain ⟨token, step, secondReads⟩ := Cursor.Steps.of_name nameFound
    obtain ⟨tokens, steps, joins⟩ := furtherNames_reads othersFound
    exact ⟨mark :: token :: tokens, markStep.cons (step.cons steps),
      fun reads => .cons reads markKind (joins secondReads)⟩
termination_by cursor.size

theorem names_reads {cursor : Cursor} {parsed : Parsed cursor.size (List Name)}
    (found : names cursor = .ok parsed) :
    ∃ tokens, cursor.Steps tokens parsed.rest ∧
      Name.ReadsAll (.symbol .comma) parsed.value tokens := by
  unfold names at found
  obtain ⟨⟨first, afterFirst, shorter⟩, firstFound, found⟩ := bind_eq_ok.1 found
  obtain ⟨⟨further, rest, within⟩, furtherFound, found⟩ := bind_eq_ok.1 found
  cases found
  obtain ⟨token, step, reads⟩ := Cursor.Steps.of_name firstFound
  obtain ⟨tokens, steps, joins⟩ := furtherNames_reads furtherFound
  exact ⟨token :: tokens, step.cons steps, joins reads⟩

theorem functionName_reads {cursor : Cursor} {parsed : Parsed cursor.size FunctionName}
    (found : functionName cursor = .ok parsed) :
    ∃ tokens, cursor.Steps tokens parsed.rest ∧ parsed.value.Reads tokens := by
  unfold functionName at found
  obtain ⟨⟨first, afterFirst, shorter⟩, firstFound, found⟩ := bind_eq_ok.1 found
  obtain ⟨⟨further, afterPath, shorterStill⟩, furtherFound, found⟩ := bind_eq_ok.1 found
  obtain ⟨token, step, reads⟩ := Cursor.Steps.of_name firstFound
  obtain ⟨tokens, steps, joins⟩ := furtherNames_reads furtherFound
  have start : first.span.start = token.start := congrArg (·.span.start) reads.2
  dsimp only at found step steps
  split at found
  · cases found
    have all := step.cons steps
    refine ⟨token :: tokens, all, ?_⟩
    rw [start, all.spanFrom_extent]
    exact .plain (joins reads)
  next mark afterColon shortest accepted =>
    obtain ⟨⟨method, rest, within⟩, methodFound, found⟩ := bind_eq_ok.1 found
    cases found
    obtain ⟨markStep, markKind⟩ := Cursor.Steps.of_accept? accepted
    obtain ⟨last, lastStep, lastReads⟩ := Cursor.Steps.of_name methodFound
    have all := (step.cons steps).trans (markStep.cons lastStep)
    refine ⟨token :: tokens ++ [mark, last], all, ?_⟩
    rw [start, List.cons_append, all.spanFrom_extent]
    exact .method (joins reads) markKind lastReads

theorem parametersFrom_reads {cursor : Cursor} {parsed : Parsed cursor.size (List Parameter)}
    (found : parametersFrom cursor = .ok parsed) :
    ∃ tokens, cursor.Steps tokens parsed.rest ∧ parsed.value ≠ [] ∧
      Parameter.ReadsAll parsed.value tokens := by
  rw [parametersFrom] at found
  split at found
  next token rest within accepted =>
    cases found
    obtain ⟨step, kind⟩ := Cursor.Steps.of_accept? accepted
    exact ⟨[token], step, List.cons_ne_nil _ _, .vararg kind⟩
  · obtain ⟨⟨name, afterName, shorter⟩, nameFound, found⟩ := bind_eq_ok.1 found
    obtain ⟨token, step, reads⟩ := Cursor.Steps.of_name nameFound
    dsimp only at found
    split at found
    · cases found
      exact ⟨[token], step, List.cons_ne_nil _ _, .single reads⟩
    next mark afterComma shorterStill accepted =>
      obtain ⟨⟨others, rest, within⟩, othersFound, found⟩ := bind_eq_ok.1 found
      cases found
      obtain ⟨markStep, markKind⟩ := Cursor.Steps.of_accept? accepted
      obtain ⟨tokens, steps, nonempty, othersRead⟩ := parametersFrom_reads othersFound
      exact ⟨token :: mark :: tokens, step.cons (markStep.cons steps), List.cons_ne_nil _ _,
        .cons reads markKind nonempty othersRead⟩
termination_by cursor.size

theorem parameters_reads {cursor : Cursor} {parsed : Parsed cursor.size (List Parameter)}
    (found : parameters cursor = .ok parsed) :
    ∃ opening tokens closing, cursor.Steps (opening :: tokens ++ [closing]) parsed.rest ∧
      opening.kind = .symbol .leftParen ∧ Parameter.ReadsAll parsed.value tokens ∧
      closing.kind = .symbol .rightParen := by
  unfold parameters at found
  obtain ⟨⟨opening, inside, opened⟩, openingFound, found⟩ := bind_eq_ok.1 found
  obtain ⟨openingStep, openingKind⟩ := Cursor.Steps.of_expect openingFound
  dsimp only at found
  split at found
  next closing rest closed accepted =>
    cases found
    obtain ⟨step, kind⟩ := Cursor.Steps.of_accept? accepted
    exact ⟨opening, [], closing, openingStep.cons step, openingKind, .nil, kind⟩
  · obtain ⟨⟨inner, afterLast, shorter⟩, innerFound, found⟩ := bind_eq_ok.1 found
    obtain ⟨⟨closing, rest, closed⟩, closingFound, found⟩ := bind_eq_ok.1 found
    cases found
    obtain ⟨tokens, steps, -, reads⟩ := parametersFrom_reads innerFound
    obtain ⟨closingStep, closingKind⟩ := Cursor.Steps.of_expect closingFound
    exact ⟨opening, tokens, closing, openingStep.cons (steps.trans closingStep), openingKind, reads,
      closingKind⟩

/-! ### Statements and expressions -/

/-- All functions of the grammar that are called behind a token account for the tokens they use when
they start from this cursor. -/
structure Accounted (cursor : Cursor) : Prop where
  call : ∀ (base : Expression),
    cursor.Yields (Grammar.call base cursor) fun value tokens =>
      ∀ {before}, base.ReadsCallee false before →
        value.Reads false (before ++ tokens) ∧ value.isPrefix
  suffixes : ∀ (base : Expression),
    cursor.Yields (Grammar.suffixes base cursor) fun value tokens =>
      ∀ {before}, base.isPrefix → base.Reads false before →
        value.Reads false (before ++ tokens) ∧ value.isPrefix
  suffixed : cursor.Yields (Grammar.suffixed cursor) fun value tokens =>
      value.Reads false tokens ∧ value.isPrefix
  operators : ∀ (limit : Nat) (left : Expression),
    cursor.Yields (Grammar.operators limit left cursor) fun value tokens =>
      ∀ {before}, left.Reads false before → value.Reads false (before ++ tokens)
  expression : ∀ (limit : Nat),
    cursor.Yields (Grammar.expression limit cursor) (Expression.Reads false)
  expressions : cursor.Yields (Grammar.expressions cursor) (Expression.ReadsAll false)
  fields : cursor.Yields (Grammar.fields cursor) (Field.ReadsAll false)
  tableBody : cursor.Yields (Grammar.tableBody cursor) fun value tokens =>
      ∃ inner, tokens = inner ++ [value.2] ∧ Field.ReadsAll false value.1 inner ∧
        value.2.kind = .symbol .rightCurly
  callArguments : cursor.Yields (Grammar.callArguments cursor) fun value tokens =>
      ∃ inner, tokens = inner ++ [value.2] ∧ Expression.ReadsArguments false value.1 inner ∧
        value.2.kind = .symbol .rightParen
  returnValues : ∀ (keyword : Token),
    cursor.Yields (Grammar.returnValues keyword cursor) fun value tokens =>
      ∀ {previous : Cursor}, previous.Steps [keyword] cursor →
        keyword.kind = .keyword .returnWord → value.Reads false (keyword :: tokens)
  optionalStep : cursor.Yields (Grammar.optionalStep cursor) (Expression.ReadsStep false)
  functionBody : cursor.Yields (Grammar.functionBody cursor) fun value tokens =>
      Statement.ReadsFunction false value.1 value.2 tokens
  guardedClause : ∀ (word : ClauseWord) (keyword : Token),
    cursor.Yields (Grammar.guardedClause word keyword cursor) fun value tokens =>
      ∀ {previous : Cursor}, previous.Steps [keyword] cursor →
        keyword.kind = .keyword word.keyword →
          Clause.ReadsGuarded false word value (keyword :: tokens)
  furtherClauses : cursor.Yields (Grammar.furtherClauses cursor) (Clause.ReadsFurther false)
  localDeclaration : ∀ (keyword : Token),
    cursor.Yields (Grammar.localDeclaration keyword cursor) fun value tokens =>
      ∀ {previous : Cursor}, previous.Steps [keyword] cursor →
        keyword.kind = .keyword .localWord →
          value.Reads false (keyword :: tokens) ∧ value.isReturn = false
  forLoop : ∀ (keyword : Token),
    cursor.Yields (Grammar.forLoop keyword cursor) fun value tokens =>
      keyword.kind = .keyword .forWord →
        value.Reads false (keyword :: tokens) ∧ value.isReturn = false
  assignmentTargets : ∀ (first : Expression),
    cursor.Yields (Grammar.assignmentTargets first cursor) fun value tokens =>
      ∃ others, value = first :: others ∧ (first :: others).all isAssignable ∧
        ∀ {before}, first.Reads false before →
          Expression.ReadsAll false (first :: others) (before ++ tokens)
  block : cursor.Yields (Grammar.block cursor) (Statement.ReadsBody false)

/-- All cursors with fewer tokens are accounted for. -/
def AccountedBelow (cursor : Cursor) : Prop :=
  ∀ further : Cursor, further.size < cursor.size → Accounted further

section

variable {cursor : Cursor}

theorem yields_primary (below : AccountedBelow cursor) :
    cursor.Yields (primary cursor)
      (fun value tokens => value.Reads false tokens ∧ value.isPrefix) := by
  intro parsed found
  rw [primary] at found
  split at found
  · cases found
  next token rest within next =>
  have step := Cursor.Steps.of_next? next
  dsimp only at step
  split at found
  next kind =>
    cases found
    exact ⟨[token], step, .name ⟨kind, rfl⟩, rfl⟩
  next kind =>
    obtain ⟨⟨inner, afterInner, shorter⟩, innerFound, found⟩ := bind_eq_ok.1 found
    obtain ⟨⟨closing, rest, closed⟩, closingFound, found⟩ := bind_eq_ok.1 found
    cases found
    obtain ⟨tokens, steps, reads⟩ := (below _ (by omega)).expression _ _ innerFound
    obtain ⟨closingStep, closingKind⟩ := Cursor.Steps.of_expect closingFound
    exact ⟨token :: tokens ++ [closing], (step.cons steps).trans closingStep,
      .group kind reads closingKind, rfl⟩
  · cases found

theorem yields_call (below : AccountedBelow cursor)
    (base : Expression) :
    cursor.Yields (call base cursor) fun value tokens =>
      ∀ {before}, base.ReadsCallee false before →
        value.Reads false (before ++ tokens) ∧ value.isPrefix := by
  intro parsed found
  rw [call] at found
  split at found
  · cases found
  next token afterToken within next =>
  have step := Cursor.Steps.of_next? next
  dsimp only at step
  split at found
  next kind =>
    obtain ⟨argument, argumentFound, found⟩ := bind_eq_ok.1 found
    cases found
    exact ⟨[token], step, fun callee => ⟨.stringCall callee (.inl kind) argumentFound, rfl⟩⟩
  next kind =>
    obtain ⟨argument, argumentFound, found⟩ := bind_eq_ok.1 found
    cases found
    exact ⟨[token], step, fun callee => ⟨.stringCall callee (.inr kind) argumentFound, rfl⟩⟩
  next kind =>
    obtain ⟨⟨⟨fields, closing⟩, rest, shorter⟩, bodyFound, found⟩ := bind_eq_ok.1 found
    cases found
    obtain ⟨_, steps, tokens, rfl, reads, closingKind⟩ := (below _ (by omega)).tableBody _ bodyFound
    refine ⟨token :: tokens ++ [closing], step.cons steps, fun callee => ⟨?_, rfl⟩⟩
    rw [← List.append_assoc]
    exact .tableCall callee kind reads closingKind
  next kind =>
    obtain ⟨⟨⟨arguments, closing⟩, rest, shorter⟩, argumentsFound, found⟩ := bind_eq_ok.1 found
    cases found
    obtain ⟨_, steps, tokens, rfl, reads, closingKind⟩ :=
      (below _ (by omega)).callArguments _ argumentsFound
    refine ⟨token :: tokens ++ [closing], step.cons steps, fun callee => ⟨?_, rfl⟩⟩
    rw [← List.append_assoc]
    exact .call callee kind reads closingKind
  · cases found

theorem yields_suffixes (below : AccountedBelow cursor)
    (base : Expression) :
    cursor.Yields (suffixes base cursor) fun value tokens =>
      ∀ {before}, base.isPrefix → base.Reads false before →
        value.Reads false (before ++ tokens) ∧ value.isPrefix := by
  intro parsed found
  rw [suffixes] at found
  split at found
  · cases found
    exact ⟨[], .refl cursor, fun isPrefix reads => ⟨by rwa [List.append_nil], isPrefix⟩⟩
  next token afterToken shorter next =>
  have step := Cursor.Steps.of_next? next
  dsimp only at step
  split at found
  next kind =>
    obtain ⟨⟨name, afterName, nameShorter⟩, nameFound, found⟩ := bind_eq_ok.1 found
    obtain ⟨⟨whole, rest, within⟩, wholeFound, found⟩ := bind_eq_ok.1 found
    cases found
    obtain ⟨last, nameStep, nameReads⟩ := Cursor.Steps.of_name nameFound
    obtain ⟨more, moreSteps, joins⟩ := (below _ (by omega)).suffixes _ _ wholeFound
    refine ⟨token :: last :: more, step.cons (nameStep.cons moreSteps), fun isPrefix reads => ?_⟩
    have joined := joins rfl (.member isPrefix reads kind nameReads)
    rwa [List.append_assoc] at joined
  next kind =>
    obtain ⟨⟨name, afterName, nameShorter⟩, nameFound, found⟩ := bind_eq_ok.1 found
    obtain ⟨⟨called, afterCall, callShorter⟩, callFound, found⟩ := bind_eq_ok.1 found
    obtain ⟨⟨whole, rest, within⟩, wholeFound, found⟩ := bind_eq_ok.1 found
    cases found
    obtain ⟨last, nameStep, nameReads⟩ := Cursor.Steps.of_name nameFound
    obtain ⟨tokens, steps, callJoins⟩ := (below _ (by omega)).call _ _ callFound
    obtain ⟨more, moreSteps, joins⟩ := (below _ (by omega)).suffixes _ _ wholeFound
    refine ⟨token :: last :: (tokens ++ more), step.cons (nameStep.cons (steps.trans moreSteps)),
      fun isPrefix reads => ?_⟩
    obtain ⟨callReads, callPrefix⟩ := callJoins (.method isPrefix reads kind nameReads)
    have joined := joins callPrefix callReads
    rwa [List.append_assoc, List.append_assoc] at joined
  next kind =>
    obtain ⟨⟨key, afterKey, keyShorter⟩, keyFound, found⟩ := bind_eq_ok.1 found
    obtain ⟨⟨closing, afterClosing, closed⟩, closingFound, found⟩ := bind_eq_ok.1 found
    obtain ⟨⟨whole, rest, within⟩, wholeFound, found⟩ := bind_eq_ok.1 found
    cases found
    obtain ⟨tokens, steps, keyReads⟩ := (below _ (by omega)).expression _ _ keyFound
    obtain ⟨closingStep, closingKind⟩ := Cursor.Steps.of_expect closingFound
    obtain ⟨more, moreSteps, joins⟩ := (below _ (by omega)).suffixes _ _ wholeFound
    refine ⟨token :: tokens ++ [closing] ++ more,
      ((step.cons steps).trans closingStep).trans moreSteps, fun {before} isPrefix reads => ?_⟩
    have joined := joins rfl (.index isPrefix reads kind keyReads closingKind)
    rwa [List.append_assoc before, List.append_assoc before] at joined
  all_goals first
    | cases found
      exact ⟨[], .refl cursor, fun isPrefix reads => ⟨by rwa [List.append_nil], isPrefix⟩⟩
    | obtain ⟨⟨called, afterCall, callShorter⟩, callFound, found⟩ := bind_eq_ok.1 found
      obtain ⟨⟨whole, rest, within⟩, wholeFound, found⟩ := bind_eq_ok.1 found
      cases found
      obtain ⟨tokens, steps, callJoins⟩ := yields_call below _ _ callFound
      obtain ⟨more, moreSteps, joins⟩ := (below _ (by omega)).suffixes _ _ wholeFound
      refine ⟨tokens ++ more, steps.trans moreSteps, fun isPrefix reads => ?_⟩
      obtain ⟨callReads, callPrefix⟩ := callJoins (.value isPrefix reads)
      have joined := joins callPrefix callReads
      rwa [List.append_assoc] at joined

theorem yields_suffixed (below : AccountedBelow cursor) :
    cursor.Yields (suffixed cursor)
      fun value tokens => value.Reads false tokens ∧ value.isPrefix := by
  intro parsed found
  rw [suffixed] at found
  obtain ⟨⟨base, afterBase, shorter⟩, baseFound, found⟩ := bind_eq_ok.1 found
  obtain ⟨⟨whole, rest, within⟩, wholeFound, found⟩ := bind_eq_ok.1 found
  cases found
  obtain ⟨tokens, steps, reads, isPrefix⟩ := yields_primary below _ baseFound
  obtain ⟨more, moreSteps, joins⟩ := (below _ (by omega)).suffixes _ _ wholeFound
  exact ⟨tokens ++ more, steps.trans moreSteps, joins isPrefix reads⟩

theorem yields_operators (below : AccountedBelow cursor)
    (limit : Nat) (left : Expression) :
    cursor.Yields (operators limit left cursor) fun value tokens =>
      ∀ {before}, left.Reads false before → value.Reads false (before ++ tokens) := by
  intro parsed found
  rw [operators] at found
  split at found
  · cases found
    exact ⟨[], .refl cursor, fun reads => by rwa [List.append_nil]⟩
  next token afterOperator shorter next =>
  split at found
  · cases found
    exact ⟨[], .refl cursor, fun reads => by rwa [List.append_nil]⟩
  next operator same =>
  split at found
  · cases found
    exact ⟨[], .refl cursor, fun reads => by rwa [List.append_nil]⟩
  · obtain ⟨⟨right, afterRight, shorterStill⟩, rightFound, found⟩ := bind_eq_ok.1 found
    obtain ⟨⟨whole, rest, within⟩, wholeFound, found⟩ := bind_eq_ok.1 found
    cases found
    have step := Cursor.Steps.of_next? next
    obtain ⟨tokens, steps, reads⟩ := (below _ (by omega)).expression _ _ rightFound
    obtain ⟨more, moreSteps, joins⟩ := (below _ (by omega)).operators _ _ _ wholeFound
    refine ⟨token :: tokens ++ more, (step.cons steps).trans moreSteps, fun leftReads => ?_⟩
    have joined := joins (.binary leftReads (BinaryOperator.token_eq_of_ofToken? same) reads)
    rwa [List.append_assoc] at joined

/-- The tokens that an operand uses are read as it. -/
theorem yields_operand (below : AccountedBelow cursor) :
    cursor.Yields (operand cursor) (Expression.Reads false) := by
  intro parsed found
  rw [operand] at found
  split at found
  · obtain ⟨tokens, steps, reads, -⟩ := yields_suffixed below _ found
    exact ⟨tokens, steps, reads⟩
  next token rest within next =>
  have step := Cursor.Steps.of_next? next
  dsimp only at step
  split at found
  next operator same =>
    obtain ⟨⟨argument, rest, shorter⟩, argumentFound, found⟩ := bind_eq_ok.1 found
    cases found
    obtain ⟨tokens, steps, reads⟩ := (below _ (by omega)).expression _ _ argumentFound
    exact ⟨token :: tokens, step.cons steps,
      .unary (UnaryOperator.token_eq_of_ofToken? same) reads⟩
  split at found
  next kind =>
    cases found
    exact ⟨[token], step, .literal (.nil kind)⟩
  next kind =>
    cases found
    exact ⟨[token], step, .literal (.true kind)⟩
  next kind =>
    cases found
    exact ⟨[token], step, .literal (.false kind)⟩
  next kind =>
    cases found
    exact ⟨[token], step, .literal (.vararg kind)⟩
  next kind =>
    obtain ⟨constant, constantFound, found⟩ := bind_eq_ok.1 found
    cases found
    exact ⟨[token], step, .literal (.number kind constantFound)⟩
  next kind =>
    obtain ⟨constant, constantFound, found⟩ := bind_eq_ok.1 found
    cases found
    exact ⟨[token], step, .literal (.string (.inl kind) constantFound)⟩
  next kind =>
    obtain ⟨constant, constantFound, found⟩ := bind_eq_ok.1 found
    cases found
    exact ⟨[token], step, .literal (.string (.inr kind) constantFound)⟩
  next kind =>
    obtain ⟨⟨⟨fields, closing⟩, rest, shorter⟩, bodyFound, found⟩ := bind_eq_ok.1 found
    cases found
    obtain ⟨_, steps, tokens, rfl, reads, closingKind⟩ := (below _ (by omega)).tableBody _ bodyFound
    exact ⟨token :: tokens ++ [closing], step.cons steps, .table kind reads closingKind⟩
  next kind =>
    obtain ⟨⟨⟨parameters, body⟩, rest, shorter⟩, bodyFound, found⟩ := bind_eq_ok.1 found
    cases found
    obtain ⟨tokens, steps, reads⟩ := (below _ (by omega)).functionBody _ bodyFound
    have all := step.cons steps
    refine ⟨token :: tokens, all, ?_⟩
    rw [all.spanFrom_extent]
    exact .function kind reads
  · obtain ⟨tokens, steps, reads, -⟩ := yields_suffixed below _ found
    exact ⟨tokens, steps, reads⟩

/-- The tokens that an expression uses are read as it. -/
theorem yields_expression (below : AccountedBelow cursor)
    (limit : Nat) :
    cursor.Yields (expression limit cursor) (Expression.Reads false) := by
  intro parsed found
  rw [expression] at found
  obtain ⟨⟨left, afterLeft, shorter⟩, leftFound, found⟩ := bind_eq_ok.1 found
  obtain ⟨⟨whole, rest, within⟩, wholeFound, found⟩ := bind_eq_ok.1 found
  cases found
  obtain ⟨tokens, steps, reads⟩ := yields_operand below _ leftFound
  obtain ⟨more, moreSteps, joins⟩ := (below _ (by omega)).operators _ _ _ wholeFound
  exact ⟨tokens ++ more, steps.trans moreSteps, joins reads⟩

/-- The tokens that a list of expressions uses are read as it. -/
theorem yields_expressions (below : AccountedBelow cursor) :
    cursor.Yields (expressions cursor) (Expression.ReadsAll false) := by
  intro parsed found
  rw [expressions] at found
  obtain ⟨⟨first, afterFirst, shorter⟩, firstFound, found⟩ := bind_eq_ok.1 found
  obtain ⟨tokens, steps, reads⟩ := yields_expression below _ _ firstFound
  dsimp only at found
  split at found
  · cases found
    exact ⟨tokens, steps, .single reads⟩
  next mark afterComma shorterStill accepted =>
    obtain ⟨⟨others, rest, within⟩, othersFound, found⟩ := bind_eq_ok.1 found
    cases found
    obtain ⟨markStep, markKind⟩ := Cursor.Steps.of_accept? accepted
    obtain ⟨more, moreSteps, othersRead⟩ := (below _ (by omega)).expressions _ othersFound
    exact ⟨tokens ++ mark :: more, steps.trans (markStep.cons moreSteps),
      .cons reads markKind othersRead⟩

theorem yields_field (below : AccountedBelow cursor) :
    cursor.Yields (field cursor) (Field.Reads false) := by
  intro parsed found
  rw [field] at found
  split at found
  next opening afterOpening shorter accepted =>
    obtain ⟨⟨key, afterKey, keyShorter⟩, keyFound, found⟩ := bind_eq_ok.1 found
    obtain ⟨⟨closing, afterClosing, closed⟩, closingFound, found⟩ := bind_eq_ok.1 found
    obtain ⟨⟨mark, afterEqual, markShorter⟩, markFound, found⟩ := bind_eq_ok.1 found
    obtain ⟨⟨value, rest, within⟩, valueFound, found⟩ := bind_eq_ok.1 found
    cases found
    obtain ⟨openingStep, openingKind⟩ := Cursor.Steps.of_accept? accepted
    obtain ⟨inner, innerSteps, keyReads⟩ := (below _ (by omega)).expression _ _ keyFound
    obtain ⟨closingStep, closingKind⟩ := Cursor.Steps.of_expect closingFound
    obtain ⟨markStep, markKind⟩ := Cursor.Steps.of_expect markFound
    obtain ⟨tokens, steps, valueReads⟩ := (below _ (by omega)).expression _ _ valueFound
    have all := (openingStep.cons innerSteps).trans (closingStep.cons (markStep.cons steps))
    refine ⟨_, all, ?_⟩
    rw [List.cons_append, all.spanFrom_extent]
    exact .keyed openingKind keyReads closingKind markKind valueReads
  split at found
  · obtain ⟨⟨name, afterName, nameShorter⟩, nameFound, found⟩ := bind_eq_ok.1 found
    obtain ⟨⟨mark, afterEqual, markShorter⟩, markFound, found⟩ := bind_eq_ok.1 found
    obtain ⟨⟨value, rest, within⟩, valueFound, found⟩ := bind_eq_ok.1 found
    cases found
    obtain ⟨token, nameStep, nameReads⟩ := Cursor.Steps.of_name nameFound
    obtain ⟨markStep, markKind⟩ := Cursor.Steps.of_expect markFound
    obtain ⟨tokens, steps, valueReads⟩ := (below _ (by omega)).expression _ _ valueFound
    have start : name.span.start = token.start := congrArg (·.span.start) nameReads.2
    have all := nameStep.cons (markStep.cons steps)
    refine ⟨_, all, ?_⟩
    rw [start, all.spanFrom_extent]
    exact .named nameReads markKind valueReads
  · obtain ⟨⟨value, rest, within⟩, valueFound, found⟩ := bind_eq_ok.1 found
    cases found
    obtain ⟨tokens, steps, reads⟩ := yields_expression below _ _ valueFound
    exact ⟨tokens, steps, .positional reads⟩

theorem yields_fields (below : AccountedBelow cursor) :
    cursor.Yields (fields cursor) (Field.ReadsAll false) := by
  intro parsed found
  rw [fields] at found
  split at found
  · cases found
    exact ⟨[], .refl cursor, .nil⟩
  · obtain ⟨⟨first, afterFirst, shorter⟩, firstFound, found⟩ := bind_eq_ok.1 found
    obtain ⟨tokens, steps, reads⟩ := yields_field below _ firstFound
    dsimp only at found
    split at found
    · cases found
      refine ⟨tokens, steps, ?_⟩
      rw [← List.append_nil tokens]
      exact .last reads rfl .nil
    next mark afterSeparator shorterStill separated =>
      obtain ⟨⟨others, rest, within⟩, othersFound, found⟩ := bind_eq_ok.1 found
      cases found
      obtain ⟨more, moreSteps, othersRead⟩ := (below _ (by omega)).fields _ othersFound
      rcases Option.or_eq_some_iff.1 separated with accepted | ⟨-, accepted⟩
      · obtain ⟨markStep, markKind⟩ := Cursor.Steps.of_accept? accepted
        exact ⟨tokens ++ mark :: more, steps.trans (markStep.cons moreSteps),
          .cons reads (.inl markKind) othersRead⟩
      · obtain ⟨markStep, markKind⟩ := Cursor.Steps.of_accept? accepted
        exact ⟨tokens ++ mark :: more, steps.trans (markStep.cons moreSteps),
          .cons reads (.inr markKind) othersRead⟩

/-- The tokens that a table uses are read as its fields and a brace. -/
theorem yields_tableBody (below : AccountedBelow cursor) :
    cursor.Yields (tableBody cursor) fun value tokens =>
      ∃ inner, tokens = inner ++ [value.2] ∧ Field.ReadsAll false value.1 inner ∧
        value.2.kind = .symbol .rightCurly := by
  intro parsed found
  rw [tableBody] at found
  obtain ⟨⟨entries, afterFields, shorter⟩, fieldsFound, found⟩ := bind_eq_ok.1 found
  obtain ⟨⟨closing, rest, within⟩, closingFound, found⟩ := bind_eq_ok.1 found
  cases found
  obtain ⟨tokens, steps, reads⟩ := yields_fields below _ fieldsFound
  obtain ⟨closingStep, closingKind⟩ := Cursor.Steps.of_expect closingFound
  exact ⟨_, steps.trans closingStep, tokens, rfl, reads, closingKind⟩

/-- The tokens behind the parenthesis of a call are read as its arguments and another parenthesis.
-/
theorem yields_callArguments (below : AccountedBelow cursor) :
    cursor.Yields (callArguments cursor) fun value tokens =>
      ∃ inner, tokens = inner ++ [value.2] ∧ Expression.ReadsArguments false value.1 inner ∧
        value.2.kind = .symbol .rightParen := by
  intro parsed found
  rw [callArguments] at found
  split at found
  next closing rest within accepted =>
    cases found
    obtain ⟨step, kind⟩ := Cursor.Steps.of_accept? accepted
    exact ⟨_, step, [], rfl, .nil, kind⟩
  · obtain ⟨⟨arguments, afterLast, shorter⟩, argumentsFound, found⟩ := bind_eq_ok.1 found
    obtain ⟨⟨closing, rest, within⟩, closingFound, found⟩ := bind_eq_ok.1 found
    cases found
    obtain ⟨tokens, steps, reads⟩ := yields_expressions below _ argumentsFound
    obtain ⟨closingStep, closingKind⟩ := Cursor.Steps.of_expect closingFound
    exact ⟨_, steps.trans closingStep, tokens, rfl, .some reads, closingKind⟩

theorem yields_optionalExpressions (below : AccountedBelow cursor) :
    cursor.Yields (optionalExpressions cursor) (Expression.ReadsArguments false) := by
  intro parsed found
  rw [optionalExpressions] at found
  split at found
  · cases found
    exact ⟨[], .refl cursor, .nil⟩
  · obtain ⟨⟨values, rest, within⟩, valuesFound, found⟩ := bind_eq_ok.1 found
    cases found
    obtain ⟨tokens, steps, reads⟩ := yields_expressions below _ valuesFound
    exact ⟨tokens, steps, .some reads⟩

theorem yields_returnValues (below : AccountedBelow cursor)
    (keyword : Token) :
    cursor.Yields (returnValues keyword cursor) fun value tokens =>
      ∀ {previous : Cursor}, previous.Steps [keyword] cursor →
        keyword.kind = .keyword .returnWord → value.Reads false (keyword :: tokens) := by
  intro parsed found
  rw [returnValues] at found
  obtain ⟨⟨values, afterValues, shorter⟩, valuesFound, found⟩ := bind_eq_ok.1 found
  obtain ⟨tokens, steps, valuesRead⟩ := yields_optionalExpressions below _ valuesFound
  dsimp only at found steps
  split at found
  next mark rest within accepted =>
    cases found
    obtain ⟨markStep, markKind⟩ := Cursor.Steps.of_accept? accepted
    have all := steps.trans markStep
    refine ⟨tokens ++ [mark], all, fun opened keywordKind => ?_⟩
    rw [(opened.cons all).spanFrom_extent]
    exact .returnValues keywordKind valuesRead (.inr ⟨rfl, mark, markKind, rfl⟩)
  · cases found
    refine ⟨tokens, steps, fun opened keywordKind => ?_⟩
    rw [(opened.cons steps).spanFrom_extent, ← List.append_nil (keyword :: tokens)]
    exact .returnValues keywordKind valuesRead (.inl rfl)

theorem yields_optionalStep (below : AccountedBelow cursor) :
    cursor.Yields (optionalStep cursor) (Expression.ReadsStep false) := by
  intro parsed found
  rw [optionalStep] at found
  split at found
  · cases found
    exact ⟨[], .refl cursor, .none⟩
  next mark afterComma shorter accepted =>
    obtain ⟨⟨step, rest, within⟩, stepFound, found⟩ := bind_eq_ok.1 found
    cases found
    obtain ⟨markStep, markKind⟩ := Cursor.Steps.of_accept? accepted
    obtain ⟨tokens, steps, reads⟩ := (below _ (by omega)).expression _ _ stepFound
    exact ⟨mark :: tokens, markStep.cons steps, .some markKind reads⟩

/-- The tokens behind the name of a function are read as its parameters and block. -/
theorem yields_functionBody (below : AccountedBelow cursor) :
    cursor.Yields (functionBody cursor) fun value tokens =>
      Statement.ReadsFunction false value.1 value.2 tokens := by
  intro parsed found
  rw [functionBody] at found
  obtain ⟨⟨parameters, afterParameters, shorter⟩, parametersFound, found⟩ := bind_eq_ok.1 found
  obtain ⟨⟨body, afterBody, shorterStill⟩, bodyFound, found⟩ := bind_eq_ok.1 found
  obtain ⟨⟨last, rest, within⟩, lastFound, found⟩ := bind_eq_ok.1 found
  cases found
  obtain ⟨opening, before, closing, parametersSteps, openingKind, parametersRead, closingKind⟩ :=
    parameters_reads parametersFound
  obtain ⟨tokens, steps, bodyReads⟩ := (below _ (by omega)).block _ bodyFound
  obtain ⟨lastStep, lastKind⟩ := Cursor.Steps.of_expect lastFound
  have all := (parametersSteps.trans steps).trans lastStep
  rw [List.append_assoc (opening :: before), List.singleton_append] at all
  exact ⟨_, all, .intro openingKind parametersRead closingKind bodyReads lastKind⟩

theorem yields_guardedClause (below : AccountedBelow cursor)
    (word : ClauseWord) (keyword : Token) :
    cursor.Yields (guardedClause word keyword cursor) fun value tokens =>
      ∀ {previous : Cursor}, previous.Steps [keyword] cursor →
        keyword.kind = .keyword word.keyword →
          Clause.ReadsGuarded false word value (keyword :: tokens) := by
  intro parsed found
  rw [guardedClause] at found
  obtain ⟨⟨condition, afterCondition, shorter⟩, conditionFound, found⟩ := bind_eq_ok.1 found
  obtain ⟨⟨header, afterThen, shorterStill⟩, headerFound, found⟩ := bind_eq_ok.1 found
  obtain ⟨⟨body, rest, within⟩, bodyFound, found⟩ := bind_eq_ok.1 found
  cases found
  obtain ⟨inner, innerSteps, conditionReads⟩ := yields_expression below _ _ conditionFound
  obtain ⟨headerStep, headerKind⟩ := Cursor.Steps.of_expect headerFound
  obtain ⟨tokens, steps, bodyReads⟩ := (below _ (by omega)).block _ bodyFound
  refine ⟨inner ++ header :: tokens, innerSteps.trans (headerStep.cons steps),
    fun opened keywordKind => ?_⟩
  have headerSteps := (opened.cons innerSteps).trans headerStep
  rw [List.cons_append] at headerSteps
  rw [headerSteps.spanFrom_extent]
  exact .intro keywordKind conditionReads headerKind bodyReads

/-- The tokens behind a clause are read as clauses that may follow it. -/
theorem yields_furtherClauses (below : AccountedBelow cursor) :
    cursor.Yields (furtherClauses cursor) (Clause.ReadsFurther false) := by
  intro parsed found
  rw [furtherClauses] at found
  split at found
  next keyword afterKeyword shorter accepted =>
    obtain ⟨⟨clause, afterClause, shorterStill⟩, clauseFound, found⟩ := bind_eq_ok.1 found
    obtain ⟨⟨clauses, rest, within⟩, clausesFound, found⟩ := bind_eq_ok.1 found
    cases found
    obtain ⟨step, kind⟩ := Cursor.Steps.of_accept? accepted
    obtain ⟨tokens, steps, reads⟩ := (below _ (by omega)).guardedClause _ _ _ clauseFound
    obtain ⟨more, moreSteps, clausesRead⟩ := (below _ (by omega)).furtherClauses _ clausesFound
    exact ⟨keyword :: tokens ++ more, (step.cons steps).trans moreSteps,
      .cons (reads step kind) clausesRead⟩
  · split at found
    next keyword afterKeyword shorter accepted =>
      obtain ⟨⟨body, rest, within⟩, bodyFound, found⟩ := bind_eq_ok.1 found
      cases found
      obtain ⟨step, kind⟩ := Cursor.Steps.of_accept? accepted
      obtain ⟨tokens, steps, reads⟩ := (below _ (by omega)).block _ bodyFound
      exact ⟨keyword :: tokens, step.cons steps, .otherwise kind reads⟩
    · cases found
      exact ⟨[], .refl cursor, .nil⟩

/-- With the word in front of them, the tokens are read as a local declaration. -/
theorem yields_localDeclaration (below : AccountedBelow cursor)
    (keyword : Token) :
    cursor.Yields (localDeclaration keyword cursor) fun value tokens =>
      ∀ {previous : Cursor}, previous.Steps [keyword] cursor →
        keyword.kind = .keyword .localWord →
          value.Reads false (keyword :: tokens) ∧ value.isReturn = false := by
  intro parsed found
  rw [localDeclaration] at found
  split at found
  next word afterFunction shorter accepted =>
    obtain ⟨⟨name, afterName, nameShorter⟩, nameFound, found⟩ := bind_eq_ok.1 found
    obtain ⟨⟨⟨parameters, body⟩, rest, within⟩, bodyFound, found⟩ := bind_eq_ok.1 found
    cases found
    obtain ⟨wordStep, wordKind⟩ := Cursor.Steps.of_accept? accepted
    obtain ⟨token, nameStep, nameReads⟩ := Cursor.Steps.of_name nameFound
    obtain ⟨tokens, steps, bodyReads⟩ := (below _ (by omega)).functionBody _ bodyFound
    have all := wordStep.cons (nameStep.cons steps)
    refine ⟨word :: token :: tokens, all, fun opened keywordKind => ⟨?_, rfl⟩⟩
    rw [(opened.cons all).spanFrom_extent]
    exact .localFunction keywordKind wordKind nameReads bodyReads
  · obtain ⟨⟨declared, afterNames, namesShorter⟩, namesFound, found⟩ := bind_eq_ok.1 found
    obtain ⟨before, beforeSteps, namesRead⟩ := names_reads namesFound
    dsimp only at found
    split at found
    next mark afterEqual shorter accepted =>
      obtain ⟨⟨values, rest, within⟩, valuesFound, found⟩ := bind_eq_ok.1 found
      cases found
      obtain ⟨markStep, markKind⟩ := Cursor.Steps.of_accept? accepted
      obtain ⟨after, afterSteps, valuesRead⟩ := (below _ (by omega)).expressions _ valuesFound
      have all := beforeSteps.trans (markStep.cons afterSteps)
      refine ⟨before ++ mark :: after, all, fun opened keywordKind => ⟨?_, rfl⟩⟩
      rw [(opened.cons all).spanFrom_extent]
      exact .localVariables keywordKind namesRead markKind valuesRead
    · cases found
      refine ⟨before, beforeSteps, fun opened keywordKind => ⟨?_, rfl⟩⟩
      rw [(opened.cons beforeSteps).spanFrom_extent]
      exact .localNames keywordKind namesRead

/-- With the word in front of them, the tokens are read as a loop. -/
theorem yields_forLoop (below : AccountedBelow cursor)
    (keyword : Token) :
    cursor.Yields (forLoop keyword cursor) fun value tokens =>
      keyword.kind = .keyword .forWord →
        value.Reads false (keyword :: tokens) ∧ value.isReturn = false := by
  intro parsed found
  rw [forLoop] at found
  obtain ⟨⟨name, afterName, nameShorter⟩, nameFound, found⟩ := bind_eq_ok.1 found
  obtain ⟨token, nameStep, nameReads⟩ := Cursor.Steps.of_name nameFound
  dsimp only at found
  split at found
  next mark afterEqual shorter accepted =>
    obtain ⟨⟨first, afterFirst, firstShorter⟩, firstFound, found⟩ := bind_eq_ok.1 found
    dsimp only at found
    obtain ⟨⟨comma, afterComma, commaShorter⟩, commaFound, found⟩ := bind_eq_ok.1 found
    dsimp only at found
    obtain ⟨⟨final, afterFinal, finalShorter⟩, finalFound, found⟩ := bind_eq_ok.1 found
    dsimp only at found
    obtain ⟨⟨step, afterStep, stepShorter⟩, stepFound, found⟩ := bind_eq_ok.1 found
    dsimp only at found
    obtain ⟨⟨header, afterDo, headerShorter⟩, headerFound, found⟩ := bind_eq_ok.1 found
    dsimp only at found
    obtain ⟨⟨body, afterBody, bodyShorter⟩, bodyFound, found⟩ := bind_eq_ok.1 found
    obtain ⟨⟨last, rest, within⟩, lastFound, found⟩ := bind_eq_ok.1 found
    cases found
    obtain ⟨markStep, markKind⟩ := Cursor.Steps.of_accept? accepted
    obtain ⟨before, beforeSteps, firstReads⟩ := (below _ (by omega)).expression _ _ firstFound
    obtain ⟨commaStep, commaKind⟩ := Cursor.Steps.of_expect commaFound
    obtain ⟨after, afterSteps, finalReads⟩ := (below _ (by omega)).expression _ _ finalFound
    obtain ⟨further, furtherSteps, stepReads⟩ := (below _ (by omega)).optionalStep _ stepFound
    obtain ⟨headerStep, headerKind⟩ := Cursor.Steps.of_expect headerFound
    obtain ⟨tokens, steps, bodyReads⟩ := (below _ (by omega)).block _ bodyFound
    obtain ⟨lastStep, lastKind⟩ := Cursor.Steps.of_expect lastFound
    have all := ((((nameStep.cons (markStep.cons beforeSteps)).trans
      (commaStep.cons afterSteps)).trans furtherSteps).trans (headerStep.cons steps)).trans lastStep
    refine ⟨_, all, fun keywordKind => ⟨?_, rfl⟩⟩
    rw [all.spanFrom_eq]
    exact .numericFor keywordKind nameReads markKind firstReads commaKind finalReads stepReads
      headerKind bodyReads lastKind
  · obtain ⟨⟨further, afterNames, namesShorter⟩, namesFound, found⟩ := bind_eq_ok.1 found
    dsimp only at found
    obtain ⟨⟨word, afterIn, wordShorter⟩, wordFound, found⟩ := bind_eq_ok.1 found
    dsimp only at found
    obtain ⟨⟨iterators, afterIterators, iteratorsShorter⟩, iteratorsFound, found⟩ :=
      bind_eq_ok.1 found
    dsimp only at found
    obtain ⟨⟨header, afterDo, headerShorter⟩, headerFound, found⟩ := bind_eq_ok.1 found
    dsimp only at found
    obtain ⟨⟨body, afterBody, bodyShorter⟩, bodyFound, found⟩ := bind_eq_ok.1 found
    obtain ⟨⟨last, rest, within⟩, lastFound, found⟩ := bind_eq_ok.1 found
    cases found
    obtain ⟨before, beforeSteps, joins⟩ := furtherNames_reads namesFound
    obtain ⟨wordStep, wordKind⟩ := Cursor.Steps.of_expect wordFound
    obtain ⟨inner, innerSteps, iteratorsRead⟩ := (below _ (by omega)).expressions _ iteratorsFound
    obtain ⟨headerStep, headerKind⟩ := Cursor.Steps.of_expect headerFound
    obtain ⟨tokens, steps, bodyReads⟩ := (below _ (by omega)).block _ bodyFound
    obtain ⟨lastStep, lastKind⟩ := Cursor.Steps.of_expect lastFound
    have all := (((nameStep.cons beforeSteps).trans (wordStep.cons innerSteps)).trans
      (headerStep.cons steps)).trans lastStep
    refine ⟨_, all, fun keywordKind => ⟨?_, rfl⟩⟩
    rw [all.spanFrom_eq]
    exact .genericFor keywordKind (joins nameReads) wordKind iteratorsRead headerKind bodyReads
      lastKind

/-- The tokens behind a target are read as further targets. -/
theorem yields_assignmentTargets (below : AccountedBelow cursor)
    (first : Expression) :
    cursor.Yields (assignmentTargets first cursor) fun value tokens =>
      ∃ others, value = first :: others ∧ (first :: others).all isAssignable ∧
        ∀ {before}, first.Reads false before →
          Expression.ReadsAll false (first :: others) (before ++ tokens) := by
  intro parsed found
  rw [assignmentTargets] at found
  split at found
  next assignable =>
    split at found
    · cases found
      refine ⟨[], .refl cursor, [], rfl, by simpa using assignable, fun reads => ?_⟩
      rw [List.append_nil]
      exact .single reads
    next mark afterComma shorter accepted =>
      obtain ⟨⟨second, afterSecond, shorterStill⟩, secondFound, found⟩ := bind_eq_ok.1 found
      obtain ⟨⟨targets, rest, within⟩, targetsFound, found⟩ := bind_eq_ok.1 found
      cases found
      obtain ⟨markStep, markKind⟩ := Cursor.Steps.of_accept? accepted
      obtain ⟨tokens, steps, secondReads, -⟩ := (below _ (by omega)).suffixed _ secondFound
      obtain ⟨more, moreSteps, others, same, allAssignable, joins⟩ :=
        (below _ (by omega)).assignmentTargets _ _ targetsFound
      dsimp only at same
      subst same
      refine ⟨mark :: (tokens ++ more), markStep.cons (steps.trans moreSteps), _, rfl, ?_,
        fun reads => .cons reads markKind (joins secondReads)⟩
      rw [List.all_cons, assignable, allAssignable]
      rfl
  · cases found

/-- The tokens are read as an assignment or a call. -/
theorem yields_assignmentOrCall (below : AccountedBelow cursor) :
    cursor.Yields (assignmentOrCall cursor) fun value tokens =>
      value.Reads false tokens ∧ value.isReturn = false := by
  intro parsed found
  rw [assignmentOrCall] at found
  obtain ⟨⟨first, afterFirst, shorter⟩, firstFound, found⟩ := bind_eq_ok.1 found
  obtain ⟨tokens, steps, reads, -⟩ := yields_suffixed below _ firstFound
  dsimp only at found
  split at found
  · obtain ⟨⟨targets, afterTargets, shorterStill⟩, targetsFound, found⟩ := bind_eq_ok.1 found
    dsimp only at found
    obtain ⟨⟨mark, afterEqual, shortest⟩, markFound, found⟩ := bind_eq_ok.1 found
    dsimp only at found
    obtain ⟨⟨values, rest, within⟩, valuesFound, found⟩ := bind_eq_ok.1 found
    cases found
    obtain ⟨more, moreSteps, others, same, assignable, joins⟩ :=
      (below _ (by omega)).assignmentTargets _ _ targetsFound
    obtain ⟨markStep, markKind⟩ := Cursor.Steps.of_expect markFound
    obtain ⟨after, afterSteps, valuesRead⟩ := (below _ (by omega)).expressions _ valuesFound
    refine ⟨tokens ++ more ++ mark :: after,
      (steps.trans moreSteps).trans (markStep.cons afterSteps), ?_, rfl⟩
    dsimp only at same
    rw [Cursor.spanFrom, afterSteps.lastStop_extent within, same]
    exact .assignment assignable (joins reads) markKind valuesRead
  split at found
  next isCall =>
    cases found
    exact ⟨tokens, steps, .call isCall reads, rfl⟩
  · cases found

/-- The tokens that a statement uses are read as it, and none is a `return`. -/
theorem yields_statement (below : AccountedBelow cursor) :
    cursor.Yields (statement cursor) fun value tokens =>
      value.Reads false tokens ∧ value.isReturn = false := by
  intro parsed found
  rw [statement] at found
  split at found
  · cases found
  next token rest within next =>
  have step := Cursor.Steps.of_next? next
  dsimp only at step
  split at found
  next kind =>
    cases found
    exact ⟨[token], step, .breakLoop kind, rfl⟩
  next kind =>
    obtain ⟨⟨name, afterName, shorter⟩, nameFound, found⟩ := bind_eq_ok.1 found
    obtain ⟨⟨closing, rest, closed⟩, closingFound, found⟩ := bind_eq_ok.1 found
    cases found
    obtain ⟨middle, nameStep, reads⟩ := Cursor.Steps.of_name nameFound
    obtain ⟨closingStep, closingKind⟩ := Cursor.Steps.of_expect closingFound
    have all := step.cons (nameStep.cons closingStep)
    refine ⟨[token, middle, closing], all, ?_, rfl⟩
    rw [Cursor.Steps.spanFrom_eq (show cursor.Steps ([token, middle] ++ [closing]) _ from all)]
    exact .label kind reads closingKind
  next kind =>
    obtain ⟨⟨body, afterBody, shorter⟩, bodyFound, found⟩ := bind_eq_ok.1 found
    obtain ⟨⟨closing, rest, closed⟩, closingFound, found⟩ := bind_eq_ok.1 found
    cases found
    obtain ⟨tokens, steps, reads⟩ := (below _ (by omega)).block _ bodyFound
    obtain ⟨closingStep, closingKind⟩ := Cursor.Steps.of_expect closingFound
    have all := (step.cons steps).trans closingStep
    refine ⟨_, all, ?_, rfl⟩
    rw [all.spanFrom_eq]
    exact .doBlock kind reads closingKind
  next kind =>
    obtain ⟨⟨loop, rest, shorter⟩, loopFound, found⟩ := bind_eq_ok.1 found
    cases found
    obtain ⟨tokens, steps, reads⟩ := (below _ (by omega)).forLoop _ _ loopFound
    exact ⟨token :: tokens, step.cons steps, reads kind⟩
  next kind =>
    obtain ⟨⟨name, afterName, shorter⟩, nameFound, found⟩ := bind_eq_ok.1 found
    obtain ⟨⟨⟨parameters, body⟩, rest, closed⟩, bodyFound, found⟩ := bind_eq_ok.1 found
    cases found
    obtain ⟨before, nameSteps, nameReads⟩ := functionName_reads nameFound
    obtain ⟨tokens, steps, reads⟩ := (below _ (by omega)).functionBody _ bodyFound
    have all := (step.cons nameSteps).trans steps
    refine ⟨_, all, ?_, rfl⟩
    rw [List.cons_append, all.spanFrom_extent]
    exact .function kind nameReads reads
  next kind =>
    obtain ⟨⟨target, rest, shorter⟩, nameFound, found⟩ := bind_eq_ok.1 found
    cases found
    obtain ⟨last, nameStep, reads⟩ := Cursor.Steps.of_name nameFound
    have all := step.cons nameStep
    refine ⟨[token, last], all, ?_, rfl⟩
    rw [Cursor.Steps.spanFrom_eq (show cursor.Steps ([token] ++ [last]) _ from all)]
    exact .goto kind reads
  next kind =>
    obtain ⟨⟨first, afterFirst, shorter⟩, firstFound, found⟩ := bind_eq_ok.1 found
    obtain ⟨⟨further, afterClauses, shorterStill⟩, furtherFound, found⟩ := bind_eq_ok.1 found
    obtain ⟨⟨closing, rest, closed⟩, closingFound, found⟩ := bind_eq_ok.1 found
    cases found
    obtain ⟨tokens, steps, reads⟩ := (below _ (by omega)).guardedClause _ _ _ firstFound
    obtain ⟨more, moreSteps, furtherRead⟩ := (below _ (by omega)).furtherClauses _ furtherFound
    obtain ⟨closingStep, closingKind⟩ := Cursor.Steps.of_expect closingFound
    have all := ((step.cons steps).trans moreSteps).trans closingStep
    refine ⟨_, all, ?_, rfl⟩
    rw [all.spanFrom_eq]
    exact .ifElse (reads step kind) furtherRead closingKind
  next kind =>
    obtain ⟨⟨declaration, rest, shorter⟩, declarationFound, found⟩ := bind_eq_ok.1 found
    cases found
    obtain ⟨tokens, steps, reads⟩ := (below _ (by omega)).localDeclaration _ _ declarationFound
    exact ⟨token :: tokens, step.cons steps, reads step kind⟩
  next kind =>
    obtain ⟨⟨body, afterBody, shorter⟩, bodyFound, found⟩ := bind_eq_ok.1 found
    obtain ⟨⟨word, afterUntil, shorterStill⟩, wordFound, found⟩ := bind_eq_ok.1 found
    obtain ⟨⟨condition, rest, closed⟩, conditionFound, found⟩ := bind_eq_ok.1 found
    cases found
    obtain ⟨tokens, steps, reads⟩ := (below _ (by omega)).block _ bodyFound
    obtain ⟨wordStep, wordKind⟩ := Cursor.Steps.of_expect wordFound
    obtain ⟨after, afterSteps, conditionReads⟩ := (below _ (by omega)).expression _ _ conditionFound
    have all := (step.cons steps).trans (wordStep.cons afterSteps)
    refine ⟨_, all, ?_, rfl⟩
    rw [List.cons_append, all.spanFrom_extent]
    exact .repeatUntil kind reads wordKind conditionReads
  next kind =>
    obtain ⟨⟨condition, afterCondition, shorter⟩, conditionFound, found⟩ := bind_eq_ok.1 found
    obtain ⟨⟨header, afterDo, shorterStill⟩, headerFound, found⟩ := bind_eq_ok.1 found
    obtain ⟨⟨body, afterBody, shortest⟩, bodyFound, found⟩ := bind_eq_ok.1 found
    obtain ⟨⟨closing, rest, closed⟩, closingFound, found⟩ := bind_eq_ok.1 found
    cases found
    obtain ⟨inner, innerSteps, conditionReads⟩ := (below _ (by omega)).expression _ _ conditionFound
    obtain ⟨headerStep, headerKind⟩ := Cursor.Steps.of_expect headerFound
    obtain ⟨tokens, steps, reads⟩ := (below _ (by omega)).block _ bodyFound
    obtain ⟨closingStep, closingKind⟩ := Cursor.Steps.of_expect closingFound
    have all := ((step.cons innerSteps).trans (headerStep.cons steps)).trans closingStep
    refine ⟨_, all, ?_, rfl⟩
    rw [all.spanFrom_eq]
    exact .whileLoop kind conditionReads headerKind reads closingKind
  · exact yields_assignmentOrCall below _ found
  · exact yields_assignmentOrCall below _ found
  · cases found

/-- The tokens that a block uses are read as it. -/
theorem yields_block (below : AccountedBelow cursor) :
    cursor.Yields (block cursor) (Statement.ReadsBody false) := by
  intro parsed found
  rw [block] at found
  split at found
  · cases found
    exact ⟨[], .refl cursor, .nil⟩
  split at found
  next mark afterSemicolon shorter accepted =>
    obtain ⟨⟨body, rest, within⟩, bodyFound, found⟩ := bind_eq_ok.1 found
    cases found
    obtain ⟨step, kind⟩ := Cursor.Steps.of_accept? accepted
    obtain ⟨tokens, steps, reads⟩ := (below _ (by omega)).block _ bodyFound
    exact ⟨mark :: tokens, step.cons steps, .semicolon kind (by rintro ⟨⟩) reads⟩
  split at found
  next keyword afterKeyword shorter accepted =>
    obtain ⟨⟨last, rest, within⟩, lastFound, found⟩ := bind_eq_ok.1 found
    obtain ⟨step, kind⟩ := Cursor.Steps.of_accept? accepted
    obtain ⟨tokens, steps, reads⟩ := (below _ (by omega)).returnValues _ _ lastFound
    dsimp only at found
    split at found
    · cases found
      refine ⟨keyword :: tokens, step.cons steps, ?_⟩
      rw [← List.append_nil (keyword :: tokens)]
      exact .cons (reads step kind) (fun _ => rfl) (by rintro ⟨⟩) .nil
    · cases found
  · obtain ⟨⟨first, afterFirst, shorter⟩, firstFound, found⟩ := bind_eq_ok.1 found
    obtain ⟨⟨others, rest, within⟩, othersFound, found⟩ := bind_eq_ok.1 found
    cases found
    obtain ⟨tokens, steps, reads, goesOn⟩ := yields_statement below _ firstFound
    obtain ⟨more, further, othersRead⟩ := (below _ (by omega)).block _ othersFound
    refine ⟨tokens ++ more, steps.trans further,
      .cons reads (fun isReturn => ?_) (by rintro ⟨⟩) othersRead⟩
    rw [goesOn] at isReturn
    cases isReturn

end

/-- Every cursor is accounted for, by induction on what remains. -/
theorem accounted (cursor : Cursor) : Accounted cursor := by
  induction size : cursor.size using Nat.strongRecOn generalizing cursor with
  | ind bound inductionHypothesis =>
    have below : AccountedBelow cursor :=
      fun further shorter => inductionHypothesis _ (size ▸ shorter) further rfl
    exact {
      call := yields_call below
      suffixes := yields_suffixes below
      suffixed := yields_suffixed below
      operators := yields_operators below
      expression := yields_expression below
      expressions := yields_expressions below
      fields := yields_fields below
      tableBody := yields_tableBody below
      callArguments := yields_callArguments below
      returnValues := yields_returnValues below
      optionalStep := yields_optionalStep below
      functionBody := yields_functionBody below
      guardedClause := yields_guardedClause below
      furtherClauses := yields_furtherClauses below
      localDeclaration := yields_localDeclaration below
      forLoop := yields_forLoop below
      assignmentTargets := yields_assignmentTargets below
      block := yields_block below }

end Grammar

end LuaStyle
