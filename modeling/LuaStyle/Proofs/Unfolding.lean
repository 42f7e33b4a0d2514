/-
This file shows that each function of the grammar does what its routine says.

The function carries a bound on the tokens that remain, which its recursion rests on, and the
routine does not. Both are sequences of the same steps, so the lemmas take them apart step by step:
where the function uses a token, the routine does, and where it calls a function, the routine calls
the rule, which the function answers.
-/

import LuaStyle.Proofs.Readers
import LuaStyle.Proofs.Routines

namespace LuaStyle

namespace Grammar

variable {bound later : Nat} {First Second Value : Type} {cursor : Cursor}

/-- A sequence is run by running its parts one after the other. -/
theorem Course.run_bind (answers : Answers) (course : Course First)
    (further : First → Course Second) :
    (course >>= further).run answers =
      course.run answers >>= fun value => (further value).run answers := by
  induction course with
  | fails error => rfl
  | ends value => rfl
  | calls rule place next inductionHypothesis =>
    change (answers rule place >>= fun read => (next read >>= further).run answers) =
      (answers rule place >>= fun read => (next read).run answers) >>= _
    cases answers rule place with
    | error error => rfl
    | ok read => exact inductionHypothesis read

namespace Routine

open Rule (forget)

/-! ### Results of routines -/

/-- The result of a routine at a place, where the functions of the grammar answer its calls. -/
abbrev result (routine : Routine Value) (cursor : Cursor) : Except ParseError (Value × Cursor) :=
  (routine cursor).run Rule.apply

/-- The result of a sequence is that of its second part where the first one ends. -/
theorem result_bind (routine : Routine First) (further : First → Routine Second)
    (cursor : Cursor) : result (routine >>= further) cursor =
      result routine cursor >>= fun read => result (further read.1) read.2 :=
  Course.run_bind _ _ _

/-- Asking for a rule has the result of the rule. -/
theorem result_ask (rule : Rule) (cursor : Cursor) :
    result (ask rule) cursor = rule.apply cursor := by
  change rule.apply cursor >>= (fun read => .ok read) = rule.apply cursor
  cases rule.apply cursor <;> rfl

/-- Asking for a token does what the cursor does. -/
theorem result_expect (kind : Token.Kind) (cursor : Cursor) :
    result (expect kind) cursor = forget (cursor.expect kind) := by
  rw [result, expect]
  cases cursor.expect kind <;> rfl

theorem result_name (cursor : Cursor) : result name cursor = forget cursor.name := by
  rw [name, result_bind, result_expect, Cursor.name]
  cases cursor.expect .name <;> rfl

/-- A sequence of two steps. -/
theorem forget_bind {run : Except ParseError (Parsed bound First)}
    {next : Parsed bound First → Except ParseError (Parsed later Second)}
    {routine : Routine First} {further : First → Routine Second}
    (first : forget run = result routine cursor)
    (second : ∀ parsed, forget (next parsed) = result (further parsed.value) parsed.rest) :
    forget (run >>= next) = result (routine >>= further) cursor := by
  rw [result_bind, ← first]
  cases run with
  | error error => rfl
  | ok parsed => exact second parsed

/-- A call, and what follows it. -/
theorem forget_ask (rule : Rule) {run : Except ParseError (Parsed bound rule.Value)}
    {next : Parsed bound rule.Value → Except ParseError (Parsed later Second)}
    {further : rule.Value → Routine Second} (same : forget run = rule.apply cursor)
    (second : ∀ parsed, forget (next parsed) = result (further parsed.value) parsed.rest) :
    forget (run >>= next) = result (ask rule >>= further) cursor :=
  forget_bind (same.trans (result_ask rule cursor).symm) second

/-- A call whose result is passed on. -/
theorem forget_last (rule : Rule) {run : Except ParseError (Parsed bound rule.Value)}
    {next : Parsed bound rule.Value → Except ParseError (Parsed later rule.Value)}
    (same : forget run = rule.apply cursor)
    (second : ∀ parsed, forget (next parsed) = .ok (parsed.value, parsed.rest)) :
    forget (run >>= next) = result (ask rule) cursor := by
  rw [result_ask, ← same]
  cases run with
  | error error => rfl
  | ok parsed => exact second parsed

/-- Behind a token that is asked for, it remains to compare what follows. -/
theorem forget_expect {kind : Token.Kind}
    {next : Parsed cursor.size Token → Except ParseError (Parsed later Second)}
    {further : Token → Routine Second}
    (second : ∀ parsed, forget (next parsed) = result (further parsed.value) parsed.rest) :
    forget (cursor.expect kind >>= next) = result (expect kind >>= further) cursor :=
  forget_bind (result_expect kind cursor).symm second

/-- Behind a name, it remains to compare what follows. -/
theorem forget_name {next : Parsed cursor.size Name → Except ParseError (Parsed later Second)}
    {further : Name → Routine Second}
    (second : ∀ parsed, forget (next parsed) = result (further parsed.value) parsed.rest) :
    forget (cursor.name >>= next) = result (name >>= further) cursor :=
  forget_bind (result_name cursor).symm second

/-- The stretch that was read is known at its end. -/
theorem forget_spanFrom {start : Nat} {run : Except ParseError (Parsed bound Value)}
    {further : Span → Routine Value}
    (same : forget run = result (further (cursor.spanFrom start)) cursor) :
    forget run = result (spanFrom start >>= further) cursor := same

/-- A choice goes on with what it chooses for the next kind. -/
theorem result_look (next : Token.Kind → Routine Value) (cursor : Cursor) :
    result (look next) cursor = result (next cursor.kind) cursor := rfl

/-- An optional part is read where its token is next. -/
theorem result_ifNext_of_accept? {kind : Token.Kind} {parsed : Parsed cursor.size Token}
    (accepted : cursor.accept? kind = some parsed) (behind : Token → Routine Value)
    (here : Routine Value) :
    result (ifNext kind behind here) cursor = result (behind parsed.value) parsed.rest := by
  rw [result, ifNext, accepted]
  rfl

/-- An optional part is left out where its token is not next. -/
theorem result_ifNext_of_refused {kind : Token.Kind} (refused : cursor.accept? kind = none)
    (behind : Token → Routine Value) (here : Routine Value) :
    result (ifNext kind behind here) cursor = result here cursor := by
  rw [result, ifNext, refused]
  rfl

theorem result_look_of_next? {parsed : Parsed cursor.size Token}
    (found : cursor.next? = some parsed) (next : Token.Kind → Routine Value) :
    result (look next) cursor = result (next parsed.value.kind) cursor := by
  rw [result_look, Cursor.kind_of_next? found]

/-- At the end of the source, a choice is made for that. -/
theorem result_look_of_ended (ended : cursor.next? = none) (next : Token.Kind → Routine Value) :
    result (look next) cursor = result (next .endOfSource) cursor := by
  rw [result_look, Cursor.kind_of_next?_eq_none ended]

/-- What is read behind the token that follows. -/
theorem forget_behind {token : Token} {rest : Cursor} {within : rest.size < cursor.size}
    {kind : Token.Kind} {run : Except ParseError (Parsed bound Value)}
    {further : Token → Routine Value} (found : cursor.next? = some ⟨token, rest, within⟩)
    (same : token.kind = kind) (behind : forget run = result (further token) rest) :
    forget run = result (expect kind >>= further) cursor := by
  rw [result_bind, result_expect, Cursor.expect, Reader.accept?_of_next? found same]
  exact behind

/-- A literal is made of a token. -/
theorem forget_literal {run : Except ParseError Literal} {rest : Cursor}
    {next : Literal → Except ParseError (Parsed later Second)}
    {further : Literal → Routine Second}
    (second : ∀ literal, forget (next literal) = result (further literal) rest) :
    forget (run >>= next) = result (lift run >>= further) rest := by
  rw [result_bind]
  cases run with
  | error error => rfl
  | ok literal => exact second literal

/-! ### Names and parameters -/

/-- The grammar reads further names as the routine does. -/
theorem agrees_furtherNames (separator : Token.Kind) (cursor : Cursor) :
    forget (Grammar.furtherNames separator cursor) = result (furtherNames separator) cursor := by
  rw [Grammar.furtherNames, furtherNames]
  cases accepted : cursor.accept? separator with
  | none =>
    rw [result_ifNext_of_refused accepted]
    rfl
  | some parsed =>
    rw [result_ifNext_of_accept? accepted]
    refine forget_name ?_
    rintro ⟨first, afterFirst, _⟩
    exact forget_ask (.furtherNames separator) rfl fun _ => rfl

/-- The grammar reads names as the routine does. -/
theorem agrees_names (cursor : Cursor) : forget (Grammar.names cursor) = result names cursor := by
  rw [Grammar.names]
  refine forget_name ?_
  rintro ⟨first, afterFirst, _⟩
  exact forget_ask (.furtherNames _) rfl fun _ => rfl

theorem agrees_functionName (cursor : Cursor) :
    forget (Grammar.functionName cursor) = result functionName cursor := by
  rw [Grammar.functionName]
  refine forget_name ?_
  rintro ⟨first, afterFirst, _⟩
  refine forget_ask (.furtherNames _) rfl ?_
  rintro ⟨further, afterPath, _⟩
  dsimp only
  cases accepted : afterPath.accept? (.symbol .colon) with
  | none =>
    rw [result_ifNext_of_refused accepted]
    rfl
  | some parsed =>
    rw [result_ifNext_of_accept? accepted]
    exact forget_name fun _ => rfl

theorem agrees_parametersFrom (cursor : Cursor) :
    forget (Grammar.parametersFrom cursor) = result parametersFrom cursor := by
  rw [Grammar.parametersFrom, parametersFrom]
  cases accepted : cursor.accept? (.symbol .dotDotDot) with
  | some parsed =>
    rw [result_ifNext_of_accept? accepted]
    rfl
  | none =>
    rw [result_ifNext_of_refused accepted]
    refine forget_name ?_
    rintro ⟨name, afterName, _⟩
    dsimp only
    cases comma : afterName.accept? (.symbol .comma) with
    | none =>
      rw [result_ifNext_of_refused comma]
      rfl
    | some parsed =>
      rw [result_ifNext_of_accept? comma]
      exact forget_ask .parametersFrom rfl fun _ => rfl

theorem agrees_parameters (cursor : Cursor) :
    forget (Grammar.parameters cursor) = result parameters cursor := by
  rw [Grammar.parameters]
  refine forget_expect ?_
  rintro ⟨_, inside, _⟩
  dsimp only
  cases accepted : inside.accept? (.symbol .rightParen) with
  | some parsed =>
    rw [result_ifNext_of_accept? accepted]
    rfl
  | none =>
    rw [result_ifNext_of_refused accepted]
    refine forget_ask .parametersFrom rfl ?_
    rintro ⟨parameters, afterLast, _⟩
    exact forget_expect fun _ => rfl

/-! ### Statements -/

/-- The grammar reads a block as the routine does. -/
theorem agrees_block (cursor : Cursor) :
    forget (Grammar.block cursor) = result block cursor := by
  rw [Grammar.block, block, result_look]
  split
  · rfl
  cases semicolon : cursor.accept? (.symbol .semicolon) with
  | some parsed =>
    rw [result_ifNext_of_accept? semicolon]
    exact forget_last .block rfl fun _ => rfl
  | none =>
    rw [result_ifNext_of_refused semicolon]
    cases accepted : cursor.accept? (.keyword .returnWord) with
    | some parsed =>
      rw [result_ifNext_of_accept? accepted]
      refine forget_ask (.returnValues _) rfl ?_
      rintro ⟨last, rest, _⟩
      dsimp only
      rw [result_look]
      split <;> rfl
    | none =>
      rw [result_ifNext_of_refused accepted]
      refine forget_ask .statement rfl ?_
      rintro ⟨first, afterFirst, _⟩
      exact forget_ask .block rfl fun _ => rfl

/-- The grammar reads a statement as the routine does. -/
theorem agrees_statement (cursor : Cursor) :
    forget (Grammar.statement cursor) = result statement cursor := by
  rw [Grammar.statement, statement]
  split
  next ended => rw [result_look_of_ended ended]; rfl
  next token rest within found =>
    rw [result_look_of_next? found]
    dsimp only
    split
    next same =>
      rw [same]
      exact forget_behind found same rfl
    next same =>
      rw [same]
      refine forget_behind found same ?_
      refine forget_name ?_
      rintro ⟨name, afterName, _⟩
      exact forget_expect fun _ => rfl
    next same =>
      rw [same]
      refine forget_behind found same ?_
      refine forget_ask .block rfl ?_
      rintro ⟨body, afterBody, _⟩
      exact forget_expect fun _ => rfl
    next same =>
      rw [same]
      refine forget_behind found same ?_
      exact forget_last (.forLoop token) rfl fun _ => rfl
    next same =>
      rw [same]
      refine forget_behind found same ?_
      refine forget_ask .functionName rfl ?_
      rintro ⟨name, afterName, _⟩
      exact forget_ask .functionBody rfl fun _ => rfl
    next same =>
      rw [same]
      refine forget_behind found same ?_
      exact forget_name fun _ => rfl
    next same =>
      rw [same]
      refine forget_behind found same ?_
      refine forget_ask (.guardedClause .ifWord token) rfl ?_
      rintro ⟨first, afterFirst, _⟩
      refine forget_ask .furtherClauses rfl ?_
      rintro ⟨further, afterClauses, _⟩
      exact forget_expect fun _ => rfl
    next same =>
      rw [same]
      refine forget_behind found same ?_
      exact forget_last (.localDeclaration token) rfl fun _ => rfl
    next same =>
      rw [same]
      refine forget_behind found same ?_
      refine forget_ask .block rfl ?_
      rintro ⟨body, afterBody, _⟩
      refine forget_expect ?_
      rintro ⟨_, afterUntil, _⟩
      exact forget_ask (.expression 0) rfl fun _ => rfl
    next same =>
      rw [same]
      refine forget_behind found same ?_
      refine forget_ask (.expression 0) rfl ?_
      rintro ⟨condition, afterCondition, _⟩
      refine forget_expect ?_
      rintro ⟨_, afterDo, _⟩
      refine forget_ask .block rfl ?_
      rintro ⟨body, afterBody, _⟩
      exact forget_expect fun _ => rfl
    next same =>
      rw [same]
      exact (result_ask .assignmentOrCall cursor).symm
    next same =>
      rw [same]
      exact (result_ask .assignmentOrCall cursor).symm
    · simp only [*]
      rfl

/-- The grammar reads a statement that starts with an expression as the routine does. -/
theorem agrees_assignmentOrCall (cursor : Cursor) :
    forget (Grammar.assignmentOrCall cursor) = result assignmentOrCall cursor := by
  rw [Grammar.assignmentOrCall]
  refine forget_ask .suffixed rfl ?_
  rintro ⟨first, afterFirst, _⟩
  dsimp only
  rw [result_look]
  split
  · refine forget_ask (.assignmentTargets first) rfl ?_
    rintro ⟨targets, afterTargets, _⟩
    refine forget_expect ?_
    rintro ⟨_, afterEqual, _⟩
    exact forget_ask .expressions rfl fun _ => rfl
  · split <;> rfl

theorem agrees_assignmentTargets (first : Expression) (cursor : Cursor) :
    forget (Grammar.assignmentTargets first cursor) = result (assignmentTargets first) cursor := by
  rw [Grammar.assignmentTargets, assignmentTargets]
  split
  · cases accepted : cursor.accept? (.symbol .comma) with
    | none =>
      rw [result_ifNext_of_refused accepted]
      rfl
    | some parsed =>
      rw [result_ifNext_of_accept? accepted]
      refine forget_ask .suffixed rfl ?_
      rintro ⟨second, afterSecond, _⟩
      exact forget_ask (.assignmentTargets second) rfl fun _ => rfl
  · rfl

/-- The grammar reads a loop as the routine does. -/
theorem agrees_forLoop (keyword : Token) (cursor : Cursor) :
    forget (Grammar.forLoop keyword cursor) = result (forLoop keyword) cursor := by
  rw [Grammar.forLoop]
  refine forget_name ?_
  rintro ⟨name, afterName, _⟩
  dsimp only
  cases accepted : afterName.accept? (.symbol .equal) with
  | some parsed =>
    rw [result_ifNext_of_accept? accepted]
    refine forget_ask (.expression 0) rfl ?_
    rintro ⟨first, afterFirst, _⟩
    refine forget_expect ?_
    rintro ⟨_, afterComma, _⟩
    refine forget_ask (.expression 0) rfl ?_
    rintro ⟨last, afterLast, _⟩
    refine forget_ask .optionalStep rfl ?_
    rintro ⟨step, afterStep, _⟩
    refine forget_expect ?_
    rintro ⟨_, afterDo, _⟩
    refine forget_ask .block rfl ?_
    rintro ⟨body, afterBody, _⟩
    exact forget_expect fun _ => rfl
  | none =>
    rw [result_ifNext_of_refused accepted]
    refine forget_ask (.furtherNames _) rfl ?_
    rintro ⟨further, afterNames, _⟩
    refine forget_expect ?_
    rintro ⟨_, afterIn, _⟩
    refine forget_ask .expressions rfl ?_
    rintro ⟨iterators, afterIterators, _⟩
    refine forget_expect ?_
    rintro ⟨_, afterDo, _⟩
    refine forget_ask .block rfl ?_
    rintro ⟨body, afterBody, _⟩
    exact forget_expect fun _ => rfl

theorem agrees_optionalStep (cursor : Cursor) :
    forget (Grammar.optionalStep cursor) = result optionalStep cursor := by
  rw [Grammar.optionalStep, optionalStep]
  cases accepted : cursor.accept? (.symbol .comma) with
  | none =>
    rw [result_ifNext_of_refused accepted]
    rfl
  | some parsed =>
    rw [result_ifNext_of_accept? accepted]
    exact forget_ask (.expression 0) rfl fun _ => rfl

/-- The grammar reads what is behind the name of a function as the routine does. -/
theorem agrees_functionBody (cursor : Cursor) :
    forget (Grammar.functionBody cursor) = result functionBody cursor := by
  rw [Grammar.functionBody]
  refine forget_ask .parameters rfl ?_
  rintro ⟨parameters, afterParameters, _⟩
  refine forget_ask .block rfl ?_
  rintro ⟨body, afterBody, _⟩
  exact forget_expect fun _ => rfl

theorem agrees_guardedClause (word : ClauseWord) (keyword : Token) (cursor : Cursor) :
    forget (Grammar.guardedClause word keyword cursor) =
      result (guardedClause word keyword) cursor := by
  rw [Grammar.guardedClause]
  refine forget_ask (.expression 0) rfl ?_
  rintro ⟨condition, afterCondition, _⟩
  refine forget_expect ?_
  rintro ⟨_, afterThen, _⟩
  refine forget_spanFrom ?_
  exact forget_ask .block rfl fun _ => rfl

theorem agrees_furtherClauses (cursor : Cursor) :
    forget (Grammar.furtherClauses cursor) = result furtherClauses cursor := by
  rw [Grammar.furtherClauses, furtherClauses]
  cases accepted : cursor.accept? (.keyword .elseifWord) with
  | some parsed =>
    rw [result_ifNext_of_accept? accepted]
    refine forget_ask (.guardedClause .elseifWord _) rfl ?_
    rintro ⟨clause, afterClause, _⟩
    exact forget_ask .furtherClauses rfl fun _ => rfl
  | none =>
    rw [result_ifNext_of_refused accepted]
    cases otherwise : cursor.accept? (.keyword .elseWord) with
    | some parsed =>
      rw [result_ifNext_of_accept? otherwise]
      exact forget_ask .block rfl fun _ => rfl
    | none =>
      rw [result_ifNext_of_refused otherwise]
      rfl

theorem agrees_localDeclaration (keyword : Token) (cursor : Cursor) :
    forget (Grammar.localDeclaration keyword cursor) =
      result (localDeclaration keyword) cursor := by
  rw [Grammar.localDeclaration, localDeclaration]
  cases accepted : cursor.accept? (.keyword .functionWord) with
  | some parsed =>
    rw [result_ifNext_of_accept? accepted]
    refine forget_name ?_
    rintro ⟨name, afterName, _⟩
    exact forget_ask .functionBody rfl fun _ => rfl
  | none =>
    rw [result_ifNext_of_refused accepted]
    refine forget_ask .names rfl ?_
    rintro ⟨declared, afterNames, _⟩
    dsimp only
    cases equal : afterNames.accept? (.symbol .equal) with
    | some parsed =>
      rw [result_ifNext_of_accept? equal]
      exact forget_ask .expressions rfl fun _ => rfl
    | none =>
      rw [result_ifNext_of_refused equal]
      rfl

theorem agrees_returnValues (keyword : Token) (cursor : Cursor) :
    forget (Grammar.returnValues keyword cursor) = result (returnValues keyword) cursor := by
  rw [Grammar.returnValues]
  refine forget_ask .optionalExpressions rfl ?_
  rintro ⟨values, afterValues, _⟩
  dsimp only
  cases accepted : afterValues.accept? (.symbol .semicolon) with
  | some parsed =>
    rw [result_ifNext_of_accept? accepted]
    rfl
  | none =>
    rw [result_ifNext_of_refused accepted]
    rfl

/-! ### Expressions -/

theorem agrees_optionalExpressions (cursor : Cursor) :
    forget (Grammar.optionalExpressions cursor) = result optionalExpressions cursor := by
  rw [Grammar.optionalExpressions, optionalExpressions, result_look]
  split
  · rfl
  · exact forget_last .expressions rfl fun _ => rfl

theorem agrees_expressions (cursor : Cursor) :
    forget (Grammar.expressions cursor) = result expressions cursor := by
  rw [Grammar.expressions]
  refine forget_ask (.expression 0) rfl ?_
  rintro ⟨first, afterFirst, _⟩
  dsimp only
  cases accepted : afterFirst.accept? (.symbol .comma) with
  | none =>
    rw [result_ifNext_of_refused accepted]
    rfl
  | some parsed =>
    rw [result_ifNext_of_accept? accepted]
    exact forget_ask .expressions rfl fun _ => rfl

/-- The grammar reads an expression above a limit as the routine does. -/
theorem agrees_expression (limit : Nat) (cursor : Cursor) :
    forget (Grammar.expression limit cursor) = result (expression limit) cursor := by
  rw [Grammar.expression]
  refine forget_ask .operand rfl ?_
  rintro ⟨left, afterLeft, _⟩
  exact forget_last (.operators limit left) rfl fun _ => rfl

/-- The grammar reads operators behind an operand as the routine does. -/
theorem agrees_operators (limit : Nat) (left : Expression) (cursor : Cursor) :
    forget (Grammar.operators limit left cursor) = result (operators limit left) cursor := by
  rw [Grammar.operators, operators]
  split
  next ended => rw [result_look_of_ended ended]; rfl
  next token rest within found =>
    rw [result_look_of_next? found]
    dsimp only
    split
    next none => rw [none]; rfl
    next operator known =>
      rw [known]
      dsimp only
      split
      · rfl
      · refine forget_behind found rfl ?_
        refine forget_ask (.expression operator.rightPower) rfl ?_
        rintro ⟨right, afterRight, _⟩
        exact forget_last (.operators limit _) rfl fun _ => rfl

/-- A literal of one fixed token is read alike by both. -/
theorem forget_constant {token : Token} {rest : Cursor} {within : rest.size < cursor.size}
    {kind : Token.Kind} (found : cursor.next? = some ⟨token, rest, within⟩)
    (same : token.kind = kind) (value : LiteralValue) :
    forget (.ok (⟨.literal ⟨value, token.text, token.span⟩, rest, within⟩ :
      Parsed cursor.size Expression)) = result (constant kind value) cursor :=
  forget_behind found same rfl

/-- The grammar reads an operand as the routine does. -/
theorem agrees_operand (cursor : Cursor) :
    forget (Grammar.operand cursor) = result operand cursor := by
  rw [Grammar.operand, operand]
  split
  next ended =>
    rw [result_look_of_ended ended]
    exact (result_ask .suffixed cursor).symm
  next token rest within found =>
    rw [result_look_of_next? found]
    dsimp only
    split
    next operator known =>
      rw [known]
      refine forget_behind found rfl ?_
      exact forget_ask (.expression UnaryOperator.bindingPower) rfl fun _ => rfl
    next none =>
      rw [none]
      dsimp only
      split
      case h_1 same | h_2 same | h_3 same | h_4 same =>
        rw [same]
        exact forget_constant found same _
      case h_5 same =>
        rw [same]
        exact forget_behind found same (forget_literal fun _ => rfl)
      case h_6 same | h_7 same =>
        rw [same]
        exact forget_behind found same (forget_literal fun _ => rfl)
      case h_8 same =>
        rw [same]
        refine forget_behind found same ?_
        exact forget_ask .tableBody rfl fun _ => rfl
      case h_9 same =>
        rw [same]
        refine forget_behind found same ?_
        exact forget_ask .functionBody rfl fun _ => rfl
      · simp only [*]
        exact (result_ask .suffixed cursor).symm

theorem agrees_suffixed (cursor : Cursor) :
    forget (Grammar.suffixed cursor) = result suffixed cursor := by
  rw [Grammar.suffixed]
  refine forget_ask .primary rfl ?_
  rintro ⟨base, afterBase, _⟩
  exact forget_last (.suffixes base) rfl fun _ => rfl

theorem agrees_primary (cursor : Cursor) :
    forget (Grammar.primary cursor) = result primary cursor := by
  rw [Grammar.primary, primary]
  split
  next ended => rw [result_look_of_ended ended]; rfl
  next token rest within found =>
    rw [result_look_of_next? found]
    dsimp only
    split
    next same =>
      rw [same]
      exact forget_behind found same rfl
    next same =>
      rw [same]
      refine forget_behind found same ?_
      refine forget_ask (.expression 0) rfl ?_
      rintro ⟨inner, afterInner, _⟩
      exact forget_expect fun _ => rfl
    · simp only [*]
      rfl

/-- The grammar reads selections and calls as the routine does. -/
theorem agrees_suffixes (base : Expression) (cursor : Cursor) :
    forget (Grammar.suffixes base cursor) = result (suffixes base) cursor := by
  rw [Grammar.suffixes, suffixes]
  split
  next ended => rw [result_look_of_ended ended]; rfl
  next token afterToken within found =>
    rw [result_look_of_next? found]
    dsimp only
    split
    next same =>
      rw [same]
      refine forget_behind found same ?_
      refine forget_name ?_
      rintro ⟨name, afterName, _⟩
      exact forget_last (.suffixes _) rfl fun _ => rfl
    next same =>
      rw [same]
      refine forget_behind found same ?_
      refine forget_name ?_
      rintro ⟨name, afterName, _⟩
      refine forget_ask (.call _) rfl ?_
      rintro ⟨call, afterCall, _⟩
      exact forget_last (.suffixes call) rfl fun _ => rfl
    next same =>
      rw [same]
      refine forget_behind found same ?_
      refine forget_ask (.expression 0) rfl ?_
      rintro ⟨key, afterKey, _⟩
      refine forget_expect ?_
      rintro ⟨closing, afterClosing, _⟩
      exact forget_last (.suffixes _) rfl fun _ => rfl
    case h_4 same | h_5 same | h_6 same | h_7 same =>
      rw [same]
      refine forget_ask (.call base) rfl ?_
      rintro ⟨call, afterCall, _⟩
      exact forget_last (.suffixes call) rfl fun _ => rfl
    · simp only [*]
      rfl

theorem agrees_call (base : Expression) (cursor : Cursor) :
    forget (Grammar.call base cursor) = result (call base) cursor := by
  rw [Grammar.call, call]
  split
  next ended => rw [result_look_of_ended ended]; rfl
  next token afterToken within found =>
    rw [result_look_of_next? found]
    dsimp only
    split
    case h_1 same | h_2 same =>
      rw [same]
      exact forget_behind found same (forget_literal fun _ => rfl)
    next same =>
      rw [same]
      refine forget_behind found same ?_
      exact forget_ask .tableBody rfl fun _ => rfl
    next same =>
      rw [same]
      refine forget_behind found same ?_
      exact forget_ask .callArguments rfl fun _ => rfl
    · simp only [*]
      rfl

theorem agrees_callArguments (cursor : Cursor) :
    forget (Grammar.callArguments cursor) = result callArguments cursor := by
  rw [Grammar.callArguments, callArguments]
  cases accepted : cursor.accept? (.symbol .rightParen) with
  | some parsed =>
    rw [result_ifNext_of_accept? accepted]
    rfl
  | none =>
    rw [result_ifNext_of_refused accepted]
    refine forget_ask .expressions rfl ?_
    rintro ⟨arguments, afterLast, _⟩
    exact forget_expect fun _ => rfl

/-- The grammar reads a table as the routine does. -/
theorem agrees_tableBody (cursor : Cursor) :
    forget (Grammar.tableBody cursor) = result tableBody cursor := by
  rw [Grammar.tableBody]
  refine forget_ask .fields rfl ?_
  rintro ⟨fields, afterFields, _⟩
  exact forget_expect fun _ => rfl

theorem agrees_fields (cursor : Cursor) :
    forget (Grammar.fields cursor) = result fields cursor := by
  rw [Grammar.fields, fields, result_look]
  split
  · rfl
  refine forget_ask .field rfl ?_
  rintro ⟨first, afterFirst, _⟩
  dsimp only
  cases comma : afterFirst.accept? (.symbol .comma) with
  | some parsed =>
    rw [result_ifNext_of_accept? comma]
    exact forget_ask .fields rfl fun _ => rfl
  | none =>
    rw [result_ifNext_of_refused comma]
    cases semicolon : afterFirst.accept? (.symbol .semicolon) with
    | some parsed =>
      rw [result_ifNext_of_accept? semicolon]
      exact forget_ask .fields rfl fun _ => rfl
    | none =>
      rw [result_ifNext_of_refused semicolon]
      rfl

theorem agrees_field (cursor : Cursor) :
    forget (Grammar.field cursor) = result field cursor := by
  rw [Grammar.field, field]
  cases accepted : cursor.accept? (.symbol .leftSquare) with
  | some parsed =>
    rw [result_ifNext_of_accept? accepted]
    refine forget_ask (.expression 0) rfl ?_
    rintro ⟨key, afterKey, _⟩
    refine forget_expect ?_
    rintro ⟨_, afterClosing, _⟩
    refine forget_expect ?_
    rintro ⟨_, afterEqual, _⟩
    exact forget_ask (.expression 0) rfl fun _ => rfl
  | none =>
    rw [result_ifNext_of_refused accepted, result]
    dsimp only
    split
    · refine forget_name ?_
      rintro ⟨name, afterName, _⟩
      refine forget_expect ?_
      rintro ⟨_, afterEqual, _⟩
      exact forget_ask (.expression 0) rfl fun _ => rfl
    · exact forget_ask (.expression 0) rfl fun _ => rfl

end Routine

/-- The function of a rule does what its routine says, where the functions of the grammar answer
the calls. -/
theorem Rule.apply_eq_run (rule : Rule) (cursor : Cursor) :
    rule.apply cursor = (rule.routine cursor).run Rule.apply := by
  cases rule with
  | furtherNames separator => exact Routine.agrees_furtherNames separator cursor
  | names => exact Routine.agrees_names cursor
  | functionName => exact Routine.agrees_functionName cursor
  | parametersFrom => exact Routine.agrees_parametersFrom cursor
  | parameters => exact Routine.agrees_parameters cursor
  | block => exact Routine.agrees_block cursor
  | statement => exact Routine.agrees_statement cursor
  | assignmentOrCall => exact Routine.agrees_assignmentOrCall cursor
  | assignmentTargets first => exact Routine.agrees_assignmentTargets first cursor
  | forLoop keyword => exact Routine.agrees_forLoop keyword cursor
  | optionalStep => exact Routine.agrees_optionalStep cursor
  | functionBody => exact Routine.agrees_functionBody cursor
  | guardedClause word keyword => exact Routine.agrees_guardedClause word keyword cursor
  | furtherClauses => exact Routine.agrees_furtherClauses cursor
  | localDeclaration keyword => exact Routine.agrees_localDeclaration keyword cursor
  | returnValues keyword => exact Routine.agrees_returnValues keyword cursor
  | optionalExpressions => exact Routine.agrees_optionalExpressions cursor
  | expressions => exact Routine.agrees_expressions cursor
  | expression limit => exact Routine.agrees_expression limit cursor
  | operators limit left => exact Routine.agrees_operators limit left cursor
  | operand => exact Routine.agrees_operand cursor
  | suffixed => exact Routine.agrees_suffixed cursor
  | primary => exact Routine.agrees_primary cursor
  | suffixes base => exact Routine.agrees_suffixes base cursor
  | call base => exact Routine.agrees_call base cursor
  | callArguments => exact Routine.agrees_callArguments cursor
  | tableBody => exact Routine.agrees_tableBody cursor
  | fields => exact Routine.agrees_fields cursor
  | field => exact Routine.agrees_field cursor

end Grammar

end LuaStyle
