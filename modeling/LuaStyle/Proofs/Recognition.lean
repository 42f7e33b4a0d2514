/-
This file writes the rules of the grammar as readers.

There is an equation for each rule. It says which tokens the rule expects, which other rules it goes
through, and where it decides by the kind of the token that follows. All of them decide by that
token only: the one rule that looks at two, the field of a table, has a form in which it decides
behind the name.

A rule that is handed the expression in front of it reads on in the same way whatever the expression
is, except that an assignment depends on whether it can be assigned to, and the end of a statement
on whether it is a call. Such a rule is run on a sample of the shape.
-/

import LuaStyle.Proofs.Readers

namespace LuaStyle

namespace Reader

/-! ### Names and parameters -/

/-- Names behind separators. -/
def furtherNames (separator : Token.Kind) : Reader Unit :=
  skip (Grammar.furtherNames separator)

/-- Names, separated by commas. -/
def names : Reader Unit :=
  skip Grammar.names

/-- The name of a function that is declared: a path of names and maybe a method. -/
def functionName : Reader Unit :=
  skip Grammar.functionName

/-- Parameters up to the closing parenthesis. -/
def parametersFrom : Reader Unit :=
  skip Grammar.parametersFrom

/-- The parameters of a function, with their parentheses. -/
def parameters : Reader Unit :=
  skip Grammar.parameters

theorem furtherNames_eq {separator : Token.Kind} (real : separator ≠ .endOfSource) :
    furtherNames separator = optional separator (do expect .name; furtherNames separator) := by
  refine skip_eq fun cursor => ?_
  rw [Grammar.furtherNames, optional]
  cases accepted : cursor.accept? separator with
  | none =>
    rw [ifNext_of_refused accepted real]
    rfl
  | some parsed =>
    rw [ifNext_of_accept? accepted]
    refine erase_then (erase_name _) fun parsed => ?_
    exact erase_last (skip_apply _ _) fun _ => rfl

/-- Names are one name and what further names there are. -/
theorem names_eq : names = (do expect .name; furtherNames (.symbol .comma)) := by
  refine skip_eq fun cursor => ?_
  rw [Grammar.names]
  refine erase_then (erase_name _) fun parsed => ?_
  exact erase_last (skip_apply _ _) fun _ => rfl

/-- The name of a function is names with points between them, and perhaps a method. -/
theorem functionName_eq : functionName = (do
    expect .name
    furtherNames (.symbol .dot)
    optional (.symbol .colon) (expect .name)) := by
  refine skip_eq fun cursor => ?_
  rw [Grammar.functionName]
  refine erase_then (erase_name _) ?_
  rintro ⟨first, afterFirst, _⟩
  refine erase_then (skip_apply _ _) ?_
  rintro ⟨further, afterPath, _⟩
  dsimp only
  rw [optional]
  cases accepted : afterPath.accept? (.symbol .colon) with
  | none =>
    rw [ifNext_of_refused accepted (by decide)]
    rfl
  | some parsed =>
    rw [ifNext_of_accept? accepted]
    exact erase_last (erase_name _) fun _ => rfl

/-- Parameters end with the remaining arguments, or go on behind a comma. -/
theorem parametersFrom_eq : parametersFrom = ifNext (.symbol .dotDotDot) (pure ()) (do
    expect .name
    optional (.symbol .comma) parametersFrom) := by
  refine skip_eq fun cursor => ?_
  rw [Grammar.parametersFrom]
  cases accepted : cursor.accept? (.symbol .dotDotDot) with
  | some parsed =>
    rw [ifNext_of_accept? accepted]
    rfl
  | none =>
    rw [ifNext_of_refused accepted (by decide)]
    refine erase_then (erase_name _) ?_
    rintro ⟨name, afterName, _⟩
    dsimp only
    rw [optional]
    cases accepted : afterName.accept? (.symbol .comma) with
    | none =>
      rw [ifNext_of_refused accepted (by decide)]
      rfl
    | some parsed =>
      rw [ifNext_of_accept? accepted]
      exact erase_last (skip_apply _ _) fun _ => rfl

theorem parameters_eq : parameters = (do
    expect (.symbol .leftParen)
    ifNext (.symbol .rightParen) (pure ()) (do
      parametersFrom
      expect (.symbol .rightParen))) := by
  refine skip_eq fun cursor => ?_
  rw [Grammar.parameters]
  refine erase_then (erase_expect _ _) ?_
  rintro ⟨_, inside, _⟩
  dsimp only
  cases accepted : inside.accept? (.symbol .rightParen) with
  | some parsed =>
    rw [ifNext_of_accept? accepted]
    rfl
  | none =>
    rw [ifNext_of_refused accepted (by decide)]
    refine erase_then (skip_apply _ _) ?_
    rintro ⟨parameters, afterLast, _⟩
    exact erase_last (erase_expect _ _) fun _ => rfl

/-! ### Statements and expressions -/

/-- Statements up to the end of a block. -/
def block : Reader Unit := skip Grammar.block

/-- A statement. -/
def statement : Reader Unit := skip Grammar.statement

/-- A statement that starts with an expression. -/
def assignmentOrCall : Reader Unit := skip Grammar.assignmentOrCall

/-- The targets of an assignment behind one of the shape. -/
def assignmentTargets (shape : Expression.Shape) : Reader Unit :=
  skip (Grammar.assignmentTargets shape.sample)

/-- The step of a numeric loop, if there is one. -/
def optionalStep : Reader Unit := skip Grammar.optionalStep

/-- The parameters and the body of a function. -/
def functionBody : Reader Unit := skip Grammar.functionBody

/-- The clauses behind the first one of a conditional. -/
def furtherClauses : Reader Unit := skip Grammar.furtherClauses

/-- The values of a return statement, if there are any. -/
def optionalExpressions : Reader Unit := skip Grammar.optionalExpressions

/-- Expressions, separated by commas. -/
def expressions : Reader Unit := skip Grammar.expressions

/-- An expression whose operators bind more strongly than the limit. -/
def expression (limit : Nat) : Reader Unit := skip (Grammar.expression limit)

/-- Operators that bind more strongly than the limit, with their right operands. -/
def operators (limit : Nat) : Reader Unit := skip (Grammar.operators limit default)

/-- An operand, with the unary operators in front of it. -/
def operand : Reader Unit := skip Grammar.operand

/-- A name or an expression in parentheses, with what is selected or called behind it. -/
def suffixed : Reader Expression.Shape := of Expression.shape Grammar.suffixed

/-- A name or an expression in parentheses. -/
def primary : Reader Expression.Shape := of Expression.shape Grammar.primary

/-- The selections and calls behind an expression of the shape. -/
def suffixes (shape : Expression.Shape) : Reader Expression.Shape :=
  of Expression.shape (Grammar.suffixes shape.sample)

/-- The arguments of a call, behind the opening parenthesis. -/
def callArguments : Reader Unit := skip Grammar.callArguments

/-- The fields of a table and its closing brace. -/
def tableBody : Reader Unit := skip Grammar.tableBody

/-- The fields of a table. -/
def fields : Reader Unit := skip Grammar.fields

/-- A field of a table. -/
def field : Reader Unit := skip Grammar.field

/-- The values of a return statement, and the semicolon behind it. -/
def returnValues : Reader Unit := do
  optionalExpressions
  optional (.symbol .semicolon) (pure ())

/-- The condition and the block of a clause. -/
def guardedClause : Reader Unit := do
  expression 0
  expect (.keyword .thenWord)
  block

/-- What is declared behind the word `local`. -/
def localDeclaration : Reader Unit :=
  ifNext (.keyword .functionWord)
    (do
      expect .name
      functionBody)
    (do
      names
      optional (.symbol .equal) expressions)

/-- A loop behind the word `for`. -/
def forLoop : Reader Unit := do
  expect .name
  ifNext (.symbol .equal)
    (do
      expression 0
      expect (.symbol .comma)
      expression 0
      optionalStep
      expect (.keyword .doWord)
      block
      expect (.keyword .endWord))
    (do
      furtherNames (.symbol .comma)
      expect (.keyword .inWord)
      expressions
      expect (.keyword .doWord)
      block
      expect (.keyword .endWord))

/-- The arguments of a call. -/
def call : Reader Unit :=
  look fun kind =>
    match kind with
    | .symbol .leftParen => do
      expect (.symbol .leftParen)
      callArguments
    | .symbol .leftCurly => do
      expect (.symbol .leftCurly)
      tableBody
    | .quotedString | .longString => literal kind
    | _ => fail (.expected (.symbol .leftParen))

/-- A list of expressions goes on behind a comma, if there is one. -/
theorem expressions_eq : expressions = (do
    expression 0
    optional (.symbol .comma) expressions) := by
  refine skip_eq fun cursor => ?_
  rw [Grammar.expressions]
  refine erase_then (skip_apply _ _) ?_
  rintro ⟨first, afterFirst, _⟩
  dsimp only
  rw [optional]
  cases accepted : afterFirst.accept? (.symbol .comma) with
  | none =>
    rw [ifNext_of_refused accepted (by decide)]
    rfl
  | some parsed =>
    rw [ifNext_of_accept? accepted]
    exact erase_last (skip_apply _ _) fun _ => rfl

/-- Behind a `return` there is no expression where a semicolon or the end of the block is next. -/
theorem optionalExpressions_eq : optionalExpressions = look fun kind =>
    if kind = .symbol .semicolon ∨ Grammar.isBlockEnd kind then pure () else expressions := by
  refine skip_eq fun cursor => ?_
  rw [Grammar.optionalExpressions, look]
  split
  · rfl
  · exact erase_last (skip_apply _ _) fun _ => rfl

/-- What is behind a `return` is recognized whatever the tree of it is. -/
theorem erase_returnValues (keyword : Token) (cursor : Cursor) :
    erase (fun _ => ()) (Grammar.returnValues keyword cursor) = returnValues cursor := by
  rw [Grammar.returnValues, returnValues]
  refine erase_then (skip_apply _ _) ?_
  rintro ⟨values, afterValues, _⟩
  dsimp only
  rw [optional]
  cases accepted : afterValues.accept? (.symbol .semicolon) with
  | none =>
    rw [ifNext_of_refused accepted (by decide)]
    rfl
  | some parsed =>
    rw [ifNext_of_accept? accepted]
    rfl

/-- A block ends with what ends one or with a `return`, and skips semicolons. -/
theorem block_eq : block = look fun kind =>
    if Grammar.isBlockEnd kind then pure () else
      ifNext (.symbol .semicolon) block (ifNext (.keyword .returnWord)
        (do
          returnValues
          look fun kind =>
            if Grammar.isBlockEnd kind then pure () else fail (.expected (.keyword .endWord)))
        (do
          statement
          block)) := by
  refine skip_eq fun cursor => ?_
  rw [Grammar.block, look]
  split
  · rfl
  cases accepted : cursor.accept? (.symbol .semicolon) with
  | some parsed =>
    rw [ifNext_of_accept? accepted]
    exact erase_last (skip_apply _ _) fun _ => rfl
  | none =>
    rw [ifNext_of_refused accepted (by decide)]
    cases returns : cursor.accept? (.keyword .returnWord) with
    | some parsed =>
      rw [ifNext_of_accept? returns]
      refine erase_then (erase_returnValues _ _) ?_
      rintro ⟨last, rest, _⟩
      dsimp only
      rw [look]
      split <;> rfl
    | none =>
      rw [ifNext_of_refused returns (by decide)]
      refine erase_then (skip_apply _ _) ?_
      rintro ⟨first, afterFirst, _⟩
      exact erase_last (skip_apply _ _) fun _ => rfl

/-- Fields go on behind a comma or a semicolon, up to the brace. -/
theorem fields_eq : fields = look fun kind =>
    if kind = .symbol .rightCurly then pure () else (do
      field
      ifNext (.symbol .comma) fields (optional (.symbol .semicolon) fields)) := by
  refine skip_eq fun cursor => ?_
  rw [Grammar.fields, look]
  split
  · rfl
  refine erase_then (skip_apply _ _) ?_
  rintro ⟨first, afterFirst, _⟩
  dsimp only
  rw [optional]
  cases comma : afterFirst.accept? (.symbol .comma) with
  | some parsed =>
    rw [ifNext_of_accept? comma]
    exact erase_last (skip_apply _ _) fun _ => rfl
  | none =>
    rw [ifNext_of_refused comma (by decide)]
    cases semicolon : afterFirst.accept? (.symbol .semicolon) with
    | some parsed =>
      rw [ifNext_of_accept? semicolon]
      exact erase_last (skip_apply _ _) fun _ => rfl
    | none =>
      rw [ifNext_of_refused semicolon (by decide)]
      rfl

theorem tableBody_eq : tableBody = (do fields; expect (.symbol .rightCurly)) := by
  refine skip_eq fun cursor => ?_
  rw [Grammar.tableBody]
  refine erase_then (skip_apply _ _) ?_
  rintro ⟨list, afterFields, _⟩
  exact erase_last (erase_expect _ _) fun _ => rfl

theorem callArguments_eq : callArguments = ifNext (.symbol .rightParen) (pure ()) (do
    expressions
    expect (.symbol .rightParen)) := by
  refine skip_eq fun cursor => ?_
  rw [Grammar.callArguments]
  cases accepted : cursor.accept? (.symbol .rightParen) with
  | some parsed =>
    rw [ifNext_of_accept? accepted]
    rfl
  | none =>
    rw [ifNext_of_refused accepted (by decide)]
    refine erase_then (skip_apply _ _) ?_
    rintro ⟨arguments, afterLast, _⟩
    exact erase_last (erase_expect _ _) fun _ => rfl

theorem functionBody_eq : functionBody = (do
    parameters
    block
    expect (.keyword .endWord)) := by
  refine skip_eq fun cursor => ?_
  rw [Grammar.functionBody]
  refine erase_then (skip_apply _ _) ?_
  rintro ⟨parameters, afterParameters, _⟩
  refine erase_then (skip_apply _ _) ?_
  rintro ⟨body, afterBody, _⟩
  exact erase_last (erase_expect _ _) fun _ => rfl

theorem optionalStep_eq : optionalStep = optional (.symbol .comma) (expression 0) := by
  refine skip_eq fun cursor => ?_
  rw [Grammar.optionalStep, optional]
  cases accepted : cursor.accept? (.symbol .comma) with
  | some parsed =>
    rw [ifNext_of_accept? accepted]
    exact erase_last (skip_apply _ _) fun _ => rfl
  | none =>
    rw [ifNext_of_refused accepted (by decide)]
    rfl

theorem erase_guardedClause (word : ClauseWord) (keyword : Token) (cursor : Cursor) :
    erase (fun _ => ()) (Grammar.guardedClause word keyword cursor) = guardedClause cursor := by
  rw [Grammar.guardedClause, guardedClause]
  refine erase_then (skip_apply _ _) ?_
  rintro ⟨condition, afterCondition, _⟩
  refine erase_then (erase_expect _ _) ?_
  rintro ⟨_, afterThen, _⟩
  exact erase_last (skip_apply _ _) fun _ => rfl

/-- Behind a clause there is another one, the last one, or nothing. -/
theorem furtherClauses_eq : furtherClauses =
    ifNext (.keyword .elseifWord) (do guardedClause; furtherClauses)
      (optional (.keyword .elseWord) block) := by
  refine skip_eq fun cursor => ?_
  rw [Grammar.furtherClauses, optional]
  cases accepted : cursor.accept? (.keyword .elseifWord) with
  | some parsed =>
    rw [ifNext_of_accept? accepted]
    refine erase_then (erase_guardedClause _ _ _) ?_
    rintro ⟨clause, afterClause, _⟩
    exact erase_last (skip_apply _ _) fun _ => rfl
  | none =>
    rw [ifNext_of_refused accepted (by decide)]
    cases otherwise : cursor.accept? (.keyword .elseWord) with
    | some parsed =>
      rw [ifNext_of_accept? otherwise]
      exact erase_last (skip_apply _ _) fun _ => rfl
    | none =>
      rw [ifNext_of_refused otherwise (by decide)]
      rfl

theorem erase_localDeclaration (keyword : Token) (cursor : Cursor) :
    erase (fun _ => ()) (Grammar.localDeclaration keyword cursor) = localDeclaration cursor := by
  rw [Grammar.localDeclaration, localDeclaration]
  cases accepted : cursor.accept? (.keyword .functionWord) with
  | some parsed =>
    rw [ifNext_of_accept? accepted]
    refine erase_then (erase_name _) ?_
    rintro ⟨name, afterName, _⟩
    exact erase_last (skip_apply _ _) fun _ => rfl
  | none =>
    rw [ifNext_of_refused accepted (by decide)]
    refine erase_then (skip_apply _ _) ?_
    rintro ⟨declared, afterNames, _⟩
    dsimp only
    rw [optional]
    cases equal : afterNames.accept? (.symbol .equal) with
    | some parsed =>
      rw [ifNext_of_accept? equal]
      exact erase_last (skip_apply _ _) fun _ => rfl
    | none =>
      rw [ifNext_of_refused equal (by decide)]
      rfl

theorem erase_forLoop (keyword : Token) (cursor : Cursor) :
    erase (fun _ => ()) (Grammar.forLoop keyword cursor) = forLoop cursor := by
  rw [Grammar.forLoop, forLoop]
  refine erase_then (erase_name _) ?_
  rintro ⟨name, afterName, _⟩
  dsimp only
  cases accepted : afterName.accept? (.symbol .equal) with
  | some parsed =>
    rw [ifNext_of_accept? accepted]
    refine erase_then (skip_apply _ _) ?_
    rintro ⟨first, afterFirst, _⟩
    refine erase_then (erase_expect _ _) ?_
    rintro ⟨_, afterComma, _⟩
    refine erase_then (skip_apply _ _) ?_
    rintro ⟨last, afterLast, _⟩
    refine erase_then (skip_apply _ _) ?_
    rintro ⟨step, afterStep, _⟩
    refine erase_then (erase_expect _ _) ?_
    rintro ⟨_, afterDo, _⟩
    refine erase_then (skip_apply _ _) ?_
    rintro ⟨body, afterBody, _⟩
    exact erase_last (erase_expect _ _) fun _ => rfl
  | none =>
    rw [ifNext_of_refused accepted (by decide)]
    refine erase_then (skip_apply _ _) ?_
    rintro ⟨further, afterNames, _⟩
    refine erase_then (erase_expect _ _) ?_
    rintro ⟨_, afterIn, _⟩
    refine erase_then (skip_apply _ _) ?_
    rintro ⟨iterators, afterIterators, _⟩
    refine erase_then (erase_expect _ _) ?_
    rintro ⟨_, afterDo, _⟩
    refine erase_then (skip_apply _ _) ?_
    rintro ⟨body, afterBody, _⟩
    exact erase_last (erase_expect _ _) fun _ => rfl

theorem erase_assignmentTargets (first : Expression) (cursor : Cursor) :
    erase (fun _ => ()) (Grammar.assignmentTargets first cursor) =
      assignmentTargets first.shape cursor := by
  rw [assignmentTargets, ← skip_apply, Grammar.assignmentTargets, Grammar.assignmentTargets,
    first.isAssignable_eq, first.shape.sample.isAssignable_eq, Expression.Shape.shape_sample]
  split
  · cases accepted : cursor.accept? (.symbol .comma) with
    | none => rfl
    | some parsed =>
      dsimp only
      cases Grammar.suffixed parsed.rest with
      | error error => rfl
      | ok found =>
        dsimp only [bind, Except.bind]
        cases Grammar.assignmentTargets found.value found.rest <;> rfl
  · rfl

/-- Targets go on behind a comma, as long as each can be assigned to. -/
theorem assignmentTargets_eq (shape : Expression.Shape) : assignmentTargets shape =
    if shape = .target then
      optional (.symbol .comma) (do
        let second ← suffixed
        assignmentTargets second)
    else
      fun _ => .error (.invalidAssignmentTarget default) := by
  refine skip_eq fun cursor => ?_
  rw [Grammar.assignmentTargets, shape.sample.isAssignable_eq, shape.shape_sample]
  by_cases target : shape = .target
  · rw [if_pos target, if_pos (beq_iff_eq.2 target), optional]
    cases accepted : cursor.accept? (.symbol .comma) with
    | none =>
      rw [ifNext_of_refused accepted (by decide)]
      rfl
    | some parsed =>
      rw [ifNext_of_accept? accepted]
      refine erase_bind Expression.shape rfl ?_
      rintro ⟨second, afterSecond, _⟩
      exact erase_last (erase_assignmentTargets _ _) fun _ => rfl
  · rw [if_neg target, if_neg (by simpa using target)]
    rfl

/-- A statement that starts with an expression is an assignment if an equal sign or a comma follows,
or else a call. -/
theorem assignmentOrCall_eq : assignmentOrCall = (do
    let shape ← suffixed
    look fun kind =>
      if kind = .symbol .equal ∨ kind = .symbol .comma then do
        assignmentTargets shape
        expect (.symbol .equal)
        expressions
      else if shape = .call then pure ()
      else fail (.expected (.symbol .equal))) := by
  refine skip_eq fun cursor => ?_
  rw [Grammar.assignmentOrCall]
  refine erase_bind Expression.shape rfl ?_
  rintro ⟨first, afterFirst, _⟩
  dsimp only
  rw [look]
  split
  · refine erase_then (erase_assignmentTargets _ _) ?_
    rintro ⟨targets, afterTargets, _⟩
    refine erase_then (erase_expect _ _) ?_
    rintro ⟨_, afterEqual, _⟩
    exact erase_last (skip_apply _ _) fun _ => rfl
  · rw [first.isCall_eq]
    by_cases isCall : first.shape = .call
    · rw [if_pos isCall, if_pos (beq_iff_eq.2 isCall)]
      rfl
    · rw [if_neg isCall, if_neg (by simpa using isCall)]
      rfl

theorem erase_call (base : Expression) (cursor : Cursor) :
    erase (fun _ => ()) (Grammar.call base cursor) = call cursor := by
  rw [Grammar.call, call]
  split
  next none => rw [look_of_next?_eq_none none]; rfl
  next token rest within next =>
    rw [look_of_next? next]
    dsimp only
    split
    next same =>
      rw [same]
      exact erase_literal next same (Token.fault?_of_string (.inl same)) _ fun _ => rfl
    next same =>
      rw [same]
      exact erase_literal next same (Token.fault?_of_string (.inr same)) _ fun _ => rfl
    next same =>
      rw [same]
      refine erase_behind next same ?_
      exact erase_last (skip_apply _ _) fun _ => rfl
    next same =>
      rw [same]
      refine erase_behind next same ?_
      exact erase_last (skip_apply _ _) fun _ => rfl
    · simp only [*]
      rfl

/-- The kind of the first token says which statement it is. -/
theorem statement_eq : statement = look fun kind =>
    match kind with
    | .name | .symbol .leftParen => assignmentOrCall
    | .keyword .breakWord => expect (.keyword .breakWord)
    | .symbol .colonColon => do
      expect (.symbol .colonColon)
      expect .name
      expect (.symbol .colonColon)
    | .keyword .doWord => do
      expect (.keyword .doWord)
      block
      expect (.keyword .endWord)
    | .keyword .forWord => do
      expect (.keyword .forWord)
      forLoop
    | .keyword .functionWord => do
      expect (.keyword .functionWord)
      functionName
      functionBody
    | .keyword .gotoWord => do
      expect (.keyword .gotoWord)
      expect .name
    | .keyword .ifWord => do
      expect (.keyword .ifWord)
      guardedClause
      furtherClauses
      expect (.keyword .endWord)
    | .keyword .localWord => do
      expect (.keyword .localWord)
      localDeclaration
    | .keyword .repeatWord => do
      expect (.keyword .repeatWord)
      block
      expect (.keyword .untilWord)
      expression 0
    | .keyword .whileWord => do
      expect (.keyword .whileWord)
      expression 0
      expect (.keyword .doWord)
      block
      expect (.keyword .endWord)
    | _ => fail .expectedStatement := by
  refine skip_eq fun cursor => ?_
  rw [Grammar.statement]
  split
  next none => rw [look_of_next?_eq_none none]; rfl
  next token rest within next =>
    rw [look_of_next? next]
    dsimp only
    split
    next same =>
      rw [same]
      exact (expect_of_next? next same).symm
    next same =>
      rw [same]
      refine erase_behind next same ?_
      refine erase_then (erase_name _) ?_
      rintro ⟨name, afterName, _⟩
      exact erase_last (erase_expect _ _) fun _ => rfl
    next same =>
      rw [same]
      refine erase_behind next same ?_
      refine erase_then (skip_apply _ _) ?_
      rintro ⟨body, afterBody, _⟩
      exact erase_last (erase_expect _ _) fun _ => rfl
    next same =>
      rw [same]
      refine erase_behind next same ?_
      exact erase_last (erase_forLoop _ _) fun _ => rfl
    next same =>
      rw [same]
      refine erase_behind next same ?_
      refine erase_then (skip_apply _ _) ?_
      rintro ⟨name, afterName, _⟩
      exact erase_last (skip_apply _ _) fun _ => rfl
    next same =>
      rw [same]
      refine erase_behind next same ?_
      exact erase_last (erase_name _) fun _ => rfl
    next same =>
      rw [same]
      refine erase_behind next same ?_
      refine erase_then (erase_guardedClause _ _ _) ?_
      rintro ⟨first, afterFirst, _⟩
      refine erase_then (skip_apply _ _) ?_
      rintro ⟨further, afterClauses, _⟩
      exact erase_last (erase_expect _ _) fun _ => rfl
    next same =>
      rw [same]
      refine erase_behind next same ?_
      exact erase_last (erase_localDeclaration _ _) fun _ => rfl
    next same =>
      rw [same]
      refine erase_behind next same ?_
      refine erase_then (skip_apply _ _) ?_
      rintro ⟨body, afterBody, _⟩
      refine erase_then (erase_expect _ _) ?_
      rintro ⟨_, afterUntil, _⟩
      exact erase_last (skip_apply _ _) fun _ => rfl
    next same =>
      rw [same]
      refine erase_behind next same ?_
      refine erase_then (skip_apply _ _) ?_
      rintro ⟨condition, afterCondition, _⟩
      refine erase_then (erase_expect _ _) ?_
      rintro ⟨_, afterDo, _⟩
      refine erase_then (skip_apply _ _) ?_
      rintro ⟨body, afterBody, _⟩
      exact erase_last (erase_expect _ _) fun _ => rfl
    next same => rw [same]; rfl
    next same => rw [same]; rfl
    · simp only [*]
      rfl

/-- An expression in parentheses or a name is what selections follow. -/
theorem primary_eq : primary = look fun kind =>
    match kind with
    | .symbol .leftParen => do
      expect (.symbol .leftParen)
      expression 0
      expect (.symbol .rightParen)
      pure .other
    | .name => do
      expect .name
      pure .target
    | _ => fail .expectedExpression := by
  funext cursor
  rw [primary, of, Grammar.primary]
  split
  next none => rw [look_of_next?_eq_none none]; rfl
  next token rest within next =>
    rw [look_of_next? next]
    dsimp only
    split
    next same =>
      rw [same]
      refine erase_behind next same ?_
      rfl
    next same =>
      rw [same]
      refine erase_behind next same ?_
      refine erase_then (skip_apply _ _) ?_
      rintro ⟨inner, afterInner, _⟩
      exact erase_then (erase_expect _ _) fun _ => rfl
    · simp only [*]
      rfl

/-- What is called has the shape of a call. -/
theorem shape_of_call {base : Expression} {cursor : Cursor}
    {parsed : Parsed cursor.size Expression} (found : Grammar.call base cursor = .ok parsed) :
    parsed.value.shape = .call := by
  rw [Grammar.call] at found
  split at found
  · cases found
  · split at found
    · obtain ⟨argument, -, found⟩ := bind_eq_ok.1 found
      cases found
      rfl
    · obtain ⟨argument, -, found⟩ := bind_eq_ok.1 found
      cases found
      rfl
    · obtain ⟨⟨⟨list, closing⟩, rest, _⟩, -, found⟩ := bind_eq_ok.1 found
      cases found
      rfl
    · obtain ⟨⟨⟨arguments, closing⟩, rest, _⟩, -, found⟩ := bind_eq_ok.1 found
      cases found
      rfl
    · cases found

/-- What follows a call finds an expression of that shape. -/
theorem erase_call_then {later : Nat} {Second Result : Type} {result : Second → Result}
    {base : Expression} {cursor : Cursor}
    {next : Parsed cursor.size Expression → Except ParseError (Parsed later Second)}
    {further : Reader Result}
    (second : ∀ parsed, parsed.value.shape = .call →
      erase result (next parsed) = further parsed.rest) :
    erase result (Grammar.call base cursor >>= next) = (do call; further) cursor := by
  change _ = call cursor >>= fun read => further read.2
  rw [← erase_call base]
  cases found : Grammar.call base cursor with
  | error error => rfl
  | ok parsed => exact second parsed (shape_of_call found)

/-- What is read behind an expression depends only on its shape. -/
theorem erase_suffixes_congr {base other : Expression} (same : base.shape = other.shape)
    (cursor : Cursor) :
    erase Expression.shape (Grammar.suffixes base cursor) =
      erase Expression.shape (Grammar.suffixes other cursor) := by
  rw [Grammar.suffixes, Grammar.suffixes]
  split
  next none => rw [erase, erase, same]
  next token afterToken within next =>
    dsimp only
    split
    · refine erase_congr id rfl ?_
      rintro ⟨name, afterName, _⟩ ⟨_, _, _⟩ _ _ rest value
      cases rest
      refine (erase_map fun _ => rfl).trans (.trans ?_ (erase_map fun _ => rfl).symm)
      refine erase_suffixes_congr ?_ afterName
      rfl
    · refine erase_congr id rfl ?_
      rintro ⟨name, afterName, _⟩ ⟨_, _, _⟩ _ _ rest value
      cases rest
      dsimp only
      refine erase_congr _ ((erase_call _ _).trans (erase_call _ _).symm) ?_
      rintro ⟨called, afterCall, _⟩ ⟨_, _, _⟩ found further rest value
      cases rest
      refine (erase_map fun _ => rfl).trans (.trans ?_ (erase_map fun _ => rfl).symm)
      exact erase_suffixes_congr ((shape_of_call found).trans (shape_of_call further).symm)
        afterCall
    · refine erase_congr id rfl ?_
      rintro ⟨key, afterKey, _⟩ ⟨_, _, _⟩ _ _ rest value
      cases rest
      dsimp only
      refine erase_congr id rfl ?_
      rintro ⟨closing, afterClosing, _⟩ ⟨_, _, _⟩ _ _ rest value
      cases rest
      refine (erase_map fun _ => rfl).trans (.trans ?_ (erase_map fun _ => rfl).symm)
      refine erase_suffixes_congr ?_ afterClosing
      rfl
    case h_4 | h_5 | h_6 | h_7 =>
      refine erase_congr _ ((erase_call _ _).trans (erase_call _ _).symm) ?_
      rintro ⟨called, afterCall, _⟩ ⟨_, _, _⟩ found further rest value
      cases rest
      refine (erase_map fun _ => rfl).trans (.trans ?_ (erase_map fun _ => rfl).symm)
      exact erase_suffixes_congr ((shape_of_call found).trans (shape_of_call further).symm)
        afterCall
    · rw [erase, erase, same]
termination_by cursor.size

/-- Of what selections follow, only the shape matters. -/
theorem erase_suffixes (base : Expression) (cursor : Cursor) :
    erase Expression.shape (Grammar.suffixes base cursor) = suffixes base.shape cursor :=
  erase_suffixes_congr base.shape.shape_sample.symm cursor

/-- The kind of the next token says whether a selection or a call follows. -/
theorem suffixes_eq (shape : Expression.Shape) : suffixes shape = look fun kind =>
    match kind with
    | .symbol .leftParen | .symbol .leftCurly | .quotedString | .longString => do
      call
      suffixes .call
    | .symbol .dot => do
      expect (.symbol .dot)
      expect .name
      suffixes .target
    | .symbol .colon => do
      expect (.symbol .colon)
      expect .name
      call
      suffixes .call
    | .symbol .leftSquare => do
      expect (.symbol .leftSquare)
      expression 0
      expect (.symbol .rightSquare)
      suffixes .target
    | _ => pure shape := by
  funext cursor
  change erase _ (Grammar.suffixes shape.sample cursor) = _
  rw [Grammar.suffixes]
  split
  next none =>
    rw [look_of_next?_eq_none none, erase, Expression.Shape.shape_sample]
    rfl
  next token afterToken within next =>
    rw [look_of_next? next]
    dsimp only
    split
    next same =>
      rw [same]
      refine erase_behind next same ?_
      refine erase_then (erase_name _) ?_
      rintro ⟨name, afterName, _⟩
      exact erase_last (erase_suffixes _ _) fun _ => rfl
    next same =>
      rw [same]
      refine erase_behind next same ?_
      refine erase_then (erase_name _) ?_
      rintro ⟨name, afterName, _⟩
      refine erase_call_then ?_
      rintro ⟨called, afterCall, _⟩ isCall
      exact erase_last (isCall ▸ erase_suffixes _ _) fun _ => rfl
    next same =>
      rw [same]
      refine erase_behind next same ?_
      refine erase_then (skip_apply _ _) ?_
      rintro ⟨key, afterKey, _⟩
      refine erase_then (erase_expect _ _) ?_
      rintro ⟨closing, afterClosing, _⟩
      exact erase_last (erase_suffixes _ _) fun _ => rfl
    case h_4 same | h_5 same | h_6 same | h_7 same =>
      rw [same]
      refine erase_call_then ?_
      rintro ⟨called, afterCall, _⟩ isCall
      exact erase_last (isCall ▸ erase_suffixes _ _) fun _ => rfl
    · simp only [*]
      rw [erase, Expression.Shape.shape_sample]
      rfl

theorem suffixed_eq : suffixed = (do
    let base ← primary
    suffixes base) := by
  funext cursor
  change erase _ (Grammar.suffixed cursor) = _
  rw [Grammar.suffixed]
  refine erase_bind Expression.shape rfl ?_
  rintro ⟨base, afterBase, _⟩
  exact erase_last (erase_suffixes _ _) fun _ => rfl

theorem erase_suffixed (cursor : Cursor) :
    erase (fun _ => ()) (Grammar.suffixed cursor) =
      (do let _ ← suffixed; pure () : Reader Unit) cursor := by
  change _ = suffixed cursor >>= fun read => _
  rw [suffixed, of]
  cases Grammar.suffixed cursor <;> rfl

/-- An operand is an operator with its own operand, a literal, a table, a function, or what
selections follow. -/
theorem operand_eq : operand = look fun kind =>
    match UnaryOperator.ofToken? kind with
    | some _ => do
      expect kind
      expression UnaryOperator.bindingPower
    | none =>
      match kind with
      | .number | .quotedString | .longString => literal kind
      | .keyword .nilWord => expect (.keyword .nilWord)
      | .keyword .trueWord => expect (.keyword .trueWord)
      | .keyword .falseWord => expect (.keyword .falseWord)
      | .symbol .dotDotDot => expect (.symbol .dotDotDot)
      | .symbol .leftCurly => do
        expect (.symbol .leftCurly)
        tableBody
      | .keyword .functionWord => do
        expect (.keyword .functionWord)
        functionBody
      | _ => (do
        let _ ← suffixed
        pure ()) := by
  refine skip_eq fun cursor => ?_
  rw [Grammar.operand]
  split
  next none =>
    rw [look_of_next?_eq_none none]
    exact erase_suffixed cursor
  next token rest within next =>
    rw [look_of_next? next]
    dsimp only
    split
    next operator found =>
      rw [found]
      refine erase_behind next rfl ?_
      exact erase_last (skip_apply _ _) fun _ => rfl
    next found =>
      rw [found]
      dsimp only
      split
      next same => rw [same]; exact (expect_of_next? next same).symm
      next same => rw [same]; exact (expect_of_next? next same).symm
      next same => rw [same]; exact (expect_of_next? next same).symm
      next same => rw [same]; exact (expect_of_next? next same).symm
      next same =>
        rw [same]
        exact erase_literal next same (Token.fault?_of_number same) _ fun _ => rfl
      next same =>
        rw [same]
        exact erase_literal next same (Token.fault?_of_string (.inl same)) _ fun _ => rfl
      next same =>
        rw [same]
        exact erase_literal next same (Token.fault?_of_string (.inr same)) _ fun _ => rfl
      next same =>
        rw [same]
        refine erase_behind next same ?_
        exact erase_last (skip_apply _ _) fun _ => rfl
      next same =>
        rw [same]
        refine erase_behind next same ?_
        exact erase_last (skip_apply _ _) fun _ => rfl
      · simp only [*]
        exact erase_suffixed cursor

/-- Operators are read the same way behind every expression. -/
theorem erase_operators (limit : Nat) (left : Expression) (cursor : Cursor) :
    erase (fun _ => ()) (Grammar.operators limit left cursor) = operators limit cursor := by
  rw [operators, ← skip_apply, Grammar.operators, Grammar.operators]
  split
  · rfl
  split
  · rfl
  split
  · rfl
  · refine erase_congr id rfl ?_
    rintro ⟨right, afterRight, _⟩ ⟨_, _, _⟩ _ _ rest value
    cases rest
    refine (erase_last (erase_operators limit _ afterRight) fun _ => rfl).trans (.symm ?_)
    exact erase_last (erase_operators limit _ afterRight) fun _ => rfl
termination_by cursor.size

/-- An operator is read if its left power is above the limit, and its operand with its right power.
-/
theorem operators_eq (limit : Nat) : operators limit = look fun kind =>
    match BinaryOperator.ofToken? kind with
    | none => pure ()
    | some operator =>
      if operator.leftPower ≤ limit then pure ()
      else (do
        expect kind
        expression operator.rightPower
        operators limit) := by
  refine skip_eq fun cursor => ?_
  rw [Grammar.operators]
  split
  next none =>
    rw [look_of_next?_eq_none none]
    rfl
  next token afterOperator within next =>
    rw [look_of_next? next]
    dsimp only
    split
    next found => rw [found]; rfl
    next operator found =>
      rw [found]
      dsimp only
      split
      · rfl
      · refine erase_behind next rfl ?_
        refine erase_then (skip_apply _ _) ?_
        rintro ⟨right, afterRight, _⟩
        exact erase_last (erase_operators limit _ _) fun _ => rfl

/-- An expression is an operand and the operators behind it. -/
theorem expression_eq (limit : Nat) : expression limit = (do operand; operators limit) := by
  refine skip_eq fun cursor => ?_
  rw [Grammar.expression]
  refine erase_then (skip_apply _ _) ?_
  rintro ⟨left, afterLeft, _⟩
  exact erase_last (erase_operators limit _ _) fun _ => rfl

/-- An expression that starts with a name goes on behind the name. -/
theorem expression_of_name (limit : Nat) {cursor : Cursor} {parsed : Parsed cursor.size Token}
    (accepted : cursor.accept? .name = some parsed) :
    expression limit cursor =
      (do
        let _ ← suffixes .target
        operators limit : Reader Unit) parsed.rest := by
  have same := kind_of_accept? accepted
  have start : primary cursor = .ok (.target, parsed.rest) := by
    rw [primary_eq, look, same]
    exact then_of_accept? accepted _
  have whole : suffixed cursor = suffixes .target parsed.rest := by
    rw [suffixed_eq]
    change (primary cursor >>= fun read => suffixes read.1 read.2) = _
    rw [start]
    rfl
  rw [expression_eq, operand_eq]
  change look _ cursor >>= (fun read => operators limit read.2) =
    suffixes .target parsed.rest >>= fun read => operators limit read.2
  rw [look, same]
  change (suffixed cursor >>= fun read => .ok ((), read.2)) >>= _ = _
  rw [whole]
  cases suffixes .target parsed.rest <;> rfl

/-- The kind behind the next token is the one that is next where the token ends. -/
theorem kindAfter_eq {cursor : Cursor} {parsed : Parsed cursor.size Token}
    (found : cursor.next? = some parsed) : cursor.kindAfter = parsed.rest.kind := by
  have remaining := (Cursor.Steps.of_next? found).remaining
  rw [Cursor.kindAfter, remaining, Cursor.kind, Cursor.current]
  cases parsed.rest.remaining <;> rfl

/-- Whether a field that starts with a name is a named one is seen behind the name. -/
theorem field_eq : field = ifNext (.symbol .leftSquare)
    (do
      expression 0
      expect (.symbol .rightSquare)
      expect (.symbol .equal)
      expression 0)
    (ifNext .name
      (ifNext (.symbol .equal) (expression 0) (do
        let _ ← suffixes .target
        operators 0))
      (expression 0)) := by
  refine skip_eq fun cursor => ?_
  rw [Grammar.field]
  cases bracket : cursor.accept? (.symbol .leftSquare) with
  | some parsed =>
    rw [ifNext_of_accept? bracket]
    refine erase_then (skip_apply _ _) ?_
    rintro ⟨key, afterKey, _⟩
    refine erase_then (erase_expect _ _) ?_
    rintro ⟨_, afterClosing, _⟩
    refine erase_then (erase_expect _ _) ?_
    rintro ⟨_, afterEqual, _⟩
    exact erase_last (skip_apply _ _) fun _ => rfl
  | none =>
    rw [ifNext_of_refused bracket (by decide)]
    cases named : cursor.accept? .name with
    | none =>
      rw [ifNext_of_refused named (by decide)]
      dsimp only
      rw [if_neg fun both => kind_of_refused named (by decide) both.1]
      exact erase_last (skip_apply _ _) fun _ => rfl
    | some parsed =>
      obtain ⟨next, -⟩ := Option.filter_eq_some_iff.1 named
      have same := kind_of_accept? named
      rw [ifNext_of_accept? named]
      dsimp only
      cases equal : parsed.rest.accept? (.symbol .equal) with
      | some mark =>
        rw [ifNext_of_accept? equal, ← then_of_accept? equal (expression 0),
          ← then_of_accept? named (do expect (.symbol .equal); expression 0),
          if_pos ⟨same, kindAfter_eq next ▸ kind_of_accept? equal⟩]
        refine erase_then (erase_name _) ?_
        rintro ⟨name, afterName, _⟩
        refine erase_then (erase_expect _ _) ?_
        rintro ⟨_, afterEqual, _⟩
        exact erase_last (skip_apply _ _) fun _ => rfl
      | none =>
        rw [ifNext_of_refused equal (by decide), ← expression_of_name 0 named, if_neg]
        · exact erase_last (skip_apply _ _) fun _ => rfl
        · rintro ⟨-, after⟩
          exact kind_of_refused equal (by decide) (kindAfter_eq next ▸ after)

end Reader

end LuaStyle
