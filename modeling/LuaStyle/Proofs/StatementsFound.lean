/-
This file proves that the parser finds each form of statement, provided that it finds the
expressions and statements inside.

Blocks are where a strict reading is needed. A statement ends where the next token goes on no
statement, and the only token that both starts a statement and goes on one is a parenthesis; in a
strict reading a semicolon stands before it.
-/

import LuaStyle.Proofs.ExpressionsFound

namespace LuaStyle.Grammar

/-! ### The first tokens of a statement, and the ones behind it -/

/-- A statement that is no `return` starts with a token of the kind. -/
def startsStatement : Token.Kind → Bool
  | .name | .symbol .leftParen | .symbol .colonColon => true
  | .keyword .breakWord | .keyword .doWord | .keyword .forWord | .keyword .functionWord
  | .keyword .gotoWord | .keyword .ifWord | .keyword .localWord | .keyword .repeatWord
  | .keyword .whileWord => true
  | _ => false

/-- No statement goes on with a token of the kind. -/
def endsStatement : Token.Kind → Bool
  | .name | .endOfSource | .symbol .semicolon | .symbol .colonColon => true
  | .keyword .andWord | .keyword .orWord => false
  | .keyword _ => true
  | _ => false

/-- What ends a statement ends the expression at its end. -/
theorem endsExpression_of_endsStatement {kind : Token.Kind} (ends : endsStatement kind) :
    EndsExpression kind ∧ kind ≠ .symbol .comma ∧ kind ≠ .symbol .equal := by
  cases kind with
  | keyword word => cases word <;> first | (cases ends; done) | exact ⟨⟨rfl, rfl⟩, nofun, nofun⟩
  | symbol mark => cases mark <;> first | (cases ends; done) | exact ⟨⟨rfl, rfl⟩, nofun, nofun⟩
  | _ => first | (cases ends; done) | exact ⟨⟨rfl, rfl⟩, nofun, nofun⟩

theorem endsStatement_of_isBlockEnd {kind : Token.Kind} (ends : isBlockEnd kind) :
    endsStatement kind := by
  unfold isBlockEnd at ends
  split at ends <;> first | rfl | cases ends

/-- A statement starts with something that no statement goes on with, unless it starts with a
parenthesis. -/
theorem endsStatement_of_startsStatement {kind : Token.Kind} (starts : startsStatement kind) :
    kind = .symbol .leftParen ∨ endsStatement kind := by
  unfold startsStatement at starts
  split at starts <;> first | exact .inl rfl | exact .inr rfl | cases starts

/-- A block does not end where a statement starts. -/
theorem not_isBlockEnd_of_startsStatement {kind : Token.Kind} (starts : startsStatement kind) :
    isBlockEnd kind = false ∧ kind ≠ .symbol .semicolon ∧ kind ≠ .keyword .returnWord := by
  unfold startsStatement at starts
  split at starts <;> first | exact ⟨rfl, nofun, nofun⟩ | cases starts

theorem startsStatement_of_startsPrefix {kind : Token.Kind} (starts : startsPrefix kind) :
    startsStatement kind := by
  rcases kind_of_startsPrefix starts with rfl | rfl <;> rfl

/-- What can be assigned to is something that selections follow. -/
theorem isPrefix_of_isAssignable {expression : Expression} (assignable : isAssignable expression) :
    expression.isPrefix := by
  unfold isAssignable at assignable
  split at assignable <;> first | rfl | cases assignable

theorem isPrefix_of_isCall {expression : Expression} (isCall : expression.isCall) :
    expression.isPrefix := by
  cases expression <;> first | rfl | cases isCall

/-- What selections follow starts with a name or a parenthesis. -/
theorem startsPrefix_of_reads {strict : Bool} {expression : Expression} {tokens : List Token}
    (reads : expression.Reads strict tokens) (isPrefix : expression.isPrefix) :
    ∃ token rest, tokens = token :: rest ∧ startsPrefix token.kind := by
  obtain ⟨token, rest, same, -, starts, -⟩ := startExpression_of_reads expression (.inl reads)
  exact ⟨token, rest, same, starts (by rw [isPrefix]; rfl)⟩

/-- A statement starts with a token that starts statements. -/
theorem head_of_statement {strict : Bool} {step : Statement} {tokens : List Token}
    (reads : step.Reads strict tokens) (bare : step.isComment = false) :
    ∃ token rest, tokens = token :: rest ∧
      (step.isReturn ∧ token.kind = .keyword .returnWord ∨ startsStatement token.kind) := by
  cases reads with
  | assignment assignable targets =>
    obtain ⟨first, -⟩ := Bool.and_eq_true .. ▸ assignable
    have isPrefix := isPrefix_of_isAssignable first
    cases targets with
    | single reads =>
      obtain ⟨token, rest, rfl, starts⟩ := startsPrefix_of_reads reads isPrefix
      exact ⟨token, _, rfl, .inr (startsStatement_of_startsPrefix starts)⟩
    | cons reads =>
      obtain ⟨token, rest, rfl, starts⟩ := startsPrefix_of_reads reads isPrefix
      exact ⟨token, _, rfl, .inr (startsStatement_of_startsPrefix starts)⟩
  | call isCall reads =>
    obtain ⟨token, rest, rfl, starts⟩ := startsPrefix_of_reads reads (isPrefix_of_isCall isCall)
    exact ⟨token, _, rfl, .inr (startsStatement_of_startsPrefix starts)⟩
  | comment => cases bare
  | ifElse guarded =>
    cases guarded with
    | intro kind => exact ⟨_, _, rfl, .inr (by rw [kind]; rfl)⟩
  | returnValues kind => exact ⟨_, _, rfl, .inl ⟨rfl, kind⟩⟩
  | breakLoop kind | doBlock kind | genericFor kind | numericFor kind | function kind
  | localFunction kind | goto kind | label kind | localNames kind | localVariables kind
  | repeatUntil kind | whileLoop kind => exact ⟨_, _, rfl, .inr (by rw [kind]; rfl)⟩

/-! ### Blocks -/

/-- The parser finds the statement in all tokens that it is strictly read from. -/
structure FoundStatement (step : Statement) : Prop where
  /-- In front of another statement or at the end of a block. -/
  statement {tokens : List Token} {cursor rest : Cursor} :
    step.Reads true tokens → step.isReturn = false → cursor.Steps tokens rest →
      endsStatement rest.kind → Returns (Grammar.statement cursor) step rest
  /-- At the end of a block, if it is a `return`. -/
  last {tokens : List Token} {cursor rest : Cursor} :
    step.Reads true tokens → step.isReturn → cursor.Steps tokens rest → isBlockEnd rest.kind →
      ∃ keyword afterKeyword, keyword.kind = .keyword .returnWord ∧
        cursor.Steps [keyword] afterKeyword ∧
        Returns (returnValues keyword afterKeyword) step rest

/-- No semicolons stand in a block without statements, if it is strictly read. -/
theorem eq_nil_of_readsBody {tokens : List Token} (reads : Statement.ReadsBody true [] tokens) :
    tokens = [] := by
  cases reads with
  | nil => rfl
  | semicolon _ starts inner =>
    have parenthesis := starts rfl
    cases inner with
    | nil => cases parenthesis
    | semicolon kind =>
      rw [Token.startParenthesis, List.head?_cons, Option.any_some, kind] at parenthesis
      cases parenthesis

/-- The statements of a block that is strictly read start with something that no statement goes on
with. -/
theorem endsStatement_of_readsBody {body : List Statement} {tokens : List Token}
    {cursor rest : Cursor} (reads : Statement.ReadsBody true body tokens)
    (bare : ∀ step ∈ body, step.isComment = false)
    (apart : Token.startParenthesis tokens = false) (steps : cursor.Steps tokens rest)
    (ends : isBlockEnd rest.kind) : endsStatement cursor.kind := by
  cases body with
  | nil =>
    cases eq_nil_of_readsBody reads
    cases steps.eq_of_nil
    exact endsStatement_of_isBlockEnd ends
  | cons first others =>
    obtain ⟨marks, segment, more, rfl, semicolons, firstReads, -⟩ := reads.uncons
    cases marks with
    | cons mark marks =>
      rw [steps.kind_eq, (List.forall_mem_cons.1 semicolons).1]
      rfl
    | nil =>
      obtain ⟨token, inner, rfl, starts⟩ := head_of_statement firstReads (bare _ List.mem_cons_self)
      rw [steps.kind_eq]
      rcases starts with ⟨-, kind⟩ | starts
      · rw [kind]
        rfl
      · rcases endsStatement_of_startsStatement starts with kind | ends
        · have parenthesis : (token.kind == Token.Kind.symbol .leftParen) = false := apart
          rw [kind] at parenthesis
          cases parenthesis
        · exact ends

/-- Semicolons in front of a block are skipped. -/
theorem block_skips {marks : List Token}
    (semicolons : ∀ mark ∈ marks, mark.kind = .symbol .semicolon)
    {cursor middle rest : Cursor} {body : List Statement} (steps : cursor.Steps marks middle)
    (found : Returns (block middle) body rest) : Returns (block cursor) body rest := by
  induction marks generalizing cursor with
  | nil =>
    cases steps.eq_of_nil
    exact found
  | cons mark marks inductionHypothesis =>
    obtain ⟨kind, others⟩ := List.forall_mem_cons.1 semicolons
    have follows := steps.kind_eq.trans kind
    obtain ⟨afterMark, markStep, steps⟩ := steps.split_cons
    obtain ⟨_, accepted⟩ := markStep.accept?_of_kind kind
    rw [block, if_neg (by rw [follows]; rintro ⟨⟩), accepted]
    exact (inductionHypothesis others steps).bind fun _ => ⟨_, rfl⟩

/-- A block whose statements are found is found. -/
theorem block_returns {body : List Statement} (found : ∀ step ∈ body, FoundStatement step)
    (bare : ∀ step ∈ body, step.isComment = false) {tokens : List Token} {cursor rest : Cursor}
    (reads : Statement.ReadsBody true body tokens) (steps : cursor.Steps tokens rest)
    (ends : isBlockEnd rest.kind) : Returns (block cursor) body rest := by
  induction body generalizing tokens cursor with
  | nil =>
    cases eq_nil_of_readsBody reads
    cases steps.eq_of_nil
    rw [block, if_pos ends]
    exact ⟨_, rfl⟩
  | cons first others inductionHypothesis =>
    obtain ⟨firstFound, othersFound⟩ := List.forall_mem_cons.1 found
    obtain ⟨firstBare, othersBare⟩ := List.forall_mem_cons.1 bare
    obtain ⟨marks, segment, more, rfl, semicolons, firstReads, onlyComments, apart, othersRead⟩ :=
      reads.uncons
    rw [List.append_assoc] at steps
    obtain ⟨afterMarks, markSteps, steps⟩ := steps.split
    refine block_skips semicolons markSteps ?_
    obtain ⟨afterFirst, firstSteps, furtherSteps⟩ := steps.split
    obtain ⟨token, inner, rfl, starts⟩ := head_of_statement firstReads firstBare
    have kind := firstSteps.kind_eq
    cases isReturn : first.isReturn with
    | true =>
      have none : others = [] := by
        cases others with
        | nil => rfl
        | cons second others =>
          have comments := onlyComments isReturn
          rw [List.all_cons, othersBare second List.mem_cons_self] at comments
          cases comments
      subst none
      cases eq_nil_of_readsBody othersRead
      cases furtherSteps.eq_of_nil
      obtain ⟨keyword, afterKeyword, returns, keywordStep, found⟩ :=
        firstFound.last firstReads isReturn firstSteps ends
      have follows := keywordStep.kind_eq.trans returns
      obtain ⟨_, accepted⟩ := keywordStep.accept?_of_kind returns
      rw [block, if_neg (by rw [follows]; rintro ⟨⟩),
        Cursor.Steps.accept?_eq_none (by rw [follows]; rintro ⟨⟩), accepted]
      refine found.bind fun _ => ?_
      dsimp only
      rw [if_pos ends]
      exact ⟨_, rfl⟩
    | false =>
      have starts : startsStatement token.kind := by
        rcases starts with ⟨returns, -⟩ | starts
        · rw [isReturn] at returns
          cases returns
        · exact starts
      obtain ⟨goesOn, noSemicolon, noReturn⟩ := not_isBlockEnd_of_startsStatement starts
      have follows := endsStatement_of_readsBody othersRead othersBare (apart rfl) furtherSteps ends
      rw [block, if_neg (by rw [kind, goesOn]; rintro ⟨⟩),
        Cursor.Steps.accept?_eq_none (by rw [kind]; exact noSemicolon)]
      dsimp only
      rw [Cursor.Steps.accept?_eq_none (by rw [kind]; exact noReturn)]
      exact (firstFound.statement firstReads isReturn firstSteps follows).bind fun _ =>
        (inductionHypothesis othersFound othersBare othersRead furtherSteps).bind fun _ => ⟨_, rfl⟩

/-- A block whose statements are all found, none of them a comment. -/
def FoundBody (body : List Statement) : Prop :=
  (∀ step ∈ body, FoundStatement step) ∧ ∀ step ∈ body, step.isComment = false

/-- A block with semicolons is returned from its tokens. -/
theorem FoundBody.returns {body : List Statement} (found : FoundBody body) {tokens : List Token}
    {cursor rest : Cursor} (reads : Statement.ReadsBody true body tokens)
    (steps : cursor.Steps tokens rest) (ends : isBlockEnd rest.kind) :
    Returns (block cursor) body rest :=
  block_returns found.1 found.2 reads steps ends

theorem isBlockEnd_of_kind {kind same : Token.Kind} (is : kind = same) (ends : isBlockEnd same) :
    isBlockEnd kind := by
  rw [is]
  exact ends

/-- Parameters and block of a function are returned from their tokens. -/
theorem functionBody_returns {parameters : List Parameter} {body : List Statement}
    (found : FoundBody body) {tokens : List Token} {cursor rest : Cursor}
    (reads : Statement.ReadsFunction true parameters body tokens)
    (steps : cursor.Steps tokens rest) :
    Returns (functionBody cursor) (parameters, body) rest := by
  cases reads with
  | @intro _ _ opening before closing inner last opens parametersRead closes bodyRead ends =>
    have same : opening :: before ++ closing :: inner ++ [last] =
        (opening :: before ++ [closing]) ++ (inner ++ [last]) := by simp
    rw [same] at steps
    obtain ⟨afterParameters, parameterSteps, steps⟩ := steps.split
    obtain ⟨afterBody, bodySteps, lastStep⟩ := steps.split
    rw [functionBody]
    exact (parameters_returns opens parametersRead closes parameterSteps).bind fun _ =>
      (found.returns bodyRead bodySteps (isBlockEnd_of_kind (lastStep.kind_eq.trans ends) rfl)).bind
        fun _ => (lastStep.expect_returns ends).bind fun _ => ⟨_, rfl⟩

/-- A function as a value is found if its block is. -/
theorem found_function {head : FunctionHead} {parameters : List Parameter} {body : List Statement}
    {span : Span} (found : FoundBody body) : Found (.function head parameters body span) := by
  refine .of_operand rfl rfl fun {tokens cursor rest} reads steps _ _ => ?_
  cases reads with
  | function kind reads =>
    have all := steps
    obtain ⟨afterKeyword, keywordStep, steps⟩ := steps.split_cons
    obtain ⟨_, next⟩ := keywordStep.next?_eq
    rw [operand, next]
    dsimp only
    rw [kind]
    refine (functionBody_returns found reads steps).bind fun _ => ?_
    rw [← all.spanFrom_extent]
    exact ⟨_, rfl⟩

/-! ### Statements -/

/-- A statement that is no `return` is found if it is found in front of what follows it. -/
theorem FoundStatement.of_statement {step : Statement} (goesOn : step.isReturn = false)
    (found : ∀ {tokens cursor rest}, step.Reads true tokens → cursor.Steps tokens rest →
      endsStatement rest.kind → Returns (Grammar.statement cursor) step rest) :
    FoundStatement step where
  statement reads _ steps ends := found reads steps ends
  last _ isReturn := by
    rw [goesOn] at isReturn
    cases isReturn

theorem foundStatement_breakLoop {span : Span} : FoundStatement (.breakLoop span) := by
  refine .of_statement rfl fun {tokens cursor rest} reads steps _ => ?_
  cases reads with
  | breakLoop kind =>
    obtain ⟨_, next⟩ := steps.next?_eq
    rw [statement, next]
    dsimp only
    rw [kind]
    exact ⟨_, rfl⟩

theorem foundStatement_label {name : Name} {span : Span} : FoundStatement (.label name span) := by
  refine .of_statement rfl fun {tokens cursor rest} reads steps _ => ?_
  cases reads with
  | @label _ opening token closing opens nameReads closes =>
    have all : cursor.Steps ([opening, token] ++ [closing]) rest := steps
    obtain ⟨afterOpening, openingStep, steps⟩ := steps.split_cons
    obtain ⟨afterName, nameStep, closingStep⟩ := steps.split_cons
    obtain ⟨_, next⟩ := openingStep.next?_eq
    rw [statement, next]
    dsimp only
    rw [opens]
    refine (nameStep.name_returns nameReads).bind fun _ =>
      (closingStep.expect_returns closes).bind fun _ => ?_
    rw [← all.spanFrom_eq]
    exact ⟨_, rfl⟩

theorem foundStatement_goto {target : Name} {span : Span} :
    FoundStatement (.goto target span) := by
  refine .of_statement rfl fun {tokens cursor rest} reads steps _ => ?_
  cases reads with
  | @goto _ keyword token kind nameReads =>
    have all : cursor.Steps ([keyword] ++ [token]) rest := steps
    obtain ⟨afterKeyword, keywordStep, nameStep⟩ := steps.split_cons
    obtain ⟨_, next⟩ := keywordStep.next?_eq
    rw [statement, next]
    dsimp only
    rw [kind]
    refine (nameStep.name_returns nameReads).bind fun _ => ?_
    rw [← all.spanFrom_eq]
    exact ⟨_, rfl⟩

/-- A block on its own is found if its statements are. -/
theorem foundStatement_doBlock {body : List Statement} {span : Span} (found : FoundBody body) :
    FoundStatement (.doBlock body span) := by
  refine .of_statement rfl fun {tokens cursor rest} reads steps _ => ?_
  cases reads with
  | doBlock kind bodyRead closes =>
    have all := steps
    rw [List.cons_append] at steps
    obtain ⟨afterKeyword, keywordStep, steps⟩ := steps.split_cons
    obtain ⟨afterBody, bodySteps, lastStep⟩ := steps.split
    obtain ⟨_, next⟩ := keywordStep.next?_eq
    have ends := isBlockEnd_of_kind (lastStep.kind_eq.trans closes) rfl
    rw [statement, next]
    dsimp only
    rw [kind]
    refine (found.returns bodyRead bodySteps ends).bind fun _ =>
      (lastStep.expect_returns closes).bind fun _ => ?_
    rw [← all.spanFrom_eq]
    exact ⟨_, rfl⟩

theorem foundStatement_whileLoop {condition : Expression} {body : List Statement} {span : Span}
    (conditionFound : Found condition) (found : FoundBody body) :
    FoundStatement (.whileLoop condition body span) := by
  refine .of_statement rfl fun {tokens cursor rest} reads steps _ => ?_
  cases reads with
  | whileLoop kind conditionReads opens bodyRead closes =>
    have all := steps
    rw [List.append_assoc, List.cons_append, List.cons_append] at steps
    obtain ⟨afterKeyword, keywordStep, steps⟩ := steps.split_cons
    obtain ⟨afterCondition, conditionSteps, steps⟩ := steps.split
    have stops := ends_of_kind (steps.kind_eq.trans opens) ⟨rfl, rfl⟩
    obtain ⟨afterDo, doStep, steps⟩ := steps.split_cons
    obtain ⟨afterBody, bodySteps, lastStep⟩ := steps.split
    obtain ⟨_, next⟩ := keywordStep.next?_eq
    have ends := isBlockEnd_of_kind (lastStep.kind_eq.trans closes) rfl
    rw [statement, next]
    dsimp only
    rw [kind]
    refine (conditionFound.whole conditionReads conditionSteps stops).bind fun _ =>
      (doStep.expect_returns opens).bind fun _ =>
      (found.returns bodyRead bodySteps ends).bind fun _ =>
        (lastStep.expect_returns closes).bind fun _ => ?_
    rw [← all.spanFrom_eq]
    exact ⟨_, rfl⟩

theorem foundStatement_repeatUntil {condition : Expression} {body : List Statement} {span : Span}
    (conditionFound : Found condition) (found : FoundBody body) :
    FoundStatement (.repeatUntil body condition span) := by
  refine .of_statement rfl fun {tokens cursor rest} reads steps ends => ?_
  cases reads with
  | repeatUntil kind bodyRead opens conditionReads =>
    have all := steps
    rw [List.cons_append] at steps all
    obtain ⟨afterKeyword, keywordStep, steps⟩ := steps.split_cons
    obtain ⟨afterBody, bodySteps, steps⟩ := steps.split
    have stops := isBlockEnd_of_kind (steps.kind_eq.trans opens) rfl
    obtain ⟨afterUntil, untilStep, steps⟩ := steps.split_cons
    obtain ⟨_, next⟩ := keywordStep.next?_eq
    rw [statement, next]
    dsimp only
    rw [kind]
    refine (found.returns bodyRead bodySteps stops).bind fun _ =>
      (untilStep.expect_returns opens).bind fun _ =>
        (conditionFound.whole conditionReads steps (endsExpression_of_endsStatement ends).1).bind
          fun _ => ?_
    rw [List.cons_append, ← all.spanFrom_extent]
    exact ⟨_, rfl⟩

/-- A declared function is found if its block is, local or not. -/
theorem foundStatement_function {head : FunctionHead} {parameters : List Parameter}
    {body : List Statement} {span : Span} (found : FoundBody body) :
    FoundStatement (.function head parameters body span) := by
  refine .of_statement rfl fun {tokens cursor rest} reads steps _ => ?_
  cases reads with
  | function kind nameReads reads =>
    have all := steps
    rw [List.cons_append] at steps all
    obtain ⟨afterKeyword, keywordStep, steps⟩ := steps.split_cons
    obtain ⟨afterName, nameSteps, steps⟩ := steps.split
    have opens : afterName.kind = .symbol .leftParen := by
      cases reads with
      | intro opens => exact Cursor.Steps.kind_eq steps |>.trans opens
    obtain ⟨_, next⟩ := keywordStep.next?_eq
    rw [statement, next]
    dsimp only
    rw [kind]
    refine (functionName_returns nameReads nameSteps opens).bind fun _ =>
      (functionBody_returns found reads steps).bind fun _ => ?_
    rw [List.cons_append, ← all.spanFrom_extent]
    exact ⟨_, rfl⟩
  | localFunction kind wordKind nameReads reads =>
    have all := steps
    obtain ⟨afterKeyword, keywordStep, steps⟩ := steps.split_cons
    obtain ⟨afterWord, wordStep, steps⟩ := steps.split_cons
    obtain ⟨afterName, nameStep, steps⟩ := steps.split_cons
    obtain ⟨_, next⟩ := keywordStep.next?_eq
    obtain ⟨_, accepted⟩ := wordStep.accept?_of_kind wordKind
    rw [statement, next]
    dsimp only
    rw [kind]
    refine Returns.bind (?_ : Returns _ _ rest) fun _ => ⟨_, rfl⟩
    rw [localDeclaration, accepted]
    refine (nameStep.name_returns nameReads).bind fun _ =>
      (functionBody_returns found reads steps).bind fun _ => ?_
    rw [← all.spanFrom_extent]
    exact ⟨_, rfl⟩

/-- A declaration of local variables is found if the values are. -/
theorem foundStatement_localVariables {declared : List Name} {values : List Expression}
    {span : Span} (found : ∀ each ∈ values, Found each) :
    FoundStatement (.localVariables declared values span) := by
  refine .of_statement rfl fun {tokens cursor rest} reads steps ends => ?_
  obtain ⟨stops, noComma, noEqual⟩ := endsExpression_of_endsStatement ends
  have notFunction {names : List Name} {tokens : List Token} {cursor rest : Cursor}
      (reads : Name.ReadsAll (.symbol .comma) names tokens) (steps : cursor.Steps tokens rest) :
      cursor.kind ≠ .keyword .functionWord := by
    cases reads with
    | single first | cons first =>
      rw [steps.kind_eq, first.1]
      rintro ⟨⟩
  cases reads with
  | localNames kind namesRead =>
    have all := steps
    obtain ⟨afterKeyword, keywordStep, steps⟩ := steps.split_cons
    obtain ⟨_, next⟩ := keywordStep.next?_eq
    rw [statement, next]
    dsimp only
    rw [kind]
    refine Returns.bind (?_ : Returns _ _ rest) fun _ => ⟨_, rfl⟩
    rw [localDeclaration, Cursor.Steps.accept?_eq_none (notFunction namesRead steps)]
    refine (names_returns namesRead steps noComma).bind fun _ => ?_
    dsimp only
    rw [Cursor.Steps.accept?_eq_none noEqual, all.spanFrom_extent]
    exact ⟨_, rfl⟩
  | localVariables kind namesRead equals valuesRead =>
    have all := steps
    rw [List.cons_append] at steps all
    obtain ⟨afterKeyword, keywordStep, steps⟩ := steps.split_cons
    obtain ⟨afterNames, nameSteps, steps⟩ := steps.split
    have follows := steps.kind_eq.trans equals
    obtain ⟨afterEqual, equalStep, steps⟩ := steps.split_cons
    obtain ⟨_, next⟩ := keywordStep.next?_eq
    obtain ⟨_, accepted⟩ := equalStep.accept?_of_kind equals
    rw [statement, next]
    dsimp only
    rw [kind]
    refine Returns.bind (?_ : Returns _ _ rest) fun _ => ⟨_, rfl⟩
    rw [localDeclaration, Cursor.Steps.accept?_eq_none (notFunction namesRead nameSteps)]
    refine (names_returns namesRead nameSteps (by rw [follows]; rintro ⟨⟩)).bind fun _ => ?_
    dsimp only
    rw [accepted]
    refine (expressions_returns found valuesRead steps stops noComma).bind fun _ => ?_
    rw [List.cons_append, ← all.spanFrom_extent]
    exact ⟨_, rfl⟩

theorem foundStatement_genericFor {declared : List Name} {iterators : List Expression}
    {body : List Statement} {span : Span} (iteratorsFound : ∀ each ∈ iterators, Found each)
    (found : FoundBody body) : FoundStatement (.genericFor declared iterators body span) := by
  refine .of_statement rfl fun {tokens cursor rest} reads steps _ => ?_
  cases reads with
  | genericFor kind namesRead inKind iteratorsRead opens bodyRead closes =>
    have all := steps
    simp only [List.append_assoc, List.cons_append] at steps
    obtain ⟨afterKeyword, keywordStep, steps⟩ := steps.split_cons
    obtain ⟨_, next⟩ := keywordStep.next?_eq
    obtain ⟨first, further, token, more, rfl, rfl, firstReads, finds⟩ :=
      furtherNames_returns namesRead
    rw [List.cons_append] at steps
    obtain ⟨afterName, nameStep, steps⟩ := steps.split_cons
    obtain ⟨afterNames, nameSteps, steps⟩ := steps.split
    have notEqual : afterName.kind ≠ .symbol .equal := by
      cases namesRead with
      | single =>
        cases nameSteps.eq_of_nil
        rw [steps.kind_eq, inKind]
        rintro ⟨⟩
      | cons _ comma =>
        rw [nameSteps.kind_eq, comma]
        rintro ⟨⟩
    have namesEnd : afterNames.kind ≠ .symbol .comma := by
      rw [steps.kind_eq, inKind]
      rintro ⟨⟩
    obtain ⟨afterIn, inStep, steps⟩ := steps.split_cons
    obtain ⟨afterIterators, iteratorSteps, steps⟩ := steps.split
    have follows := steps.kind_eq.trans opens
    obtain ⟨afterDo, doStep, steps⟩ := steps.split_cons
    obtain ⟨afterBody, bodySteps, lastStep⟩ := steps.split
    have ends := isBlockEnd_of_kind (lastStep.kind_eq.trans closes) rfl
    rw [statement, next]
    dsimp only
    rw [kind]
    refine Returns.bind (?_ : Returns _ _ rest) fun _ => ⟨_, rfl⟩
    rw [forLoop]
    refine (nameStep.name_returns firstReads).bind fun _ => ?_
    dsimp only
    rw [Cursor.Steps.accept?_eq_none notEqual]
    refine (finds nameSteps namesEnd).bind fun _ => (inStep.expect_returns inKind).bind fun _ =>
      (expressions_returns iteratorsFound iteratorsRead iteratorSteps
        (ends_of_kind follows ⟨rfl, rfl⟩) (by rw [follows]; rintro ⟨⟩)).bind fun _ =>
      (doStep.expect_returns opens).bind fun _ =>
      (found.returns bodyRead bodySteps ends).bind fun _ =>
        (lastStep.expect_returns closes).bind fun _ => ?_
    rw [← all.spanFrom_eq]
    exact ⟨_, rfl⟩

/-- The step of a loop is returned if it is found, and left out if there is none. -/
theorem optionalStep_returns {step : Option Expression} (found : ∀ each ∈ step, Found each)
    {tokens : List Token} {cursor rest : Cursor} (reads : Expression.ReadsStep true step tokens)
    (steps : cursor.Steps tokens rest) (ends : EndsExpression rest.kind)
    (noComma : rest.kind ≠ .symbol .comma) : Returns (optionalStep cursor) step rest := by
  rw [optionalStep]
  cases reads with
  | none =>
    cases steps.eq_of_nil
    rw [Cursor.Steps.accept?_eq_none noComma]
    exact ⟨_, rfl⟩
  | some kind reads =>
    obtain ⟨afterComma, commaStep, steps⟩ := steps.split_cons
    obtain ⟨_, accepted⟩ := commaStep.accept?_of_kind kind
    rw [accepted]
    exact ((found _ rfl).whole reads steps ends).bind fun _ => ⟨_, rfl⟩

theorem foundStatement_numericFor {counter : Name} {first last : Expression}
    {step : Option Expression} {body : List Statement} {span : Span} (firstFound : Found first)
    (lastFound : Found last) (stepFound : ∀ each ∈ step, Found each) (found : FoundBody body) :
    FoundStatement (.numericFor counter first last step body span) := by
  refine .of_statement rfl fun {tokens cursor rest} reads steps _ => ?_
  cases reads with
  | numericFor kind counterReads equals firstReads comma lastReads stepReads opens
    bodyRead closes =>
    have all := steps
    simp only [List.append_assoc, List.cons_append] at steps
    obtain ⟨afterKeyword, keywordStep, steps⟩ := steps.split_cons
    obtain ⟨afterName, nameStep, steps⟩ := steps.split_cons
    obtain ⟨afterEqual, equalStep, steps⟩ := steps.split_cons
    obtain ⟨afterFirst, firstSteps, steps⟩ := steps.split
    have firstEnds := ends_of_kind (steps.kind_eq.trans comma) ⟨rfl, rfl⟩
    obtain ⟨afterComma, commaStep, steps⟩ := steps.split_cons
    obtain ⟨afterLast, lastSteps, steps⟩ := steps.split
    obtain ⟨afterStep, stepSteps, steps⟩ := steps.split
    have follows := steps.kind_eq.trans opens
    have lastEnds : EndsExpression afterLast.kind := by
      cases stepReads with
      | none =>
        cases stepSteps.eq_of_nil
        exact ends_of_kind follows ⟨rfl, rfl⟩
      | some stepComma => exact ends_of_kind (stepSteps.kind_eq.trans stepComma) ⟨rfl, rfl⟩
    obtain ⟨afterDo, doStep, steps⟩ := steps.split_cons
    obtain ⟨afterBody, bodySteps, closingStep⟩ := steps.split
    have ends := isBlockEnd_of_kind (closingStep.kind_eq.trans closes) rfl
    obtain ⟨_, next⟩ := keywordStep.next?_eq
    obtain ⟨_, accepted⟩ := equalStep.accept?_of_kind equals
    rw [statement, next]
    dsimp only
    rw [kind]
    refine Returns.bind (?_ : Returns _ _ rest) fun _ => ⟨_, rfl⟩
    rw [forLoop]
    refine (nameStep.name_returns counterReads).bind fun _ => ?_
    dsimp only
    rw [accepted]
    refine (firstFound.whole firstReads firstSteps firstEnds).bind fun _ =>
      (commaStep.expect_returns comma).bind fun _ =>
      (lastFound.whole lastReads lastSteps lastEnds).bind fun _ =>
      (optionalStep_returns stepFound stepReads stepSteps (ends_of_kind follows ⟨rfl, rfl⟩)
        (by rw [follows]; rintro ⟨⟩)).bind fun _ =>
      (doStep.expect_returns opens).bind fun _ =>
      (found.returns bodyRead bodySteps ends).bind fun _ =>
        (closingStep.expect_returns closes).bind fun _ => ?_
    rw [← all.spanFrom_eq]
    exact ⟨_, rfl⟩

/-- The parser finds what is inside the clause. -/
def FoundClause : Clause → Prop
  | .guarded _ condition body _ => Found condition ∧ FoundBody body
  | .otherwise body _ => FoundBody body

theorem guardedClause_returns {word : ClauseWord} {clause : Clause} (found : FoundClause clause)
    {tokens : List Token} {cursor rest : Cursor}
    (reads : Clause.ReadsGuarded true word clause tokens) (steps : cursor.Steps tokens rest)
    (ends : isBlockEnd rest.kind) :
    ∃ keyword more afterKeyword, tokens = keyword :: more ∧
      keyword.kind = .keyword word.keyword ∧ cursor.Steps [keyword] afterKeyword ∧
      Returns (guardedClause word keyword afterKeyword) clause rest := by
  cases reads with
  | @intro _ condition body keyword inner header tokens kind conditionReads opens bodyRead =>
    obtain ⟨conditionFound, bodyFound⟩ := found
    have same :
        keyword :: inner ++ header :: tokens = (keyword :: (inner ++ [header])) ++ tokens := by
      simp
    rw [same] at steps
    obtain ⟨afterThen, headerSteps, bodySteps⟩ := steps.split
    have all := headerSteps
    obtain ⟨afterKeyword, keywordStep, headerSteps⟩ := headerSteps.split_cons
    obtain ⟨afterCondition, conditionSteps, thenStep⟩ := headerSteps.split
    refine ⟨keyword, _, afterKeyword, rfl, kind, keywordStep, ?_⟩
    rw [guardedClause]
    refine (conditionFound.whole conditionReads conditionSteps
        (ends_of_kind (thenStep.kind_eq.trans opens) ⟨rfl, rfl⟩)).bind fun _ =>
      (thenStep.expect_returns opens).bind fun _ =>
        (bodyFound.returns bodyRead bodySteps ends).bind fun _ => ?_
    rw [List.cons_append, ← all.spanFrom_extent]
    exact ⟨_, rfl⟩

/-- Clauses behind the first are returned if each is found. -/
theorem furtherClauses_returns {clauses : List Clause} (found : ∀ each ∈ clauses, FoundClause each)
    {tokens : List Token} {cursor rest : Cursor}
    (reads : Clause.ReadsFurther true clauses tokens) (steps : cursor.Steps tokens rest)
    (ends : rest.kind = .keyword .endWord) :
    Returns (furtherClauses cursor) clauses rest ∧ isBlockEnd cursor.kind := by
  induction clauses generalizing tokens cursor with
  | nil =>
    cases reads
    cases steps.eq_of_nil
    refine ⟨?_, isBlockEnd_of_kind ends rfl⟩
    rw [furtherClauses, Cursor.Steps.accept?_eq_none (by rw [ends]; rintro ⟨⟩)]
    dsimp only
    rw [Cursor.Steps.accept?_eq_none (by rw [ends]; rintro ⟨⟩)]
    exact ⟨_, rfl⟩
  | cons clause others inductionHypothesis =>
    obtain ⟨clauseFound, othersFound⟩ := List.forall_mem_cons.1 found
    cases reads with
    | otherwise kind bodyRead =>
      have follows := steps.kind_eq.trans kind
      obtain ⟨afterKeyword, keywordStep, steps⟩ := steps.split_cons
      obtain ⟨_, accepted⟩ := keywordStep.accept?_of_kind kind
      refine ⟨?_, isBlockEnd_of_kind follows rfl⟩
      rw [furtherClauses, Cursor.Steps.accept?_eq_none (by rw [follows]; rintro ⟨⟩)]
      dsimp only
      rw [accepted]
      exact (FoundBody.returns clauseFound bodyRead steps (isBlockEnd_of_kind ends rfl)).bind
        fun _ => ⟨_, rfl⟩
    | cons guarded further =>
      obtain ⟨afterClause, clauseSteps, steps⟩ := steps.split
      obtain ⟨finds, stops⟩ := inductionHypothesis othersFound further steps
      obtain ⟨keyword, more, afterKeyword, rfl, kind, keywordStep, clauseReturns⟩ :=
        guardedClause_returns clauseFound guarded clauseSteps stops
      have follows := keywordStep.kind_eq.trans kind
      obtain ⟨_, accepted⟩ := keywordStep.accept?_of_kind kind
      refine ⟨?_, isBlockEnd_of_kind follows rfl⟩
      rw [furtherClauses]
      rw [ClauseWord.keyword] at accepted
      rw [accepted]
      exact clauseReturns.bind fun _ => finds.bind fun _ => ⟨_, rfl⟩

/-- A statement with clauses is found if each clause is. -/
theorem foundStatement_ifElse {clauses : List Clause} {span : Span}
    (found : ∀ each ∈ clauses, FoundClause each) : FoundStatement (.ifElse clauses span) := by
  refine .of_statement rfl fun {tokens cursor rest} reads steps _ => ?_
  cases reads with
  | ifElse guarded further closes =>
    obtain ⟨clauseFound, othersFound⟩ := List.forall_mem_cons.1 found
    have all := steps
    rw [List.append_assoc] at steps
    obtain ⟨afterClause, clauseSteps, steps⟩ := steps.split
    obtain ⟨afterClauses, furtherSteps, lastStep⟩ := steps.split
    obtain ⟨finds, stops⟩ :=
      furtherClauses_returns othersFound further furtherSteps (lastStep.kind_eq.trans closes)
    obtain ⟨keyword, more, afterKeyword, rfl, kind, keywordStep, clauseReturns⟩ :=
      guardedClause_returns clauseFound guarded clauseSteps stops
    obtain ⟨_, next⟩ := keywordStep.next?_eq
    rw [statement, next]
    dsimp only
    rw [kind]
    refine clauseReturns.bind fun _ => finds.bind fun _ =>
      (lastStep.expect_returns closes).bind fun _ => ?_
    rw [← all.spanFrom_eq]
    exact ⟨_, rfl⟩

/-- A statement that starts with an expression is an assignment or a call. -/
theorem statement_eq_assignmentOrCall {cursor : Cursor} (starts : startsPrefix cursor.kind)
    {step : Statement} {rest : Cursor} (found : Returns (assignmentOrCall cursor) step rest) :
    Returns (statement cursor) step rest := by
  rw [statement]
  split
  next none =>
    rw [Cursor.kind_of_next?_eq_none none] at starts
    cases starts
  next token afterToken within next =>
    rw [Cursor.kind_of_next? next] at starts
    dsimp only
    rcases kind_of_startsPrefix starts with same | same <;> rw [same] <;> exact found

theorem foundStatement_call {value : Expression} {span : Span} (found : Found value) :
    FoundStatement (.call value span) := by
  refine .of_statement rfl fun {tokens cursor rest} reads steps ends => ?_
  cases reads with
  | call isCall reads =>
    obtain ⟨⟨stops, -⟩, noComma, noEqual⟩ := endsExpression_of_endsStatement ends
    obtain ⟨token, more, rfl, starts⟩ := startsPrefix_of_reads reads (isPrefix_of_isCall isCall)
    refine statement_eq_assignmentOrCall (by rw [steps.kind_eq]; exact starts) ?_
    rw [assignmentOrCall]
    refine (found.suffixed reads (isPrefix_of_isCall isCall) steps
      (suffixes_returns value stops)).bind fun _ => ?_
    dsimp only
    rw [if_neg (not_or.2 ⟨noEqual, noComma⟩), if_pos isCall]
    exact ⟨_, rfl⟩

/-- The targets of an assignment come apart into the first one, which is read before it is known
that others follow, and the rest. -/
theorem assignmentTargets_returns {first : Expression} {others : List Expression}
    (found : ∀ each ∈ others, Found each) (assignable : (first :: others).all isAssignable)
    {tokens : List Token} (reads : Expression.ReadsAll true (first :: others) tokens) :
    ∃ before after, tokens = before ++ after ∧ first.Reads true before ∧
      ∀ {cursor rest : Cursor}, cursor.Steps after rest → rest.kind = .symbol .equal →
        Returns (assignmentTargets first cursor) (first :: others) rest ∧
          (cursor.kind = .symbol .equal ∨ cursor.kind = .symbol .comma) := by
  induction others generalizing first tokens with
  | nil =>
    cases reads with
    | single reads =>
      refine ⟨tokens, [], (List.append_nil _).symm, reads, fun {cursor rest} steps ends => ?_⟩
      cases steps.eq_of_nil
      refine ⟨?_, .inl ends⟩
      rw [assignmentTargets, if_pos (Bool.and_eq_true .. ▸ assignable).1,
        Cursor.Steps.accept?_eq_none (by rw [ends]; rintro ⟨⟩)]
      exact ⟨_, rfl⟩
    | cons _ _ further => cases further
  | cons second others inductionHypothesis =>
    obtain ⟨secondFound, othersFound⟩ := List.forall_mem_cons.1 found
    obtain ⟨firstAssignable, furtherAssignable⟩ := Bool.and_eq_true .. ▸ assignable
    have isPrefix := isPrefix_of_isAssignable (Bool.and_eq_true .. ▸ furtherAssignable).1
    cases reads with
    | @cons _ _ before mark more reads kind further =>
      obtain ⟨inner, after, rfl, secondReads, finds⟩ :=
        inductionHypothesis othersFound furtherAssignable further
      refine ⟨before, _, rfl, reads, fun {cursor rest} steps ends => ?_⟩
      have follows := steps.kind_eq.trans kind
      obtain ⟨afterComma, commaStep, steps⟩ := steps.split_cons
      obtain ⟨afterSecond, secondSteps, steps⟩ := steps.split
      obtain ⟨_, accepted⟩ := commaStep.accept?_of_kind kind
      obtain ⟨targets, next⟩ := finds steps ends
      have stops : goesOn afterSecond.kind = false := by
        rcases next with next | next <;> rw [next] <;> rfl
      refine ⟨?_, .inr follows⟩
      rw [assignmentTargets, if_pos firstAssignable, accepted]
      exact (secondFound.suffixed secondReads isPrefix secondSteps
        (suffixes_returns second stops)).bind fun _ => targets.bind fun _ => ⟨_, rfl⟩

/-- An assignment is found if its targets and values are. -/
theorem foundStatement_assignment {targets values : List Expression} {span : Span}
    (targetsFound : ∀ each ∈ targets, Found each) (valuesFound : ∀ each ∈ values, Found each) :
    FoundStatement (.assignment targets values span) := by
  refine .of_statement rfl fun {tokens cursor rest} reads steps ends => ?_
  obtain ⟨stops, noComma, -⟩ := endsExpression_of_endsStatement ends
  cases reads with
  | assignment assignable targetsRead equals valuesRead =>
    obtain ⟨firstFound, othersFound⟩ := List.forall_mem_cons.1 targetsFound
    have isPrefix := isPrefix_of_isAssignable (Bool.and_eq_true .. ▸ assignable).1
    obtain ⟨before, after, rfl, firstReads, finds⟩ :=
      assignmentTargets_returns othersFound assignable targetsRead
    obtain ⟨token, more, rfl, starts⟩ := startsPrefix_of_reads firstReads isPrefix
    rw [List.append_assoc] at steps
    obtain ⟨afterFirst, firstSteps, steps⟩ := steps.split
    obtain ⟨afterTargets, targetSteps, steps⟩ := steps.split
    obtain ⟨allTargets, next⟩ := finds targetSteps (steps.kind_eq.trans equals)
    obtain ⟨afterEqual, equalStep, steps⟩ := steps.split_cons
    have goesNoFurther : goesOn afterFirst.kind = false := by
      rcases next with next | next <;> rw [next] <;> rfl
    refine statement_eq_assignmentOrCall (by rw [firstSteps.kind_eq]; exact starts) ?_
    rw [assignmentOrCall]
    refine (firstFound.suffixed firstReads isPrefix firstSteps
      (suffixes_returns _ goesNoFurther)).bind fun _ => ?_
    dsimp only
    rw [if_pos next]
    refine allTargets.bind fun _ => (equalStep.expect_returns equals).bind fun _ =>
      (expressions_returns valuesFound valuesRead steps stops noComma).bind fun _ => ?_
    obtain ⟨value, inner, rfl, -⟩ := startExpression_of_readsAll valuesRead
    rw [← steps.lastStop_extent steps.size_lt]
    exact ⟨_, rfl⟩

/-- A `return` is found if its values are. -/
theorem foundStatement_returnValues {values : List Expression} {span : Span}
    (found : ∀ each ∈ values, Found each) : FoundStatement (.returnValues values span) := by
  refine {
    statement := fun _ isNoReturn => nomatch isNoReturn
    last := ?_ }
  intro tokens cursor rest reads _ steps ends
  obtain ⟨stops, noComma, -⟩ :=
    endsExpression_of_endsStatement (endsStatement_of_isBlockEnd ends)
  cases reads with
  | @returnValues _ keyword tokens final kind valuesRead noSemicolon =>
    have none : final = [] := by
      rcases noSemicolon with none | ⟨impossible, -⟩
      · exact none
      · cases impossible
    subst none
    rw [List.append_nil] at steps ⊢
    have all := steps
    obtain ⟨afterKeyword, keywordStep, steps⟩ := steps.split_cons
    refine ⟨keyword, afterKeyword, kind, keywordStep, ?_⟩
    have valuesReturn : Returns (optionalExpressions afterKeyword) values rest := by
      rw [optionalExpressions]
      cases valuesRead with
      | nil =>
        cases steps.eq_of_nil
        rw [if_pos (.inr ends)]
        exact ⟨_, rfl⟩
      | some valuesRead =>
        obtain ⟨token, inner, rfl, starts, -⟩ := startExpression_of_readsAll valuesRead
        have some : ¬(afterKeyword.kind = .symbol .semicolon ∨ isBlockEnd afterKeyword.kind) := by
          rw [steps.kind_eq]
          unfold startsExpression at starts
          split at starts <;> simp_all [isBlockEnd]
        rw [if_neg some]
        exact (expressions_returns found valuesRead steps stops noComma).bind fun _ => ⟨_, rfl⟩
    rw [returnValues]
    refine valuesReturn.bind fun _ => ?_
    dsimp only
    have noMark : rest.kind ≠ .symbol .semicolon := by
      intro same
      rw [same] at ends
      cases ends
    rw [Cursor.Steps.accept?_eq_none noMark, all.spanFrom_extent]
    exact ⟨_, rfl⟩

end LuaStyle.Grammar
