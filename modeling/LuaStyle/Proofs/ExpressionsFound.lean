/-
This file proves that the parser finds each form of expression, provided that it finds the
expressions, fields and statements inside.

An expression is found in three roles: as something that members are selected from, up to the
selections behind it; as something that is called, up to what goes on the call; and as a left
operand, up to the operators behind it. The last is where grouping matters. A binary operator is
reached only if the right edge of its left operand gives way to it, and its right operand ends where
the limit that the operator sets is met.
-/

import LuaStyle.Proofs.Grouping
import LuaStyle.Proofs.Resumption

namespace LuaStyle.Grammar

/-! ### Expressions -/

/-- The parser finds the expression in all tokens that it is strictly read from. -/
structure Found (expression : Expression) : Prop where
  /-- As something that members are selected from, up to what goes on it. -/
  suffixed {tokens : List Token} {cursor rest : Cursor} :
    expression.Reads true tokens → expression.isPrefix → cursor.Steps tokens rest →
      Resumes (Grammar.suffixed cursor) (suffixes expression rest)
  /-- As something that is called, up to what goes on the call. -/
  callee {tokens : List Token} {cursor rest after : Cursor} {called : Expression} :
    expression.ReadsCallee true tokens → cursor.Steps tokens rest → opensCall rest.kind →
      Returns (call expression rest) called after →
      Resumes (Grammar.suffixed cursor) (suffixes called after)
  /-- As a left operand, up to the operators behind it. -/
  operand {tokens : List Token} {cursor rest : Cursor} {limit : Nat} :
    expression.Reads true tokens → cursor.Steps tokens rest → goesOn rest.kind = false →
      expression.OpensAbove limit →
      (∀ operator, BinaryOperator.ofToken? rest.kind = some operator →
        expression.ClosesAt operator.leftPower) →
      Resumes (Grammar.expression limit cursor) (operators limit expression rest)

theorem BinaryOperator.leftPower_pos (operator : BinaryOperator) : 0 < operator.leftPower := by
  cases operator <;> decide

/-- Every operator binds tighter than nothing, so any expression opens above zero. -/
theorem opensAbove_zero : ∀ expression : Expression, expression.OpensAbove 0
  | .binary operator left _ _ => ⟨BinaryOperator.leftPower_pos operator, opensAbove_zero left⟩
  | .literal _ | .name _ | .group .. | .unary .. | .call .. | .stringCall .. | .tableCall ..
  | .function .. | .index .. | .member .. | .table .. => trivial

/-- An expression is found whole where nothing goes on it. -/
theorem Found.whole {expression : Expression} (found : Found expression) {tokens : List Token}
    {cursor rest : Cursor} (reads : expression.Reads true tokens) (steps : cursor.Steps tokens rest)
    (ends : EndsExpression rest.kind) :
    Returns (Grammar.expression 0 cursor) expression rest := by
  obtain ⟨stops, noOperator⟩ := ends
  refine found.operand reads steps stops (opensAbove_zero expression)
    (fun operator same => ?_) (operators_returns expression fun operator same => ?_)
  all_goals
    rw [noOperator] at same
    cases same

/-- What is not a binary operation is found as an operand if it is found by itself. -/
theorem expression_resumes_of_operand {expression : Expression} {cursor rest : Cursor} {limit : Nat}
    (found : Returns (operand cursor) expression rest) :
    Resumes (Grammar.expression limit cursor) (operators limit expression rest) := by
  intro value after more
  rw [Grammar.expression]
  exact found.bind fun _ => more.bind fun _ => ⟨_, rfl⟩

/-- An operand that starts with a name or a parenthesis is what the rule for prefixes finds. -/
theorem operand_eq_suffixed {cursor : Cursor} (starts : startsPrefix cursor.kind)
    {value : Expression}
    {rest : Cursor} (found : Returns (suffixed cursor) value rest) :
    Returns (operand cursor) value rest := by
  rw [operand]
  split
  · exact found
  next token afterToken within next =>
    rw [Cursor.kind_of_next? next] at starts
    dsimp only
    rcases kind_of_startsPrefix starts with same | same <;> rw [same] <;> exact found

/-- Something that members are selected from is found if it is found up to what goes on it. -/
theorem Found.of_suffixed {expression : Expression} (isPrefix : expression.isPrefix)
    (plain : expression.isMethod = false)
    (found : ∀ {tokens cursor rest}, expression.Reads true tokens → cursor.Steps tokens rest →
      Resumes (Grammar.suffixed cursor) (suffixes expression rest)) : Found expression where
  suffixed reads _ steps := found reads steps
  callee callee steps opens called := fun more =>
    found (Expression.reads_of_or (.inr callee) plain) steps
      (suffixes_resumes_call opens called more)
  operand reads steps stops _ _ := by
    obtain ⟨token, tokens, rfl, -, starts, -⟩ := startExpression_of_reads expression (.inl reads)
    refine expression_resumes_of_operand (operand_eq_suffixed ?_
      (found reads steps (suffixes_returns expression stops)))
    rw [steps.kind_eq]
    exact starts (by rw [isPrefix]; rfl)

/-- Something that is no binary operation, and that no members are selected from, is found if it is
found as an operand. -/
theorem Found.of_operand {expression : Expression} (notPrefix : expression.isPrefix = false)
    (plain : expression.isMethod = false)
    (found : ∀ {tokens cursor rest}, expression.Reads true tokens → cursor.Steps tokens rest →
      goesOn rest.kind = false →
      (∀ operator, BinaryOperator.ofToken? rest.kind = some operator →
        expression.ClosesAt operator.leftPower) →
      Returns (Grammar.operand cursor) expression rest) : Found expression where
  suffixed _ isPrefix := by
    rw [notPrefix] at isPrefix
    cases isPrefix
  callee callee := by
    have isCallee := callee.isCallee
    rw [notPrefix, plain] at isCallee
    cases isCallee
  operand reads steps stops _ closes :=
    expression_resumes_of_operand (found reads steps stops closes)

theorem ofToken?_binary (operator : BinaryOperator) :
    BinaryOperator.ofToken? operator.token = some operator := by
  cases operator <;> rfl

theorem ofToken?_unary (operator : UnaryOperator) :
    UnaryOperator.ofToken? operator.token = some operator := by
  cases operator <;> rfl

/-- Behind its operator, reading a left operand goes on with the whole operation. -/
theorem binary_resumes {cursor afterLeft afterMark rest : Cursor} {mark : Token}
    {operator : BinaryOperator} {left right : Expression} {limit : Nat}
    (markStep : afterLeft.Steps [mark] afterMark) (kind : mark.kind = operator.token)
    (above : limit < operator.leftPower)
    (leftResumes : Resumes (expression limit cursor) (operators limit left afterLeft))
    (rightReturns : Returns (expression operator.rightPower afterMark) right rest) :
    Resumes (expression limit cursor)
      (operators limit (.binary operator left right (left.span.merge right.span)) rest) := by
  intro value after more
  refine leftResumes ?_
  obtain ⟨_, next⟩ := markStep.next?_eq
  rw [operators, next]
  dsimp only
  rw [kind, ofToken?_binary]
  dsimp only
  rw [if_neg (Nat.not_le.2 above)]
  exact rightReturns.bind fun _ => more.bind fun _ => ⟨_, rfl⟩

/-- A unary operator and the operand that is read behind it are read as an operand. -/
theorem unary_returns {cursor afterMark rest : Cursor} {mark : Token} {operator : UnaryOperator}
    {argument : Expression} (markStep : cursor.Steps [mark] afterMark)
    (kind : mark.kind = operator.token)
    (found : Returns (expression UnaryOperator.bindingPower afterMark) argument rest) :
    Returns (operand cursor) (.unary operator argument ⟨mark.start, argument.span.stop⟩) rest := by
  obtain ⟨_, next⟩ := markStep.next?_eq
  rw [operand, next]
  dsimp only
  rw [kind, ofToken?_unary]
  exact found.bind fun _ => ⟨_, rfl⟩

/-- The operands of a grouped binary operation are found, and so is the operation. -/
theorem found_binary {operator : BinaryOperator} {left right : Expression} {span : Span}
    (grouped : Node.IsGrouped (.expression (.binary operator left right span)))
    (leftFound : Found left) (rightFound : Found right) :
    Found (.binary operator left right span) where
  suffixed _ isPrefix := nomatch isPrefix
  callee callee := nomatch callee.isCallee
  operand {tokens cursor rest limit} reads steps stops opens closes := by
    cases reads with
    | @binary _ _ _ before mark behind leftReads kind rightReads =>
      obtain ⟨afterLeft, leftSteps, steps⟩ := steps.split
      have follows : afterLeft.kind = operator.token := steps.kind_eq.trans kind
      obtain ⟨afterMark, markStep, rightSteps⟩ := steps.split_cons
      intro value after more
      refine binary_resumes markStep kind opens.1 ?_ ?_ more
      · refine leftFound.operand leftReads leftSteps
          (by rw [follows]; cases operator <;> rfl) opens.2
          fun other same => ?_
        rw [follows, ofToken?_binary] at same
        cases same
        exact grouped.1
      · exact rightFound.operand rightReads rightSteps stops grouped.2
          (fun other same => (closes other same).2)
          (operators_returns right fun other same => (closes other same).1)

/-- The operand of a grouped unary operation is found, and so is the operation. -/
theorem found_unary {operator : UnaryOperator} {argument : Expression} {span : Span}
    (grouped : Node.IsGrouped (.expression (.unary operator argument span)))
    (found : Found argument) : Found (.unary operator argument span) := by
  refine .of_operand rfl rfl fun {tokens cursor rest} reads steps stops closes => ?_
  cases reads with
  | unary kind argumentReads =>
    obtain ⟨afterMark, markStep, steps⟩ := steps.split_cons
    exact unary_returns markStep kind
      (found.operand argumentReads steps stops grouped (fun other same => (closes other same).2)
        (operators_returns argument fun other same => (closes other same).1))

theorem found_literal (constant : Literal) : Found (.literal constant) := by
  refine .of_operand rfl rfl fun {tokens cursor rest} reads steps _ _ => ?_
  cases reads with
  | literal reads =>
    obtain ⟨_, next⟩ := steps.next?_eq
    rw [operand, next]
    dsimp only
    cases reads with
    | nil kind | true kind | false kind | vararg kind =>
      rw [kind]
      exact ⟨_, rfl⟩
    | number kind read =>
      rw [kind]
      refine ⟨by assumption, ?_⟩
      show (do
        let literal ← numberLiteral _
        return (⟨.literal literal, rest, by assumption⟩ : Parsed cursor.size Expression)) = _
      rw [read]
      rfl
    | string kind read =>
      rcases kind with kind | kind
      all_goals
        rw [kind]
        refine ⟨by assumption, ?_⟩
        show (do
          let literal ← stringLiteral _
          return (⟨.literal literal, rest, by assumption⟩ : Parsed cursor.size Expression)) = _
        rw [read]
        rfl

theorem found_name (identifier : Name) : Found (.name identifier) := by
  refine .of_suffixed rfl rfl fun {tokens cursor rest} reads steps => ?_
  cases reads with
  | name reads =>
    intro value after more
    obtain ⟨_, next⟩ := steps.next?_eq
    have found : Returns (primary cursor) (.name identifier) rest := by
      rw [primary, next]
      dsimp only
      rw [reads.1, reads.2]
      exact ⟨_, rfl⟩
    rw [suffixed]
    exact found.bind fun _ => more.bind fun _ => ⟨_, rfl⟩

theorem ends_of_kind {kind same : Token.Kind} (is : kind = same) (ends : EndsExpression same) :
    EndsExpression kind := by
  rw [is]
  exact ends

theorem found_group {inner : Expression} {span : Span} (found : Found inner) :
    Found (.group inner span) := by
  refine .of_suffixed rfl rfl fun {tokens cursor rest} reads steps => ?_
  cases reads with
  | group opens innerReads closes =>
    intro value after more
    rw [List.cons_append] at steps
    obtain ⟨inside, openingStep, steps⟩ := steps.split_cons
    obtain ⟨afterInner, innerSteps, closingStep⟩ := steps.split
    obtain ⟨_, next⟩ := openingStep.next?_eq
    have ends := ends_of_kind (closingStep.kind_eq.trans closes) ⟨rfl, rfl⟩
    rw [suffixed]
    refine Returns.bind ?_ fun _ => more.bind fun _ => ⟨_, rfl⟩
    rw [primary, next]
    dsimp only
    rw [opens]
    exact (found.whole innerReads innerSteps ends).bind fun _ =>
      (closingStep.expect_returns closes).bind fun _ => ⟨_, rfl⟩

theorem found_index {base key : Expression} {span : Span} (baseFound : Found base)
    (keyFound : Found key) : Found (.index base key span) := by
  refine .of_suffixed rfl rfl fun {tokens cursor rest} reads steps => ?_
  cases reads with
  | index isPrefix baseReads opens keyReads closes =>
    intro value after more
    rw [List.append_assoc, List.cons_append] at steps
    obtain ⟨afterBase, baseSteps, steps⟩ := steps.split
    refine baseFound.suffixed baseReads isPrefix baseSteps ?_
    obtain ⟨inside, openingStep, steps⟩ := steps.split_cons
    obtain ⟨afterKey, keySteps, closingStep⟩ := steps.split
    obtain ⟨_, next⟩ := openingStep.next?_eq
    have ends := ends_of_kind (closingStep.kind_eq.trans closes) ⟨rfl, rfl⟩
    rw [suffixes, next]
    dsimp only
    rw [opens]
    exact (keyFound.whole keyReads keySteps ends).bind fun _ =>
      (closingStep.expect_returns closes).bind fun _ => more.bind fun _ => ⟨_, rfl⟩

theorem found_member {base : Expression} {selector : Selector} {name : Name} {span : Span}
    (baseFound : Found base) : Found (.member base selector name span) := by
  cases selector with
  | dot =>
    refine .of_suffixed rfl rfl fun {tokens cursor rest} reads steps => ?_
    cases reads with
    | member isPrefix baseReads kind nameReads =>
      intro value after more
      obtain ⟨afterBase, baseSteps, steps⟩ := steps.split
      refine baseFound.suffixed baseReads isPrefix baseSteps ?_
      obtain ⟨afterMark, markStep, nameStep⟩ := steps.split_cons
      obtain ⟨_, next⟩ := markStep.next?_eq
      rw [suffixes, next]
      dsimp only
      rw [kind]
      exact (nameStep.name_returns nameReads).bind fun _ => more.bind fun _ => ⟨_, rfl⟩
  | colon =>
    refine { suffixed := ?suffixed, callee := ?callee, operand := ?operand }
    case suffixed =>
      intro _ _ _ _ isPrefix
      cases isPrefix
    case operand =>
      intro _ _ _ _ reads
      cases reads
    intro tokens cursor rest after called callee steps opens found value final more
    cases callee with
    | value isPrefix => cases isPrefix
    | method isPrefix baseReads kind nameReads =>
      obtain ⟨afterBase, baseSteps, steps⟩ := steps.split
      refine baseFound.suffixed baseReads isPrefix baseSteps ?_
      obtain ⟨afterMark, markStep, nameStep⟩ := steps.split_cons
      obtain ⟨_, next⟩ := markStep.next?_eq
      rw [suffixes, next]
      dsimp only
      rw [kind]
      exact (nameStep.name_returns nameReads).bind fun _ => found.bind fun _ =>
        more.bind fun _ => ⟨_, rfl⟩

/-- Expressions with commas between them are found where nothing goes on the last. -/
theorem expressions_returns {list : List Expression} (found : ∀ each ∈ list, Found each)
    {tokens : List Token} {cursor rest : Cursor} (reads : Expression.ReadsAll true list tokens)
    (steps : cursor.Steps tokens rest) (ends : EndsExpression rest.kind)
    (noComma : rest.kind ≠ .symbol .comma) : Returns (expressions cursor) list rest := by
  induction list generalizing tokens cursor with
  | nil => cases reads
  | cons first others inductionHypothesis =>
    obtain ⟨firstFound, othersFound⟩ := List.forall_mem_cons.1 found
    rw [expressions]
    cases reads with
    | single reads =>
      refine (firstFound.whole reads steps ends).bind fun _ => ?_
      dsimp only
      rw [Cursor.Steps.accept?_eq_none noComma]
      exact ⟨_, rfl⟩
    | cons reads kind further =>
      obtain ⟨afterFirst, firstSteps, steps⟩ := steps.split
      have stops := ends_of_kind (steps.kind_eq.trans kind) ⟨rfl, rfl⟩
      obtain ⟨afterComma, commaStep, steps⟩ := steps.split_cons
      obtain ⟨_, accepted⟩ := commaStep.accept?_of_kind kind
      refine (firstFound.whole reads firstSteps stops).bind fun _ => ?_
      dsimp only
      rw [accepted]
      exact (inductionHypothesis othersFound further steps).bind fun _ => ⟨_, rfl⟩

theorem startExpression_of_readsAll {strict : Bool} {list : List Expression} {tokens : List Token}
    (reads : Expression.ReadsAll strict list tokens) : StartExpression false tokens := by
  cases reads with
  | single reads =>
    obtain ⟨token, rest, same, kind, -, second⟩ := startExpression_of_reads _ (.inl reads)
    exact ⟨token, rest, same, kind, (by rintro ⟨⟩), second⟩
  | cons reads kind =>
    exact (startExpression_of_reads _ (.inl reads)).append (by rw [kind]; rintro ⟨⟩)
      (by rintro ⟨⟩)

/-- The arguments of a call are found, up to the closing parenthesis. -/
theorem callArguments_returns {arguments : List Expression}
    (found : ∀ each ∈ arguments, Found each) {tokens : List Token} {closing : Token}
    {cursor rest : Cursor} (reads : Expression.ReadsArguments true arguments tokens)
    (closes : closing.kind = .symbol .rightParen)
    (steps : cursor.Steps (tokens ++ [closing]) rest) :
    Returns (callArguments cursor) (arguments, closing) rest := by
  rw [callArguments]
  cases reads with
  | nil =>
    obtain ⟨_, accepted⟩ := Cursor.Steps.accept?_of_kind steps closes
    rw [accepted]
    exact ⟨_, rfl⟩
  | some reads =>
    obtain ⟨afterLast, argumentSteps, closingStep⟩ := steps.split
    obtain ⟨token, more, rfl, kind, -⟩ := startExpression_of_readsAll reads
    have follows := closingStep.kind_eq.trans closes
    have notClosed : cursor.kind ≠ .symbol .rightParen := by
      rw [steps.kind_eq]
      intro same
      rw [same] at kind
      cases kind
    rw [Cursor.Steps.accept?_eq_none notClosed]
    exact (expressions_returns found reads argumentSteps (ends_of_kind follows ⟨rfl, rfl⟩)
        (by rw [follows]; rintro ⟨⟩)).bind fun _ =>
      (closingStep.expect_returns closes).bind fun _ => ⟨_, rfl⟩

theorem found_call {base : Expression} {arguments : List Expression} {span : Span}
    (baseFound : Found base) (found : ∀ each ∈ arguments, Found each) :
    Found (.call base arguments span) := by
  refine .of_suffixed rfl rfl fun {tokens cursor rest} reads steps => ?_
  cases reads with
  | call callee opens argumentsRead closes =>
    rw [List.append_assoc, List.cons_append] at steps
    obtain ⟨afterBase, baseSteps, steps⟩ := steps.split
    have follows := steps.kind_eq.trans opens
    obtain ⟨inside, openingStep, steps⟩ := steps.split_cons
    obtain ⟨_, next⟩ := openingStep.next?_eq
    intro value after more
    refine baseFound.callee callee baseSteps (by rw [follows]; rfl) ?_ more
    rw [call, next]
    dsimp only
    rw [opens]
    exact (callArguments_returns found argumentsRead closes steps).bind fun _ => ⟨_, rfl⟩

theorem found_stringCall {base : Expression} {argument : Literal} {span : Span}
    (baseFound : Found base) : Found (.stringCall base argument span) := by
  refine .of_suffixed rfl rfl fun {tokens cursor rest} reads steps => ?_
  cases reads with
  | stringCall callee kind read =>
    obtain ⟨afterBase, baseSteps, steps⟩ := steps.split
    obtain ⟨_, next⟩ := steps.next?_eq
    intro value after more
    refine baseFound.callee callee baseSteps ?_ ?_ more
    · rw [steps.kind_eq]
      rcases kind with kind | kind <;> rw [kind] <;> rfl
    · rw [call, next]
      dsimp only
      rcases kind with kind | kind
      all_goals
        rw [kind]
        refine ⟨by assumption, ?_⟩
        show (do
          let argument ← stringLiteral _
          return (⟨.stringCall base argument _, rest, by assumption⟩ :
            Parsed afterBase.size Expression)) = _
        rw [read]
        rfl

/-! ### Tables -/

/-- The parser finds the field in all tokens that it is strictly read from. -/
def FoundField (entry : Field) : Prop :=
  ∀ {tokens cursor rest}, entry.Reads true tokens → cursor.Steps tokens rest →
    EndsExpression rest.kind → rest.kind ≠ .symbol .equal → Returns (field cursor) entry rest

theorem foundField_keyed {key value : Expression} {span : Span} (keyFound : Found key)
    (valueFound : Found value) : FoundField (.keyed key value span) := by
  intro tokens cursor rest reads steps ends _
  cases reads with
  | keyed opens keyReads closes equals valueReads =>
    have all := steps
    rw [List.cons_append] at steps
    obtain ⟨inside, openingStep, steps⟩ := steps.split_cons
    obtain ⟨afterKey, keySteps, steps⟩ := steps.split
    obtain ⟨afterClosing, closingStep, steps⟩ := steps.split_cons
    obtain ⟨afterEqual, equalStep, steps⟩ := steps.split_cons
    obtain ⟨_, accepted⟩ := openingStep.accept?_of_kind opens
    have stops := ends_of_kind (closingStep.kind_eq.trans closes) ⟨rfl, rfl⟩
    rw [field, accepted]
    refine (keyFound.whole keyReads keySteps stops).bind fun _ =>
      (closingStep.expect_returns closes).bind fun _ =>
      (equalStep.expect_returns equals).bind fun _ =>
        (valueFound.whole valueReads steps ends).bind fun _ => ?_
    rw [List.cons_append] at all
    rw [List.cons_append, ← all.spanFrom_extent]
    exact ⟨_, rfl⟩

theorem foundField_named {name : Name} {value : Expression} {span : Span} (found : Found value) :
    FoundField (.named name value span) := by
  intro tokens cursor rest reads steps ends _
  cases reads with
  | named nameReads equals valueReads =>
    have all := steps
    have kind := steps.kind_eq.trans nameReads.1
    have second : cursor.kindAfter = .symbol .equal := by
      rw [Cursor.kindAfter, steps.remaining]
      exact equals
    obtain ⟨afterName, nameStep, steps⟩ := steps.split_cons
    obtain ⟨afterEqual, equalStep, steps⟩ := steps.split_cons
    rw [field, Cursor.Steps.accept?_eq_none (by rw [kind]; rintro ⟨⟩)]
    dsimp only
    rw [if_pos ⟨kind, second⟩]
    refine (nameStep.name_returns nameReads).bind fun _ =>
      (equalStep.expect_returns equals).bind fun _ =>
        (found.whole valueReads steps ends).bind fun _ => ?_
    rw [← all.spanFrom_extent, nameReads.2]
    exact ⟨_, rfl⟩

theorem foundField_positional {value : Expression} (found : Found value) :
    FoundField (.positional value) := by
  intro tokens cursor rest reads steps ends notEqual
  cases reads with
  | positional reads =>
    obtain ⟨token, more, rfl, kind, -, second⟩ := startExpression_of_reads value (.inl reads)
    have noBracket : cursor.kind ≠ .symbol .leftSquare := by
      rw [steps.kind_eq]
      intro same
      rw [same] at kind
      cases kind
    have noAssignment : ¬(cursor.kind = .name ∧ cursor.kindAfter = .symbol .equal) := by
      rintro ⟨name, after⟩
      rw [steps.kind_eq] at name
      cases more with
      | cons next more =>
        rw [Cursor.kindAfter, steps.remaining] at after
        exact second name next rfl after
      | nil =>
        rw [Cursor.kindAfter, steps.remaining] at after
        rw [Cursor.kind, Cursor.current] at notEqual
        cases remaining : rest.remaining with
        | nil =>
          rw [remaining] at after
          cases after
        | cons next more =>
          rw [remaining] at after notEqual
          exact notEqual after
    rw [field, Cursor.Steps.accept?_eq_none noBracket]
    dsimp only
    rw [if_neg noAssignment]
    exact (found.whole reads steps ends).bind fun _ => ⟨_, rfl⟩

/-- No field starts with a closing brace, so the list does not stop too early. -/
theorem head_of_field {strict : Bool} {entry : Field} {tokens : List Token}
    (reads : entry.Reads strict tokens) :
    ∃ token rest, tokens = token :: rest ∧ token.kind ≠ .symbol .rightCurly := by
  cases reads with
  | keyed opens => exact ⟨_, _, rfl, by rw [opens]; exact nofun⟩
  | named name => exact ⟨_, _, rfl, by rw [name.1]; exact nofun⟩
  | positional reads =>
    obtain ⟨token, rest, same, kind, -⟩ := startExpression_of_reads _ (.inl reads)
    refine ⟨token, rest, same, fun closing => ?_⟩
    rw [closing] at kind
    cases kind

/-- The fields of a table are found, up to the closing brace. -/
theorem fields_returns {list : List Field} (found : ∀ each ∈ list, FoundField each)
    (bare : ∀ each ∈ list, each.isComment = false) {tokens : List Token} {cursor rest : Cursor}
    (reads : Field.ReadsAll true list tokens) (steps : cursor.Steps tokens rest)
    (closes : rest.kind = .symbol .rightCurly) : Returns (fields cursor) list rest := by
  induction list generalizing tokens cursor with
  | nil =>
    cases reads
    cases steps.eq_of_nil
    rw [fields, if_pos closes]
    exact ⟨_, rfl⟩
  | cons first others inductionHypothesis =>
    obtain ⟨firstFound, othersFound⟩ := List.forall_mem_cons.1 found
    obtain ⟨firstBare, othersBare⟩ := List.forall_mem_cons.1 bare
    cases reads with
    | comment => cases firstBare
    | @last _ tokens _ comments firstReads onlyComments further =>
      have none : others = [] := by
        cases others with
        | nil => rfl
        | cons second others =>
          rw [List.all_cons, othersBare second List.mem_cons_self] at onlyComments
          cases onlyComments
      subst none
      cases further
      rw [List.append_nil] at steps
      obtain ⟨token, more, rfl, opened⟩ := head_of_field firstReads
      rw [fields, if_neg (by rw [steps.kind_eq]; exact opened)]
      refine (firstFound firstReads steps (ends_of_kind closes ⟨rfl, rfl⟩)
        (by rw [closes]; rintro ⟨⟩)).bind fun _ => ?_
      dsimp only
      rw [Cursor.Steps.accept?_eq_none (by rw [closes]; rintro ⟨⟩),
        Cursor.Steps.accept?_eq_none (by rw [closes]; rintro ⟨⟩)]
      exact ⟨_, rfl⟩
    | @cons _ tokens mark _ more firstReads separates further =>
      obtain ⟨token, inner, rfl, opened⟩ := head_of_field firstReads
      rw [fields, if_neg (by rw [steps.kind_eq]; exact opened)]
      obtain ⟨afterFirst, firstSteps, steps⟩ := steps.split
      obtain ⟨afterMark, markStep, steps⟩ := steps.split_cons
      have follows := markStep.kind_eq
      have rest := inductionHypothesis othersFound othersBare further steps
      rcases separates with comma | semicolon
      · obtain ⟨_, accepted⟩ := markStep.accept?_of_kind comma
        refine (firstFound firstReads firstSteps (ends_of_kind (follows.trans comma) ⟨rfl, rfl⟩)
          (by rw [follows, comma]; rintro ⟨⟩)).bind fun _ => ?_
        dsimp only
        rw [accepted]
        exact rest.bind fun _ => ⟨_, rfl⟩
      · obtain ⟨_, accepted⟩ := markStep.accept?_of_kind semicolon
        refine (firstFound firstReads firstSteps (ends_of_kind (follows.trans semicolon) ⟨rfl, rfl⟩)
          (by rw [follows, semicolon]; rintro ⟨⟩)).bind fun _ => ?_
        dsimp only
        rw [Cursor.Steps.accept?_eq_none (by rw [follows, semicolon]; rintro ⟨⟩), accepted]
        exact rest.bind fun _ => ⟨_, rfl⟩

theorem tableBody_returns {list : List Field} (found : ∀ each ∈ list, FoundField each)
    (bare : ∀ each ∈ list, each.isComment = false) {tokens : List Token} {closing : Token}
    {cursor rest : Cursor} (reads : Field.ReadsAll true list tokens)
    (closes : closing.kind = .symbol .rightCurly)
    (steps : cursor.Steps (tokens ++ [closing]) rest) :
    Returns (tableBody cursor) (list, closing) rest := by
  obtain ⟨afterFields, fieldSteps, closingStep⟩ := steps.split
  rw [tableBody]
  exact (fields_returns found bare reads fieldSteps
    (closingStep.kind_eq.trans closes)).bind fun _ =>
    (closingStep.expect_returns closes).bind fun _ => ⟨_, rfl⟩

theorem found_table {list : List Field} {span : Span} (found : ∀ each ∈ list, FoundField each)
    (bare : ∀ each ∈ list, each.isComment = false) : Found (.table list span) := by
  refine .of_operand rfl rfl fun {tokens cursor rest} reads steps _ _ => ?_
  cases reads with
  | table opens fieldsRead closes =>
    rw [List.cons_append] at steps
    obtain ⟨inside, openingStep, steps⟩ := steps.split_cons
    obtain ⟨_, next⟩ := openingStep.next?_eq
    rw [operand, next]
    dsimp only
    rw [opens]
    exact (tableBody_returns found bare fieldsRead closes steps).bind fun _ => ⟨_, rfl⟩

theorem found_tableCall {base : Expression} {list : List Field} {tableSpan span : Span}
    (baseFound : Found base) (found : ∀ each ∈ list, FoundField each)
    (bare : ∀ each ∈ list, each.isComment = false) :
    Found (.tableCall base list tableSpan span) := by
  refine .of_suffixed rfl rfl fun {tokens cursor rest} reads steps => ?_
  cases reads with
  | tableCall callee opens fieldsRead closes =>
    intro value after more
    rw [List.append_assoc, List.cons_append] at steps
    obtain ⟨afterBase, baseSteps, steps⟩ := steps.split
    have follows := steps.kind_eq.trans opens
    obtain ⟨inside, openingStep, steps⟩ := steps.split_cons
    obtain ⟨_, next⟩ := openingStep.next?_eq
    refine baseFound.callee callee baseSteps (by rw [follows]; rfl) ?_ more
    rw [call, next]
    dsimp only
    rw [opens]
    exact (tableBody_returns found bare fieldsRead closes steps).bind fun _ => ⟨_, rfl⟩

end LuaStyle.Grammar
