/-
This file proves that the parser groups operators by their powers, and only so.

Reading an expression goes from operand to operator and back. An operator is taken if it binds
tighter than the limit, and its right operand is read with its own right power for a limit, so
operators end up where the two powers send them. In one direction this is an invariant of the loop
over operators: what has been read so far gives way to the operator that follows. In the other
direction a tree that stands as the powers ask for is written in operators and operands, and reading
it resumes behind each of them.
-/

import LuaStyle.Proofs.Completeness

namespace LuaStyle

/-! ### Expressions without operators on their edges -/

/-- The expression is an operator with its operands. -/
def Expression.isOperation : Expression → Bool
  | binary .. | unary .. => true
  | _ => false

/-- What is no operation has no operator on its left edge. -/
theorem Expression.opensAbove_of_not_isOperation {expression : Expression}
    (operand : expression.isOperation = false) (limit : Nat) : expression.OpensAbove limit := by
  cases expression with
  | binary | unary => cases operand
  | _ => trivial

/-- What is no operation has no operator on its right edge. -/
theorem Expression.closesAt_of_not_isOperation {expression : Expression}
    (operand : expression.isOperation = false) (power : Nat) : expression.ClosesAt power := by
  cases expression with
  | binary | unary => cases operand
  | _ => trivial

theorem Expression.isOperation_of_isPrefix {expression : Expression}
    (isPrefix : expression.isPrefix) : expression.isOperation = false := by
  cases expression with
  | binary | unary => cases isPrefix
  | _ => rfl

namespace Grammar

/-! ### What the parser returns -/

/-- No operator that binds tighter than the limit follows. -/
def EndsAt (limit : Nat) (rest : Cursor) : Prop :=
  ∀ operator, BinaryOperator.ofToken? rest.kind = some operator → operator.leftPower ≤ limit

/-- The expression gives way to the operator that follows, if one does. -/
def GivesWay (expression : Expression) (rest : Cursor) : Prop :=
  ∀ operator, BinaryOperator.ofToken? rest.kind = some operator →
    expression.ClosesAt operator.leftPower

/-- The expression stands as the powers of its operators ask for, with the limit before it and what
follows behind it. -/
structure Climbs (limit : Nat) (expression : Expression) (rest : Cursor) : Prop where
  /-- The operators inside stand as they should. -/
  grouped : Node.AreGrouped expression.nodes
  /-- The operators on the left edge bind tighter than the limit. -/
  opens : expression.OpensAbove limit
  /-- The operator that follows, if one does, does not. -/
  ends : EndsAt limit rest

/-- But for powers, no operator goes on inside the operand of a unary one. -/
theorem BinaryOperator.leftPower_le_bindingPower {operator : BinaryOperator}
    (low : operator.leftPower ≤ 9) : operator.leftPower ≤ UnaryOperator.bindingPower := by
  revert low
  cases operator <;> decide

theorem BinaryOperator.rightPower_le_nine (operator : BinaryOperator) :
    operator.rightPower ≤ 9 := by
  cases operator <;> decide

/-- What is read with a limit gives way to what follows. -/
theorem Climbs.givesWay {limit : Nat} {expression : Expression} {rest : Cursor}
    (climbs : Climbs limit expression rest) (low : limit ≤ 9) {operator : BinaryOperator}
    (follows : BinaryOperator.ofToken? rest.kind = some operator) :
    operator.leftPower ≤ limit ∧ expression.ClosesAt operator.leftPower := by
  have below := climbs.ends operator follows
  have bounded := BinaryOperator.leftPower_le_bindingPower (Nat.le_trans below low)
  exact ⟨below, expression.closesAt_of_opensAbove bounded below climbs.grouped climbs.opens⟩

/-! ### Answers -/

/-- The answer, if there is one, satisfies the condition. -/
def Gives {Result : Type} (answer : Except ParseError Result) (holds : Result → Prop) : Prop :=
  ∀ result, answer = .ok result → holds result

namespace Gives

variable {First Second : Type} {answer : Except ParseError First}

theorem ok {result : First} {holds : First → Prop} (given : holds result) :
    Gives (.ok result) holds := by
  intro _ same
  cases same
  exact given

theorem error {failure : ParseError} {holds : First → Prop} : Gives (.error failure) holds :=
  fun _ same => nomatch same

theorem any : Gives answer fun _ => True :=
  fun _ _ => trivial

theorem bind {next : First → Except ParseError Second} {holds : First → Prop}
    {further : Second → Prop} (first : Gives answer holds)
    (second : ∀ result, holds result → Gives (next result) further) :
    Gives (answer >>= next) further := by
  intro result found
  obtain ⟨value, firstFound, found⟩ := bind_eq_ok.1 found
  exact second value (first value firstFound) result found

/-- What goes on from an answer of the parser may be told for its parts. -/
theorem andThen {bound : Nat} {next : Parsed bound First → Except ParseError Second}
    {answer : Except ParseError (Parsed bound First)} {holds : Parsed bound First → Prop}
    {further : Second → Prop} (first : Gives answer holds)
    (second : ∀ value rest within, holds ⟨value, rest, within⟩ →
      Gives (next ⟨value, rest, within⟩) further) :
    Gives (answer >>= next) further :=
  first.bind fun result => second result.value result.rest result.within

end Gives

/-- The operators in the result stand as they should. -/
abbrev Groups {bound : Nat} {Value : Type} (answer : Except ParseError (Parsed bound Value))
    (nodes : Value → List Node) : Prop :=
  Gives answer fun parsed => Node.AreGrouped (nodes parsed.value)

/-- All functions of the grammar that are called behind a token group operators by their powers when
they start from this cursor. -/
structure Climbing (cursor : Cursor) : Prop where
  call : ∀ base : Expression, Node.AreGrouped base.nodes →
    Groups (Grammar.call base cursor) Expression.nodes
  suffixes : ∀ base : Expression, Node.AreGrouped base.nodes →
    Groups (Grammar.suffixes base cursor) Expression.nodes
  suffixed : Groups (Grammar.suffixed cursor) Expression.nodes
  operators : ∀ (limit : Nat) (left : Expression), Node.AreGrouped left.nodes →
    left.OpensAbove limit → GivesWay left cursor →
      Gives (Grammar.operators limit left cursor) fun parsed =>
        Climbs limit parsed.value parsed.rest
  expression : ∀ limit : Nat, Gives (Grammar.expression limit cursor) fun parsed =>
    Climbs limit parsed.value parsed.rest
  expressions : Groups (Grammar.expressions cursor) Expression.nodesOfAll
  fields : Groups (Grammar.fields cursor) Field.nodesOfAll
  tableBody : Groups (Grammar.tableBody cursor) fun value => Field.nodesOfAll value.1
  callArguments : Groups (Grammar.callArguments cursor) fun value => Expression.nodesOfAll value.1
  returnValues : ∀ keyword : Token, Groups (Grammar.returnValues keyword cursor) Statement.nodes
  optionalStep : Groups (Grammar.optionalStep cursor) Expression.nodesOfOptional
  functionBody : Groups (Grammar.functionBody cursor) fun value => Statement.nodesOfAll value.2
  guardedClause : ∀ (word : ClauseWord) (keyword : Token),
    Groups (Grammar.guardedClause word keyword cursor) Clause.nodes
  furtherClauses : Groups (Grammar.furtherClauses cursor) Clause.nodesOfAll
  localDeclaration : ∀ keyword : Token,
    Groups (Grammar.localDeclaration keyword cursor) Statement.nodes
  forLoop : ∀ keyword : Token, Groups (Grammar.forLoop keyword cursor) Statement.nodes
  assignmentTargets : ∀ first : Expression, Node.AreGrouped first.nodes →
    Groups (Grammar.assignmentTargets first cursor) Expression.nodesOfAll
  block : Groups (Grammar.block cursor) Statement.nodesOfAll

/-- All cursors with fewer tokens group operators by their powers. -/
def ClimbingBelow (cursor : Cursor) : Prop :=
  ∀ further : Cursor, further.size < cursor.size → Climbing further

section

variable {cursor : Cursor}

/-- In an expression in parentheses, the parser builds nodes that are grouped as the powers ask for.
-/
theorem groups_primary (below : ClimbingBelow cursor) :
    Groups (primary cursor) Expression.nodes := by
  rw [primary]
  split
  · exact .error
  next token rest within next =>
  split
  · exact .ok (List.forall_mem_singleton.2 trivial)
  · refine ((below _ within).expression 0).andThen fun inner afterInner shorter climbs => ?_
    exact .bind .any fun _ _ => .ok (Node.areGrouped_cons.2 ⟨trivial, climbs.grouped⟩)
  · exact .error

/-- The arguments of a call are grouped. -/
theorem groups_call (below : ClimbingBelow cursor) {base : Expression}
    (grouped : Node.AreGrouped base.nodes) : Groups (call base cursor) Expression.nodes := by
  rw [call]
  split
  · exact .error
  next token afterToken within next =>
  split
  · exact .bind .any fun _ _ => .ok (Node.areGrouped_cons.2 ⟨trivial, grouped⟩)
  · exact .bind .any fun _ _ => .ok (Node.areGrouped_cons.2 ⟨trivial, grouped⟩)
  · exact (below _ within).tableBody.bind fun _ fields =>
      .ok (Node.areGrouped_cons.2 ⟨trivial, Node.areGrouped_append.2 ⟨grouped, fields⟩⟩)
  · exact (below _ within).callArguments.bind fun _ arguments =>
      .ok (Node.areGrouped_cons.2 ⟨trivial, Node.areGrouped_append.2 ⟨grouped, arguments⟩⟩)
  · exact .error

/-- Behind a grouped base, selections and calls are grouped. -/
theorem groups_suffixes (below : ClimbingBelow cursor) {base : Expression}
    (grouped : Node.AreGrouped base.nodes) : Groups (suffixes base cursor) Expression.nodes := by
  rw [suffixes]
  split
  · exact .ok grouped
  next token afterToken within next =>
  split
  · refine .andThen .any fun name afterName shorter _ => ?_
    have selected : Node.AreGrouped (member base .dot name).nodes :=
      Node.areGrouped_cons.2 ⟨trivial, grouped⟩
    exact ((below _ (by omega)).suffixes _ selected).bind fun _ whole => .ok whole
  · refine .andThen .any fun name afterName shorter _ => ?_
    have selected : Node.AreGrouped (member base .colon name).nodes :=
      Node.areGrouped_cons.2 ⟨trivial, grouped⟩
    refine ((below _ (by omega)).call _ selected).andThen fun callee afterCall _ called => ?_
    exact ((below _ (by omega)).suffixes _ called).bind fun _ whole => .ok whole
  · refine ((below _ within).expression 0).andThen fun key afterKey _ climbs => ?_
    refine .andThen .any fun closing afterClosing _ _ => ?_
    have selected : Node.AreGrouped
        (Expression.index base key ⟨base.span.start, closing.stop⟩).nodes :=
      Node.areGrouped_cons.2 ⟨trivial, Node.areGrouped_append.2 ⟨grouped, climbs.grouped⟩⟩
    exact ((below _ (by omega)).suffixes _ selected).bind fun _ whole => .ok whole
  iterate 4
    refine (groups_call below grouped).andThen fun callee afterCall _ called => ?_
    exact ((below _ (by omega)).suffixes _ called).bind fun _ whole => .ok whole
  · exact .ok grouped

theorem groups_suffixed (below : ClimbingBelow cursor) :
    Groups (suffixed cursor) Expression.nodes := by
  rw [suffixed]
  refine (groups_primary below).andThen fun base afterBase shorter grouped => ?_
  exact ((below _ shorter).suffixes _ grouped).bind fun _ whole => .ok whole

/-- What members are selected from has no operators on its edges. -/
theorem suffixed_givesWay (below : ClimbingBelow cursor) :
    Gives (suffixed cursor) fun parsed => Node.AreGrouped parsed.value.nodes ∧
      (∀ limit, parsed.value.OpensAbove limit) ∧ GivesWay parsed.value parsed.rest := by
  intro parsed found
  obtain ⟨-, -, -, isPrefix⟩ := (accounted cursor).suffixed _ found
  have operand := Expression.isOperation_of_isPrefix isPrefix
  exact ⟨groups_suffixed below _ found, Expression.opensAbove_of_not_isOperation operand,
    fun _ _ => Expression.closesAt_of_not_isOperation operand _⟩

/-- An operand gives way to every operator, or has been read up to one that it gives way to. -/
theorem operand_givesWay (below : ClimbingBelow cursor) :
    Gives (operand cursor) fun parsed => Node.AreGrouped parsed.value.nodes ∧
      (∀ limit, parsed.value.OpensAbove limit) ∧ GivesWay parsed.value parsed.rest := by
  rw [operand]
  split
  · exact suffixed_givesWay below
  next token afterToken within next =>
  split
  · refine ((below _ within).expression _).andThen fun argument rest _ climbs => .ok ?_
    refine ⟨Node.areGrouped_cons.2 ⟨climbs.opens, climbs.grouped⟩, fun _ => trivial, ?_⟩
    exact fun operator follows => climbs.givesWay (by decide) follows
  have alone {constant : Literal} {rest : Cursor} :
      Node.AreGrouped (Expression.literal constant).nodes ∧
        (∀ limit, (Expression.literal constant).OpensAbove limit) ∧
          GivesWay (.literal constant) rest :=
    ⟨Node.areGrouped_cons.2 ⟨trivial, List.forall_mem_nil _⟩, fun _ => trivial, fun _ _ => trivial⟩
  split
  · exact .ok alone
  · exact .ok alone
  · exact .ok alone
  · exact .ok alone
  · exact .bind .any fun _ _ => .ok alone
  · exact .bind .any fun _ _ => .ok alone
  · exact .bind .any fun _ _ => .ok alone
  · exact (below _ within).tableBody.bind fun _ grouped => .ok
      ⟨Node.areGrouped_cons.2 ⟨trivial, grouped⟩, fun _ => trivial, fun _ _ => trivial⟩
  · exact (below _ within).functionBody.bind fun _ grouped => .ok
      ⟨Node.areGrouped_cons.2 ⟨trivial, grouped⟩, fun _ => trivial, fun _ _ => trivial⟩
  · exact suffixed_givesWay below

/-- What has been read gives way to the operator that follows, and so the loop over operators leaves
every operator where its powers send it. -/
theorem climbs_operators (below : ClimbingBelow cursor) {limit : Nat} {left : Expression}
    (grouped : Node.AreGrouped left.nodes) (opens : left.OpensAbove limit)
    (givesWay : GivesWay left cursor) :
    Gives (operators limit left cursor) fun parsed => Climbs limit parsed.value parsed.rest := by
  rw [operators]
  split
  next next =>
    refine .ok ⟨grouped, opens, fun operator follows => ?_⟩
    rw [Cursor.kind_of_next?_eq_none next] at follows
    cases follows
  next token afterOperator within next =>
  have kind := Cursor.kind_of_next? next
  split
  next none =>
    refine .ok ⟨grouped, opens, fun operator follows => ?_⟩
    rw [kind, none] at follows
    cases follows
  next operator same =>
  split
  next low =>
    refine .ok ⟨grouped, opens, fun other follows => ?_⟩
    rw [kind, same] at follows
    cases follows
    exact low
  next tighter =>
    refine ((below _ (by omega)).expression operator.rightPower).andThen
      fun right afterRight _ climbs => ?_
    have joined : Node.AreGrouped
        (Expression.binary operator left right (left.span.merge right.span)).nodes :=
      Node.areGrouped_cons.2 ⟨⟨givesWay operator (kind ▸ same), climbs.opens⟩,
        Node.areGrouped_append.2 ⟨grouped, climbs.grouped⟩⟩
    refine ((below afterRight (by omega)).operators limit _ joined ⟨Nat.lt_of_not_le tighter, opens⟩
      fun other follows =>
        climbs.givesWay (BinaryOperator.rightPower_le_nine operator) follows).bind
      fun _ whole => ?_
    exact .ok whole

/-- An expression that is read above a limit climbs above it. -/
theorem climbs_expression (below : ClimbingBelow cursor) (limit : Nat) :
    Gives (expression limit cursor) fun parsed => Climbs limit parsed.value parsed.rest := by
  rw [expression]
  refine (operand_givesWay below).andThen
    fun left afterLeft shorter held => ?_
  obtain ⟨grouped, opens, givesWay⟩ := held
  exact ((below _ shorter).operators limit _ grouped (opens limit) givesWay).bind fun _ whole =>
    .ok whole

/-- A list of expressions is grouped. -/
theorem groups_expressions (below : ClimbingBelow cursor) :
    Groups (expressions cursor) Expression.nodesOfAll := by
  rw [expressions]
  refine (climbs_expression below 0).andThen fun first afterFirst shorter climbs => ?_
  dsimp only
  split
  · exact .ok (Node.areGrouped_append.2 ⟨climbs.grouped, List.forall_mem_nil _⟩)
  next mark afterComma shorterStill accepted =>
    exact (below _ (by omega)).expressions.bind fun _ others =>
      .ok (Node.areGrouped_append.2 ⟨climbs.grouped, others⟩)

theorem groups_field (below : ClimbingBelow cursor) : Groups (field cursor) Field.nodes := by
  rw [field]
  split
  next opening afterOpening within accepted =>
    refine ((below _ within).expression 0).andThen fun key afterKey _ keyClimbs => ?_
    refine .andThen .any fun _ afterClosing _ _ => .andThen .any fun _ afterEqual _ _ => ?_
    exact ((below _ (by omega)).expression 0).bind fun _ valueClimbs => .ok (Node.areGrouped_cons.2
      ⟨trivial, Node.areGrouped_append.2 ⟨keyClimbs.grouped, valueClimbs.grouped⟩⟩)
  split
  · refine .andThen .any fun _ afterName _ _ => .andThen .any fun _ afterEqual _ _ => ?_
    exact ((below _ (by omega)).expression 0).bind fun _ climbs =>
      .ok (Node.areGrouped_cons.2 ⟨trivial, climbs.grouped⟩)
  · exact (climbs_expression below 0).bind fun _ climbs =>
      .ok (Node.areGrouped_cons.2 ⟨trivial, climbs.grouped⟩)

theorem groups_fields (below : ClimbingBelow cursor) :
    Groups (fields cursor) Field.nodesOfAll := by
  rw [fields]
  split
  · exact .ok (List.forall_mem_nil _)
  refine (groups_field below).andThen fun first afterFirst shorter grouped => ?_
  dsimp only
  split
  · exact .ok (Node.areGrouped_append.2 ⟨grouped, List.forall_mem_nil _⟩)
  next mark afterSeparator shorterStill separated =>
    exact (below _ (by omega)).fields.bind fun _ others =>
      .ok (Node.areGrouped_append.2 ⟨grouped, others⟩)

/-- The fields of a table are grouped. -/
theorem groups_tableBody (below : ClimbingBelow cursor) :
    Groups (tableBody cursor) fun value => Field.nodesOfAll value.1 := by
  rw [tableBody]
  exact (groups_fields below).bind fun _ grouped => .bind .any fun _ _ => .ok grouped

theorem groups_callArguments (below : ClimbingBelow cursor) :
    Groups (callArguments cursor) fun value => Expression.nodesOfAll value.1 := by
  rw [callArguments]
  split
  · exact .ok (List.forall_mem_nil _)
  · exact (groups_expressions below).bind fun _ grouped => .bind .any fun _ _ => .ok grouped

theorem groups_optionalExpressions (below : ClimbingBelow cursor) :
    Groups (optionalExpressions cursor) Expression.nodesOfAll := by
  rw [optionalExpressions]
  split
  · exact .ok (List.forall_mem_nil _)
  · exact (groups_expressions below).bind fun _ grouped => .ok grouped

theorem groups_returnValues (below : ClimbingBelow cursor) (keyword : Token) :
    Groups (returnValues keyword cursor) Statement.nodes := by
  rw [returnValues]
  refine (groups_optionalExpressions below).andThen fun values afterValues _ grouped => ?_
  dsimp only
  split
  all_goals exact .ok (Node.areGrouped_cons.2 ⟨trivial, grouped⟩)

theorem groups_optionalStep (below : ClimbingBelow cursor) :
    Groups (optionalStep cursor) Expression.nodesOfOptional := by
  rw [optionalStep]
  split
  · exact .ok (List.forall_mem_nil _)
  next mark afterComma within accepted =>
    exact ((below _ within).expression 0).bind fun _ climbs => .ok climbs.grouped

/-- The block of a function is grouped. -/
theorem groups_functionBody (below : ClimbingBelow cursor) :
    Groups (functionBody cursor) fun value => Statement.nodesOfAll value.2 := by
  rw [functionBody]
  refine .andThen .any fun _ afterParameters shorter _ => ?_
  exact (below _ shorter).block.bind fun _ grouped => .bind .any fun _ _ => .ok grouped

theorem groups_guardedClause (below : ClimbingBelow cursor) (word : ClauseWord) (keyword : Token) :
    Groups (guardedClause word keyword cursor) Clause.nodes := by
  rw [guardedClause]
  refine (climbs_expression below 0).andThen fun condition afterCondition shorter climbs => ?_
  refine .andThen .any fun _ afterThen _ _ => ?_
  exact (below _ (by omega)).block.bind fun _ grouped => .ok (Node.areGrouped_cons.2
    ⟨trivial, Node.areGrouped_append.2 ⟨climbs.grouped, grouped⟩⟩)

/-- The clauses behind the first are grouped. -/
theorem groups_furtherClauses (below : ClimbingBelow cursor) :
    Groups (furtherClauses cursor) Clause.nodesOfAll := by
  rw [furtherClauses]
  split
  next keyword afterKeyword within accepted =>
    refine ((below _ within).guardedClause _ _).andThen fun clause afterClause _ grouped => ?_
    exact (below _ (by omega)).furtherClauses.bind fun _ others =>
      .ok (Node.areGrouped_append.2 ⟨grouped, others⟩)
  split
  next keyword afterKeyword within accepted =>
    exact (below _ within).block.bind fun _ grouped => .ok (Node.areGrouped_append.2
      ⟨Node.areGrouped_cons.2 ⟨trivial, grouped⟩, List.forall_mem_nil _⟩)
  · exact .ok (List.forall_mem_nil _)

theorem groups_localDeclaration (below : ClimbingBelow cursor) (keyword : Token) :
    Groups (localDeclaration keyword cursor) Statement.nodes := by
  rw [localDeclaration]
  split
  · refine .andThen .any fun _ afterName _ _ => ?_
    exact (below _ (by omega)).functionBody.bind fun _ grouped =>
      .ok (Node.areGrouped_cons.2 ⟨trivial, grouped⟩)
  · refine .andThen .any fun _ afterNames _ _ => ?_
    dsimp only
    split
    · exact (below _ (by omega)).expressions.bind fun _ grouped =>
        .ok (Node.areGrouped_cons.2 ⟨trivial, grouped⟩)
    · exact .ok (Node.areGrouped_cons.2 ⟨trivial, List.forall_mem_nil _⟩)

/-- A loop is grouped. -/
theorem groups_forLoop (below : ClimbingBelow cursor) (keyword : Token) :
    Groups (forLoop keyword cursor) Statement.nodes := by
  rw [forLoop]
  refine .andThen .any fun _ afterName _ _ => ?_
  dsimp only
  split
  · refine ((below _ (by omega)).expression 0).andThen fun first afterFirst _ firstClimbs => ?_
    dsimp only
    refine .andThen .any fun _ afterComma _ _ => ?_
    refine ((below afterComma (by omega)).expression 0).andThen
      fun last afterLast _ lastClimbs => ?_
    refine ((below afterLast (by omega)).optionalStep).andThen
      fun step afterStep _ stepGrouped => ?_
    dsimp only
    refine .andThen .any fun _ afterDo _ _ => ?_
    refine ((below afterDo (by omega)).block).andThen fun body afterBody _ bodyGrouped => ?_
    have bounds := Node.areGrouped_append.2 ⟨firstClimbs.grouped, lastClimbs.grouped⟩
    exact .bind .any fun _ _ => .ok (Node.areGrouped_cons.2 ⟨trivial, Node.areGrouped_append.2
      ⟨Node.areGrouped_append.2 ⟨bounds, stepGrouped⟩, bodyGrouped⟩⟩)
  · refine .andThen .any fun _ afterNames _ _ => ?_
    dsimp only
    refine .andThen .any fun _ afterIn _ _ => ?_
    refine ((below afterIn (by omega)).expressions).andThen
      fun iterators afterIterators _ grouped => ?_
    dsimp only
    refine .andThen .any fun _ afterDo _ _ => ?_
    refine ((below afterDo (by omega)).block).andThen fun body afterBody _ bodyGrouped => ?_
    exact .bind .any fun _ _ => .ok (Node.areGrouped_cons.2
      ⟨trivial, Node.areGrouped_append.2 ⟨grouped, bodyGrouped⟩⟩)

theorem groups_assignmentTargets (below : ClimbingBelow cursor) {first : Expression}
    (grouped : Node.AreGrouped first.nodes) :
    Groups (assignmentTargets first cursor) Expression.nodesOfAll := by
  rw [assignmentTargets]
  split
  · split
    · exact .ok (Node.areGrouped_append.2 ⟨grouped, List.forall_mem_nil _⟩)
    next mark afterComma within accepted =>
      refine ((below _ within).suffixed).andThen fun second afterSecond _ secondGrouped => ?_
      exact ((below _ (by omega)).assignmentTargets _ secondGrouped).bind fun _ others =>
        .ok (Node.areGrouped_append.2 ⟨grouped, others⟩)
  · exact .error

/-- A statement that starts with an expression is grouped. -/
theorem groups_assignmentOrCall (below : ClimbingBelow cursor) :
    Groups (assignmentOrCall cursor) Statement.nodes := by
  rw [assignmentOrCall]
  refine (groups_suffixed below).andThen fun first afterFirst shorter grouped => ?_
  dsimp only
  split
  · refine ((below _ shorter).assignmentTargets _ grouped).andThen
      fun targets afterTargets _ targetsGrouped => ?_
    dsimp only
    refine .andThen .any fun _ afterEqual _ _ => ?_
    exact (below afterEqual (by omega)).expressions.bind fun _ valuesGrouped => .ok
      (Node.areGrouped_cons.2
      ⟨trivial, Node.areGrouped_append.2 ⟨targetsGrouped, valuesGrouped⟩⟩)
  split
  · exact .ok (Node.areGrouped_cons.2 ⟨trivial, grouped⟩)
  · exact .error

/-- A statement is grouped. -/
theorem groups_statement (below : ClimbingBelow cursor) :
    Groups (statement cursor) Statement.nodes := by
  rw [statement]
  split
  · exact .error
  next token rest within next =>
  split
  · exact .ok (Node.areGrouped_cons.2 ⟨trivial, List.forall_mem_nil _⟩)
  · exact .bind .any fun _ _ => .bind .any fun _ _ =>
      .ok (Node.areGrouped_cons.2 ⟨trivial, List.forall_mem_nil _⟩)
  · exact (below _ within).block.bind fun _ grouped => .bind .any fun _ _ =>
      .ok (Node.areGrouped_cons.2 ⟨trivial, grouped⟩)
  · exact ((below _ within).forLoop token).bind fun _ grouped => .ok grouped
  · refine .andThen .any fun _ afterName _ _ => ?_
    exact (below _ (by omega)).functionBody.bind fun _ grouped =>
      .ok (Node.areGrouped_cons.2 ⟨trivial, grouped⟩)
  · exact .bind .any fun _ _ => .ok (Node.areGrouped_cons.2 ⟨trivial, List.forall_mem_nil _⟩)
  · refine ((below _ within).guardedClause _ _).andThen fun _ afterFirst _ grouped => ?_
    refine ((below _ (by omega)).furtherClauses).bind fun _ others => .bind .any fun _ _ => ?_
    exact .ok (Node.areGrouped_cons.2 ⟨trivial, Node.areGrouped_append.2 ⟨grouped, others⟩⟩)
  · exact ((below _ within).localDeclaration token).bind fun _ grouped => .ok grouped
  · refine (below _ within).block.andThen fun _ afterBody _ grouped => ?_
    refine .andThen .any fun _ afterUntil _ _ => ?_
    exact ((below _ (by omega)).expression 0).bind fun _ climbs => .ok (Node.areGrouped_cons.2
      ⟨trivial, Node.areGrouped_append.2 ⟨grouped, climbs.grouped⟩⟩)
  · refine ((below _ within).expression 0).andThen fun _ afterCondition _ climbs => ?_
    refine .andThen .any fun _ afterDo _ _ => ?_
    refine (below _ (by omega)).block.bind fun _ grouped => .bind .any fun _ _ => ?_
    exact .ok (Node.areGrouped_cons.2
      ⟨trivial, Node.areGrouped_append.2 ⟨climbs.grouped, grouped⟩⟩)
  · exact groups_assignmentOrCall below
  · exact groups_assignmentOrCall below
  · exact .error

/-- A block is grouped. -/
theorem groups_block (below : ClimbingBelow cursor) :
    Groups (block cursor) Statement.nodesOfAll := by
  rw [block]
  split
  · exact .ok (List.forall_mem_nil _)
  split
  · exact (below _ (by omega)).block.bind fun _ grouped => .ok grouped
  split
  · refine ((below _ (by omega)).returnValues _).andThen fun _ afterReturn _ grouped => ?_
    dsimp only
    split
    · exact .ok (Node.areGrouped_append.2 ⟨grouped, List.forall_mem_nil _⟩)
    · exact .error
  · refine (groups_statement below).andThen fun _ afterFirst _ grouped => ?_
    exact (below _ (by omega)).block.bind fun _ others =>
      .ok (Node.areGrouped_append.2 ⟨grouped, others⟩)

end

/-- Every cursor groups operators by their powers, by induction on what remains. -/
theorem climbing (cursor : Cursor) : Climbing cursor := by
  induction size : cursor.size using Nat.strongRecOn generalizing cursor with
  | ind bound inductionHypothesis =>
    have below : ClimbingBelow cursor :=
      fun further shorter => inductionHypothesis _ (size ▸ shorter) further rfl
    exact {
      call := fun _ grouped => groups_call below grouped
      suffixes := fun _ grouped => groups_suffixes below grouped
      suffixed := groups_suffixed below
      operators := fun _ _ grouped opens givesWay => climbs_operators below grouped opens givesWay
      expression := climbs_expression below
      expressions := groups_expressions below
      fields := groups_fields below
      tableBody := groups_tableBody below
      callArguments := groups_callArguments below
      returnValues := groups_returnValues below
      optionalStep := groups_optionalStep below
      functionBody := groups_functionBody below
      guardedClause := groups_guardedClause below
      furtherClauses := groups_furtherClauses below
      localDeclaration := groups_localDeclaration below
      forLoop := groups_forLoop below
      assignmentTargets := fun _ grouped => groups_assignmentTargets below grouped
      block := groups_block below }

/-! ### Operators and operands -/

/-- The tokens from one cursor to the other are operands, as the parser reads them, with operators
in front of them and between them, and the expression is one of the trees over these. -/
inductive Operates : Expression → Cursor → Cursor → Prop
  | operand {expression cursor rest} :
    expression.isOperation = false → Returns (operand cursor) expression rest →
      Operates expression cursor rest
  | unary {operator argument mark cursor afterMark rest} :
    cursor.Steps [mark] afterMark → mark.kind = UnaryOperator.token operator →
      Operates argument afterMark rest →
      Operates (.unary operator argument ⟨mark.start, argument.span.stop⟩) cursor rest
  | binary {operator left right mark cursor afterLeft afterMark rest} :
    Operates left cursor afterLeft → afterLeft.Steps [mark] afterMark →
      mark.kind = BinaryOperator.token operator → Operates right afterMark rest →
      Operates (.binary operator left right (left.span.merge right.span)) cursor rest

/-- What is read from the cursor is a tree over operators and operands, whatever the limit. -/
structure Operating (cursor : Cursor) : Prop where
  expression : ∀ limit : Nat, Gives (Grammar.expression limit cursor) fun parsed =>
    Operates parsed.value cursor parsed.rest
  operators : ∀ (limit : Nat) (left : Expression) (start : Cursor), Operates left start cursor →
    Gives (Grammar.operators limit left cursor) fun parsed =>
      Operates parsed.value start parsed.rest

section

variable {cursor : Cursor} (below : ∀ further : Cursor, further.size < cursor.size →
  Operating further)

include below

/-- An operand operates on what it reads. -/
theorem operates_operand :
    Gives (operand cursor) fun parsed => Operates parsed.value cursor parsed.rest := by
  have parts : Gives (operand cursor) fun parsed => parsed.value.isOperation = false ∨
      Operates parsed.value cursor parsed.rest := by
    have suffixedParts :
        Gives (suffixed cursor) fun parsed => parsed.value.isOperation = false := by
      intro parsed found
      obtain ⟨-, -, -, isPrefix⟩ := (accounted cursor).suffixed _ found
      exact Expression.isOperation_of_isPrefix isPrefix
    rw [operand]
    split
    · exact fun parsed found => .inl (suffixedParts parsed found)
    next token afterToken within next =>
    split
    next operator same =>
      refine ((below _ within).expression _).andThen fun argument rest _ operates => .ok (.inr ?_)
      exact .unary (Cursor.Steps.of_next? next) (UnaryOperator.token_eq_of_ofToken? same) operates
    split
    · exact .ok (.inl rfl)
    · exact .ok (.inl rfl)
    · exact .ok (.inl rfl)
    · exact .ok (.inl rfl)
    · exact .bind .any fun _ _ => .ok (.inl rfl)
    · exact .bind .any fun _ _ => .ok (.inl rfl)
    · exact .bind .any fun _ _ => .ok (.inl rfl)
    · exact .bind .any fun _ _ => .ok (.inl rfl)
    · exact .bind .any fun _ _ => .ok (.inl rfl)
    · exact fun parsed found => .inl (suffixedParts parsed found)
  intro parsed found
  rcases parts parsed found with plain | operates
  · exact .operand plain ⟨_, found⟩
  · exact operates

/-- The loop over operators goes on with a tree over operators and operands, wherever the left
operand starts. -/
theorem operates_operators {limit : Nat} {left : Expression} {start : Cursor}
    (operates : Operates left start cursor) :
    Gives (operators limit left cursor) fun parsed => Operates parsed.value start parsed.rest := by
  rw [operators]
  split
  · exact .ok operates
  next token afterOperator within next =>
  split
  · exact .ok operates
  next operator same =>
  split
  · exact .ok operates
  · refine ((below _ (by omega)).expression _).andThen fun right afterRight _ behind => ?_
    have joined := Operates.binary operates (Cursor.Steps.of_next? next)
      (BinaryOperator.token_eq_of_ofToken? same) behind
    exact ((below afterRight (by omega)).operators limit _ start joined).bind fun _ whole =>
      .ok whole

end

/-- Every cursor is read as operators and operands, by induction on what remains. -/
theorem operating (cursor : Cursor) : Operating cursor := by
  induction size : cursor.size using Nat.strongRecOn generalizing cursor with
  | ind bound inductionHypothesis =>
    have below : ∀ further : Cursor, further.size < cursor.size → Operating further :=
      fun further shorter => inductionHypothesis _ (size ▸ shorter) further rfl
    refine ⟨fun limit => ?_, fun _ _ _ operates => operates_operators below operates⟩
    rw [expression]
    refine (operates_operand below).andThen fun left afterLeft shorter operates => ?_
    exact ((below _ shorter).operators limit _ cursor operates).bind fun _ whole => .ok whole

/-- Where the operators of a tree stand as their powers ask for, reading it as a left operand goes
on with the operators behind it. -/
theorem Operates.resumes {expression : Expression} {cursor rest : Cursor}
    (operates : Operates expression cursor rest) (grouped : Node.AreGrouped expression.nodes)
    {limit : Nat} (opens : expression.OpensAbove limit) (givesWay : GivesWay expression rest) :
    Resumes (Grammar.expression limit cursor) (operators limit expression rest) := by
  induction operates generalizing limit with
  | operand _ found => exact expression_resumes_of_operand found
  | @unary operator argument mark cursor afterMark rest markStep kind _ inductionHypothesis =>
    obtain ⟨argumentOpens, inner⟩ := Node.areGrouped_cons.1 grouped
    refine expression_resumes_of_operand (unary_returns markStep kind ?_)
    refine inductionHypothesis inner argumentOpens
      (fun other follows => (givesWay other follows).2) ?_
    exact operators_returns argument fun other follows => (givesWay other follows).1
  | @binary operator left right mark cursor afterLeft afterMark rest _ markStep kind _
      leftHypothesis rightHypothesis =>
    obtain ⟨⟨leftCloses, rightOpens⟩, inner⟩ := Node.areGrouped_cons.1 grouped
    obtain ⟨leftGrouped, rightGrouped⟩ := Node.areGrouped_append.1 inner
    intro value after more
    refine binary_resumes markStep kind opens.1 ?_ ?_ more
    · refine leftHypothesis leftGrouped opens.2 fun other follows => ?_
      rw [markStep.kind_eq, kind, ofToken?_binary] at follows
      cases follows
      exact leftCloses
    · refine rightHypothesis rightGrouped rightOpens
        (fun other follows => (givesWay other follows).2) ?_
      exact operators_returns right fun other follows => (givesWay other follows).1

end Grammar

end LuaStyle
