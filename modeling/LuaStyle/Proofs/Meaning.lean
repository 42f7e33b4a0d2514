/-
This file says what a syntax tree means, apart from how it is written.

Spans, raw texts and comments tell how a program is written, and so do parentheses, unless they are
around an expression that may have any number of values, where one pair of them counts and no more.
A call of one string or one table means the same with and without parentheses around the argument,
and a chain of one and the same operator among `+`, `*`, `and` and `or` means the same however it is
grouped. The meaning of a tree is the tree with all of that evened out; of a chain what counts are
its operands from left to right, and hanging them to the left is a way to write down the list.

The surface of a tree is the tree that its layout is read as, so the main fact here is that a tree
and its surface mean the same.
-/

import LuaStyle.Proofs.Surface
import LuaStyle.Proofs.Grammatical

namespace LuaStyle

/-- The recasting that forgets spans, raw texts and comments. -/
def Recasting.meaning : Recasting where
  span := fun _ => default
  comment := fun _ => none
  raw := fun _ => []

/-- How a chain of the operator is grouped does not matter. -/
def BinaryOperator.isChain : BinaryOperator → Bool
  | add | multiply | and | or => true
  | _ => false

namespace Expression

/-! ### Chains -/

/-- The operands of a chain of the operator, from left to right. -/
def operands (operator : BinaryOperator) : Expression → List Expression
  | binary inner left right span =>
    if inner = operator then left.operands operator ++ right.operands operator
    else [binary inner left right span]
  | operand => [operand]

/-- The chain of the operands. -/
def chain (operator : BinaryOperator) : List Expression → Expression
  | [] => default
  | first :: rest => rest.foldl (fun left right => .binary operator left right default) first

/-- Two operands joined by the operator, as a chain if the grouping does not matter. -/
def combine (operator : BinaryOperator) (left right : Expression) : Expression :=
  if operator.isChain then chain operator (left.operands operator ++ right.operands operator)
  else .binary operator left right default

/-- The expression is no chain of the operator. -/
def IsOperand (operator : BinaryOperator) (expression : Expression) : Prop :=
  expression.operands operator = [expression]

variable {operator : BinaryOperator}

/-- The operands of a chain are none of the same operator. -/
theorem isOperand_of_mem_operands : ∀ {expression operand : Expression},
    operand ∈ expression.operands operator → operand.IsOperand operator
  | .binary inner left right span, operand, isMember => by
    rw [operands] at isMember
    split at isMember
    · rcases List.mem_append.1 isMember with onLeft | onRight
      · exact isOperand_of_mem_operands onLeft
      · exact isOperand_of_mem_operands onRight
    · next other =>
      rw [List.mem_singleton.1 isMember, IsOperand, operands, if_neg other]
  | .unary .., _, same | .call .., _, same | .stringCall .., _, same | .tableCall .., _, same
  | .function .., _, same | .group .., _, same | .name _, _, same | .index .., _, same
  | .member .., _, same | .literal _, _, same | .table .., _, same => by
    rw [List.mem_singleton.1 same]
    rfl

/-- Every expression is a chain of at least one operand. -/
theorem operands_ne_nil : ∀ expression : Expression, expression.operands operator ≠ []
  | .binary inner left right span => by
    rw [operands]
    split
    · exact List.append_ne_nil_of_left_ne_nil (operands_ne_nil left) _
    · exact List.cons_ne_nil _ _
  | .literal _ | .name _ | .group .. | .unary .. | .call .. | .stringCall .. | .tableCall ..
  | .function .. | .index .. | .member .. | .table .. => List.cons_ne_nil _ _

/-- A chain that is built from the left has the operands it is built from. -/
theorem operands_foldl (rest : List Expression) (are : ∀ operand ∈ rest, operand.IsOperand operator)
    (first : Expression) :
    operands operator (rest.foldl (fun left right => .binary operator left right default) first) =
      first.operands operator ++ rest := by
  induction rest generalizing first with
  | nil => exact (List.append_nil _).symm
  | cons second others inductionHypothesis =>
    obtain ⟨isOperand, othersAre⟩ := List.forall_mem_cons.1 are
    rw [List.foldl_cons, inductionHypothesis othersAre, operands, if_pos rfl, isOperand,
      List.append_assoc, List.singleton_append]

/-- A chain shows what its operands are. -/
theorem operands_chain {list : List Expression} (nonempty : list ≠ [])
    (are : ∀ operand ∈ list, operand.IsOperand operator) :
    (chain operator list).operands operator = list := by
  cases list with
  | nil => exact absurd rfl nonempty
  | cons first rest =>
    obtain ⟨isOperand, othersAre⟩ := List.forall_mem_cons.1 are
    rw [chain, operands_foldl rest othersAre, isOperand, List.singleton_append]

/-- Two chains joined by their operator are the chain of the operands of both. -/
theorem operands_combine (isChain : operator.isChain) (left right : Expression) :
    (combine operator left right).operands operator =
      left.operands operator ++ right.operands operator := by
  rw [combine, if_pos isChain, operands_chain]
  · exact List.append_ne_nil_of_left_ne_nil (operands_ne_nil left) _
  · intro operand member
    rcases List.mem_append.1 member with onLeft | onRight
    · exact isOperand_of_mem_operands onLeft
    · exact isOperand_of_mem_operands onRight

/-- It does not matter how a chain is grouped. -/
theorem combine_assoc (isChain : operator.isChain) (left middle right : Expression) :
    combine operator (combine operator left middle) right =
      combine operator left (combine operator middle right) := by
  have outer : ∀ first second, combine operator first second =
      chain operator (first.operands operator ++ second.operands operator) :=
    fun first second => if_pos isChain
  rw [outer (combine operator left middle), outer left (combine operator middle right),
    operands_combine isChain, operands_combine isChain, List.append_assoc]

end Expression

/-- The operators whose chains mean the same however they are grouped are those that are regrouped.
-/
theorem BinaryOperator.isChain_eq_regroups (operator : BinaryOperator) :
    operator.isChain = operator.regroups := by
  cases operator <;> rfl

/-! ### The meaning of a tree -/

mutual

/-- What the expression means. -/
def Expression.meaning : Expression → Expression
  | .binary operator left right _ => .combine operator left.meaning right.meaning
  | .unary operator argument _ => .unary operator argument.meaning default
  | .call base arguments _ => .callOf base.meaning (Expression.meanings arguments)
  | .stringCall base argument _ => .stringCall base.meaning (argument.recast .meaning) default
  | .tableCall base fields _ _ => .tableCall base.meaning (Field.meanings fields) default default
  | .function head parameters body _ =>
    .function (head.recast .meaning) (parameters.map (Parameter.recast .meaning))
      (Statement.meanings body) default
  | .group inner _ => inner.meaning.inParens inner.isMultipleValue
  | .name identifier => .name (identifier.recast .meaning)
  | .index base key _ => .index base.meaning key.meaning default
  | .member base selector name _ => .member base.meaning selector (name.recast .meaning) default
  | .literal constant => .literal (constant.recast .meaning)
  | .table fields _ => .table (Field.meanings fields) default

/-- What the expressions mean. -/
def Expression.meanings : List Expression → List Expression
  | [] => []
  | expression :: rest => expression.meaning :: Expression.meanings rest

/-- What the expression that may be left out means. -/
def Expression.meaningOptional : Option Expression → Option Expression
  | none => none
  | some expression => some expression.meaning

/-- What the field means. A comment means nothing. -/
def Field.meaning : Field → List Field
  | .keyed key value _ => [.keyed key.meaning value.meaning default]
  | .named name value _ => [.named (name.recast .meaning) value.meaning default]
  | .positional value => [.positional value.meaning]
  | .comment _ => []

/-- What the fields mean. -/
def Field.meanings : List Field → List Field
  | [] => []
  | field :: rest => field.meaning ++ Field.meanings rest

/-- What the clause means. -/
def Clause.meaning : Clause → Clause
  | .guarded word condition body _ =>
    .guarded word condition.meaning (Statement.meanings body) default
  | .otherwise body _ => .otherwise (Statement.meanings body) default

/-- What the clauses mean. -/
def Clause.meanings : List Clause → List Clause
  | [] => []
  | clause :: rest => clause.meaning :: Clause.meanings rest

/-- What the statement means. A comment means nothing. -/
def Statement.meaning : Statement → List Statement
  | .assignment targets values _ =>
    [.assignment (Expression.meanings targets) (Expression.meanings values) default]
  | .breakLoop _ => [.breakLoop default]
  | .call expression _ => [.call expression.meaning default]
  | .comment _ => []
  | .doBlock body _ => [.doBlock (Statement.meanings body) default]
  | .genericFor declared iterators body _ =>
    [.genericFor (declared.map (Name.recast .meaning)) (Expression.meanings iterators)
      (Statement.meanings body) default]
  | .numericFor counter first last step body _ =>
    [.numericFor (counter.recast .meaning) first.meaning last.meaning
      (Expression.meaningOptional step) (Statement.meanings body) default]
  | .function head parameters body _ =>
    [.function (head.recast .meaning) (parameters.map (Parameter.recast .meaning))
      (Statement.meanings body) default]
  | .goto target _ => [.goto (target.recast .meaning) default]
  | .ifElse clauses _ => [.ifElse (Clause.meanings clauses) default]
  | .label name _ => [.label (name.recast .meaning) default]
  | .localVariables declared values _ =>
    [.localVariables (declared.map (Name.recast .meaning)) (Expression.meanings values) default]
  | .repeatUntil body condition _ =>
    [.repeatUntil (Statement.meanings body) condition.meaning default]
  | .returnValues values _ => [.returnValues (Expression.meanings values) default]
  | .whileLoop condition body _ =>
    [.whileLoop condition.meaning (Statement.meanings body) default]

/-- What the statements mean. -/
def Statement.meanings : List Statement → List Statement
  | [] => []
  | statement :: rest => statement.meaning ++ Statement.meanings rest

end

/-- What a chunk means. -/
def Chunk.meaning (chunk : Chunk) : List Statement :=
  Statement.meanings chunk.body

theorem Field.meanings_append (first second : List Field) :
    Field.meanings (first ++ second) = Field.meanings first ++ Field.meanings second := by
  induction first with
  | nil => rfl
  | cons field rest inductionHypothesis =>
    rw [List.cons_append, Field.meanings, inductionHypothesis, Field.meanings, List.append_assoc]

/-- What a block means is what its parts mean, one behind the other. -/
theorem Statement.meanings_append (first second : List Statement) :
    Statement.meanings (first ++ second) =
      Statement.meanings first ++ Statement.meanings second := by
  induction first with
  | nil => rfl
  | cons statement rest inductionHypothesis =>
    rw [List.cons_append, Statement.meanings, inductionHypothesis, Statement.meanings,
      List.append_assoc]

/-! ### Recasting -/

section

variable (recasting : Recasting)

/-- Recasting does not change whether an expression stands for several values. -/
theorem Expression.isMultipleValue_recast (expression : Expression) :
    (expression.recast recasting).isMultipleValue = expression.isMultipleValue := by
  cases expression with
  | literal constant =>
    obtain ⟨value, raw, span⟩ := constant
    cases value <;> rfl
  | _ => rfl

theorem Name.recast_recast_meaning (name : Name) :
    (name.recast recasting).recast .meaning = name.recast .meaning := rfl

theorem Name.map_recast_recast_meaning (names : List Name) :
    (names.map (Name.recast recasting)).map (Name.recast .meaning) =
      names.map (Name.recast .meaning) :=
  List.map_map

theorem Parameter.map_recast_recast_meaning (parameters : List Parameter) :
    (parameters.map (Parameter.recast recasting)).map (Parameter.recast .meaning) =
      parameters.map (Parameter.recast .meaning) := by
  rw [List.map_map]
  refine List.map_congr_left fun parameter _ => ?_
  cases parameter <;> rfl

theorem FunctionName.recast_recast_meaning (name : FunctionName) :
    (name.recast recasting).recast .meaning = name.recast .meaning := by
  obtain ⟨path, method, span⟩ := name
  simp only [FunctionName.recast, Name.map_recast_recast_meaning, Option.map_map,
    FunctionName.mk.injEq, true_and]
  exact ⟨rfl, rfl⟩

/-- Nothing that recasting changes in the head of a function matters for its meaning. -/
theorem FunctionHead.recast_recast_meaning (head : FunctionHead) :
    (head.recast recasting).recast .meaning = head.recast .meaning := by
  obtain ⟨_ | name, isLocal⟩ := head
  · rfl
  · exact congrArg (fun name => FunctionHead.mk (some name) isLocal)
      (name.recast_recast_meaning recasting)

mutual

/-- Recasting does not change what an expression means. -/
theorem Expression.meaning_recast : ∀ expression : Expression,
    (expression.recast recasting).meaning = expression.meaning
  | .binary operator left right _ => by
    rw [Expression.recast, Expression.meaning, left.meaning_recast, right.meaning_recast,
      Expression.meaning]
  | .unary operator argument _ => by
    rw [Expression.recast, Expression.meaning, argument.meaning_recast, Expression.meaning]
  | .call base arguments _ => by
    rw [Expression.recast, Expression.meaning, base.meaning_recast,
      Expression.meanings_recastAll arguments, Expression.meaning]
  | .stringCall base argument _ => by
    rw [Expression.recast, Expression.meaning, base.meaning_recast, Expression.meaning]
    rfl
  | .tableCall base fields _ _ => by
    rw [Expression.recast, Expression.meaning, base.meaning_recast,
      Field.meanings_recastAll fields, Expression.meaning]
  | .function head parameters body _ => by
    rw [Expression.recast, Expression.meaning, FunctionHead.recast_recast_meaning,
      Parameter.map_recast_recast_meaning, Statement.meanings_recastAll body, Expression.meaning]
  | .group inner _ => by
    rw [Expression.recast, Expression.meaning, inner.meaning_recast,
      Expression.isMultipleValue_recast, Expression.meaning]
  | .name identifier => rfl
  | .index base key _ => by
    rw [Expression.recast, Expression.meaning, base.meaning_recast, key.meaning_recast,
      Expression.meaning]
  | .member base selector name _ => by
    rw [Expression.recast, Expression.meaning, base.meaning_recast, Expression.meaning]
    rfl
  | .literal constant => rfl
  | .table fields _ => by
    rw [Expression.recast, Expression.meaning, Field.meanings_recastAll fields,
      Expression.meaning]

theorem Expression.meanings_recastAll : ∀ expressions : List Expression,
    Expression.meanings (Expression.recastAll recasting expressions) =
      Expression.meanings expressions
  | [] => rfl
  | expression :: rest => by
    rw [Expression.recastAll, Expression.meanings, expression.meaning_recast,
      Expression.meanings_recastAll rest, Expression.meanings]

theorem Expression.meaningOptional_recastOptional : ∀ optional : Option Expression,
    Expression.meaningOptional (Expression.recastOptional recasting optional) =
      Expression.meaningOptional optional
  | none => rfl
  | some expression => by
    rw [Expression.recastOptional, Expression.meaningOptional, expression.meaning_recast,
      Expression.meaningOptional]

/-- Recasting does not change what a field means, and a dropped comment means nothing. -/
theorem Field.meanings_recast : ∀ field : Field,
    Field.meanings (field.recast recasting) = field.meaning
  | .keyed key value _ => by
    rw [Field.recast, Field.meanings, Field.meanings, List.append_nil, Field.meaning,
      key.meaning_recast, value.meaning_recast, Field.meaning]
  | .named name value _ => by
    rw [Field.recast, Field.meanings, Field.meanings, List.append_nil, Field.meaning,
      value.meaning_recast, Field.meaning]
    rfl
  | .positional value => by
    rw [Field.recast, Field.meanings, Field.meanings, List.append_nil, Field.meaning,
      value.meaning_recast, Field.meaning]
  | .comment remark => by
    rw [Field.recast]
    cases recasting.comment remark <;> rfl

theorem Field.meanings_recastAll : ∀ fields : List Field,
    Field.meanings (Field.recastAll recasting fields) = Field.meanings fields
  | [] => rfl
  | field :: rest => by
    rw [Field.recastAll, Field.meanings_append, field.meanings_recast,
      Field.meanings_recastAll rest, Field.meanings]

theorem Clause.meaning_recast : ∀ clause : Clause,
    (clause.recast recasting).meaning = clause.meaning
  | .guarded word condition body _ => by
    rw [Clause.recast, Clause.meaning, condition.meaning_recast,
      Statement.meanings_recastAll body, Clause.meaning]
  | .otherwise body _ => by
    rw [Clause.recast, Clause.meaning, Statement.meanings_recastAll body, Clause.meaning]

theorem Clause.meanings_recastAll : ∀ clauses : List Clause,
    Clause.meanings (Clause.recastAll recasting clauses) = Clause.meanings clauses
  | [] => rfl
  | clause :: rest => by
    rw [Clause.recastAll, Clause.meanings, clause.meaning_recast, Clause.meanings_recastAll rest,
      Clause.meanings]

/-- Recasting does not change what a statement means, and a dropped comment means nothing. -/
theorem Statement.meanings_recast : ∀ statement : Statement,
    Statement.meanings (statement.recast recasting) = statement.meaning
  | .assignment targets values _ => by
    simp only [Statement.recast, Statement.meanings, Statement.meaning, List.append_nil,
      Expression.meanings_recastAll targets, Expression.meanings_recastAll values]
  | .breakLoop _ => rfl
  | .call expression _ => by
    simp only [Statement.recast, Statement.meanings, Statement.meaning, List.append_nil,
      expression.meaning_recast]
  | .comment remark => by
    rw [Statement.recast]
    cases recasting.comment remark <;> rfl
  | .doBlock body _ => by
    simp only [Statement.recast, Statement.meanings, Statement.meaning, List.append_nil,
      Statement.meanings_recastAll body]
  | .genericFor declared iterators body _ => by
    simp only [Statement.recast, Statement.meanings, Statement.meaning, List.append_nil,
      Name.map_recast_recast_meaning, Expression.meanings_recastAll iterators,
      Statement.meanings_recastAll body]
  | .numericFor counter first last step body _ => by
    simp only [Statement.recast, Statement.meanings, Statement.meaning, List.append_nil,
      Name.recast_recast_meaning, first.meaning_recast, last.meaning_recast,
      Expression.meaningOptional_recastOptional step, Statement.meanings_recastAll body]
  | .function head parameters body _ => by
    simp only [Statement.recast, Statement.meanings, Statement.meaning, List.append_nil,
      FunctionHead.recast_recast_meaning, Parameter.map_recast_recast_meaning,
      Statement.meanings_recastAll body]
  | .goto target _ => rfl
  | .ifElse clauses _ => by
    simp only [Statement.recast, Statement.meanings, Statement.meaning, List.append_nil,
      Clause.meanings_recastAll clauses]
  | .label name _ => rfl
  | .localVariables declared values _ => by
    simp only [Statement.recast, Statement.meanings, Statement.meaning, List.append_nil,
      Name.map_recast_recast_meaning, Expression.meanings_recastAll values]
  | .repeatUntil body condition _ => by
    simp only [Statement.recast, Statement.meanings, Statement.meaning, List.append_nil,
      Statement.meanings_recastAll body, condition.meaning_recast]
  | .returnValues values _ => by
    simp only [Statement.recast, Statement.meanings, Statement.meaning, List.append_nil,
      Expression.meanings_recastAll values]
  | .whileLoop condition body _ => by
    simp only [Statement.recast, Statement.meanings, Statement.meaning, List.append_nil,
      condition.meaning_recast, Statement.meanings_recastAll body]

theorem Statement.meanings_recastAll : ∀ body : List Statement,
    Statement.meanings (Statement.recastAll recasting body) = Statement.meanings body
  | [] => rfl
  | statement :: rest => by
    rw [Statement.recastAll, Statement.meanings_append, statement.meanings_recast,
      Statement.meanings_recastAll rest, Statement.meanings]

end

end

/-- Trees that are alike when they are recast mean the same. -/
theorem Statement.meanings_eq_of_recastAll_eq {recasting : Recasting}
    {first second : List Statement}
    (same : Statement.recastAll recasting first = Statement.recastAll recasting second) :
    Statement.meanings first = Statement.meanings second := by
  rw [← Statement.meanings_recastAll recasting first, same, Statement.meanings_recastAll]

/-! ### The surface -/

namespace Expression

theorem isMultipleValue_eq_false_of_form {expression : Expression}
    (notBase : expression.form ≠ .base) (notOther : expression.form ≠ .other) :
    expression.isMultipleValue = false := by
  unfold isMultipleValue
  split
  · exact absurd rfl notBase
  · exact absurd rfl notBase
  · exact absurd rfl notBase
  · exact absurd rfl notOther
  · rfl

/-- Parentheses around a single value mean nothing. -/
theorem meaning_inParens {inner : Expression} {needed : Bool}
    (single : needed → inner.isMultipleValue = false) :
    (inner.inParens needed).meaning = inner.meaning := by
  cases needed with
  | false => rfl
  | true =>
    rw [inParens, if_pos rfl, meaning, single rfl]
    rfl

/-- What a chain that is hung to the left means. -/
theorem meaning_join (operator : BinaryOperator) (left : Expression) : ∀ right : Expression,
    (join operator left right).meaning = combine operator left.meaning right.meaning
  | .binary inner middle right span => by
    rw [join]
    split
    · next same =>
      obtain ⟨rfl, regroups⟩ := same
      rw [meaning, meaning_join inner left middle, meaning,
        combine_assoc (inner.isChain_eq_regroups ▸ regroups)]
    · rfl
  | .unary .. | .call .. | .stringCall .. | .tableCall .. | .function .. | .group .. | .name _
  | .index .. | .member .. | .literal _ | .table .. => rfl

/-- What a call means does not depend on the parentheses around its argument. -/
theorem meaning_callOf (base : Expression) (arguments : List Expression) :
    (callOf base arguments).meaning = callOf base.meaning (meanings arguments) := by
  unfold callOf
  split <;> rfl

/-- What needs parentheses on the left is an operation, and so a single value. -/
theorem isMultipleValue_of_needsParensOnLeft {expression : Expression} {operator : BinaryOperator}
    (needed : expression.needsParensOnLeft operator) : expression.isMultipleValue = false := by
  cases expression with
  | binary | unary => rfl
  | _ => cases needed

/-- What needs parentheses on the right is an operation, and so a single value. -/
theorem isMultipleValue_of_needsParensOnRight {expression : Expression} {operator : BinaryOperator}
    (needed : expression.needsParensOnRight operator) : expression.isMultipleValue = false := by
  cases expression with
  | binary => rfl
  | _ => cases needed

/-- What needs parentheses under a unary operator is an operation, and so a single value. -/
theorem isMultipleValue_of_needsParensUnderUnary {expression : Expression}
    (needed : expression.needsParensUnderUnary) : expression.isMultipleValue = false := by
  cases expression with
  | binary => rfl
  | _ => cases needed

/-- A surface that may have any number of values is that of such an expression, perhaps in
parentheses. -/
theorem isMultipleValue_unwrapGroups_of_surface : ∀ expression : Expression,
    expression.surface.isMultipleValue → expression.unwrapGroups.isMultipleValue
  | .binary operator left right _, several => by
    have form := form_join operator
      (left.surface.inParens (left.withoutParens.needsParensOnLeft operator))
      (right.surface.inParens (right.withoutParens.needsParensOnRight operator))
    rw [surface, isMultipleValue_eq_false_of_form (form ▸ nofun) (form ▸ nofun)] at several
    cases several
  | .unary .., several | .function .., several | .name _, several | .index .., several
  | .member .., several | .table .., several => nomatch several
  | .call .., _ | .stringCall .., _ | .tableCall .., _ => rfl
  | .group inner _, several => by
    rw [surface] at several
    cases severalInside : inner.isMultipleValue with
    | true =>
      rw [severalInside] at several
      cases several
    | false =>
      rw [severalInside] at several
      exact isMultipleValue_unwrapGroups_of_surface inner several
  | .literal _, several => several

/-- Something that is selected from or called means the same with the parentheses it needs. -/
theorem meaning_surfaceBase {base : Expression} (callee : base.isPrefix || base.isMethod)
    (same : base.surface.meaning = base.meaning) :
    (base.surface.inParens (!base.withoutParens.isBase)).meaning = base.meaning := by
  rw [meaning_inParens, same]
  intro needed
  refine Bool.eq_false_iff.2 fun several => ?_
  have inside := isMultipleValue_unwrapGroups_of_surface base several
  cases base with
  | group inner span =>
    rw [unwrapGroups] at inside
    rw [withoutParens, if_pos inside] at needed
    cases needed
  | name | index | member | call | stringCall | tableCall => cases needed
  | _ => cases callee

end Expression

mutual

/-- The surface of an expression means what the expression means. -/
theorem Expression.meaning_surface : ∀ expression : Expression,
    Node.AreGrammatical expression.nodes → expression.surface.meaning = expression.meaning
  | .binary operator left right _, grammatical => by
    obtain ⟨-, inner⟩ := Node.areGrammatical_cons.1 grammatical
    obtain ⟨leftGrammatical, rightGrammatical⟩ := Node.areGrammatical_append.1 inner
    rw [Expression.surface, Expression.meaning_join, Expression.meaning_inParens,
      Expression.meaning_inParens, left.meaning_surface leftGrammatical,
      right.meaning_surface rightGrammatical, Expression.meaning]
    · intro needed
      rw [← Expression.needsParensOnRight_surface] at needed
      exact Expression.isMultipleValue_of_needsParensOnRight needed
    · intro needed
      rw [← Expression.needsParensOnLeft_surface] at needed
      exact Expression.isMultipleValue_of_needsParensOnLeft needed
  | .unary operator argument _, grammatical => by
    obtain ⟨-, inner⟩ := Node.areGrammatical_cons.1 grammatical
    rw [Expression.surface, Expression.meaning, Expression.meaning_inParens,
      argument.meaning_surface inner, Expression.meaning]
    intro needed
    rw [← Expression.needsParensUnderUnary_surface] at needed
    exact Expression.isMultipleValue_of_needsParensUnderUnary needed
  | .call base arguments _, grammatical => by
    obtain ⟨⟨callee, -⟩, inner⟩ := Node.areGrammatical_cons.1 grammatical
    obtain ⟨baseGrammatical, argumentsGrammatical⟩ := Node.areGrammatical_append.1 inner
    rw [Expression.surface, Expression.meaning_callOf,
      Expression.meaning_surfaceBase callee (base.meaning_surface baseGrammatical),
      Expression.meanings_surfaces arguments argumentsGrammatical, Expression.meaning]
  | .stringCall base argument _, grammatical => by
    obtain ⟨⟨callee, -⟩, inner⟩ := Node.areGrammatical_cons.1 grammatical
    rw [Expression.surface, Expression.meaning,
      Expression.meaning_surfaceBase callee (base.meaning_surface inner), Expression.meaning]
  | .tableCall base fields _ _, grammatical => by
    obtain ⟨callee, inner⟩ := Node.areGrammatical_cons.1 grammatical
    obtain ⟨baseGrammatical, fieldsGrammatical⟩ := Node.areGrammatical_append.1 inner
    rw [Expression.surface, Expression.meaning,
      Expression.meaning_surfaceBase callee (base.meaning_surface baseGrammatical),
      Field.meanings_surfaces fields fieldsGrammatical, Expression.meaning]
  | .function head parameters body _, grammatical => by
    obtain ⟨-, inner⟩ := Node.areGrammatical_cons.1 grammatical
    rw [Expression.surface, Expression.meaning, Statement.meanings_surfaces body inner,
      Expression.meaning]
  | .group inner _, grammatical => by
    obtain ⟨-, innerGrammatical⟩ := Node.areGrammatical_cons.1 grammatical
    rw [Expression.surface, Expression.meaning]
    cases several : inner.isMultipleValue with
    | true =>
      rw [Expression.inParens, if_pos rfl, Expression.meaning,
        Expression.isMultipleValue_surface several, inner.meaning_surface innerGrammatical]
    | false => exact inner.meaning_surface innerGrammatical
  | .name _, _ => rfl
  | .index base key _, grammatical => by
    obtain ⟨⟨isPrefix, -⟩, inner⟩ := Node.areGrammatical_cons.1 grammatical
    obtain ⟨baseGrammatical, keyGrammatical⟩ := Node.areGrammatical_append.1 inner
    rw [Expression.surface, Expression.meaning,
      Expression.meaning_surfaceBase (by rw [isPrefix, Bool.true_or])
        (base.meaning_surface baseGrammatical),
      key.meaning_surface keyGrammatical, Expression.meaning]
  | .member base selector name _, grammatical => by
    obtain ⟨⟨isPrefix, -⟩, inner⟩ := Node.areGrammatical_cons.1 grammatical
    rw [Expression.surface, Expression.meaning,
      Expression.meaning_surfaceBase (by rw [isPrefix, Bool.true_or])
        (base.meaning_surface inner), Expression.meaning]
  | .literal _, _ => rfl
  | .table fields _, grammatical => by
    obtain ⟨-, inner⟩ := Node.areGrammatical_cons.1 grammatical
    rw [Expression.surface, Expression.meaning, Field.meanings_surfaces fields inner,
      Expression.meaning]

/-- Expressions mean what is written of them. -/
theorem Expression.meanings_surfaces : ∀ expressions : List Expression,
    Node.AreGrammatical (Expression.nodesOfAll expressions) →
      Expression.meanings (Expression.surfaces expressions) = Expression.meanings expressions
  | [], _ => rfl
  | expression :: rest, grammatical => by
    obtain ⟨first, others⟩ := Node.areGrammatical_append.1 grammatical
    rw [Expression.surfaces, Expression.meanings, expression.meaning_surface first,
      Expression.meanings_surfaces rest others, Expression.meanings]

theorem Expression.meaningOptional_surfaceOptional : ∀ optional : Option Expression,
    Node.AreGrammatical (Expression.nodesOfOptional optional) →
      Expression.meaningOptional (Expression.surfaceOptional optional) =
        Expression.meaningOptional optional
  | none, _ => rfl
  | some expression, grammatical => by
    rw [Expression.surfaceOptional, Expression.meaningOptional,
      expression.meaning_surface grammatical, Expression.meaningOptional]

theorem Field.meaning_surface : ∀ field : Field, Node.AreGrammatical field.nodes →
    field.surface.meaning = field.meaning
  | .keyed key value _, grammatical => by
    obtain ⟨-, inner⟩ := Node.areGrammatical_cons.1 grammatical
    obtain ⟨keyGrammatical, valueGrammatical⟩ := Node.areGrammatical_append.1 inner
    rw [Field.surface, Field.meaning, key.meaning_surface keyGrammatical,
      value.meaning_surface valueGrammatical, Field.meaning]
  | .named name value _, grammatical => by
    obtain ⟨-, inner⟩ := Node.areGrammatical_cons.1 grammatical
    rw [Field.surface, Field.meaning, value.meaning_surface inner, Field.meaning]
  | .positional value, grammatical => by
    obtain ⟨-, inner⟩ := Node.areGrammatical_cons.1 grammatical
    rw [Field.surface, Field.meaning, value.meaning_surface inner, Field.meaning]
  | .comment _, _ => rfl

theorem Field.meanings_surfaces : ∀ fields : List Field,
    Node.AreGrammatical (Field.nodesOfAll fields) →
      Field.meanings (Field.surfaces fields) = Field.meanings fields
  | [], _ => rfl
  | field :: rest, grammatical => by
    obtain ⟨first, others⟩ := Node.areGrammatical_append.1 grammatical
    rw [Field.surfaces, Field.meanings, field.meaning_surface first,
      Field.meanings_surfaces rest others, Field.meanings]

theorem Clause.meaning_surface : ∀ clause : Clause, Node.AreGrammatical clause.nodes →
    clause.surface.meaning = clause.meaning
  | .guarded _ condition body _, grammatical => by
    obtain ⟨-, inner⟩ := Node.areGrammatical_cons.1 grammatical
    obtain ⟨conditionGrammatical, bodyGrammatical⟩ := Node.areGrammatical_append.1 inner
    rw [Clause.surface, Clause.meaning, condition.meaning_surface conditionGrammatical,
      Statement.meanings_surfaces body bodyGrammatical, Clause.meaning]
  | .otherwise body _, grammatical => by
    obtain ⟨-, inner⟩ := Node.areGrammatical_cons.1 grammatical
    rw [Clause.surface, Clause.meaning, Statement.meanings_surfaces body inner, Clause.meaning]

theorem Clause.meanings_surfaces : ∀ clauses : List Clause,
    Node.AreGrammatical (Clause.nodesOfAll clauses) →
      Clause.meanings (Clause.surfaces clauses) = Clause.meanings clauses
  | [], _ => rfl
  | clause :: rest, grammatical => by
    obtain ⟨first, others⟩ := Node.areGrammatical_append.1 grammatical
    rw [Clause.surfaces, Clause.meanings, clause.meaning_surface first,
      Clause.meanings_surfaces rest others, Clause.meanings]

/-- A statement means what is written of it. -/
theorem Statement.meaning_surface : ∀ statement : Statement,
    Node.AreGrammatical statement.nodes → statement.surface.meaning = statement.meaning
  | .assignment targets values _, grammatical => by
    obtain ⟨-, inner⟩ := Node.areGrammatical_cons.1 grammatical
    obtain ⟨targetsGrammatical, valuesGrammatical⟩ := Node.areGrammatical_append.1 inner
    rw [Statement.surface, Statement.meaning,
      Expression.meanings_surfaces targets targetsGrammatical,
      Expression.meanings_surfaces values valuesGrammatical, Statement.meaning]
  | .breakLoop _, _ => rfl
  | .call expression _, grammatical => by
    obtain ⟨-, inner⟩ := Node.areGrammatical_cons.1 grammatical
    rw [Statement.surface, Statement.meaning, expression.meaning_surface inner, Statement.meaning]
  | .comment _, _ => rfl
  | .doBlock body _, grammatical => by
    obtain ⟨-, inner⟩ := Node.areGrammatical_cons.1 grammatical
    rw [Statement.surface, Statement.meaning, Statement.meanings_surfaces body inner,
      Statement.meaning]
  | .genericFor _ iterators body _, grammatical => by
    obtain ⟨-, inner⟩ := Node.areGrammatical_cons.1 grammatical
    obtain ⟨iteratorsGrammatical, bodyGrammatical⟩ := Node.areGrammatical_append.1 inner
    rw [Statement.surface, Statement.meaning,
      Expression.meanings_surfaces iterators iteratorsGrammatical,
      Statement.meanings_surfaces body bodyGrammatical, Statement.meaning]
  | .numericFor _ first last step body _, grammatical => by
    obtain ⟨-, inner⟩ := Node.areGrammatical_cons.1 grammatical
    obtain ⟨inner, bodyGrammatical⟩ := Node.areGrammatical_append.1 inner
    obtain ⟨inner, stepGrammatical⟩ := Node.areGrammatical_append.1 inner
    obtain ⟨firstGrammatical, lastGrammatical⟩ := Node.areGrammatical_append.1 inner
    rw [Statement.surface, Statement.meaning, first.meaning_surface firstGrammatical,
      last.meaning_surface lastGrammatical,
      Expression.meaningOptional_surfaceOptional step stepGrammatical,
      Statement.meanings_surfaces body bodyGrammatical, Statement.meaning]
  | .function _ _ body _, grammatical => by
    obtain ⟨-, inner⟩ := Node.areGrammatical_cons.1 grammatical
    rw [Statement.surface, Statement.meaning, Statement.meanings_surfaces body inner,
      Statement.meaning]
  | .goto _ _, _ => rfl
  | .ifElse clauses _, grammatical => by
    obtain ⟨-, inner⟩ := Node.areGrammatical_cons.1 grammatical
    rw [Statement.surface, Statement.meaning, Clause.meanings_surfaces clauses inner,
      Statement.meaning]
  | .label _ _, _ => rfl
  | .localVariables _ values _, grammatical => by
    obtain ⟨-, inner⟩ := Node.areGrammatical_cons.1 grammatical
    rw [Statement.surface, Statement.meaning, Expression.meanings_surfaces values inner,
      Statement.meaning]
  | .repeatUntil body condition _, grammatical => by
    obtain ⟨-, inner⟩ := Node.areGrammatical_cons.1 grammatical
    obtain ⟨bodyGrammatical, conditionGrammatical⟩ := Node.areGrammatical_append.1 inner
    rw [Statement.surface, Statement.meaning, Statement.meanings_surfaces body bodyGrammatical,
      condition.meaning_surface conditionGrammatical, Statement.meaning]
  | .returnValues values _, grammatical => by
    obtain ⟨-, inner⟩ := Node.areGrammatical_cons.1 grammatical
    rw [Statement.surface, Statement.meaning, Expression.meanings_surfaces values inner,
      Statement.meaning]
  | .whileLoop condition body _, grammatical => by
    obtain ⟨-, inner⟩ := Node.areGrammatical_cons.1 grammatical
    obtain ⟨conditionGrammatical, bodyGrammatical⟩ := Node.areGrammatical_append.1 inner
    rw [Statement.surface, Statement.meaning, condition.meaning_surface conditionGrammatical,
      Statement.meanings_surfaces body bodyGrammatical, Statement.meaning]

/-- A block means what is written of it. -/
theorem Statement.meanings_surfaces : ∀ body : List Statement,
    Node.AreGrammatical (Statement.nodesOfAll body) →
      Statement.meanings (Statement.surfaces body) = Statement.meanings body
  | [], _ => rfl
  | statement :: rest, grammatical => by
    obtain ⟨first, others⟩ := Node.areGrammatical_append.1 grammatical
    rw [Statement.surfaces, Statement.meanings, statement.meaning_surface first,
      Statement.meanings_surfaces rest others, Statement.meanings]

end

end LuaStyle
