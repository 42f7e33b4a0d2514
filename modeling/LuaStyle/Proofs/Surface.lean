/-
This file defines the tree that a laid-out program is read as, its surface.

The surface of a tree has a group exactly where the layout has parentheses, and a call whose only
argument is written without parentheses is one of the two short forms of a call. Where a right
operand goes without parentheses although it has the very same operator, the parser cannot know that
it was one operand, so the surface is the chain of operators hung to the left. Everything else of
the tree stays.

The operators of a surface are ordered by their ranks: an operand without parentheses has an
operator of higher rank than the one it stands under, or of the same rank on the side to which the
chain groups. Ranks and powers order the operators alike, so the parser reads a surface as it is.
And where a surface has a group around an operand, the parser would not leave the operand whole
without it. A left operand of equal rank is the exception, since it gets parentheses in any case.
-/

import LuaStyle.Layout.Parentheses
import LuaStyle.Proofs.Grouping
import LuaStyle.Proofs.Insertion

namespace LuaStyle

/-! ### The surface -/

/-- A right operand with the same operator goes without parentheses, and the parser hangs the chain
to the left. -/
def BinaryOperator.regroups (operator : BinaryOperator) : Bool :=
  operator.isAssociative && operator.associativity == .left

namespace Expression

/-- The expression, as a group if it is written in parentheses. -/
def inParens (needed : Bool) (inner : Expression) : Expression :=
  if needed then .group inner default else inner

/-- What two operands are read as when an operator is written between them. -/
def join (operator : BinaryOperator) (left : Expression) : Expression → Expression
  | binary inner middle right span =>
    if inner = operator ∧ operator.regroups then
      .binary operator (join operator left middle) right default
    else
      .binary operator left (.binary inner middle right span) default
  | right => .binary operator left right default

/-- What a call is read as when its arguments are written with as few parentheses as possible. -/
def callOf (base : Expression) (arguments : List Expression) : Expression :=
  match arguments with
  | [.literal ⟨.string bytes, raw, span⟩] => .stringCall base ⟨.string bytes, raw, span⟩ default
  | [.table fields span] => .tableCall base fields span default
  | arguments => .call base arguments default

end Expression

mutual

/-- The expression as it is read from its layout. -/
def Expression.surface : Expression → Expression
  | .binary operator left right _ =>
    .join operator (left.surface.inParens (left.withoutParens.needsParensOnLeft operator))
      (right.surface.inParens (right.withoutParens.needsParensOnRight operator))
  | .unary operator argument span =>
    .unary operator (argument.surface.inParens argument.withoutParens.needsParensUnderUnary) span
  | .call base arguments _ =>
    .callOf (base.surface.inParens (!base.withoutParens.isBase)) (Expression.surfaces arguments)
  | .stringCall base argument span =>
    .stringCall (base.surface.inParens (!base.withoutParens.isBase)) argument span
  | .tableCall base fields tableSpan span =>
    .tableCall (base.surface.inParens (!base.withoutParens.isBase))
      (Field.surfaces fields) tableSpan
      span
  | .function head parameters body span => .function head parameters (Statement.surfaces body) span
  | .group inner _ => inner.surface.inParens inner.isMultipleValue
  | .name identifier => .name identifier
  | .index base key span =>
    .index (base.surface.inParens (!base.withoutParens.isBase)) key.surface span
  | .member base selector name span =>
    .member (base.surface.inParens (!base.withoutParens.isBase)) selector name span
  | .literal constant => .literal constant
  | .table fields span => .table (Field.surfaces fields) span

/-- The expressions as they are read from their layout. -/
def Expression.surfaces : List Expression → List Expression
  | [] => []
  | expression :: rest => expression.surface :: Expression.surfaces rest

/-- The expression that may be left out, as it is read from its layout. -/
def Expression.surfaceOptional : Option Expression → Option Expression
  | none => none
  | some expression => some expression.surface

/-- The field as it is read from its layout. -/
def Field.surface : Field → Field
  | .keyed key value span => .keyed key.surface value.surface span
  | .named name value span => .named name value.surface span
  | .positional value => .positional value.surface
  | .comment remark => .comment remark

/-- The fields as they are read from their layout. -/
def Field.surfaces : List Field → List Field
  | [] => []
  | field :: rest => field.surface :: Field.surfaces rest

/-- The clause as it is read from its layout. -/
def Clause.surface : Clause → Clause
  | .guarded word condition body span =>
    .guarded word condition.surface (Statement.surfaces body) span
  | .otherwise body span => .otherwise (Statement.surfaces body) span

/-- The clauses as they are read from their layout. -/
def Clause.surfaces : List Clause → List Clause
  | [] => []
  | clause :: rest => clause.surface :: Clause.surfaces rest

/-- The statement as it is read from its layout. -/
def Statement.surface : Statement → Statement
  | .assignment targets values span =>
    .assignment (Expression.surfaces targets) (Expression.surfaces values) span
  | .breakLoop span => .breakLoop span
  | .call expression span => .call expression.surface span
  | .comment remark => .comment remark
  | .doBlock body span => .doBlock (Statement.surfaces body) span
  | .genericFor declared iterators body span =>
    .genericFor declared (Expression.surfaces iterators) (Statement.surfaces body) span
  | .numericFor counter first last step body span =>
    .numericFor counter first.surface last.surface (Expression.surfaceOptional step)
      (Statement.surfaces body) span
  | .function head parameters body span =>
    .function head parameters (Statement.surfaces body) span
  | .goto target span => .goto target span
  | .ifElse clauses span => .ifElse (Clause.surfaces clauses) span
  | .label name span => .label name span
  | .localVariables declared values span =>
    .localVariables declared (Expression.surfaces values) span
  | .repeatUntil body condition span =>
    .repeatUntil (Statement.surfaces body) condition.surface span
  | .returnValues values span => .returnValues (Expression.surfaces values) span
  | .whileLoop condition body span =>
    .whileLoop condition.surface (Statement.surfaces body) span

/-- The statements as they are read from their layout. -/
def Statement.surfaces : List Statement → List Statement
  | [] => []
  | statement :: rest => statement.surface :: Statement.surfaces rest

end

/-! ### What parentheses depend on -/

/-- What decides about the parentheses around an expression. -/
inductive Expression.Form where
  | binary (operator : BinaryOperator)
  | unary
  | base
  | bareArgument
  | other
deriving DecidableEq

namespace Expression

/-- What decides about the parentheses around the expression. -/
def form : Expression → Form
  | binary operator _ _ _ => .binary operator
  | unary .. => .unary
  | name _ | member .. | index .. | call .. | stringCall .. | tableCall .. | group .. => .base
  | literal ⟨.string _, _, _⟩ | table .. => .bareArgument
  | _ => .other

/-- Spans and texts do not matter for the form. -/
theorem form_recast (recasting : Recasting) (expression : Expression) :
    (expression.recast recasting).form = expression.form := by
  cases expression with
  | literal constant => cases constant with | mk value => cases value <;> rfl
  | _ => rfl

/-- What is joined by an operator is an operation with it. -/
theorem form_join (operator : BinaryOperator) (left right : Expression) :
    (join operator left right).form = .binary operator := by
  cases right with
  | binary =>
    rw [join]
    split <;> rfl
  | _ => rfl

theorem form_callOf (base : Expression) (arguments : List Expression) :
    (callOf base arguments).form = .base := by
  unfold callOf
  split <;> rfl

/-- A group around something other than several values is written as what is inside it. -/
theorem form_withoutParens_group {inner : Expression} (single : inner.isMultipleValue = false)
    (span : Span) : (group inner span).withoutParens.form = inner.withoutParens.form := by
  rw [withoutParens]
  split
  next several =>
    cases inner with
    | group core innerSpan =>
      have same : core.unwrapGroups.isMultipleValue = true := several
      rw [withoutParens, if_pos same]
      rfl
    | _ =>
      rw [unwrapGroups, single] at several
      · cases several
      · exact nofun
  · rfl

/-- A group around several values stays, and is written like a base. -/
theorem form_withoutParens_of_isMultipleValue {inner : Expression} (several : inner.isMultipleValue)
    (span : Span) : (group inner span).withoutParens.form = .base := by
  have same : inner.unwrapGroups = inner := by
    cases inner <;> first | rfl | cases several
  rw [withoutParens, same, if_pos several]
  rfl

/-- The surface of an expression gets the parentheses that the expression gets. -/
theorem form_surface : ∀ expression : Expression,
    expression.surface.form = expression.withoutParens.form
  | binary .. => by
    rw [surface, form_join]
    rfl
  | call .. => by
    rw [surface, form_callOf]
    rfl
  | group inner span => by
    rw [surface]
    cases several : inner.isMultipleValue with
    | true => rw [form_withoutParens_of_isMultipleValue several, inParens, if_pos rfl]; rfl
    | false =>
      rw [form_withoutParens_group several, inParens, if_neg Bool.false_ne_true]
      exact form_surface inner
  | unary .. | stringCall .. | tableCall .. | function .. | name _ | index .. | member ..
  | literal _ | table .. => by
    rw [surface]
    rfl

theorem isCall_join (operator : BinaryOperator) (left right : Expression) :
    (join operator left right).isCall = false := by
  cases right with
  | binary =>
    rw [join]
    split <;> rfl
  | _ => rfl

theorem isCall_callOf (base : Expression) (arguments : List Expression) :
    (callOf base arguments).isCall := by
  unfold callOf
  split <;> rfl

/-- An expression is a call exactly if its surface is one. -/
theorem isCall_surface : ∀ expression : Expression,
    expression.surface.isCall = expression.isCall
  | binary .. => by
    rw [surface, isCall_join]
    rfl
  | call .. => by
    rw [surface, isCall_callOf]
    rfl
  | group inner _ => by
    rw [surface]
    cases several : inner.isMultipleValue with
    | true => rfl
    | false =>
      have single : inner.isCall = false := by
        cases inner <;> first | rfl | cases several
      rw [inParens, if_neg Bool.false_ne_true, isCall_surface inner, single]
      rfl
  | unary .. | stringCall .. | tableCall .. | function .. | name _ | index .. | member ..
  | literal _ | table .. => rfl

section

variable (expression : Expression)

/-- Whether a left operand is put into parentheses depends on its form alone. -/
theorem needsParensOnLeft_eq (operator : BinaryOperator) :
    expression.needsParensOnLeft operator =
      match expression.form with
      | .binary inner => decide (inner.rank ≤ operator.rank)
      | .unary => decide (UnaryOperator.rank < operator.rank)
      | _ => false := by
  cases expression with
  | literal constant => cases constant with | mk value => cases value <;> rfl
  | _ => rfl

/-- Whether a right operand is put into parentheses depends on its form alone. -/
theorem needsParensOnRight_eq (operator : BinaryOperator) :
    expression.needsParensOnRight operator =
      match expression.form with
      | .binary inner =>
        decide (inner.rank < operator.rank) ||
          (inner.rank == operator.rank && operator.associativity == .left
            && !(inner == operator && operator.isAssociative))
      | _ => false := by
  cases expression with
  | literal constant => cases constant with | mk value => cases value <;> rfl
  | _ => rfl

/-- Whether the operand of a unary operator is put into parentheses depends on its form alone. -/
theorem needsParensUnderUnary_eq :
    expression.needsParensUnderUnary =
      match expression.form with
      | .binary inner => decide (inner.rank < UnaryOperator.rank)
      | _ => false := by
  cases expression with
  | literal constant => cases constant with | mk value => cases value <;> rfl
  | _ => rfl

theorem isBase_eq : expression.isBase = (expression.form == .base) := by
  cases expression with
  | literal constant => cases constant with | mk value => cases value <;> rfl
  | _ => rfl

theorem isBareArgument_eq : expression.isBareArgument = (expression.form == .bareArgument) := by
  cases expression with
  | literal constant => cases constant with | mk value => cases value <;> rfl
  | _ => rfl

theorem isUnary_eq : expression.isUnary = (expression.form == .unary) := by
  cases expression with
  | literal constant => cases constant with | mk value => cases value <;> rfl
  | _ => rfl

/-- The tree that is written asks for the same parentheses on its left. -/
theorem needsParensOnLeft_surface (operator : BinaryOperator) :
    expression.surface.needsParensOnLeft operator =
      expression.withoutParens.needsParensOnLeft operator := by
  rw [needsParensOnLeft_eq, needsParensOnLeft_eq, form_surface]

/-- The tree that is written asks for the same parentheses on its right. -/
theorem needsParensOnRight_surface (operator : BinaryOperator) :
    expression.surface.needsParensOnRight operator =
      expression.withoutParens.needsParensOnRight operator := by
  rw [needsParensOnRight_eq, needsParensOnRight_eq, form_surface]

theorem needsParensUnderUnary_surface :
    expression.surface.needsParensUnderUnary = expression.withoutParens.needsParensUnderUnary := by
  rw [needsParensUnderUnary_eq, needsParensUnderUnary_eq, form_surface]

theorem isBase_surface : expression.surface.isBase = expression.withoutParens.isBase := by
  rw [isBase_eq, isBase_eq, form_surface]

theorem isBareArgument_surface :
    expression.surface.isBareArgument = expression.withoutParens.isBareArgument := by
  rw [isBareArgument_eq, isBareArgument_eq, form_surface]

end

end Expression

/-! ### Ranks on a surface -/

namespace Expression

/-- The expression stands on the left of the operator without parentheses. -/
def FitsLeft (operator : BinaryOperator) : Expression → Prop
  | binary inner _ _ _ => operator.rank < inner.rank ∨ inner = operator ∧ operator.regroups
  | unary _ _ _ => operator.rank ≤ UnaryOperator.rank
  | _ => True

/-- The expression stands on the right of the operator without parentheses, and not as a chain that
would be hung to the left. -/
def FitsRight (operator : BinaryOperator) : Expression → Prop
  | binary inner _ _ _ =>
    operator.rank < inner.rank ∨ inner.rank = operator.rank ∧ operator.associativity = .right
  | _ => True

end Expression

/-- The operands of the node's operator fit where they stand. -/
def Node.IsRanked : Node → Prop
  | .expression (.binary operator left right _) =>
    left.FitsLeft operator ∧ right.FitsRight operator
  | _ => True

namespace Expression.Form

/-- An expression of the form gives way, at its right end, to an operator of the power. -/
def Closes (power : Nat) : Form → Prop
  | binary operator => power ≤ operator.rightPower
  | unary => power ≤ UnaryOperator.bindingPower
  | _ => True

/-- An expression of the form binds tighter, at its left end, than the limit. -/
def Opens (limit : Nat) : Form → Prop
  | binary operator => limit < operator.leftPower
  | _ => True

/-- An operation of equal rank, where operators of the rank are grouped to the left. -/
def Chains (operator : BinaryOperator) : Form → Prop
  | binary inner => inner.rank = operator.rank ∧ operator.associativity = .left
  | _ => False

end Expression.Form

/-- If the expression is a group, the group either cuts several values down to one or is around
something that does not fit without it. -/
def Expression.NeedsGroup (fits : Form → Prop) : Expression → Prop
  | group inner _ => inner.isMultipleValue ∨ ¬fits inner.form
  | _ => True

/-- No group around an operand or a base of the node is superfluous, left operands of equal rank
apart. -/
def Node.IsTight : Node → Prop
  | .expression (.binary operator left right _) =>
    left.NeedsGroup (fun form => form.Closes operator.leftPower ∧ ¬form.Chains operator) ∧
      right.NeedsGroup (·.Opens operator.rightPower)
  | .expression (.unary _ argument _) => argument.NeedsGroup (·.Opens UnaryOperator.bindingPower)
  | .expression (.call base _ _) | .expression (.stringCall base _ _)
  | .expression (.tableCall base _ _ _) | .expression (.index base _ _)
  | .expression (.member base _ _ _) => base.NeedsGroup (· = .base)
  | _ => True

/-- Powers order binary operators as ranks do. -/
theorem BinaryOperator.powers_of_rank_lt {operator inner : BinaryOperator}
    (lower : operator.rank < inner.rank) :
    operator.leftPower ≤ inner.rightPower ∧ operator.rightPower < inner.leftPower := by
  revert lower
  cases operator <;> cases inner <;> decide

/-- Operators of one rank that are grouped to the right leave each other in the right operand. -/
theorem BinaryOperator.powers_of_right {operator inner : BinaryOperator}
    (same : inner.rank = operator.rank) (right : operator.associativity = .right) :
    operator.rightPower < inner.leftPower := by
  revert same right
  cases operator <;> cases inner <;> decide

/-- An operator whose groups may be moved has the same power on both sides. -/
theorem BinaryOperator.powers_of_regroups {operator : BinaryOperator}
    (regroups : operator.regroups) : operator.leftPower = operator.rightPower := by
  revert regroups
  cases operator <;> decide

theorem BinaryOperator.rank_le_of_rank_lt {operator inner : BinaryOperator}
    (lower : operator.rank < inner.rank) : operator.rank ≤ UnaryOperator.rank := by
  revert lower
  cases operator <;> cases inner <;> decide

theorem BinaryOperator.rank_le_of_regroups {operator : BinaryOperator}
    (regroups : operator.regroups) : operator.rank ≤ UnaryOperator.rank := by
  revert regroups
  cases operator <;> decide

/-- An operator of the rank of unary ones or higher is left in their operand. -/
theorem BinaryOperator.bindingPower_lt_of_rank {operator : BinaryOperator}
    (high : UnaryOperator.rank ≤ operator.rank) :
    UnaryOperator.bindingPower < operator.leftPower := by
  revert high
  cases operator <;> decide

/-- An operator on the right that needs no parentheses, and is not the same one over again, fits. -/
theorem BinaryOperator.fits_of_needsNoParens {operator inner : BinaryOperator}
    (needsNone : (decide (inner.rank < operator.rank) ||
      (inner.rank == operator.rank && operator.associativity == .left
        && !(inner == operator && operator.isAssociative))) = false)
    (other : ¬(inner = operator ∧ operator.regroups)) :
    operator.rank < inner.rank ∨ inner.rank = operator.rank ∧ operator.associativity = .right := by
  revert needsNone other
  cases operator <;> cases inner <;> decide

/-- What fits on the left of an operator that is hung to the left needs no parentheses on its
right. -/
theorem BinaryOperator.needsNoParens_of_fits {operator inner : BinaryOperator}
    (regroups : operator.regroups)
    (fits : operator.rank < inner.rank ∨ inner = operator ∧ operator.regroups) :
    (decide (inner.rank < operator.rank) ||
      (inner.rank == operator.rank && operator.associativity == .left
        && !(inner == operator && operator.isAssociative))) = false := by
  revert regroups fits
  cases operator <;> cases inner <;> decide

/-- An operator of no higher rank lets go of what follows, unless both are grouped to the left. -/
theorem BinaryOperator.not_closes_of_rank_le {operator inner : BinaryOperator}
    (low : inner.rank ≤ operator.rank)
    (noChain : ¬(inner.rank = operator.rank ∧ operator.associativity = .left)) :
    ¬operator.leftPower ≤ inner.rightPower := by
  revert low noChain
  cases operator <;> cases inner <;> decide

/-- A unary operator lets go of what only an operator of a higher rank takes. -/
theorem BinaryOperator.not_closes_of_unary_rank_lt {operator : BinaryOperator}
    (low : UnaryOperator.rank < operator.rank) :
    ¬operator.leftPower ≤ UnaryOperator.bindingPower := by
  revert low
  cases operator <;> decide

/-- An operand that gets parentheses on the right of an operator would not stay whole without. -/
theorem BinaryOperator.not_opens_of_needsParens {operator inner : BinaryOperator}
    (needs : (decide (inner.rank < operator.rank) ||
      (inner.rank == operator.rank && operator.associativity == .left
        && !(inner == operator && operator.isAssociative))) = true) :
    ¬operator.rightPower < inner.leftPower := by
  revert needs
  cases operator <;> cases inner <;> decide

/-- An operator of a lower rank than unary ones does not go on inside their operand. -/
theorem BinaryOperator.not_opens_of_rank_lt {inner : BinaryOperator}
    (low : inner.rank < UnaryOperator.rank) :
    ¬UnaryOperator.bindingPower < inner.leftPower := by
  revert low
  cases inner <;> decide

/-- What stays whole on the right of an operator that is hung to the left stays whole on its left,
and is no chain of it. -/
theorem BinaryOperator.closes_of_opens {operator inner : BinaryOperator}
    (regroups : operator.regroups) (opens : operator.rightPower < inner.leftPower) :
    operator.leftPower ≤ inner.rightPower ∧
      ¬(inner.rank = operator.rank ∧ operator.associativity = .left) := by
  revert regroups opens
  cases operator <;> cases inner <;> decide

theorem BinaryOperator.leftPower_of_rank {operator : BinaryOperator}
    (low : operator.rank ≤ UnaryOperator.rank) :
    operator.leftPower ≤ UnaryOperator.bindingPower := by
  revert low
  cases operator <;> decide

namespace Expression

/-- An operand that fits on the left gives way to the operator. -/
theorem FitsLeft.closesAt {operator : BinaryOperator} {left : Expression}
    (fits : left.FitsLeft operator) (grouped : Node.AreGrouped left.nodes) :
    left.ClosesAt operator.leftPower := by
  cases left with
  | binary inner first second span =>
    obtain ⟨⟨-, opens⟩, parts⟩ := Node.areGrouped_cons.1 grouped
    obtain ⟨holds, low⟩ : operator.leftPower ≤ inner.rightPower ∧
        operator.rank ≤ UnaryOperator.rank := by
      rcases fits with lower | ⟨rfl, regroups⟩
      · exact ⟨(BinaryOperator.powers_of_rank_lt lower).1, BinaryOperator.rank_le_of_rank_lt lower⟩
      · exact ⟨Nat.le_of_eq (BinaryOperator.powers_of_regroups regroups),
          BinaryOperator.rank_le_of_regroups regroups⟩
    exact ⟨holds, second.closesAt_of_opensAbove (BinaryOperator.leftPower_of_rank low) holds
      (Node.areGrouped_append.1 parts).2 opens⟩
  | unary inner argument span =>
    obtain ⟨opens, parts⟩ := Node.areGrouped_cons.1 grouped
    have bounded := BinaryOperator.leftPower_of_rank fits
    exact ⟨bounded, argument.closesAt_of_opensAbove bounded bounded parts opens⟩
  | _ => trivial

/-- An operand that fits on the right binds tighter than the operator holds on to it. -/
theorem FitsRight.opensAbove {operator : BinaryOperator} {right : Expression}
    (fits : right.FitsRight operator) (grouped : Node.AreGrouped right.nodes) :
    right.OpensAbove operator.rightPower := by
  cases right with
  | binary inner first second span =>
    obtain ⟨⟨closes, -⟩, parts⟩ := Node.areGrouped_cons.1 grouped
    have tighter : operator.rightPower < inner.leftPower := by
      rcases fits with lower | ⟨same, right⟩
      · exact (BinaryOperator.powers_of_rank_lt lower).2
      · exact BinaryOperator.powers_of_right same right
    exact ⟨tighter,
      first.opensAbove_of_closesAt tighter (Node.areGrouped_append.1 parts).1 closes⟩
  | _ => trivial

/-- An operand of a unary operator without parentheses binds tighter than the operator. -/
theorem opensAbove_of_needsNoParens {argument : Expression}
    (needsNone : argument.needsParensUnderUnary = false)
    (grouped : Node.AreGrouped argument.nodes) :
    argument.OpensAbove UnaryOperator.bindingPower := by
  cases argument with
  | binary inner first second span =>
    obtain ⟨⟨closes, -⟩, parts⟩ := Node.areGrouped_cons.1 grouped
    have tighter := BinaryOperator.bindingPower_lt_of_rank
      (Nat.le_of_not_lt (of_decide_eq_false needsNone))
    exact ⟨tighter,
      first.opensAbove_of_closesAt tighter (Node.areGrouped_append.1 parts).1 closes⟩
  | _ => trivial

/-- A left operand that needs no parentheses fits where it stands. -/
theorem fitsLeft_of_needsNoParens {operator : BinaryOperator} {left : Expression}
    (needsNone : left.needsParensOnLeft operator = false) : left.FitsLeft operator := by
  cases left with
  | binary inner => exact .inl (Nat.lt_of_not_le (of_decide_eq_false needsNone))
  | unary => exact Nat.le_of_not_lt (of_decide_eq_false needsNone)
  | _ => trivial

end Expression

/-! ### Groups on a surface -/

namespace Expression

/-- A group that a weaker demand asks for is asked for by a stricter one. -/
theorem NeedsGroup.mono {fits stricter : Form → Prop} {expression : Expression}
    (needs : expression.NeedsGroup fits) (implies : ∀ form, stricter form → fits form) :
    expression.NeedsGroup stricter := by
  cases expression with
  | group inner span => exact needs.imp_right (mt (implies _))
  | _ => trivial

/-- Two operands joined by an operator are an operation with it, however they are regrouped. -/
theorem exists_join_eq (operator : BinaryOperator) (left right : Expression) :
    ∃ first second span, join operator left right = .binary operator first second span := by
  cases right with
  | binary =>
    rw [join]
    split <;> exact ⟨_, _, _, rfl⟩
  | _ => exact ⟨_, _, _, rfl⟩

theorem isMultipleValue_callOf (base : Expression) (arguments : List Expression) :
    (callOf base arguments).isMultipleValue := by
  unfold callOf
  split <;> rfl

/-- What stands for several values does so as it is written. -/
theorem isMultipleValue_surface {expression : Expression} (several : expression.isMultipleValue) :
    expression.surface.isMultipleValue := by
  unfold isMultipleValue at several
  split at several
  · rw [surface]
    exact isMultipleValue_callOf ..
  all_goals first | rfl | cases several

/-- A surface is a group only around several values. -/
theorem needsGroup_surface (fits : Form → Prop) : ∀ expression : Expression,
    expression.surface.NeedsGroup fits
  | binary operator left right _ => by
    rw [surface]
    obtain ⟨first, second, span, same⟩ := exists_join_eq operator
      (left.surface.inParens (left.withoutParens.needsParensOnLeft operator))
      (right.surface.inParens (right.withoutParens.needsParensOnRight operator))
    rw [same]
    trivial
  | call .. => by
    rw [surface]
    unfold callOf
    split <;> trivial
  | group inner _ => by
    rw [surface]
    cases several : inner.isMultipleValue with
    | true => exact .inl (isMultipleValue_surface several)
    | false => exact needsGroup_surface fits inner
  | unary .. | stringCall .. | tableCall .. | function .. | name _ | index .. | member ..
  | literal _ | table .. => by
    rw [surface]
    trivial

/-- Parentheses are written around what does not fit without. -/
theorem needsGroup_inParens {fits : Form → Prop} {expression : Expression} {needed : Bool}
    (unfit : needed = true → ¬fits expression.surface.form) :
    (expression.surface.inParens needed).NeedsGroup fits := by
  cases needed with
  | false => exact expression.needsGroup_surface fits
  | true => exact .inr (unfit rfl)

/-- A left operand is written with a group only where it would be read differently without. -/
theorem needsGroup_left (operator : BinaryOperator) (left : Expression) :
    (left.surface.inParens (left.withoutParens.needsParensOnLeft operator)).NeedsGroup
      fun form => form.Closes operator.leftPower ∧ ¬form.Chains operator := by
  refine needsGroup_inParens ?_
  rintro needed ⟨closes, noChain⟩
  rw [← needsParensOnLeft_surface, needsParensOnLeft_eq] at needed
  cases form : left.surface.form with
  | binary inner =>
    rw [form] at needed closes noChain
    exact BinaryOperator.not_closes_of_rank_le (of_decide_eq_true needed) noChain closes
  | unary =>
    rw [form] at needed closes
    exact BinaryOperator.not_closes_of_unary_rank_lt (of_decide_eq_true needed) closes
  | _ =>
    rw [form] at needed
    cases needed

/-- A right operand is written with a group only where it would be read differently without. -/
theorem needsGroup_right (operator : BinaryOperator) (right : Expression) :
    (right.surface.inParens (right.withoutParens.needsParensOnRight operator)).NeedsGroup
      (·.Opens operator.rightPower) := by
  refine needsGroup_inParens fun needed opens => ?_
  rw [← needsParensOnRight_surface, needsParensOnRight_eq] at needed
  cases form : right.surface.form with
  | binary inner =>
    rw [form] at needed opens
    exact BinaryOperator.not_opens_of_needsParens needed opens
  | _ =>
    rw [form] at needed
    cases needed

/-- The operand of a unary operator is written with a group only where it would be read differently
without. -/
theorem needsGroup_argument (argument : Expression) :
    (argument.surface.inParens argument.withoutParens.needsParensUnderUnary).NeedsGroup
      (·.Opens UnaryOperator.bindingPower) := by
  refine needsGroup_inParens fun needed opens => ?_
  rw [← needsParensUnderUnary_surface, needsParensUnderUnary_eq] at needed
  cases form : argument.surface.form with
  | binary inner =>
    rw [form] at needed opens
    exact BinaryOperator.not_opens_of_rank_lt (of_decide_eq_true needed) opens
  | _ =>
    rw [form] at needed
    cases needed

/-- What is selected from or called is written with a group only where it is no base. -/
theorem needsGroup_base (base : Expression) :
    (base.surface.inParens (!base.withoutParens.isBase)).NeedsGroup (· = .base) := by
  refine needsGroup_inParens fun needed isBase => ?_
  rw [← isBase_surface, isBase_eq, isBase] at needed
  cases needed

/-- A group that is needed on the left of an operator that is hung to the left is needed on its
right as well. -/
theorem NeedsGroup.of_left {operator : BinaryOperator} {middle : Expression}
    (regroups : operator.regroups)
    (needs : middle.NeedsGroup fun form =>
      form.Closes operator.leftPower ∧ ¬form.Chains operator) :
    middle.NeedsGroup (·.Opens operator.rightPower) := by
  refine needs.mono fun form opens => ?_
  cases form with
  | binary inner => exact BinaryOperator.closes_of_opens regroups opens
  | unary =>
    exact ⟨BinaryOperator.leftPower_of_rank (BinaryOperator.rank_le_of_regroups regroups), id⟩
  | _ => exact ⟨trivial, id⟩

end Expression

/-- The operators of the node stand as the parser would read them and as their ranks ask for, and
its groups are needed. -/
def Node.IsSettled (node : Node) : Prop :=
  node.IsRanked ∧ node.IsGrouped ∧ node.IsTight

namespace Expression

/-- All operators of the expression stand as they should. -/
abbrev Settled (expression : Expression) : Prop :=
  ∀ node ∈ expression.nodes, node.IsSettled

/-- A settled tree is grouped as the powers ask for. -/
theorem Settled.areGrouped {expression : Expression} (settled : expression.Settled) :
    Node.AreGrouped expression.nodes :=
  fun node member => (settled node member).2.1

/-- Two operands that fit make an operation whose operators stand as they should. -/
theorem settled_binary {operator : BinaryOperator} {left right : Expression} {span : Span}
    (fitsLeft : left.FitsLeft operator) (fitsRight : right.FitsRight operator)
    (tight : Node.IsTight (.expression (.binary operator left right span)))
    (leftSettled : left.Settled) (rightSettled : right.Settled) :
    (binary operator left right span).Settled :=
  List.forall_mem_cons.2 ⟨⟨⟨fitsLeft, fitsRight⟩, ⟨fitsLeft.closesAt leftSettled.areGrouped,
    fitsRight.opensAbove rightSettled.areGrouped⟩, tight⟩,
    List.forall_mem_append.2 ⟨leftSettled, rightSettled⟩⟩

/-- A right operand without parentheses fits on the right, or is a chain to be hung to the left. -/
theorem fitsRight_of_needsNoParens {operator inner : BinaryOperator} {middle right : Expression}
    {span : Span} (needsNone : (binary inner middle right span).needsParensOnRight operator = false)
    (other : ¬(inner = operator ∧ operator.regroups)) :
    (binary inner middle right span).FitsRight operator :=
  BinaryOperator.fits_of_needsNoParens needsNone other

/-- A chain that is hung to the left stands as it should. -/
theorem settled_join {operator : BinaryOperator} {left : Expression}
    (fitsLeft : left.FitsLeft operator)
    (needsLeft : left.NeedsGroup fun form =>
      form.Closes operator.leftPower ∧ ¬form.Chains operator)
    (leftSettled : left.Settled) :
    ∀ right : Expression, right.needsParensOnRight operator = false →
      right.NeedsGroup (·.Opens operator.rightPower) → right.Settled →
        (join operator left right).Settled
  | binary inner middle right span, needsNone, _, settled => by
    rw [join]
    split
    next chain =>
      obtain ⟨rfl, regroups⟩ := chain
      obtain ⟨⟨⟨middleFits, rightFits⟩, -, middleNeeds, rightNeeds⟩, parts⟩ :=
        List.forall_mem_cons.1 settled
      obtain ⟨middleSettled, rightSettled⟩ := List.forall_mem_append.1 parts
      -- What fits on the left of the operator needs no parentheses on its right either, so the
      -- middle operand is hung to the left in turn.
      have middleNeedsNone : middle.needsParensOnRight inner = false := by
        cases middle with
        | binary innermost => exact BinaryOperator.needsNoParens_of_fits regroups middleFits
        | _ => rfl
      have hung := settled_join fitsLeft needsLeft leftSettled middle middleNeedsNone
        (middleNeeds.of_left regroups) middleSettled
      obtain ⟨first, second, otherSpan, same⟩ := exists_join_eq inner left middle
      rw [same] at hung ⊢
      exact settled_binary (.inr ⟨rfl, regroups⟩) rightFits ⟨trivial, rightNeeds⟩ hung rightSettled
    next other =>
      exact settled_binary fitsLeft (fitsRight_of_needsNoParens needsNone other)
        ⟨needsLeft, trivial⟩ leftSettled settled
  | group .., _, needs, settled =>
    settled_binary fitsLeft trivial ⟨needsLeft, needs⟩ leftSettled settled
  | unary .., _, _, settled | call .., _, _, settled | stringCall .., _, _, settled
  | tableCall .., _, _, settled | function .., _, _, settled | name _, _, _, settled
  | index .., _, _, settled | member .., _, _, settled | literal _, _, _, settled
  | table .., _, _, settled =>
    settled_binary fitsLeft trivial ⟨needsLeft, trivial⟩ leftSettled settled

/-- A group around a settled tree is settled. -/
theorem settled_inParens {inner : Expression} (settled : inner.Settled) (needed : Bool) :
    (inner.inParens needed).Settled := by
  cases needed with
  | false => exact settled
  | true => exact List.forall_mem_cons.2 ⟨⟨trivial, trivial, trivial⟩, settled⟩

/-- A call of a settled base with settled arguments is settled, whichever of its three forms it has.
-/
theorem settled_callOf {base : Expression} {arguments : List Expression}
    (needs : base.NeedsGroup (· = .base)) (baseSettled : base.Settled)
    (settled : ∀ node ∈ Expression.nodesOfAll arguments, node.IsSettled) :
    (callOf base arguments).Settled := by
  unfold callOf
  split
  · exact List.forall_mem_cons.2 ⟨⟨trivial, trivial, needs⟩, baseSettled⟩
  · rw [Expression.nodesOfAll, Expression.nodesOfAll, List.append_nil] at settled
    exact List.forall_mem_cons.2 ⟨⟨trivial, trivial, needs⟩,
      List.forall_mem_append.2 ⟨baseSettled, (List.forall_mem_cons.1 settled).2⟩⟩
  · exact List.forall_mem_cons.2 ⟨⟨trivial, trivial, needs⟩,
      List.forall_mem_append.2 ⟨baseSettled, settled⟩⟩

/-- What is in parentheses where a test asks for them passes the test no more. -/
theorem needsNoParens_inParens {inner : Expression} {needed : Bool} {test : Expression → Bool}
    (same : test inner = needed) (none : ∀ span, test (.group inner span) = false) :
    test (inner.inParens needed) = false := by
  cases needed with
  | false => exact same
  | true => exact none _

end Expression

mutual

/-- The operators of a surface stand as they should. -/
theorem Expression.settled_surface : ∀ expression : Expression, expression.surface.Settled
  | .binary operator left right _ => by
    rw [Expression.surface]
    refine Expression.settled_join (Expression.fitsLeft_of_needsNoParens ?_)
      (left.needsGroup_left operator) (Expression.settled_inParens left.settled_surface _) _ ?_
      (right.needsGroup_right operator) (Expression.settled_inParens right.settled_surface _)
    · exact Expression.needsNoParens_inParens (Expression.needsParensOnLeft_surface left operator)
        fun _ => rfl
    · exact Expression.needsNoParens_inParens (Expression.needsParensOnRight_surface right operator)
        fun _ => rfl
  | .unary _ argument _ => by
    have settled := Expression.settled_inParens argument.settled_surface
      argument.withoutParens.needsParensUnderUnary
    have opens := Expression.opensAbove_of_needsNoParens
      (Expression.needsNoParens_inParens (Expression.needsParensUnderUnary_surface argument)
        fun _ => rfl)
      settled.areGrouped
    rw [Expression.surface]
    exact List.forall_mem_cons.2 ⟨⟨trivial, opens, argument.needsGroup_argument⟩, settled⟩
  | .call base arguments _ => by
    rw [Expression.surface]
    exact Expression.settled_callOf base.needsGroup_base
      (Expression.settled_inParens base.settled_surface _) (Expression.settled_surfaces arguments)
  | .stringCall base _ _ => by
    rw [Expression.surface]
    exact List.forall_mem_cons.2
      ⟨⟨trivial, trivial, base.needsGroup_base⟩, Expression.settled_inParens base.settled_surface _⟩
  | .tableCall base fields _ _ => by
    rw [Expression.surface]
    exact List.forall_mem_cons.2 ⟨⟨trivial, trivial, base.needsGroup_base⟩, List.forall_mem_append.2
      ⟨Expression.settled_inParens base.settled_surface _, Field.settled_surfaces fields⟩⟩
  | .function _ _ body _ => by
    rw [Expression.surface]
    exact List.forall_mem_cons.2 ⟨⟨trivial, trivial, trivial⟩, Statement.settled_surfaces body⟩
  | .group inner _ => by
    rw [Expression.surface]
    exact Expression.settled_inParens inner.settled_surface _
  | .name _ | .literal _ => by
    rw [Expression.surface]
    exact List.forall_mem_singleton.2 ⟨trivial, trivial, trivial⟩
  | .index base key _ => by
    rw [Expression.surface]
    exact List.forall_mem_cons.2 ⟨⟨trivial, trivial, base.needsGroup_base⟩, List.forall_mem_append.2
      ⟨Expression.settled_inParens base.settled_surface _, key.settled_surface⟩⟩
  | .member base _ _ _ => by
    rw [Expression.surface]
    exact List.forall_mem_cons.2
      ⟨⟨trivial, trivial, base.needsGroup_base⟩, Expression.settled_inParens base.settled_surface _⟩
  | .table fields _ => by
    rw [Expression.surface]
    exact List.forall_mem_cons.2 ⟨⟨trivial, trivial, trivial⟩, Field.settled_surfaces fields⟩

theorem Expression.settled_surfaces : ∀ expressions : List Expression,
    ∀ node ∈ Expression.nodesOfAll (Expression.surfaces expressions), node.IsSettled
  | [] => by
    rw [Expression.surfaces]
    exact fun _ member => nomatch member
  | expression :: rest => by
    rw [Expression.surfaces]
    exact List.forall_mem_append.2
      ⟨expression.settled_surface, Expression.settled_surfaces rest⟩

theorem Expression.settled_surfaceOptional : ∀ optional : Option Expression,
    ∀ node ∈ Expression.nodesOfOptional (Expression.surfaceOptional optional), node.IsSettled
  | none => by
    rw [Expression.surfaceOptional]
    exact fun _ member => nomatch member
  | some expression => by
    rw [Expression.surfaceOptional]
    exact expression.settled_surface

theorem Field.settled_surface : ∀ field : Field, ∀ node ∈ field.surface.nodes, node.IsSettled
  | .keyed key value _ => by
    rw [Field.surface]
    exact List.forall_mem_cons.2 ⟨⟨trivial, trivial, trivial⟩,
      List.forall_mem_append.2 ⟨key.settled_surface, value.settled_surface⟩⟩
  | .named _ value _ | .positional value => by
    rw [Field.surface]
    exact List.forall_mem_cons.2 ⟨⟨trivial, trivial, trivial⟩, value.settled_surface⟩
  | .comment _ => by
    rw [Field.surface]
    exact List.forall_mem_singleton.2 ⟨trivial, trivial, trivial⟩

theorem Field.settled_surfaces : ∀ fields : List Field,
    ∀ node ∈ Field.nodesOfAll (Field.surfaces fields), node.IsSettled
  | [] => by
    rw [Field.surfaces]
    exact fun _ member => nomatch member
  | field :: rest => by
    rw [Field.surfaces]
    exact List.forall_mem_append.2 ⟨field.settled_surface, Field.settled_surfaces rest⟩

theorem Clause.settled_surface : ∀ clause : Clause, ∀ node ∈ clause.surface.nodes, node.IsSettled
  | .guarded _ condition body _ => by
    rw [Clause.surface]
    exact List.forall_mem_cons.2 ⟨⟨trivial, trivial, trivial⟩,
      List.forall_mem_append.2 ⟨condition.settled_surface, Statement.settled_surfaces body⟩⟩
  | .otherwise body _ => by
    rw [Clause.surface]
    exact List.forall_mem_cons.2 ⟨⟨trivial, trivial, trivial⟩, Statement.settled_surfaces body⟩

theorem Clause.settled_surfaces : ∀ clauses : List Clause,
    ∀ node ∈ Clause.nodesOfAll (Clause.surfaces clauses), node.IsSettled
  | [] => by
    rw [Clause.surfaces]
    exact fun _ member => nomatch member
  | clause :: rest => by
    rw [Clause.surfaces]
    exact List.forall_mem_append.2 ⟨clause.settled_surface, Clause.settled_surfaces rest⟩

theorem Statement.settled_surface : ∀ statement : Statement,
    ∀ node ∈ statement.surface.nodes, node.IsSettled
  | .assignment targets values _ => by
    rw [Statement.surface]
    exact List.forall_mem_cons.2 ⟨⟨trivial, trivial, trivial⟩, List.forall_mem_append.2
      ⟨Expression.settled_surfaces targets, Expression.settled_surfaces values⟩⟩
  | .breakLoop _ | .comment _ | .goto _ _ | .label _ _ => by
    rw [Statement.surface]
    exact List.forall_mem_singleton.2 ⟨trivial, trivial, trivial⟩
  | .call expression _ => by
    rw [Statement.surface]
    exact List.forall_mem_cons.2 ⟨⟨trivial, trivial, trivial⟩, expression.settled_surface⟩
  | .doBlock body _ | .function _ _ body _ => by
    rw [Statement.surface]
    exact List.forall_mem_cons.2 ⟨⟨trivial, trivial, trivial⟩, Statement.settled_surfaces body⟩
  | .genericFor _ iterators body _ => by
    rw [Statement.surface]
    exact List.forall_mem_cons.2 ⟨⟨trivial, trivial, trivial⟩, List.forall_mem_append.2
      ⟨Expression.settled_surfaces iterators, Statement.settled_surfaces body⟩⟩
  | .numericFor _ first last step body _ => by
    rw [Statement.surface]
    exact List.forall_mem_cons.2 ⟨⟨trivial, trivial, trivial⟩, List.forall_mem_append.2
      ⟨List.forall_mem_append.2 ⟨List.forall_mem_append.2
        ⟨first.settled_surface, last.settled_surface⟩, Expression.settled_surfaceOptional step⟩,
        Statement.settled_surfaces body⟩⟩
  | .ifElse clauses _ => by
    rw [Statement.surface]
    exact List.forall_mem_cons.2 ⟨⟨trivial, trivial, trivial⟩, Clause.settled_surfaces clauses⟩
  | .localVariables _ values _ | .returnValues values _ => by
    rw [Statement.surface]
    exact List.forall_mem_cons.2 ⟨⟨trivial, trivial, trivial⟩, Expression.settled_surfaces values⟩
  | .repeatUntil body condition _ => by
    rw [Statement.surface]
    exact List.forall_mem_cons.2 ⟨⟨trivial, trivial, trivial⟩,
      List.forall_mem_append.2 ⟨Statement.settled_surfaces body, condition.settled_surface⟩⟩
  | .whileLoop condition body _ => by
    rw [Statement.surface]
    exact List.forall_mem_cons.2 ⟨⟨trivial, trivial, trivial⟩,
      List.forall_mem_append.2 ⟨condition.settled_surface, Statement.settled_surfaces body⟩⟩

/-- All that is written of a block is settled. -/
theorem Statement.settled_surfaces : ∀ body : List Statement,
    ∀ node ∈ Statement.nodesOfAll (Statement.surfaces body), node.IsSettled
  | [] => by
    rw [Statement.surfaces]
    exact fun _ member => nomatch member
  | statement :: rest => by
    rw [Statement.surfaces]
    exact List.forall_mem_append.2 ⟨statement.settled_surface, Statement.settled_surfaces rest⟩

end

end LuaStyle
