/-
This file says how operators have to stand in a tree for the parser to find the tree again.

The parser knows nothing of ranks. It reads an operand and goes on as long as the next operator
binds tighter than a limit. So a binary operator gets the operands it has in the tree if no operator
on the right edge of its left operand holds on to what follows less tightly than it does itself, and
if every operator on the left edge of its right operand binds tighter than it holds on to what
follows. The two conditions carry over from an operator to the ones below it on the same edge,
because an operator's two powers differ by one at most.
-/

import LuaStyle.Parser.Binding
import LuaStyle.Proofs.Recast

namespace LuaStyle

/-! ### Edges -/

/-- The binary operators on the left edge of the expression bind tighter than the limit. -/
def Expression.OpensAbove (limit : Nat) : Expression → Prop
  | binary operator left _ _ => limit < operator.leftPower ∧ left.OpensAbove limit
  | _ => True

/-- The operators on the right edge of the expression hold on to what follows with at least the
given power. -/
def Expression.ClosesAt (power : Nat) : Expression → Prop
  | binary operator _ right _ => power ≤ operator.rightPower ∧ right.ClosesAt power
  | unary _ argument _ => power ≤ UnaryOperator.bindingPower ∧ argument.ClosesAt power
  | _ => True

/-- The operators of the node stand as the parser would read them. -/
def Node.IsGrouped : Node → Prop
  | .expression (.binary operator left right _) =>
    left.ClosesAt operator.leftPower ∧ right.OpensAbove operator.rightPower
  | .expression (.unary _ argument _) => argument.OpensAbove UnaryOperator.bindingPower
  | _ => True

/-- All operators stand as the parser would read them. -/
def Node.AreGrouped (nodes : List Node) : Prop :=
  ∀ node ∈ nodes, node.IsGrouped

theorem Node.areGrouped_cons {node : Node} {rest : List Node} :
    Node.AreGrouped (node :: rest) ↔ node.IsGrouped ∧ Node.AreGrouped rest :=
  List.forall_mem_cons

theorem Node.areGrouped_append {first second : List Node} :
    Node.AreGrouped (first ++ second) ↔ Node.AreGrouped first ∧ Node.AreGrouped second :=
  List.forall_mem_append

theorem BinaryOperator.rightPower_le (operator : BinaryOperator) :
    operator.rightPower ≤ operator.leftPower := by
  cases operator <;> decide

theorem BinaryOperator.leftPower_le (operator : BinaryOperator) :
    operator.leftPower ≤ operator.rightPower + 1 := by
  cases operator <;> decide

/-- An expression that holds on to what follows binds, on its left edge, as tightly. -/
theorem Expression.opensAbove_of_closesAt {limit power : Nat} (tighter : limit < power) :
    ∀ expression : Expression, Node.AreGrouped expression.nodes → expression.ClosesAt power →
      expression.OpensAbove limit
  | .binary operator left right _, grouped, closes => by
    obtain ⟨⟨leftCloses, -⟩, inner⟩ := Node.areGrouped_cons.1 grouped
    have above : limit < operator.leftPower :=
      Nat.lt_of_lt_of_le tighter (Nat.le_trans closes.1 operator.rightPower_le)
    exact ⟨above, left.opensAbove_of_closesAt above (Node.areGrouped_append.1 inner).1 leftCloses⟩
  | .unary .., _, _ | .call .., _, _ | .stringCall .., _, _ | .tableCall .., _, _
  | .function .., _, _ | .group .., _, _ | .name _, _, _ | .index .., _, _ | .member .., _, _
  | .literal _, _, _ | .table .., _, _ => trivial

/-- An expression that binds tightly on its left edge holds on to what follows. -/
theorem Expression.closesAt_of_opensAbove {power : Nat}
    (bounded : power ≤ UnaryOperator.bindingPower) :
    ∀ (expression : Expression) {limit : Nat}, power ≤ limit → Node.AreGrouped expression.nodes →
      expression.OpensAbove limit → expression.ClosesAt power
  | .binary operator left right _, limit, below, grouped, opens => by
    obtain ⟨⟨-, rightOpens⟩, inner⟩ := Node.areGrouped_cons.1 grouped
    have holds : power ≤ operator.rightPower :=
      Nat.le_trans below (Nat.le_of_lt_succ (Nat.lt_of_lt_of_le opens.1 operator.leftPower_le))
    exact ⟨holds,
      right.closesAt_of_opensAbove bounded holds (Node.areGrouped_append.1 inner).2 rightOpens⟩
  | .unary _ argument _, _, _, grouped, _ => by
    obtain ⟨argumentOpens, inner⟩ := Node.areGrouped_cons.1 grouped
    exact ⟨bounded, argument.closesAt_of_opensAbove bounded bounded inner argumentOpens⟩
  | .call .., _, _, _, _ | .stringCall .., _, _, _, _ | .tableCall .., _, _, _, _
  | .function .., _, _, _, _ | .group .., _, _, _, _ | .name _, _, _, _, _
  | .index .., _, _, _, _ | .member .., _, _, _, _ | .literal _, _, _, _, _
  | .table .., _, _, _, _ => trivial

/-! ### Recasting -/

theorem Expression.opensAbove_recast (recasting : Recasting) (limit : Nat) :
    ∀ expression : Expression,
      (expression.recast recasting).OpensAbove limit ↔ expression.OpensAbove limit
  | .binary _ left _ _ => and_congr_right fun _ => left.opensAbove_recast recasting limit
  | .literal _ | .name _ | .group .. | .unary .. | .call .. | .stringCall .. | .tableCall ..
  | .function .. | .index .. | .member .. | .table .. => Iff.rfl

theorem Expression.closesAt_recast (recasting : Recasting) (power : Nat) :
    ∀ expression : Expression,
      (expression.recast recasting).ClosesAt power ↔ expression.ClosesAt power
  | .binary _ _ right _ => and_congr_right fun _ => right.closesAt_recast recasting power
  | .unary _ argument _ => and_congr_right fun _ => argument.closesAt_recast recasting power
  | .literal _ | .name _ | .group .. | .call .. | .stringCall .. | .tableCall .. | .function ..
  | .index .. | .member .. | .table .. => Iff.rfl

/-- Recasting does not move operators. -/
theorem Node.isGrouped_recast (recasting : Recasting) (node : Node) :
    (∀ image ∈ node.recast recasting, image.IsGrouped) ↔ node.IsGrouped := by
  cases node with
  | expression value =>
    rw [Node.recast, List.forall_mem_singleton]
    cases value with
    | binary operator left right span =>
      exact and_congr (left.closesAt_recast recasting _) (right.opensAbove_recast recasting _)
    | unary operator argument span => exact argument.opensAbove_recast recasting _
    | _ => exact Iff.rfl
  | field entry => exact iff_of_true (by simp [Node.recast, Node.IsGrouped]) trivial
  | clause branch => exact iff_of_true (by simp [Node.recast, Node.IsGrouped]) trivial
  | statement step => exact iff_of_true (by simp [Node.recast, Node.IsGrouped]) trivial

end LuaStyle
