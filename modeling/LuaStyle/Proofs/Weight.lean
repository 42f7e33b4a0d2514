/-
This file gives trees a weight that goes down whenever formatting regroups a chain.

Only operators whose chains may be grouped either way weigh anything. An operation of such an
operator weighs as much as the chain that hangs from its right operand is long, and a tree weighs
as much as its operations together. The chain goes on through operands of the same operator,
whether or not they are in parentheses, and ends at all others.

On the way to its surface a tree keeps the length of every chain. Hanging a chain to the left takes
operations out of right operands, and nothing else that happens makes a right operand longer. So a
tree that weighs as much as its surface has no chain that regroups, and such a tree weighs nothing.
-/

import LuaStyle.Proofs.Resurfacing
import Mathlib.Algebra.GroupWithZero.Nat

namespace LuaStyle

/-! ### Chains and weight -/

/-- How many operations of the operator are in the chain that the expression is. Parentheses do not
interrupt a chain. -/
def Expression.chainLength (operator : BinaryOperator) : Expression → Nat
  | binary inner left right _ =>
    if inner = operator then left.chainLength operator + right.chainLength operator + 1 else 0
  | group inner _ => inner.chainLength operator
  | _ => 0

namespace Node

/-- What an operation adds to the weight of a tree. -/
def load : Node → Nat
  | .expression (.binary operator _ right _) =>
    if operator.isChain then right.chainLength operator else 0
  | _ => 0

/-- What the nodes weigh together. -/
def weight (nodes : List Node) : Nat :=
  (nodes.map load).sum

theorem weight_cons (node : Node) (rest : List Node) :
    weight (node :: rest) = node.load + weight rest := by
  rw [weight, weight, List.map_cons, List.sum_cons]

theorem weight_append (first second : List Node) :
    weight (first ++ second) = weight first + weight second := by
  rw [weight, weight, weight, List.map_append, List.sum_append]

end Node

/-- Only an operation of the operator starts a chain of it. -/
theorem Expression.chainLength_eq_zero {operator : BinaryOperator} : ∀ {expression : Expression},
    expression.unwrapGroups.form ≠ .binary operator → expression.chainLength operator = 0
  | binary inner left right span, other => by
    rw [chainLength, if_neg]
    rintro rfl
    exact other rfl
  | group inner _, other => @chainLength_eq_zero _ inner other
  | .unary .., _ | .call .., _ | .stringCall .., _ | .tableCall .., _ | .function .., _
  | .name _, _ | .index .., _ | .member .., _ | .literal _, _ | .table .., _ => rfl

/-- Where no chain regroups, nothing weighs anything. -/
theorem Node.NoneRegroups.weight_eq_zero {nodes : List Node} (plain : NoneRegroups nodes) :
    weight nodes = 0 := by
  induction nodes with
  | nil => rfl
  | cons node rest inductionHypothesis =>
    obtain ⟨stays, others⟩ := noneRegroups_cons.1 plain
    rw [weight_cons, inductionHypothesis others, Nat.add_zero]
    cases node with
    | expression value =>
      cases value with
      | binary operator left right span =>
        rw [load]
        split
        next isChain =>
          rw [regroups, isChain, Bool.true_and, beq_eq_false_iff_ne] at stays
          exact Expression.chainLength_eq_zero stays
        · rfl
      | _ => rfl
    | _ => rfl

/-! ### Recasting -/

section

variable (recasting : Recasting)

theorem Expression.chainLength_recast (operator : BinaryOperator) : ∀ expression : Expression,
    (expression.recast recasting).chainLength operator = expression.chainLength operator
  | binary inner left right span => by
    rw [recast, chainLength, chainLength, left.chainLength_recast, right.chainLength_recast]
  | group inner _ => inner.chainLength_recast operator
  | .unary .. | .call .. | .stringCall .. | .tableCall .. | .function .. | .name _ | .index ..
  | .member .. | .literal _ | .table .. => rfl

theorem Node.weight_recast (node : Node) : weight (node.recast recasting) = node.load := by
  cases node with
  | expression value =>
    cases value with
    | binary operator left right span =>
      rw [recast, Expression.recast, weight_cons, load, Expression.chainLength_recast]
      rfl
    | _ => rfl
  | field entry =>
    cases entry with
    | comment remark =>
      rw [recast, Field.recast]
      cases recasting.comment remark <;> rfl
    | _ => rfl
  | clause branch => rfl
  | statement step =>
    cases step with
    | comment remark =>
      rw [recast, Statement.recast]
      cases recasting.comment remark <;> rfl
    | _ => rfl

theorem Node.weight_flatMap_recast (nodes : List Node) :
    weight (nodes.flatMap (Node.recast recasting)) = weight nodes := by
  induction nodes with
  | nil => rfl
  | cons node rest inductionHypothesis =>
    rw [List.flatMap_cons, weight_append, weight_recast, inductionHypothesis, weight_cons]

end

namespace Node

/-! ### Lightening -/

/-- The first nodes weigh no more than the second ones, and less if a chain among the second ones
regroups. -/
structure Lightens (after before : List Node) : Prop where
  weight_le : weight after ≤ weight before
  plain : weight after = weight before → NoneRegroups before

namespace Lightens

variable {after before others rest : List Node}

theorem nil : Lightens [] [] :=
  ⟨Nat.le_refl _, fun _ => List.forall_mem_nil _⟩

theorem append (first : Lightens after before) (second : Lightens others rest) :
    Lightens (after ++ others) (before ++ rest) where
  weight_le := by
    rw [weight_append, weight_append]
    exact Nat.add_le_add first.weight_le second.weight_le
  plain same := by
    have firstLe := first.weight_le
    have secondLe := second.weight_le
    rw [weight_append, weight_append] at same
    exact noneRegroups_append.2 ⟨first.plain (by omega), second.plain (by omega)⟩

theorem congr (lightens : Lightens after before) (weight_eq : weight others = weight after) :
    Lightens others before where
  weight_le := weight_eq ▸ lightens.weight_le
  plain := weight_eq ▸ lightens.plain

/-- A node around the nodes is of no matter if it weighs nothing. -/
theorem wrapped {node : Node} (inner : Lightens after before) (free : node.load = 0)
    (stays : node.regroups = false) : Lightens after (node :: before) where
  weight_le := by
    rw [weight_cons, free, Nat.zero_add]
    exact inner.weight_le
  plain same := by
    rw [weight_cons, free, Nat.zero_add] at same
    exact noneRegroups_cons.2 ⟨stays, inner.plain same⟩

/-- Nor is it of any matter if there is such a node on either side. -/
theorem cons {image node : Node} (inner : Lightens after before)
    (free : image.load = 0 ∧ node.load = 0) (stays : node.regroups = false) :
    Lightens (image :: after) (node :: before) :=
  (inner.wrapped free.2 stays).congr (by rw [weight_cons, free.1, Nat.zero_add])

end Lightens

end Node

/-! ### Surfaces -/

namespace Expression

theorem chainLength_inParens (operator : BinaryOperator) (needed : Bool) (inner : Expression) :
    (inner.inParens needed).chainLength operator = inner.chainLength operator := by
  cases needed <;> rfl

theorem weight_inParens (needed : Bool) (inner : Expression) :
    Node.weight (inner.inParens needed).nodes = Node.weight inner.nodes := by
  cases needed with
  | false => rfl
  | true =>
    rw [inParens, if_pos rfl, nodes, Node.weight_cons]
    exact Nat.zero_add _

/-- Hanging a chain to the left makes it no shorter and no longer. -/
theorem chainLength_join (operator inner : BinaryOperator) (left : Expression) :
    ∀ right : Expression, (join inner left right).chainLength operator =
      (binary inner left right default).chainLength operator
  | binary other middle last span => by
    rw [join]
    split
    next same =>
      rw [chainLength, chainLength_join operator inner left middle, same.1]
      simp only [chainLength]
      split <;> omega
    · rfl
  | .literal _ | .name _ | .group .. | .unary .. | .call .. | .stringCall .. | .tableCall ..
  | .function .. | .index .. | .member .. | .table .. => rfl

theorem chainLength_callOf (operator : BinaryOperator) (base : Expression)
    (arguments : List Expression) : (callOf base arguments).chainLength operator = 0 := by
  unfold callOf
  split <;> rfl

/-- The chains of a tree are as long as those of its surface. -/
theorem chainLength_surface (operator : BinaryOperator) : ∀ expression : Expression,
    expression.surface.chainLength operator = expression.chainLength operator
  | binary inner left right _ => by
    rw [surface, chainLength_join, chainLength, chainLength_inParens, chainLength_inParens,
      left.chainLength_surface, right.chainLength_surface, chainLength]
  | call base arguments _ => by
    rw [surface, chainLength_callOf]
    rfl
  | group inner _ => by
    rw [surface, chainLength_inParens, inner.chainLength_surface]
    rfl
  | .unary .. | .stringCall .. | .tableCall .. | .function .. | .name _ | .index .. | .member ..
  | .literal _ | .table .. => rfl

theorem weight_binary (operator : BinaryOperator) (left right : Expression) (span : Span) :
    Node.weight (binary operator left right span).nodes =
      (if operator.isChain then right.chainLength operator else 0) +
        (Node.weight left.nodes + Node.weight right.nodes) := by
  rw [nodes, Node.weight_cons, Node.weight_append]
  rfl

/-- Two operands that are joined weigh no more than the operation on them, and less if the right one
is a chain that is hung to the left. -/
theorem weight_join (operator : BinaryOperator) (left : Expression) : ∀ right : Expression,
    Node.weight (join operator left right).nodes ≤
        Node.weight (binary operator left right default).nodes ∧
      (operator.isChain → right.form = .binary operator →
        Node.weight (join operator left right).nodes <
          Node.weight (binary operator left right default).nodes)
  | binary inner middle last span => by
    rw [join, operator.isChain_eq_regroups]
    split
    next same =>
      obtain ⟨rfl, regroups⟩ := same
      have before := (weight_join inner left middle).1
      have isChain := inner.isChain_eq_regroups.trans regroups
      have lighter : Node.weight (binary inner (join inner left middle) last default).nodes <
          Node.weight (binary inner left (binary inner middle last span) default).nodes := by
        simp only [weight_binary, chainLength, if_pos isChain, if_true] at before ⊢
        omega
      exact ⟨Nat.le_of_lt lighter, fun _ _ => lighter⟩
    next other =>
      refine ⟨Nat.le_refl _, fun regroups chain => absurd ⟨?_, regroups⟩ other⟩
      exact Form.binary.inj chain
  | .literal constant => by
    refine ⟨Nat.le_refl _, fun _ chain => ?_⟩
    cases constant with | mk value => cases value <;> cases chain
  | .name _ | .group .. | .unary .. | .call .. | .stringCall .. | .tableCall ..
  | .function .. | .index .. | .member .. | .table .. => by
    refine ⟨Nat.le_refl _, fun _ chain => ?_⟩
    cases chain

/-- A chain on the right of its operator stays without parentheses. -/
theorem needsParensOnRight_of_regroups {operator : BinaryOperator} (regroups : operator.regroups)
    {expression : Expression} (chain : expression.form = .binary operator) :
    expression.needsParensOnRight operator = false := by
  rw [needsParensOnRight_eq, chain]
  cases operator <;> first | rfl | cases regroups

theorem lightens_binary (operator : BinaryOperator) {left right : Expression} {span : Span}
    (leftLightens : Node.Lightens left.surface.nodes left.nodes)
    (rightLightens : Node.Lightens right.surface.nodes right.nodes) :
    Node.Lightens (binary operator left right span).surface.nodes
      (binary operator left right span).nodes := by
  have leftLe := leftLightens.weight_le
  have rightLe := rightLightens.weight_le
  obtain ⟨joined, lighter⟩ := weight_join operator
    (left.surface.inParens (left.withoutParens.needsParensOnLeft operator))
    (right.surface.inParens (right.withoutParens.needsParensOnRight operator))
  rw [weight_binary, weight_inParens, weight_inParens, chainLength_inParens, chainLength_surface]
    at joined lighter
  refine ⟨?_, fun same => ?_⟩
  · rw [surface, weight_binary]
    omega
  · rw [surface, weight_binary] at same
    rw [nodes]
    refine Node.noneRegroups_cons.2 ⟨?_, Node.noneRegroups_append.2
      ⟨leftLightens.plain (by omega), rightLightens.plain (by omega)⟩⟩
    refine Bool.eq_false_iff.2 fun regroups => ?_
    rw [Node.regroups, Bool.and_eq_true, beq_iff_eq, form_unwrapGroups_iff] at regroups
    obtain ⟨isChain, chain⟩ := regroups
    have bare := needsParensOnRight_of_regroups (operator.isChain_eq_regroups ▸ isChain) chain
    have hung := lighter isChain (by rw [bare]; exact right.form_surface.trans chain)
    omega

/-- The short form of a call weighs what the call weighs. -/
theorem weight_callOf (base : Expression) (arguments : List Expression) :
    Node.weight (callOf base arguments).nodes =
      Node.weight (call base arguments default).nodes := by
  unfold callOf
  split
  · rw [nodes, nodes, Node.weight_cons, Node.weight_cons, Node.weight_append]
    rfl
  · rw [nodes, nodes, Node.weight_cons, Node.weight_cons, Node.weight_append, Node.weight_append,
      nodesOfAll, nodesOfAll, nodes, List.append_nil, Node.weight_cons]
    simp only [Node.load, Nat.zero_add]
  · rfl

theorem lightens_callOf {base image : Expression} {arguments images : List Expression} {span : Span}
    (baseLightens : Node.Lightens image.nodes base.nodes)
    (argumentsLighten : Node.Lightens (nodesOfAll images) (nodesOfAll arguments)) :
    Node.Lightens (callOf image images).nodes (call base arguments span).nodes := by
  have whole : Node.Lightens (call image images default).nodes (call base arguments span).nodes :=
    (baseLightens.append argumentsLighten).cons ⟨rfl, rfl⟩ rfl
  exact whole.congr (weight_callOf image images)

theorem lightens_inParens {inner : Expression} {before : List Node} (needed : Bool)
    (lightens : Node.Lightens inner.nodes before) :
    Node.Lightens (inner.inParens needed).nodes before :=
  lightens.congr (weight_inParens needed inner)

end Expression

mutual

/-- The surface of an expression weighs no more than the expression, and less if a chain in it
regroups. -/
theorem Expression.lightens_surface : ∀ expression : Expression,
    Node.Lightens expression.surface.nodes expression.nodes
  | .binary operator left right _ =>
    Expression.lightens_binary operator left.lightens_surface right.lightens_surface
  | .unary operator argument _ => by
    rw [Expression.surface, Expression.nodes, Expression.nodes]
    exact (Expression.lightens_inParens _ argument.lightens_surface).cons ⟨rfl, rfl⟩ rfl
  | .call base arguments _ => by
    rw [Expression.surface]
    exact Expression.lightens_callOf (Expression.lightens_inParens _ base.lightens_surface)
      (Expression.lightens_surfaces arguments)
  | .stringCall base argument _ => by
    rw [Expression.surface, Expression.nodes, Expression.nodes]
    exact (Expression.lightens_inParens _ base.lightens_surface).cons ⟨rfl, rfl⟩ rfl
  | .tableCall base fields _ _ => by
    rw [Expression.surface, Expression.nodes, Expression.nodes]
    exact ((Expression.lightens_inParens _ base.lightens_surface).append
      (Field.lightens_surfaces fields)).cons ⟨rfl, rfl⟩ rfl
  | .function head parameters body _ => (Statement.lightens_surfaces body).cons ⟨rfl, rfl⟩ rfl
  | .group inner _ =>
    (Expression.lightens_inParens _ inner.lightens_surface).wrapped rfl rfl
  | .name _ => .cons .nil ⟨rfl, rfl⟩ rfl
  | .index base key _ => by
    rw [Expression.surface, Expression.nodes, Expression.nodes]
    exact ((Expression.lightens_inParens _ base.lightens_surface).append key.lightens_surface).cons
      ⟨rfl, rfl⟩ rfl
  | .member base selector name _ => by
    rw [Expression.surface, Expression.nodes, Expression.nodes]
    exact (Expression.lightens_inParens _ base.lightens_surface).cons ⟨rfl, rfl⟩ rfl
  | .literal _ => .cons .nil ⟨rfl, rfl⟩ rfl
  | .table fields _ => (Field.lightens_surfaces fields).cons ⟨rfl, rfl⟩ rfl

theorem Expression.lightens_surfaces : ∀ expressions : List Expression,
    Node.Lightens (Expression.nodesOfAll (Expression.surfaces expressions))
      (Expression.nodesOfAll expressions)
  | [] => .nil
  | expression :: rest => expression.lightens_surface.append (Expression.lightens_surfaces rest)

theorem Expression.lightens_surfaceOptional : ∀ optional : Option Expression,
    Node.Lightens (Expression.nodesOfOptional (Expression.surfaceOptional optional))
      (Expression.nodesOfOptional optional)
  | none => .nil
  | some expression => expression.lightens_surface

theorem Field.lightens_surface : ∀ field : Field, Node.Lightens field.surface.nodes field.nodes
  | .keyed key value _ =>
    (key.lightens_surface.append value.lightens_surface).cons ⟨rfl, rfl⟩ rfl
  | .named _ value _ => value.lightens_surface.cons ⟨rfl, rfl⟩ rfl
  | .positional value => value.lightens_surface.cons ⟨rfl, rfl⟩ rfl
  | .comment _ => .cons .nil ⟨rfl, rfl⟩ rfl

theorem Field.lightens_surfaces : ∀ fields : List Field,
    Node.Lightens (Field.nodesOfAll (Field.surfaces fields)) (Field.nodesOfAll fields)
  | [] => .nil
  | field :: rest => field.lightens_surface.append (Field.lightens_surfaces rest)

theorem Clause.lightens_surface : ∀ clause : Clause,
    Node.Lightens clause.surface.nodes clause.nodes
  | .guarded _ condition body _ =>
    (condition.lightens_surface.append (Statement.lightens_surfaces body)).cons ⟨rfl, rfl⟩ rfl
  | .otherwise body _ => (Statement.lightens_surfaces body).cons ⟨rfl, rfl⟩ rfl

theorem Clause.lightens_surfaces : ∀ clauses : List Clause,
    Node.Lightens (Clause.nodesOfAll (Clause.surfaces clauses)) (Clause.nodesOfAll clauses)
  | [] => .nil
  | clause :: rest => clause.lightens_surface.append (Clause.lightens_surfaces rest)

theorem Statement.lightens_surface : ∀ statement : Statement,
    Node.Lightens statement.surface.nodes statement.nodes
  | .assignment targets values _ =>
    ((Expression.lightens_surfaces targets).append (Expression.lightens_surfaces values)).cons
      ⟨rfl, rfl⟩ rfl
  | .breakLoop _ => .cons .nil ⟨rfl, rfl⟩ rfl
  | .call expression _ => expression.lightens_surface.cons ⟨rfl, rfl⟩ rfl
  | .comment _ => .cons .nil ⟨rfl, rfl⟩ rfl
  | .doBlock body _ => (Statement.lightens_surfaces body).cons ⟨rfl, rfl⟩ rfl
  | .genericFor _ iterators body _ =>
    ((Expression.lightens_surfaces iterators).append (Statement.lightens_surfaces body)).cons
      ⟨rfl, rfl⟩ rfl
  | .numericFor _ first last step body _ =>
    (((first.lightens_surface.append last.lightens_surface).append
      (Expression.lightens_surfaceOptional step)).append (Statement.lightens_surfaces body)).cons
      ⟨rfl, rfl⟩ rfl
  | .function _ _ body _ => (Statement.lightens_surfaces body).cons ⟨rfl, rfl⟩ rfl
  | .goto _ _ => .cons .nil ⟨rfl, rfl⟩ rfl
  | .ifElse clauses _ => (Clause.lightens_surfaces clauses).cons ⟨rfl, rfl⟩ rfl
  | .label _ _ => .cons .nil ⟨rfl, rfl⟩ rfl
  | .localVariables _ values _ => (Expression.lightens_surfaces values).cons ⟨rfl, rfl⟩ rfl
  | .repeatUntil body condition _ =>
    ((Statement.lightens_surfaces body).append condition.lightens_surface).cons ⟨rfl, rfl⟩ rfl
  | .returnValues values _ => (Expression.lightens_surfaces values).cons ⟨rfl, rfl⟩ rfl
  | .whileLoop condition body _ =>
    (condition.lightens_surface.append (Statement.lightens_surfaces body)).cons ⟨rfl, rfl⟩ rfl

theorem Statement.lightens_surfaces : ∀ body : List Statement,
    Node.Lightens (Statement.nodesOfAll (Statement.surfaces body)) (Statement.nodesOfAll body)
  | [] => .nil
  | statement :: rest => statement.lightens_surface.append (Statement.lightens_surfaces rest)

end

end LuaStyle
