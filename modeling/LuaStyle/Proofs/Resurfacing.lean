/-
This file proves that the surface of a tree is laid out as the tree.

The parentheses of a layout are groups of its surface, and a group is laid out as what is inside it,
so the parentheses have to be needed again; and they are, because the surface of an operand decides
about them as the operand does. The one exception is a right operand that goes without parentheses
although it has the very same operator. The surface hangs such a chain to the left, where it gets
parentheses after all. So the tree must not have a right operand like that.
-/

import LuaStyle.Proofs.Showing

namespace LuaStyle

/-! ### Chains on the right -/

/-- The node has a right operand with the very same operator, in parentheses or not, and the parser
hangs such a chain to the left once the parentheses are gone. -/
def Node.regroups : Node → Bool
  | .expression (.binary operator _ right _) =>
    operator.isChain && right.unwrapGroups.form == .binary operator
  | _ => false

/-- None of the nodes has such a right operand. -/
def Node.NoneRegroups (nodes : List Node) : Prop :=
  ∀ node ∈ nodes, node.regroups = false

theorem Node.noneRegroups_cons {node : Node} {rest : List Node} :
    Node.NoneRegroups (node :: rest) ↔ node.regroups = false ∧ Node.NoneRegroups rest :=
  List.forall_mem_cons

theorem Node.noneRegroups_append {first second : List Node} :
    Node.NoneRegroups (first ++ second) ↔ Node.NoneRegroups first ∧ Node.NoneRegroups second :=
  List.forall_mem_append

namespace Expression

/-- An operation is written without the parentheses around it. -/
theorem form_unwrapGroups_iff (operator : BinaryOperator) : ∀ expression : Expression,
    expression.unwrapGroups.form = .binary operator ↔
      expression.withoutParens.form = .binary operator
  | group inner span => by
    rw [unwrapGroups, withoutParens]
    split
    · next several =>
      refine iff_of_false (fun same => ?_) (by rintro ⟨⟩)
      have notBase : inner.unwrapGroups.form ≠ .base := by rw [same]; rintro ⟨⟩
      have notOther : inner.unwrapGroups.form ≠ .other := by rw [same]; rintro ⟨⟩
      rw [isMultipleValue_eq_false_of_form notBase notOther] at several
      cases several
    · exact inner.form_unwrapGroups_iff operator
  | binary .. | unary .. | call .. | stringCall .. | tableCall .. | function .. | name _ | index ..
  | member .. | literal _ | table .. => .rfl

/-- Operands are joined to a tree of their own unless the right one is a chain. -/
theorem join_eq_binary {operator : BinaryOperator} {left right : Expression}
    (plain : operator.regroups → right.form ≠ .binary operator) :
    join operator left right = .binary operator left right default := by
  cases right with
  | binary inner middle last span =>
    rw [join, if_neg]
    rintro ⟨rfl, regroups⟩
    exact plain regroups rfl
  | _ => rfl

/-! ### The surface of an operand -/

/-- The surface gets the parentheses that the expression gets, once more. -/
theorem form_withoutParens_surface : ∀ expression : Expression,
    expression.surface.withoutParens.form = expression.withoutParens.form
  | binary operator left right _ => by
    have form := form_surface (binary operator left right default)
    rw [surface] at form ⊢
    generalize join operator _ _ = joined at form ⊢
    cases joined with
    | binary => exact form
    | literal constant => cases constant with | mk value => cases value <;> cases form
    | _ => cases form
  | call base arguments _ => by
    rw [surface]
    unfold callOf
    split <;> rfl
  | group inner span => by
    rw [surface]
    cases several : inner.isMultipleValue with
    | true =>
      rw [inParens, if_pos rfl,
        form_withoutParens_of_isMultipleValue (isMultipleValue_surface several),
        form_withoutParens_of_isMultipleValue several]
    | false =>
      rw [inParens, if_neg Bool.false_ne_true, form_withoutParens_group several]
      exact form_withoutParens_surface inner
  | unary .. | stringCall .. | tableCall .. | function .. | name _ | index .. | member ..
  | literal _ | table .. => rfl

/-- What is asked about an expression to decide whether it needs parentheses: it depends on the form
alone, and something that can be selected from never needs them. -/
structure IsNeed (needs : Expression → Bool) : Prop where
  congr : ∀ {first second : Expression}, first.form = second.form → needs first = needs second
  base : ∀ {expression : Expression}, expression.form = .base → needs expression = false

theorem isNeed_onLeft (operator : BinaryOperator) : IsNeed (needsParensOnLeft operator) where
  congr same := by rw [needsParensOnLeft_eq, needsParensOnLeft_eq, same]
  base same := by rw [needsParensOnLeft_eq, same]

theorem isNeed_onRight (operator : BinaryOperator) : IsNeed (needsParensOnRight operator) where
  congr same := by rw [needsParensOnRight_eq, needsParensOnRight_eq, same]
  base same := by rw [needsParensOnRight_eq, same]

theorem isNeed_asBase : IsNeed (!·.isBase) where
  congr same := by rw [isBase_eq, isBase_eq, same]
  base same := by
    rw [isBase_eq, same]
    rfl

section

variable {needs : Expression → Bool} (isNeed : IsNeed needs)

include isNeed

/-- Parentheses that were written once are written once again. The group around several values has
parentheses of its own, and nothing asks for more around it. -/
theorem IsNeed.parenthesize_inParens (expression : Expression) (doc : Doc) :
    Doc.parenthesize
        (needs (expression.surface.inParens (needs expression.withoutParens)).withoutParens)
        (Doc.parenthesize (needs expression.withoutParens && expression.surface.isMultipleValue)
          doc) =
      Doc.parenthesize (needs expression.withoutParens) doc := by
  have surface := isNeed.congr expression.form_withoutParens_surface
  cases needed : needs expression.withoutParens with
  | false =>
    rw [inParens, if_neg Bool.false_ne_true, surface, needed]
    rfl
  | true =>
    rw [inParens, if_pos rfl]
    cases several : expression.surface.isMultipleValue with
    | true =>
      rw [isNeed.base (form_withoutParens_of_isMultipleValue several default)]
      rfl
    | false =>
      rw [isNeed.congr (form_withoutParens_group several default), surface, needed]
      rfl

end

theorem baseDoc_surface (base : Expression) (doc : Doc) :
    (base.surface.inParens (!base.withoutParens.isBase)).baseDoc
        (Doc.parenthesize (!base.withoutParens.isBase && base.surface.isMultipleValue) doc) =
      base.baseDoc doc :=
  isNeed_asBase.parenthesize_inParens base doc

theorem binaryDoc_surface (operator : BinaryOperator) (left right : Expression)
    (leftDoc rightDoc : Doc) :
    binaryDoc operator (left.surface.inParens (left.withoutParens.needsParensOnLeft operator))
        (right.surface.inParens (right.withoutParens.needsParensOnRight operator))
        (Doc.parenthesize
          (left.withoutParens.needsParensOnLeft operator && left.surface.isMultipleValue) leftDoc)
        (Doc.parenthesize
          (right.withoutParens.needsParensOnRight operator && right.surface.isMultipleValue)
          rightDoc) =
      binaryDoc operator left right leftDoc rightDoc := by
  rw [binaryDoc, binaryDoc, (isNeed_onLeft operator).parenthesize_inParens,
    (isNeed_onRight operator).parenthesize_inParens]

theorem unaryDoc_surface (operator : UnaryOperator) (argument : Expression) (doc : Doc) :
    unaryDoc operator (argument.surface.inParens argument.withoutParens.needsParensUnderUnary)
        (Doc.parenthesize
          (argument.withoutParens.needsParensUnderUnary && argument.surface.isMultipleValue) doc) =
      unaryDoc operator argument doc := by
  cases needed : argument.withoutParens.needsParensUnderUnary with
  | false => exact unaryDoc_congr argument.form_withoutParens_surface operator doc
  | true =>
    have single : argument.surface.isMultipleValue = false := by
      refine isMultipleValue_of_needsParensUnderUnary ?_
      rw [needsParensUnderUnary_surface, needed]
    have form := form_withoutParens_group single default
    rw [single]
    exact unaryDoc_congr (form.trans argument.form_withoutParens_surface) operator doc

/-- What is hung on the right of an operator stays there. -/
theorem join_surface {operator : BinaryOperator} {left right : Expression} {span : Span}
    (plain : (Node.expression (binary operator left right span)).regroups = false)
    (first : Expression) (needed : Bool) :
    join operator first (right.surface.inParens needed) =
      .binary operator first (right.surface.inParens needed) default := by
  refine join_eq_binary fun regroups same => ?_
  cases needed with
  | true => cases same
  | false =>
    have unwrapped := (right.form_unwrapGroups_iff operator).2 (right.form_surface.symm.trans same)
    rw [Node.regroups, operator.isChain_eq_regroups, regroups, unwrapped, beq_self_eq_true] at plain
    cases plain

/-- A group around several values is around several values in the surface. -/
theorem isMultipleValue_and_surface (expression : Expression) :
    (expression.isMultipleValue && expression.surface.isMultipleValue) =
      expression.isMultipleValue := by
  cases several : expression.isMultipleValue with
  | false => rfl
  | true => exact isMultipleValue_surface several

theorem surfaces_eq_map (expressions : List Expression) :
    surfaces expressions = expressions.map surface := by
  induction expressions with
  | nil => rfl
  | cons expression rest inductionHypothesis => rw [surfaces, inductionHypothesis, List.map_cons]

theorem isEmpty_surfaces (expressions : List Expression) :
    (surfaces expressions).isEmpty = expressions.isEmpty := by
  rw [surfaces_eq_map, List.isEmpty_map]

theorem argumentsDoc_surfaces (arguments : List Expression) :
    argumentsDoc (surfaces arguments) = argumentsDoc arguments := by
  refine funext (argumentsDoc_congr ?_)
  rw [surfaces_eq_map, List.map_map]
  exact List.map_congr_left fun argument _ => argument.form_withoutParens_surface

end Expression

/-! ### Blocks and tables -/

theorem Statement.map_role_surfaces (body : List Statement) :
    (surfaces body).map role = body.map role := by
  induction body with
  | nil => rfl
  | cons statement rest inductionHypothesis =>
    have first : statement.surface.role = statement.role := by
      cases statement <;> rfl
    rw [surfaces, List.map_cons, first, inductionHypothesis, List.map_cons]

theorem Statement.blockDoc_surfaces (config : Config) (depth : Nat) (isClosed : Bool)
    (body : List Statement) :
    blockDoc config depth isClosed (surfaces body) = blockDoc config depth isClosed body :=
  funext (blockDoc_congr config depth isClosed (map_role_surfaces body))

theorem Field.map_isComment_surfaces (fields : List Field) :
    (surfaces fields).map isComment = fields.map isComment := by
  induction fields with
  | nil => rfl
  | cons field rest inductionHypothesis =>
    have first : field.surface.isComment = field.isComment := by
      cases field <;> rfl
    rw [surfaces, List.map_cons, first, inductionHypothesis, List.map_cons]

theorem Field.tableDoc_surfaces (config : Config) (depth : Nat) (fields : List Field) :
    tableDoc config depth (surfaces fields) = tableDoc config depth fields :=
  funext (tableDoc_congr config depth (map_isComment_surfaces fields))

theorem Clause.isEmpty_surfaces (clauses : List Clause) :
    (surfaces clauses).isEmpty = clauses.isEmpty := by
  cases clauses <;> rfl

/-! ### The layout of a surface -/

section

variable (config : Config) (depth : Nat)

theorem Expression.toOption_doc_inParens (inner : Expression) (needed : Bool) :
    ((inner.inParens needed).doc config depth).toOption =
      (inner.doc config depth).toOption.map
        (Doc.parenthesize (needed && inner.isMultipleValue)) := by
  cases needed with
  | false => exact (congrFun Option.map_id _).symm
  | true =>
    rw [inParens, if_pos rfl, doc, toOption_bind, Option.map_eq_bind]
    rfl

/-- A single argument without parentheses is all that the arguments are laid out as. -/
theorem Expression.argumentsDoc_of_isBareArgument (argument : Expression)
    (bare : argument.withoutParens.isBareArgument) (doc : Doc) :
    argumentsDoc [argument] [doc] = doc := by
  rw [argumentsDoc, bare]
  exact Doc.commaSeparated_singleton doc

/-- The two short forms of a call are laid out as the call with the argument in parentheses. -/
theorem Expression.toOption_doc_callOf (base : Expression) (arguments : List Expression) :
    ((callOf base arguments).doc config depth).toOption =
      ((call base arguments default).doc config depth).toOption := by
  unfold callOf
  split
  · next bytes raw span =>
    have bare := argumentsDoc_of_isBareArgument (literal ⟨.string bytes, raw, span⟩) rfl
    simp only [doc, docs, toOption_bind, toOption_pure, Option.bind_assoc, Option.bind_some, bare]
  · next fields span =>
    have bare := argumentsDoc_of_isBareArgument (table fields span) rfl
    simp only [doc, docs, toOption_bind, toOption_pure, Option.bind_assoc, Option.bind_some, bare]
  · rfl

end

variable (config : Config)

mutual

/-- The surface of an expression is laid out as the expression. -/
theorem Expression.toOption_doc_surface : ∀ (expression : Expression) (depth : Nat),
    Node.NoneRegroups expression.nodes →
      (expression.surface.doc config depth).toOption = (expression.doc config depth).toOption
  | .binary operator left right _, depth, plain => by
    obtain ⟨plainRight, inner⟩ := Node.noneRegroups_cons.1 plain
    obtain ⟨leftPlain, rightPlain⟩ := Node.noneRegroups_append.1 inner
    rw [Expression.surface, Expression.join_surface plainRight]
    simp only [Expression.doc, toOption_bind, toOption_pure, Expression.toOption_doc_inParens,
      Option.bind_map, left.toOption_doc_surface depth leftPlain,
      right.toOption_doc_surface depth rightPlain, Function.comp_def,
      Expression.binaryDoc_surface]
  | .unary operator argument _, depth, plain => by
    obtain ⟨-, inner⟩ := Node.noneRegroups_cons.1 plain
    rw [Expression.surface]
    simp only [Expression.doc, toOption_bind, toOption_pure, Expression.toOption_doc_inParens,
      Option.bind_map, argument.toOption_doc_surface depth inner, Function.comp_def,
      Expression.unaryDoc_surface]
  | .call base arguments _, depth, plain => by
    obtain ⟨-, inner⟩ := Node.noneRegroups_cons.1 plain
    obtain ⟨basePlain, argumentsPlain⟩ := Node.noneRegroups_append.1 inner
    rw [Expression.surface, Expression.toOption_doc_callOf]
    simp only [Expression.doc, toOption_bind, toOption_pure, Expression.toOption_doc_inParens,
      Option.bind_map, base.toOption_doc_surface depth basePlain,
      Expression.toOption_docs_surfaces arguments depth argumentsPlain, Function.comp_def,
      Expression.baseDoc_surface, Expression.argumentsDoc_surfaces]
  | .stringCall base argument _, depth, plain => by
    obtain ⟨-, inner⟩ := Node.noneRegroups_cons.1 plain
    rw [Expression.surface]
    simp only [Expression.doc, toOption_bind, toOption_pure, Expression.toOption_doc_inParens,
      Option.bind_map, base.toOption_doc_surface depth inner, Function.comp_def,
      Expression.baseDoc_surface]
  | .tableCall base fields _ _, depth, plain => by
    obtain ⟨-, inner⟩ := Node.noneRegroups_cons.1 plain
    obtain ⟨basePlain, fieldsPlain⟩ := Node.noneRegroups_append.1 inner
    rw [Expression.surface]
    simp only [Expression.doc, toOption_bind, toOption_pure, Expression.toOption_doc_inParens,
      Option.bind_map, base.toOption_doc_surface depth basePlain,
      Field.toOption_docs_surfaces fields (depth + 1) fieldsPlain, Function.comp_def,
      Expression.baseDoc_surface, Field.tableDoc_surfaces]
  | .function head parameters body _, depth, plain => by
    obtain ⟨-, inner⟩ := Node.noneRegroups_cons.1 plain
    rw [Expression.surface]
    simp only [Expression.doc, toOption_bind, toOption_pure,
      Statement.toOption_docs_surfaces body (depth + 1) inner, Statement.blockDoc_surfaces]
  | .group inner _, depth, plain => by
    obtain ⟨-, innerPlain⟩ := Node.noneRegroups_cons.1 plain
    rw [Expression.surface, Expression.toOption_doc_inParens, Expression.doc, toOption_bind,
      inner.toOption_doc_surface depth innerPlain, Option.map_eq_bind,
      Expression.isMultipleValue_and_surface]
    rfl
  | .name _, _, _ => rfl
  | .index base key _, depth, plain => by
    obtain ⟨-, inner⟩ := Node.noneRegroups_cons.1 plain
    obtain ⟨basePlain, keyPlain⟩ := Node.noneRegroups_append.1 inner
    rw [Expression.surface]
    simp only [Expression.doc, toOption_bind, toOption_pure, Expression.toOption_doc_inParens,
      Option.bind_map, base.toOption_doc_surface depth basePlain,
      key.toOption_doc_surface depth keyPlain, Function.comp_def, Expression.baseDoc_surface]
  | .member base _ _ _, depth, plain => by
    obtain ⟨-, inner⟩ := Node.noneRegroups_cons.1 plain
    rw [Expression.surface]
    simp only [Expression.doc, toOption_bind, toOption_pure, Expression.toOption_doc_inParens,
      Option.bind_map, base.toOption_doc_surface depth inner, Function.comp_def,
      Expression.baseDoc_surface]
  | .literal _, _, _ => rfl
  | .table fields _, depth, plain => by
    obtain ⟨-, inner⟩ := Node.noneRegroups_cons.1 plain
    rw [Expression.surface]
    simp only [Expression.doc, toOption_bind, toOption_pure,
      Field.toOption_docs_surfaces fields (depth + 1) inner, Field.tableDoc_surfaces]

theorem Expression.toOption_docs_surfaces : ∀ (expressions : List Expression) (depth : Nat),
    Node.NoneRegroups (Expression.nodesOfAll expressions) →
      (Expression.docs config depth (Expression.surfaces expressions)).toOption =
        (Expression.docs config depth expressions).toOption
  | [], _, _ => rfl
  | expression :: rest, depth, plain => by
    obtain ⟨first, others⟩ := Node.noneRegroups_append.1 plain
    simp only [Expression.surfaces, Expression.docs, toOption_bind, toOption_pure,
      expression.toOption_doc_surface depth first, Expression.toOption_docs_surfaces rest depth
        others]

theorem Expression.toOption_optionalDocs_surface : ∀ (optional : Option Expression) (depth : Nat),
    Node.NoneRegroups (Expression.nodesOfOptional optional) →
      (Expression.optionalDocs config depth (Expression.surfaceOptional optional)).toOption =
        (Expression.optionalDocs config depth optional).toOption
  | none, _, _ => rfl
  | some expression, depth, plain => by
    simp only [Expression.surfaceOptional, Expression.optionalDocs, toOption_bind, toOption_pure,
      expression.toOption_doc_surface depth plain]

theorem Field.toOption_doc_surface : ∀ (field : Field) (depth : Nat),
    Node.NoneRegroups field.nodes →
      (field.surface.doc config depth).toOption = (field.doc config depth).toOption
  | .keyed key value _, depth, plain => by
    obtain ⟨-, inner⟩ := Node.noneRegroups_cons.1 plain
    obtain ⟨keyPlain, valuePlain⟩ := Node.noneRegroups_append.1 inner
    simp only [Field.surface, Field.doc, toOption_bind, toOption_pure,
      key.toOption_doc_surface depth keyPlain, value.toOption_doc_surface depth valuePlain]
  | .named _ value _, depth, plain => by
    obtain ⟨-, inner⟩ := Node.noneRegroups_cons.1 plain
    simp only [Field.surface, Field.doc, toOption_bind, toOption_pure,
      value.toOption_doc_surface depth inner]
  | .positional value, depth, plain => by
    obtain ⟨-, inner⟩ := Node.noneRegroups_cons.1 plain
    exact value.toOption_doc_surface depth inner
  | .comment _, _, _ => rfl

theorem Field.toOption_docs_surfaces : ∀ (fields : List Field) (depth : Nat),
    Node.NoneRegroups (Field.nodesOfAll fields) →
      (Field.docs config depth (Field.surfaces fields)).toOption =
        (Field.docs config depth fields).toOption
  | [], _, _ => rfl
  | field :: rest, depth, plain => by
    obtain ⟨first, others⟩ := Node.noneRegroups_append.1 plain
    simp only [Field.surfaces, Field.docs, toOption_bind, toOption_pure,
      field.toOption_doc_surface depth first, Field.toOption_docs_surfaces rest depth others]

theorem Clause.toOption_doc_surface : ∀ (clause : Clause) (depth : Nat) (isLast : Bool),
    Node.NoneRegroups clause.nodes →
      (clause.surface.doc config depth isLast).toOption =
        (clause.doc config depth isLast).toOption
  | .guarded _ condition body _, depth, isLast, plain => by
    obtain ⟨-, inner⟩ := Node.noneRegroups_cons.1 plain
    obtain ⟨conditionPlain, bodyPlain⟩ := Node.noneRegroups_append.1 inner
    simp only [Clause.surface, Clause.doc, toOption_bind, toOption_pure,
      condition.toOption_doc_surface depth conditionPlain,
      Statement.toOption_docs_surfaces body (depth + 1) bodyPlain, Statement.blockDoc_surfaces]
  | .otherwise body _, depth, isLast, plain => by
    obtain ⟨-, inner⟩ := Node.noneRegroups_cons.1 plain
    simp only [Clause.surface, Clause.doc, toOption_bind, toOption_pure,
      Statement.toOption_docs_surfaces body (depth + 1) inner, Statement.blockDoc_surfaces]

theorem Clause.toOption_docs_surfaces : ∀ (clauses : List Clause) (depth : Nat),
    Node.NoneRegroups (Clause.nodesOfAll clauses) →
      (Clause.docs config depth (Clause.surfaces clauses)).toOption =
        (Clause.docs config depth clauses).toOption
  | [], _, _ => rfl
  | clause :: rest, depth, plain => by
    obtain ⟨first, others⟩ := Node.noneRegroups_append.1 plain
    simp only [Clause.surfaces, Clause.docs, toOption_bind, toOption_pure,
      clause.toOption_doc_surface depth _ first, Clause.toOption_docs_surfaces rest depth others,
      Clause.isEmpty_surfaces]

theorem Statement.toOption_doc_surface : ∀ (statement : Statement) (depth : Nat),
    Node.NoneRegroups statement.nodes →
      (statement.surface.doc config depth).toOption = (statement.doc config depth).toOption
  | .assignment targets values _, depth, plain => by
    obtain ⟨-, inner⟩ := Node.noneRegroups_cons.1 plain
    obtain ⟨targetsPlain, valuesPlain⟩ := Node.noneRegroups_append.1 inner
    simp only [Statement.surface, Statement.doc, toOption_bind, toOption_pure,
      Expression.toOption_docs_surfaces targets depth targetsPlain,
      Expression.toOption_docs_surfaces values depth valuesPlain]
  | .breakLoop _, _, _ => rfl
  | .call expression _, depth, plain => by
    obtain ⟨-, inner⟩ := Node.noneRegroups_cons.1 plain
    simp only [Statement.surface, Statement.doc, Expression.isCall_surface]
    split
    · exact expression.toOption_doc_surface depth inner
    · rfl
  | .comment _, _, _ => rfl
  | .doBlock body _, depth, plain => by
    obtain ⟨-, inner⟩ := Node.noneRegroups_cons.1 plain
    simp only [Statement.surface, Statement.doc, toOption_bind, toOption_pure,
      Statement.toOption_docs_surfaces body (depth + 1) inner, Statement.blockDoc_surfaces]
  | .genericFor _ iterators body _, depth, plain => by
    obtain ⟨-, inner⟩ := Node.noneRegroups_cons.1 plain
    obtain ⟨iteratorsPlain, bodyPlain⟩ := Node.noneRegroups_append.1 inner
    simp only [Statement.surface, Statement.doc, toOption_bind, toOption_pure,
      Expression.toOption_docs_surfaces iterators depth iteratorsPlain,
      Statement.toOption_docs_surfaces body (depth + 1) bodyPlain, Statement.blockDoc_surfaces]
  | .numericFor _ first last step body _, depth, plain => by
    obtain ⟨-, inner⟩ := Node.noneRegroups_cons.1 plain
    obtain ⟨inner, bodyPlain⟩ := Node.noneRegroups_append.1 inner
    obtain ⟨inner, stepPlain⟩ := Node.noneRegroups_append.1 inner
    obtain ⟨firstPlain, lastPlain⟩ := Node.noneRegroups_append.1 inner
    simp only [Statement.surface, Statement.doc, toOption_bind, toOption_pure,
      first.toOption_doc_surface depth firstPlain, last.toOption_doc_surface depth lastPlain,
      Expression.toOption_optionalDocs_surface step depth stepPlain,
      Statement.toOption_docs_surfaces body (depth + 1) bodyPlain, Statement.blockDoc_surfaces]
  | .function _ _ body _, depth, plain => by
    obtain ⟨-, inner⟩ := Node.noneRegroups_cons.1 plain
    simp only [Statement.surface, Statement.doc, toOption_bind, toOption_pure,
      Statement.toOption_docs_surfaces body (depth + 1) inner, Statement.blockDoc_surfaces]
  | .goto _ _, _, _ => rfl
  | .ifElse clauses _, depth, plain => by
    obtain ⟨-, inner⟩ := Node.noneRegroups_cons.1 plain
    simp only [Statement.surface, Statement.doc, Clause.isEmpty_surfaces]
    split
    · rfl
    · simp only [toOption_bind, toOption_pure, Clause.toOption_docs_surfaces clauses depth inner]
  | .label _ _, _, _ => rfl
  | .localVariables _ values _, depth, plain => by
    obtain ⟨-, inner⟩ := Node.noneRegroups_cons.1 plain
    simp only [Statement.surface, Statement.doc, toOption_bind, toOption_pure,
      Expression.toOption_docs_surfaces values depth inner, Expression.isEmpty_surfaces]
  | .repeatUntil body condition _, depth, plain => by
    obtain ⟨-, inner⟩ := Node.noneRegroups_cons.1 plain
    obtain ⟨bodyPlain, conditionPlain⟩ := Node.noneRegroups_append.1 inner
    simp only [Statement.surface, Statement.doc, toOption_bind, toOption_pure,
      Statement.toOption_docs_surfaces body (depth + 1) bodyPlain,
      condition.toOption_doc_surface depth conditionPlain, Statement.blockDoc_surfaces]
  | .returnValues values _, depth, plain => by
    obtain ⟨-, inner⟩ := Node.noneRegroups_cons.1 plain
    simp only [Statement.surface, Statement.doc, toOption_bind, toOption_pure,
      Expression.toOption_docs_surfaces values depth inner, Expression.isEmpty_surfaces]
  | .whileLoop condition body _, depth, plain => by
    obtain ⟨-, inner⟩ := Node.noneRegroups_cons.1 plain
    obtain ⟨conditionPlain, bodyPlain⟩ := Node.noneRegroups_append.1 inner
    simp only [Statement.surface, Statement.doc, toOption_bind, toOption_pure,
      condition.toOption_doc_surface depth conditionPlain,
      Statement.toOption_docs_surfaces body (depth + 1) bodyPlain, Statement.blockDoc_surfaces]

theorem Statement.toOption_docs_surfaces : ∀ (body : List Statement) (depth : Nat),
    Node.NoneRegroups (Statement.nodesOfAll body) →
      (Statement.docs config depth (Statement.surfaces body)).toOption =
        (Statement.docs config depth body).toOption
  | [], _, _ => rfl
  | statement :: rest, depth, plain => by
    obtain ⟨first, others⟩ := Node.noneRegroups_append.1 plain
    simp only [Statement.surfaces, Statement.docs, toOption_bind, toOption_pure,
      statement.toOption_doc_surface depth first, Statement.toOption_docs_surfaces rest depth
        others]

end

/-- The surface of a chunk is laid out as the chunk. -/
theorem Chunk.toOption_doc_surfaces {body : List Statement} (span : Span)
    (plain : Node.NoneRegroups (Statement.nodesOfAll body)) :
    ((Chunk.mk (Statement.surfaces body) span).doc config).toOption =
      ((Chunk.mk body span).doc config).toOption := by
  simp only [Chunk.doc, toOption_bind, toOption_pure,
    Statement.toOption_docs_surfaces config body 0 plain,
    Statement.stack_congr config 0 (Statement.map_role_surfaces body)]

end LuaStyle
