/-
This file proves that the layout of a tree depends only on what shows of it.

Spans do not show, nor does the way a string was written; of a number and of a comment there shows
what their normal forms keep. Where lines go is decided by which statements are comments or function
declarations and which fields are comments, and where parentheses go by the forms of expressions,
and recasting a tree changes none of these. An error names what was written, so only whether there
is a layout, and which, is compared.
-/

import LuaStyle.Proofs.Meaning
import LuaStyle.Proofs.NumberText
import LuaStyle.Proofs.Written

namespace LuaStyle

/-! ### Results -/

/-- A sequence has a value if both of its parts have. -/
theorem toOption_bind {Error Value Result : Type} (first : Except Error Value)
    (next : Value → Except Error Result) :
    (first >>= next).toOption = first.toOption.bind fun value => (next value).toOption := by
  cases first <;> rfl

theorem toOption_map {Error Value Result : Type} (first : Except Error Value)
    (next : Value → Result) : (first.map next).toOption = first.toOption.map next := by
  cases first <;> rfl

theorem toOption_pure {Error Value : Type} (value : Value) :
    (pure value : Except Error Value).toOption = some value := rfl

/-! ### What decides about lines -/

/-- What decides about the lines around a statement: whether it is a comment, and whether it
declares a function. -/
def Statement.role (statement : Statement) : Bool × Bool :=
  (statement.isComment, statement.isFunctionDeclaration)

namespace Statement

variable {body other : List Statement}

/-- Whether comments lead to a declaration depends on the roles of statements alone. -/
theorem leadToDeclaration_congr (same : body.map role = other.map role) :
    leadToDeclaration body = leadToDeclaration other := by
  induction body generalizing other with
  | nil => rw [List.map_eq_nil_iff.1 same.symm]
  | cons statement rest inductionHypothesis =>
    cases other with
    | nil => cases same
    | cons first others =>
      obtain ⟨sameFirst, sameRest⟩ := List.cons.inj same
      obtain ⟨comment, declaration⟩ := Prod.mk.inj sameFirst
      rw [leadToDeclaration, leadToDeclaration, comment, declaration, inductionHypothesis sameRest]

/-- How statements are put below each other depends on their roles alone. -/
theorem stack_congr (config : Config) (depth : Nat) (same : body.map role = other.map role)
    (docs : List Doc) : stack config depth body docs = stack config depth other docs := by
  induction body generalizing other docs with
  | nil => rw [List.map_eq_nil_iff.1 same.symm]
  | cons statement rest inductionHypothesis =>
    cases other with
    | nil => cases same
    | cons first others =>
      obtain ⟨sameFirst, sameRest⟩ := List.cons.inj same
      obtain ⟨-, declaration⟩ := Prod.mk.inj sameFirst
      have blank : blankLineBetween statement rest = blankLineBetween first others := by
        rw [blankLineBetween, blankLineBetween, declaration, leadToDeclaration_congr sameRest,
          leadToDeclaration_congr same]
      match docs with
      | [] | [_] => rfl
      | doc :: next :: docs => rw [stack, stack, blank, inductionHypothesis sameRest]

/-- Whether a block is one statement depends on the roles alone. -/
theorem isSingle_eq (body : List Statement) :
    isSingle body =
      match body.map role with
      | [(isComment, _)] => !isComment
      | _ => false := by
  match body with
  | [] | [_] | _ :: _ :: _ => rfl

/-- How a block is laid out around its statements depends on their roles alone. -/
theorem blockDoc_congr (config : Config) (depth : Nat) (isClosed : Bool)
    (same : body.map role = other.map role) (docs : List Doc) :
    blockDoc config depth isClosed body docs = blockDoc config depth isClosed other docs := by
  have empty : body.isEmpty = other.isEmpty := by
    rw [← List.isEmpty_map (f := role), same, List.isEmpty_map]
  rw [blockDoc, blockDoc, empty, isSingle_eq, isSingle_eq, same,
    stack_congr config (depth + 1) same]

end Statement

namespace Field

variable {fields other : List Field}

theorem any_isComment_congr (same : fields.map isComment = other.map isComment)
    (test : Bool → Bool) :
    (fields.any fun field => test field.isComment) =
      other.any fun field => test field.isComment := by
  have both := congrArg (List.any · test) same
  simp only [List.any_map] at both
  exact both

theorem stack_congr (depth : Nat) (same : fields.map isComment = other.map isComment)
    (docs : List Doc) : stack depth fields docs = stack depth other docs := by
  induction fields generalizing other docs with
  | nil => rw [List.map_eq_nil_iff.1 same.symm]
  | cons field rest inductionHypothesis =>
    cases other with
    | nil => cases same
    | cons first others =>
      obtain ⟨sameFirst, sameRest⟩ := List.cons.inj same
      cases docs with
      | nil => rfl
      | cons doc docs =>
        rw [stack, stack, sameFirst, any_isComment_congr sameRest not, inductionHypothesis sameRest]

/-- How a table is laid out around its fields depends on which of them are comments. -/
theorem tableDoc_congr (config : Config) (depth : Nat)
    (same : fields.map isComment = other.map isComment) (docs : List Doc) :
    tableDoc config depth fields docs = tableDoc config depth other docs := by
  have length : fields.length = other.length := by
    rw [← List.length_map isComment, same, List.length_map]
  have empty : fields.isEmpty = other.isEmpty := by
    rw [← List.isEmpty_map (f := isComment), same, List.isEmpty_map]
  have comments : fields.any isComment = other.any isComment := any_isComment_congr same id
  rw [tableDoc, tableDoc, empty, length, comments, stack_congr (depth + 1) same]

end Field

/-! ### What decides about parentheses -/

namespace Expression

section

variable {first second : Expression}
  (same : first.withoutParens.form = second.withoutParens.form)

include same

/-- Expressions of one form are laid out alike as a base. -/
theorem baseDoc_congr (doc : Doc) : first.baseDoc doc = second.baseDoc doc := by
  rw [baseDoc, baseDoc, isBase_eq, isBase_eq, same]

/-- Expressions of one form are laid out alike behind a unary operator. -/
theorem unaryDoc_congr (operator : UnaryOperator) (doc : Doc) :
    unaryDoc operator first doc = unaryDoc operator second doc := by
  rw [unaryDoc, unaryDoc, needsParensUnderUnary_eq, needsParensUnderUnary_eq, isUnary_eq,
    isUnary_eq, same]

theorem needsParensOnLeft_congr (operator : BinaryOperator) :
    first.withoutParens.needsParensOnLeft operator =
      second.withoutParens.needsParensOnLeft operator := by
  rw [needsParensOnLeft_eq, needsParensOnLeft_eq, same]

theorem needsParensOnRight_congr (operator : BinaryOperator) :
    first.withoutParens.needsParensOnRight operator =
      second.withoutParens.needsParensOnRight operator := by
  rw [needsParensOnRight_eq, needsParensOnRight_eq, same]

end

/-- The parentheses around two operands are decided by their forms. -/
theorem binaryDoc_congr {left right otherLeft otherRight : Expression}
    (leftSame : left.withoutParens.form = otherLeft.withoutParens.form)
    (rightSame : right.withoutParens.form = otherRight.withoutParens.form)
    (operator : BinaryOperator) (leftDoc rightDoc : Doc) :
    binaryDoc operator left right leftDoc rightDoc =
      binaryDoc operator otherLeft otherRight leftDoc rightDoc := by
  rw [binaryDoc, binaryDoc, needsParensOnLeft_congr leftSame, needsParensOnRight_congr rightSame]

/-- Whether the arguments are written without parentheses is decided by their forms. -/
theorem argumentsDoc_congr {first second : List Expression}
    (same : first.map (·.withoutParens.form) = second.map (·.withoutParens.form))
    (docs : List Doc) : argumentsDoc first docs = argumentsDoc second docs := by
  match first, second with
  | [], [] | [], _ :: _ | _ :: _, [] => first | rfl | cases same
  | [argument], [other] =>
    have form : argument.withoutParens.form = other.withoutParens.form := (List.cons.inj same).1
    rw [argumentsDoc, argumentsDoc, isBareArgument_eq, isBareArgument_eq, form]
  | _ :: _ :: _, _ :: _ :: _ => rfl
  | [_], _ :: _ :: _ | _ :: _ :: _, [_] => cases (List.cons.inj same).2

end Expression

/-! ### Recasting and forms -/

section

variable (recasting : Recasting)

theorem Expression.unwrapGroups_recast : ∀ expression : Expression,
    (expression.recast recasting).unwrapGroups = expression.unwrapGroups.recast recasting
  | .group inner _ => inner.unwrapGroups_recast
  | .binary .. | .unary .. | .call .. | .stringCall .. | .tableCall .. | .function .. | .name _
  | .index .. | .member .. | .literal _ | .table .. => rfl

theorem Expression.withoutParens_recast : ∀ expression : Expression,
    (expression.recast recasting).withoutParens = expression.withoutParens.recast recasting
  | .group inner span => by
    rw [Expression.recast, withoutParens, withoutParens, inner.unwrapGroups_recast,
      isMultipleValue_recast, inner.withoutParens_recast]
    split <;> rfl
  | .binary .. | .unary .. | .call .. | .stringCall .. | .tableCall .. | .function .. | .name _
  | .index .. | .member .. | .literal _ | .table .. => rfl

/-- Recasting does not change which parentheses are written. -/
theorem Expression.form_withoutParens_recast (expression : Expression) :
    (expression.recast recasting).withoutParens.form = expression.withoutParens.form := by
  rw [expression.withoutParens_recast, Expression.form_recast]

theorem Name.docs_recast (names : List Name) :
    docs (names.map (Name.recast recasting)) = docs names := by
  rw [docs, docs, List.map_map]
  rfl

theorem Parameter.docs_recast (parameters : List Parameter) :
    docs (parameters.map (Parameter.recast recasting)) = docs parameters := by
  rw [docs, docs, List.map_map]
  congr 2
  refine List.map_congr_left fun parameter _ => ?_
  cases parameter <;> rfl

/-- The name of a function is written without its spans. -/
theorem FunctionName.text_recast (name : FunctionName) :
    (name.recast recasting).text = name.text := by
  obtain ⟨path, method, span⟩ := name
  rw [text, text, recast, List.map_map, Option.map_map]
  rfl

/-- What stands in front of parameters is laid out without spans. -/
theorem FunctionHead.doc_recast (head : FunctionHead) : (head.recast recasting).doc = head.doc := by
  obtain ⟨_ | name, isLocal⟩ := head
  · rfl
  · rw [doc, doc, recast, Option.map_some, Option.map_some, Option.map_some,
      name.text_recast recasting]

theorem Expression.baseDoc_recast (base : Expression) :
    (base.recast recasting).baseDoc = base.baseDoc :=
  funext (baseDoc_congr (base.form_withoutParens_recast recasting))

theorem Expression.unaryDoc_recast (operator : UnaryOperator) (argument : Expression) :
    unaryDoc operator (argument.recast recasting) = unaryDoc operator argument :=
  funext (unaryDoc_congr (argument.form_withoutParens_recast recasting) operator)

theorem Expression.binaryDoc_recast (operator : BinaryOperator) (left right : Expression) :
    binaryDoc operator (left.recast recasting) (right.recast recasting) =
      binaryDoc operator left right := by
  funext leftDoc rightDoc
  exact binaryDoc_congr (left.form_withoutParens_recast recasting)
    (right.form_withoutParens_recast recasting) operator leftDoc rightDoc

/-- Recasting does not change whether a call has parentheses. -/
theorem Expression.argumentsDoc_recastAll (arguments : List Expression) :
    argumentsDoc (recastAll recasting arguments) = argumentsDoc arguments := by
  refine funext (argumentsDoc_congr ?_)
  rw [recastAll_eq_map, List.map_map]
  exact List.map_congr_left fun argument _ => argument.form_withoutParens_recast recasting

theorem Expression.isEmpty_recastAll (expressions : List Expression) :
    (recastAll recasting expressions).isEmpty = expressions.isEmpty := by
  rw [recastAll_eq_map, List.isEmpty_map]

theorem Clause.isEmpty_recastAll (clauses : List Clause) :
    (recastAll recasting clauses).isEmpty = clauses.isEmpty := by
  cases clauses <;> rfl

end

/-! ### What shows -/

theorem Statement.map_role_shown (body : List Statement) :
    (recastAll .shown body).map role = body.map role := by
  induction body with
  | nil => rfl
  | cons statement rest inductionHypothesis =>
    have first : (statement.recast .shown).map role = [statement.role] := by
      cases statement <;> rfl
    rw [recastAll, List.map_append, first, inductionHypothesis]
    rfl

theorem Field.map_isComment_shown (fields : List Field) :
    (recastAll .shown fields).map isComment = fields.map isComment := by
  induction fields with
  | nil => rfl
  | cons field rest inductionHypothesis =>
    have first : (field.recast .shown).map isComment = [field.isComment] := by
      cases field <;> rfl
    rw [recastAll, List.map_append, first, inductionHypothesis]
    rfl

/-- A block is laid out from what is shown of it. -/
theorem Statement.blockDoc_shown (config : Config) (depth : Nat) (isClosed : Bool)
    (body : List Statement) :
    blockDoc config depth isClosed (recastAll .shown body) = blockDoc config depth isClosed body :=
  funext (blockDoc_congr config depth isClosed (map_role_shown body))

/-- A table is laid out from what is shown of it. -/
theorem Field.tableDoc_shown (config : Config) (depth : Nat) (fields : List Field) :
    tableDoc config depth (recastAll .shown fields) = tableDoc config depth fields :=
  funext (tableDoc_congr config depth (map_isComment_shown fields))

/-- A literal is laid out as it shows. -/
theorem Literal.toOption_doc_shown (config : Config) (constant : Literal) :
    ((constant.recast .shown).doc config).toOption = (constant.doc config).toOption := by
  obtain ⟨value, raw, span⟩ := constant
  cases value with
  | number value =>
    show (numberDoc (normalNumber raw value) value).toOption = (numberDoc raw value).toOption
    rw [numberDoc, numberDoc, normalNumber_normalNumber]
    split <;> rfl
  | _ => rfl

variable (config : Config)

mutual

/-- The layout of an expression depends only on what shows of it. -/
theorem Expression.toOption_doc_shown : ∀ (expression : Expression) (depth : Nat),
    ((expression.recast .shown).doc config depth).toOption =
      (expression.doc config depth).toOption
  | .binary _ left right _, depth => by
    simp only [Expression.recast, Expression.doc, toOption_bind, toOption_pure,
      left.toOption_doc_shown depth, right.toOption_doc_shown depth, Expression.binaryDoc_recast]
  | .unary _ argument _, depth => by
    simp only [Expression.recast, Expression.doc, toOption_bind, toOption_pure,
      argument.toOption_doc_shown depth, Expression.unaryDoc_recast]
  | .call base arguments _, depth => by
    simp only [Expression.recast, Expression.doc, toOption_bind, toOption_pure,
      base.toOption_doc_shown depth, Expression.toOption_docs_shown arguments depth,
      Expression.baseDoc_recast, Expression.argumentsDoc_recastAll]
  | .stringCall base argument _, depth => by
    simp only [Expression.recast, Expression.doc, toOption_bind, toOption_pure,
      base.toOption_doc_shown depth, argument.toOption_doc_shown config,
      Expression.baseDoc_recast]
  | .tableCall base fields _ _, depth => by
    simp only [Expression.recast, Expression.doc, toOption_bind, toOption_pure,
      base.toOption_doc_shown depth, Field.toOption_docs_shown fields (depth + 1),
      Expression.baseDoc_recast, Field.tableDoc_shown]
  | .function head parameters body _, depth => by
    simp only [Expression.recast, Expression.doc, toOption_bind, toOption_pure,
      Statement.toOption_docs_shown body (depth + 1), FunctionHead.doc_recast,
      Parameter.docs_recast, Statement.blockDoc_shown]
  | .group inner _, depth => by
    simp only [Expression.recast, Expression.doc, toOption_bind, toOption_pure,
      inner.toOption_doc_shown depth, Expression.isMultipleValue_recast]
  | .name _, _ => rfl
  | .index base key _, depth => by
    simp only [Expression.recast, Expression.doc, toOption_bind, toOption_pure,
      base.toOption_doc_shown depth, key.toOption_doc_shown depth, Expression.baseDoc_recast]
  | .member base _ _ _, depth => by
    simp only [Expression.recast, Expression.doc, toOption_bind, toOption_pure,
      base.toOption_doc_shown depth, Expression.baseDoc_recast, Name.recast]
  | .literal constant, _ => constant.toOption_doc_shown config
  | .table fields _, depth => by
    simp only [Expression.recast, Expression.doc, toOption_bind, toOption_pure,
      Field.toOption_docs_shown fields (depth + 1), Field.tableDoc_shown]

/-- Expressions are laid out from what is shown of them. -/
theorem Expression.toOption_docs_shown : ∀ (expressions : List Expression) (depth : Nat),
    (Expression.docs config depth (Expression.recastAll .shown expressions)).toOption =
      (Expression.docs config depth expressions).toOption
  | [], _ => rfl
  | expression :: rest, depth => by
    simp only [Expression.recastAll, Expression.docs, toOption_bind, toOption_pure,
      expression.toOption_doc_shown depth, Expression.toOption_docs_shown rest depth]

theorem Expression.toOption_optionalDocs_shown : ∀ (optional : Option Expression) (depth : Nat),
    (Expression.optionalDocs config depth (Expression.recastOptional .shown optional)).toOption =
      (Expression.optionalDocs config depth optional).toOption
  | none, _ => rfl
  | some expression, depth => by
    simp only [Expression.recastOptional, Expression.optionalDocs, toOption_bind, toOption_pure,
      expression.toOption_doc_shown depth]

/-- What shows of a field is a field with the layout of the field. -/
theorem Field.exists_shown : ∀ (field : Field) (depth : Nat),
    ∃ image, field.recast .shown = [image] ∧
      (image.doc config depth).toOption = (field.doc config depth).toOption
  | .keyed key value _, depth => by
    refine ⟨_, rfl, ?_⟩
    simp only [Field.doc, toOption_bind, toOption_pure, key.toOption_doc_shown depth,
      value.toOption_doc_shown depth]
  | .named name value _, depth => by
    refine ⟨_, rfl, ?_⟩
    simp only [Field.doc, toOption_bind, toOption_pure, value.toOption_doc_shown depth,
      Name.recast]
  | .positional value, depth => ⟨_, rfl, value.toOption_doc_shown depth⟩
  | .comment remark, depth => ⟨_, rfl, congrArg some (remark.doc_shown depth)⟩

theorem Field.toOption_docs_shown : ∀ (fields : List Field) (depth : Nat),
    (Field.docs config depth (Field.recastAll .shown fields)).toOption =
      (Field.docs config depth fields).toOption
  | [], _ => rfl
  | field :: rest, depth => by
    obtain ⟨image, shown, same⟩ := field.exists_shown depth
    rw [Field.recastAll, shown, List.singleton_append]
    simp only [Field.docs, toOption_bind, toOption_pure, same, Field.toOption_docs_shown rest depth]

theorem Clause.toOption_doc_shown : ∀ (clause : Clause) (depth : Nat) (isLast : Bool),
    ((clause.recast .shown).doc config depth isLast).toOption =
      (clause.doc config depth isLast).toOption
  | .guarded word condition body _, depth, isLast => by
    simp only [Clause.recast, Clause.doc, toOption_bind, toOption_pure,
      condition.toOption_doc_shown depth, Statement.toOption_docs_shown body (depth + 1),
      Statement.blockDoc_shown]
  | .otherwise body _, depth, isLast => by
    simp only [Clause.recast, Clause.doc, toOption_bind, toOption_pure,
      Statement.toOption_docs_shown body (depth + 1), Statement.blockDoc_shown]

theorem Clause.toOption_docs_shown : ∀ (clauses : List Clause) (depth : Nat),
    (Clause.docs config depth (Clause.recastAll .shown clauses)).toOption =
      (Clause.docs config depth clauses).toOption
  | [], _ => rfl
  | clause :: rest, depth => by
    simp only [Clause.recastAll, Clause.docs, toOption_bind, toOption_pure,
      clause.toOption_doc_shown depth, Clause.toOption_docs_shown rest depth,
      Clause.isEmpty_recastAll]

/-- What shows of a statement is a statement with the layout of the statement. -/
theorem Statement.exists_shown : ∀ (statement : Statement) (depth : Nat),
    ∃ image, statement.recast .shown = [image] ∧
      (image.doc config depth).toOption = (statement.doc config depth).toOption
  | .assignment targets values _, depth => by
    refine ⟨_, rfl, ?_⟩
    simp only [Statement.doc, toOption_bind, toOption_pure, Expression.toOption_docs_shown targets
      depth, Expression.toOption_docs_shown values depth]
  | .breakLoop _, _ => ⟨_, rfl, rfl⟩
  | .call expression _, depth => by
    refine ⟨_, rfl, ?_⟩
    simp only [Statement.doc, Expression.isCall_recast]
    split
    · exact expression.toOption_doc_shown depth
    · rfl
  | .comment remark, depth => ⟨_, rfl, congrArg some (remark.doc_shown depth)⟩
  | .doBlock body _, depth => by
    refine ⟨_, rfl, ?_⟩
    simp only [Statement.doc, toOption_bind, toOption_pure, Statement.toOption_docs_shown body
      (depth + 1), Statement.blockDoc_shown]
  | .genericFor declared iterators body _, depth => by
    refine ⟨_, rfl, ?_⟩
    simp only [Statement.doc, toOption_bind, toOption_pure, Expression.toOption_docs_shown
      iterators depth, Statement.toOption_docs_shown body (depth + 1), Name.docs_recast,
      Statement.blockDoc_shown]
  | .numericFor counter first last step body _, depth => by
    refine ⟨_, rfl, ?_⟩
    simp only [Statement.doc, toOption_bind, toOption_pure, first.toOption_doc_shown depth,
      last.toOption_doc_shown depth, Expression.toOption_optionalDocs_shown step depth,
      Statement.toOption_docs_shown body (depth + 1), Name.recast, Statement.blockDoc_shown]
  | .function head parameters body _, depth => by
    refine ⟨_, rfl, ?_⟩
    simp only [Statement.doc, toOption_bind, toOption_pure, Statement.toOption_docs_shown body
      (depth + 1), FunctionHead.doc_recast, Parameter.docs_recast, Statement.blockDoc_shown]
  | .goto _ _, _ => ⟨_, rfl, rfl⟩
  | .ifElse clauses _, depth => by
    refine ⟨_, rfl, ?_⟩
    simp only [Statement.doc, Clause.isEmpty_recastAll]
    split
    · rfl
    · simp only [toOption_bind, toOption_pure, Clause.toOption_docs_shown clauses depth]
  | .label _ _, _ => ⟨_, rfl, rfl⟩
  | .localVariables declared values _, depth => by
    refine ⟨_, rfl, ?_⟩
    simp only [Statement.doc, toOption_bind, toOption_pure, Expression.toOption_docs_shown values
      depth, Name.docs_recast, Expression.isEmpty_recastAll]
  | .repeatUntil body condition _, depth => by
    refine ⟨_, rfl, ?_⟩
    simp only [Statement.doc, toOption_bind, toOption_pure, Statement.toOption_docs_shown body
      (depth + 1), condition.toOption_doc_shown depth, Statement.blockDoc_shown]
  | .returnValues values _, depth => by
    refine ⟨_, rfl, ?_⟩
    simp only [Statement.doc, toOption_bind, toOption_pure, Expression.toOption_docs_shown values
      depth, Expression.isEmpty_recastAll]
  | .whileLoop condition body _, depth => by
    refine ⟨_, rfl, ?_⟩
    simp only [Statement.doc, toOption_bind, toOption_pure, condition.toOption_doc_shown depth,
      Statement.toOption_docs_shown body (depth + 1), Statement.blockDoc_shown]

/-- The statements of a block are laid out from what is shown of them. -/
theorem Statement.toOption_docs_shown : ∀ (body : List Statement) (depth : Nat),
    (Statement.docs config depth (Statement.recastAll .shown body)).toOption =
      (Statement.docs config depth body).toOption
  | [], _ => rfl
  | statement :: rest, depth => by
    obtain ⟨image, shown, same⟩ := statement.exists_shown depth
    rw [Statement.recastAll, shown, List.singleton_append]
    simp only [Statement.docs, toOption_bind, toOption_pure, same,
      Statement.toOption_docs_shown rest depth]

end

/-- Chunks that show the same have the same layout. -/
theorem Chunk.toOption_doc_congr {first second : Chunk}
    (same : Statement.recastAll .shown first.body = Statement.recastAll .shown second.body) :
    (first.doc config).toOption = (second.doc config).toOption := by
  have docs : (Statement.docs config 0 first.body).toOption =
      (Statement.docs config 0 second.body).toOption := by
    rw [← Statement.toOption_docs_shown, same, Statement.toOption_docs_shown]
  have roles : first.body.map Statement.role = second.body.map Statement.role := by
    rw [← Statement.map_role_shown, same, Statement.map_role_shown]
  simp only [Chunk.doc, toOption_bind, toOption_pure, docs, Statement.stack_congr config 0 roles]

end LuaStyle
