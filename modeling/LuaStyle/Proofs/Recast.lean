/-
This file rewrites what a syntax tree says about its source and leaves the program as it is.

A tree carries the spans it was read from, the raw texts of its literals, and, where it has room for
them, comments. `Recasting` says what becomes of each of these: spans and raw texts are replaced,
and a comment is replaced or left out. Comparing two trees up to such things means recasting both,
and so does dropping comments or keeping only some of them. The nodes of a recast tree are the
recast nodes, so a property of single nodes that recasting does not change holds throughout the
recast tree if it holds throughout the tree.
-/

import LuaStyle.Tree.ClauseReach

namespace LuaStyle

/-- What becomes of the parts of a tree that only tell how it was written. -/
structure Recasting where
  /-- The span in place of a span. -/
  span : Span → Span
  /-- The comment in place of a comment, if one is kept. -/
  comment : Comment → Option Comment
  /-- The raw text of a literal. -/
  raw : Literal → List Char

/-- The recasting that makes all spans alike besides. -/
def Recasting.blind (recasting : Recasting) : Recasting where
  span := fun _ => default
  comment := recasting.comment
  raw := recasting.raw

/-! ### Leaves -/

section

variable (recasting : Recasting)

/-- The name with its span replaced. -/
def Name.recast (name : Name) : Name :=
  ⟨name.text, recasting.span name.span⟩

/-- The parameter with its span replaced. -/
def Parameter.recast : Parameter → Parameter
  | name identifier => .name (identifier.recast recasting)
  | vararg span => .vararg (recasting.span span)

/-- The name of a function with its spans replaced. -/
def FunctionName.recast (name : FunctionName) : FunctionName :=
  ⟨name.path.map (Name.recast recasting), name.method.map (Name.recast recasting),
    recasting.span name.span⟩

/-- The head of a function with the spans of its name replaced. -/
def FunctionHead.recast (head : FunctionHead) : FunctionHead :=
  ⟨head.name.map (FunctionName.recast recasting), head.isLocal⟩

/-- The literal with its span and raw text replaced. -/
def Literal.recast (constant : Literal) : Literal :=
  ⟨constant.value, recasting.raw constant, recasting.span constant.span⟩

/-! ### Expressions and statements -/

mutual

/-- The recast expression. -/
def Expression.recast : Expression → Expression
  | .binary operator left right span =>
    .binary operator left.recast right.recast (recasting.span span)
  | .unary operator argument span => .unary operator argument.recast (recasting.span span)
  | .call base arguments span =>
    .call base.recast (Expression.recastAll arguments) (recasting.span span)
  | .stringCall base argument span =>
    .stringCall base.recast (argument.recast recasting) (recasting.span span)
  | .tableCall base fields tableSpan span =>
    .tableCall base.recast (Field.recastAll fields) (recasting.span tableSpan)
      (recasting.span span)
  | .function head parameters body span =>
    .function (head.recast recasting) (parameters.map (Parameter.recast recasting))
      (Statement.recastAll body) (recasting.span span)
  | .group inner span => .group inner.recast (recasting.span span)
  | .name identifier => .name (identifier.recast recasting)
  | .index base key span => .index base.recast key.recast (recasting.span span)
  | .member base selector name span =>
    .member base.recast selector (name.recast recasting) (recasting.span span)
  | .literal constant => .literal (constant.recast recasting)
  | .table fields span => .table (Field.recastAll fields) (recasting.span span)

/-- The recast expressions. -/
def Expression.recastAll : List Expression → List Expression
  | [] => []
  | expression :: rest => expression.recast :: Expression.recastAll rest

/-- The recast expression that may be left out. -/
def Expression.recastOptional : Option Expression → Option Expression
  | none => none
  | some expression => some expression.recast

/-- The recast field, or nothing for a comment that is not kept. -/
def Field.recast : Field → List Field
  | .keyed key value span => [.keyed key.recast value.recast (recasting.span span)]
  | .named name value span =>
    [.named (name.recast recasting) value.recast (recasting.span span)]
  | .positional value => [.positional value.recast]
  | .comment remark => (recasting.comment remark).toList.map .comment

/-- The recast fields. -/
def Field.recastAll : List Field → List Field
  | [] => []
  | field :: rest => field.recast ++ Field.recastAll rest

/-- The recast clause. -/
def Clause.recast : Clause → Clause
  | .guarded word condition body span =>
    .guarded word condition.recast (Statement.recastAll body) (recasting.span span)
  | .otherwise body span => .otherwise (Statement.recastAll body) (recasting.span span)

/-- The recast clauses. -/
def Clause.recastAll : List Clause → List Clause
  | [] => []
  | clause :: rest => clause.recast :: Clause.recastAll rest

/-- The recast statement, or nothing for a comment that is not kept. -/
def Statement.recast : Statement → List Statement
  | .assignment targets values span =>
    [.assignment (Expression.recastAll targets) (Expression.recastAll values)
      (recasting.span span)]
  | .breakLoop span => [.breakLoop (recasting.span span)]
  | .call expression span => [.call expression.recast (recasting.span span)]
  | .comment remark => (recasting.comment remark).toList.map .comment
  | .doBlock body span => [.doBlock (Statement.recastAll body) (recasting.span span)]
  | .genericFor declared iterators body span =>
    [.genericFor (declared.map (Name.recast recasting)) (Expression.recastAll iterators)
      (Statement.recastAll body) (recasting.span span)]
  | .numericFor counter first last step body span =>
    [.numericFor (counter.recast recasting) first.recast last.recast
      (Expression.recastOptional step) (Statement.recastAll body) (recasting.span span)]
  | .function head parameters body span =>
    [.function (head.recast recasting) (parameters.map (Parameter.recast recasting))
      (Statement.recastAll body) (recasting.span span)]
  | .goto target span => [.goto (target.recast recasting) (recasting.span span)]
  | .ifElse clauses span => [.ifElse (Clause.recastAll clauses) (recasting.span span)]
  | .label name span => [.label (name.recast recasting) (recasting.span span)]
  | .localVariables declared values span =>
    [.localVariables (declared.map (Name.recast recasting)) (Expression.recastAll values)
      (recasting.span span)]
  | .repeatUntil body condition span =>
    [.repeatUntil (Statement.recastAll body) condition.recast (recasting.span span)]
  | .returnValues values span =>
    [.returnValues (Expression.recastAll values) (recasting.span span)]
  | .whileLoop condition body span =>
    [.whileLoop condition.recast (Statement.recastAll body) (recasting.span span)]

/-- The recast statements. -/
def Statement.recastAll : List Statement → List Statement
  | [] => []
  | statement :: rest => statement.recast ++ Statement.recastAll rest

end

/-- The recast node, or nothing for a comment that is not kept. -/
def Node.recast : Node → List Node
  | .expression value => [.expression (value.recast recasting)]
  | .field entry => (entry.recast recasting).map .field
  | .clause branch => [.clause (branch.recast recasting)]
  | .statement step => (step.recast recasting).map .statement

end

theorem Field.recastAll_append (recasting : Recasting) (first second : List Field) :
    Field.recastAll recasting (first ++ second) =
      Field.recastAll recasting first ++ Field.recastAll recasting second := by
  induction first with
  | nil => rfl
  | cons field rest inductionHypothesis =>
    rw [List.cons_append, Field.recastAll, Field.recastAll, inductionHypothesis, List.append_assoc]

theorem Statement.recastAll_append (recasting : Recasting) (first second : List Statement) :
    Statement.recastAll recasting (first ++ second) =
      Statement.recastAll recasting first ++ Statement.recastAll recasting second := by
  induction first with
  | nil => rfl
  | cons statement rest inductionHypothesis =>
    rw [List.cons_append, Statement.recastAll, Statement.recastAll, inductionHypothesis,
      List.append_assoc]

/-! ### Recasting twice -/

/-- The recasting that does what the first does and then what the second does. -/
def Recasting.followedBy (first second : Recasting) : Recasting where
  span := fun span => second.span (first.span span)
  comment := fun remark => (first.comment remark).bind second.comment
  raw := fun constant => second.raw (constant.recast first)

section

variable (first second : Recasting)

/-- A comment stays if it stays both times. -/
theorem Recasting.comment_followedBy (remark : Comment) :
    (first.followedBy second).comment remark = (first.comment remark).bind second.comment := rfl

/-- Recasting a name twice is recasting it once. -/
theorem Name.recast_recast (name : Name) :
    (name.recast first).recast second = name.recast (first.followedBy second) := rfl

theorem Name.map_recast_recast (names : List Name) :
    (names.map (Name.recast first)).map (Name.recast second) =
      names.map (Name.recast (first.followedBy second)) :=
  List.map_map

theorem Parameter.map_recast_recast (parameters : List Parameter) :
    (parameters.map (Parameter.recast first)).map (Parameter.recast second) =
      parameters.map (Parameter.recast (first.followedBy second)) := by
  rw [List.map_map]
  refine List.map_congr_left fun parameter _ => ?_
  cases parameter <;> rfl

theorem FunctionName.recast_recast (name : FunctionName) :
    (name.recast first).recast second = name.recast (first.followedBy second) := by
  obtain ⟨path, method, span⟩ := name
  simp only [FunctionName.recast, Name.map_recast_recast, Option.map_map, FunctionName.mk.injEq,
    true_and]
  exact ⟨rfl, rfl⟩

/-- Recasting the head of a function twice is recasting it once. -/
theorem FunctionHead.recast_recast (head : FunctionHead) :
    (head.recast first).recast second = head.recast (first.followedBy second) := by
  obtain ⟨name, isLocal⟩ := head
  cases name with
  | none => rfl
  | some name =>
    exact congrArg (fun name => FunctionHead.mk (some name) isLocal)
      (name.recast_recast first second)

theorem Literal.recast_recast (constant : Literal) :
    (constant.recast first).recast second = constant.recast (first.followedBy second) := rfl

mutual

/-- Recasting an expression twice is recasting it once. -/
theorem Expression.recast_recast : ∀ expression : Expression,
    (expression.recast first).recast second = expression.recast (first.followedBy second)
  | .binary _ left right _ => by
    rw [Expression.recast, Expression.recast, left.recast_recast, right.recast_recast]
    rfl
  | .unary _ argument _ => by
    rw [Expression.recast, Expression.recast, argument.recast_recast]
    rfl
  | .call base arguments _ => by
    rw [Expression.recast, Expression.recast, base.recast_recast,
      Expression.recastAll_recastAll arguments]
    rfl
  | .stringCall base argument _ => by
    rw [Expression.recast, Expression.recast, base.recast_recast,
      argument.recast_recast first second]
    rfl
  | .tableCall base fields _ _ => by
    rw [Expression.recast, Expression.recast, base.recast_recast,
      Field.recastAll_recastAll fields]
    rfl
  | .function head parameters body _ => by
    rw [Expression.recast, Expression.recast, head.recast_recast first second,
      Parameter.map_recast_recast first second parameters, Statement.recastAll_recastAll body]
    rfl
  | .group inner _ => by
    rw [Expression.recast, Expression.recast, inner.recast_recast]
    rfl
  | .name _ => rfl
  | .index base key _ => by
    rw [Expression.recast, Expression.recast, base.recast_recast, key.recast_recast]
    rfl
  | .member base _ name _ => by
    rw [Expression.recast, Expression.recast, base.recast_recast]
    rfl
  | .literal _ => rfl
  | .table fields _ => by
    rw [Expression.recast, Expression.recast, Field.recastAll_recastAll fields]
    rfl

theorem Expression.recastAll_recastAll : ∀ expressions : List Expression,
    Expression.recastAll second (Expression.recastAll first expressions) =
      Expression.recastAll (first.followedBy second) expressions
  | [] => rfl
  | expression :: rest => by
    rw [Expression.recastAll, Expression.recastAll, expression.recast_recast,
      Expression.recastAll_recastAll rest]
    rfl

theorem Expression.recastOptional_recastOptional : ∀ optional : Option Expression,
    Expression.recastOptional second (Expression.recastOptional first optional) =
      Expression.recastOptional (first.followedBy second) optional
  | none => rfl
  | some expression => congrArg some expression.recast_recast

/-- A field that a recasting drops has nothing left for the second one. -/
theorem Field.recastAll_recast : ∀ field : Field,
    Field.recastAll second (field.recast first) = field.recast (first.followedBy second)
  | .keyed key value _ => by
    rw [Field.recast, Field.recastAll, Field.recast, key.recast_recast, value.recast_recast]
    rfl
  | .named _ value _ => by
    rw [Field.recast, Field.recastAll, Field.recast, value.recast_recast]
    rfl
  | .positional value => by
    rw [Field.recast, Field.recastAll, Field.recast, value.recast_recast]
    rfl
  | .comment remark => by
    rw [Field.recast, Field.recast, first.comment_followedBy second]
    cases first.comment remark with
    | none => rfl
    | some image => exact List.append_nil _

theorem Field.recastAll_recastAll : ∀ fields : List Field,
    Field.recastAll second (Field.recastAll first fields) =
      Field.recastAll (first.followedBy second) fields
  | [] => rfl
  | field :: rest => by
    rw [Field.recastAll, Field.recastAll_append, field.recastAll_recast,
      Field.recastAll_recastAll rest]
    rfl

theorem Clause.recast_recast : ∀ clause : Clause,
    (clause.recast first).recast second = clause.recast (first.followedBy second)
  | .guarded _ condition body _ => by
    rw [Clause.recast, Clause.recast, condition.recast_recast, Statement.recastAll_recastAll body]
    rfl
  | .otherwise body _ => by
    rw [Clause.recast, Clause.recast, Statement.recastAll_recastAll body]
    rfl

theorem Clause.recastAll_recastAll : ∀ clauses : List Clause,
    Clause.recastAll second (Clause.recastAll first clauses) =
      Clause.recastAll (first.followedBy second) clauses
  | [] => rfl
  | clause :: rest => by
    rw [Clause.recastAll, Clause.recastAll, clause.recast_recast, Clause.recastAll_recastAll rest]
    rfl

/-- A statement that a recasting drops has nothing left for the second one. -/
theorem Statement.recastAll_recast : ∀ statement : Statement,
    Statement.recastAll second (statement.recast first) =
      statement.recast (first.followedBy second)
  | .assignment targets values _ => by
    rw [Statement.recast, Statement.recastAll, Statement.recast,
      Expression.recastAll_recastAll targets, Expression.recastAll_recastAll values]
    rfl
  | .breakLoop _ => rfl
  | .call expression _ => by
    rw [Statement.recast, Statement.recastAll, Statement.recast, expression.recast_recast]
    rfl
  | .comment remark => by
    rw [Statement.recast, Statement.recast, first.comment_followedBy second]
    cases first.comment remark with
    | none => rfl
    | some image => exact List.append_nil _
  | .doBlock body _ => by
    rw [Statement.recast, Statement.recastAll, Statement.recast,
      Statement.recastAll_recastAll body]
    rfl
  | .genericFor declared iterators body _ => by
    rw [Statement.recast, Statement.recastAll, Statement.recast,
      Name.map_recast_recast first second declared, Expression.recastAll_recastAll iterators,
      Statement.recastAll_recastAll body]
    rfl
  | .numericFor _ start last step body _ => by
    rw [Statement.recast, Statement.recastAll, Statement.recast, start.recast_recast,
      last.recast_recast, Expression.recastOptional_recastOptional step,
      Statement.recastAll_recastAll body]
    rfl
  | .function head parameters body _ => by
    rw [Statement.recast, Statement.recastAll, Statement.recast, head.recast_recast first second,
      Parameter.map_recast_recast first second parameters, Statement.recastAll_recastAll body]
    rfl
  | .goto _ _ => rfl
  | .ifElse clauses _ => by
    rw [Statement.recast, Statement.recastAll, Statement.recast,
      Clause.recastAll_recastAll clauses]
    rfl
  | .label _ _ => rfl
  | .localVariables declared values _ => by
    rw [Statement.recast, Statement.recastAll, Statement.recast,
      Name.map_recast_recast first second declared, Expression.recastAll_recastAll values]
    rfl
  | .repeatUntil body condition _ => by
    rw [Statement.recast, Statement.recastAll, Statement.recast,
      Statement.recastAll_recastAll body, condition.recast_recast]
    rfl
  | .returnValues values _ => by
    rw [Statement.recast, Statement.recastAll, Statement.recast,
      Expression.recastAll_recastAll values]
    rfl
  | .whileLoop condition body _ => by
    rw [Statement.recast, Statement.recastAll, Statement.recast, condition.recast_recast,
      Statement.recastAll_recastAll body]
    rfl

/-- Recasting twice is recasting once. -/
theorem Statement.recastAll_recastAll : ∀ body : List Statement,
    Statement.recastAll second (Statement.recastAll first body) =
      Statement.recastAll (first.followedBy second) body
  | [] => rfl
  | statement :: rest => by
    rw [Statement.recastAll, Statement.recastAll_append, statement.recastAll_recast,
      Statement.recastAll_recastAll rest]
    rfl

end

end

/-! ### The nodes of a recast tree -/

theorem Field.nodesOfAll_append (first second : List Field) :
    Field.nodesOfAll (first ++ second) = Field.nodesOfAll first ++ Field.nodesOfAll second := by
  induction first with
  | nil => rfl
  | cons field rest inductionHypothesis =>
    rw [List.cons_append, Field.nodesOfAll, Field.nodesOfAll, inductionHypothesis,
      List.append_assoc]

/-- The nodes of a block are those of its parts. -/
theorem Statement.nodesOfAll_append (first second : List Statement) :
    Statement.nodesOfAll (first ++ second) =
      Statement.nodesOfAll first ++ Statement.nodesOfAll second := by
  induction first with
  | nil => rfl
  | cons statement rest inductionHypothesis =>
    rw [List.cons_append, Statement.nodesOfAll, Statement.nodesOfAll, inductionHypothesis,
      List.append_assoc]

section

variable (recasting : Recasting)

mutual

/-- The nodes of a recast expression are the recast nodes. -/
theorem Expression.nodes_recast : ∀ expression : Expression,
    (expression.recast recasting).nodes = expression.nodes.flatMap (Node.recast recasting)
  | .binary _ left right _ => by
    simp [Expression.recast, Expression.nodes, Node.recast, left.nodes_recast, right.nodes_recast]
  | .unary _ argument _ => by
    simp [Expression.recast, Expression.nodes, Node.recast, argument.nodes_recast]
  | .call base arguments _ => by
    simp [Expression.recast, Expression.nodes, Node.recast, base.nodes_recast,
      Expression.nodesOfAll_recastAll arguments]
  | .stringCall base _ _ => by
    simp [Expression.recast, Expression.nodes, Node.recast, base.nodes_recast]
  | .tableCall base fields _ _ => by
    simp [Expression.recast, Expression.nodes, Node.recast, base.nodes_recast,
      Field.nodesOfAll_recastAll fields]
  | .function _ _ body _ => by
    simp [Expression.recast, Expression.nodes, Node.recast, Statement.nodesOfAll_recastAll body]
  | .group inner _ => by
    simp [Expression.recast, Expression.nodes, Node.recast, inner.nodes_recast]
  | .name _ => by simp [Expression.recast, Expression.nodes, Node.recast]
  | .index base key _ => by
    simp [Expression.recast, Expression.nodes, Node.recast, base.nodes_recast, key.nodes_recast]
  | .member base _ _ _ => by
    simp [Expression.recast, Expression.nodes, Node.recast, base.nodes_recast]
  | .literal _ => by simp [Expression.recast, Expression.nodes, Node.recast]
  | .table fields _ => by
    simp [Expression.recast, Expression.nodes, Node.recast, Field.nodesOfAll_recastAll fields]

theorem Expression.nodesOfAll_recastAll : ∀ expressions : List Expression,
    Expression.nodesOfAll (Expression.recastAll recasting expressions) =
      (Expression.nodesOfAll expressions).flatMap (Node.recast recasting)
  | [] => rfl
  | expression :: rest => by
    simp [Expression.recastAll, Expression.nodesOfAll, expression.nodes_recast,
      Expression.nodesOfAll_recastAll rest]

theorem Expression.nodesOfOptional_recastOptional : ∀ optional : Option Expression,
    Expression.nodesOfOptional (Expression.recastOptional recasting optional) =
      (Expression.nodesOfOptional optional).flatMap (Node.recast recasting)
  | none => rfl
  | some expression => expression.nodes_recast

theorem Field.nodesOfAll_recast : ∀ field : Field,
    Field.nodesOfAll (field.recast recasting) = field.nodes.flatMap (Node.recast recasting)
  | .keyed key value _ => by
    simp [Field.recast, Field.nodesOfAll, Field.nodes, Node.recast, key.nodes_recast,
      value.nodes_recast]
  | .named _ value _ => by
    simp [Field.recast, Field.nodesOfAll, Field.nodes, Node.recast, value.nodes_recast]
  | .positional value => by
    simp [Field.recast, Field.nodesOfAll, Field.nodes, Node.recast, value.nodes_recast]
  | .comment remark => by
    cases kept : recasting.comment remark <;>
      simp [Field.recast, Field.nodesOfAll, Field.nodes, Node.recast, kept]

theorem Field.nodesOfAll_recastAll : ∀ fields : List Field,
    Field.nodesOfAll (Field.recastAll recasting fields) =
      (Field.nodesOfAll fields).flatMap (Node.recast recasting)
  | [] => rfl
  | field :: rest => by
    rw [Field.recastAll, Field.nodesOfAll_append, field.nodesOfAll_recast,
      Field.nodesOfAll_recastAll rest, Field.nodesOfAll, List.flatMap_append]

theorem Clause.nodes_recast : ∀ clause : Clause,
    (clause.recast recasting).nodes = clause.nodes.flatMap (Node.recast recasting)
  | .guarded _ condition body _ => by
    simp [Clause.recast, Clause.nodes, Node.recast, condition.nodes_recast,
      Statement.nodesOfAll_recastAll body]
  | .otherwise body _ => by
    simp [Clause.recast, Clause.nodes, Node.recast, Statement.nodesOfAll_recastAll body]

theorem Clause.nodesOfAll_recastAll : ∀ clauses : List Clause,
    Clause.nodesOfAll (Clause.recastAll recasting clauses) =
      (Clause.nodesOfAll clauses).flatMap (Node.recast recasting)
  | [] => rfl
  | clause :: rest => by
    simp [Clause.recastAll, Clause.nodesOfAll, clause.nodes_recast,
      Clause.nodesOfAll_recastAll rest]

/-- The nodes of a recast statement are its recast nodes, and none if it is dropped. -/
theorem Statement.nodesOfAll_recast : ∀ statement : Statement,
    Statement.nodesOfAll (statement.recast recasting) =
      statement.nodes.flatMap (Node.recast recasting)
  | .assignment targets values _ => by
    simp [Statement.recast, Statement.nodesOfAll, Statement.nodes, Node.recast,
      Expression.nodesOfAll_recastAll targets, Expression.nodesOfAll_recastAll values]
  | .breakLoop _ => by
    simp [Statement.recast, Statement.nodesOfAll, Statement.nodes, Node.recast]
  | .call expression _ => by
    simp [Statement.recast, Statement.nodesOfAll, Statement.nodes, Node.recast,
      expression.nodes_recast]
  | .comment remark => by
    cases kept : recasting.comment remark <;>
      simp [Statement.recast, Statement.nodesOfAll, Statement.nodes, Node.recast, kept]
  | .doBlock body _ => by
    simp [Statement.recast, Statement.nodesOfAll, Statement.nodes, Node.recast,
      Statement.nodesOfAll_recastAll body]
  | .genericFor _ iterators body _ => by
    simp [Statement.recast, Statement.nodesOfAll, Statement.nodes, Node.recast,
      Expression.nodesOfAll_recastAll iterators, Statement.nodesOfAll_recastAll body]
  | .numericFor _ first last step body _ => by
    simp [Statement.recast, Statement.nodesOfAll, Statement.nodes, Node.recast,
      first.nodes_recast, last.nodes_recast, Expression.nodesOfOptional_recastOptional step,
      Statement.nodesOfAll_recastAll body]
  | .function _ _ body _ => by
    simp [Statement.recast, Statement.nodesOfAll, Statement.nodes, Node.recast,
      Statement.nodesOfAll_recastAll body]
  | .goto _ _ => by simp [Statement.recast, Statement.nodesOfAll, Statement.nodes, Node.recast]
  | .ifElse clauses _ => by
    simp [Statement.recast, Statement.nodesOfAll, Statement.nodes, Node.recast,
      Clause.nodesOfAll_recastAll clauses]
  | .label _ _ => by simp [Statement.recast, Statement.nodesOfAll, Statement.nodes, Node.recast]
  | .localVariables _ values _ => by
    simp [Statement.recast, Statement.nodesOfAll, Statement.nodes, Node.recast,
      Expression.nodesOfAll_recastAll values]
  | .repeatUntil body condition _ => by
    simp [Statement.recast, Statement.nodesOfAll, Statement.nodes, Node.recast,
      Statement.nodesOfAll_recastAll body, condition.nodes_recast]
  | .returnValues values _ => by
    simp [Statement.recast, Statement.nodesOfAll, Statement.nodes, Node.recast,
      Expression.nodesOfAll_recastAll values]
  | .whileLoop condition body _ => by
    simp [Statement.recast, Statement.nodesOfAll, Statement.nodes, Node.recast,
      condition.nodes_recast, Statement.nodesOfAll_recastAll body]

theorem Statement.nodesOfAll_recastAll : ∀ body : List Statement,
    Statement.nodesOfAll (Statement.recastAll recasting body) =
      (Statement.nodesOfAll body).flatMap (Node.recast recasting)
  | [] => rfl
  | statement :: rest => by
    rw [Statement.recastAll, Statement.nodesOfAll_append, statement.nodesOfAll_recast,
      Statement.nodesOfAll_recastAll rest, Statement.nodesOfAll, List.flatMap_append]

end

end

/-- A property of single nodes that a recasting does not change holds throughout the recast block
exactly when it holds throughout the block. -/
theorem Statement.forall_nodes_recastAll {recasting : Recasting} {holds : Node → Prop}
    (same : ∀ node : Node, (∀ image ∈ node.recast recasting, holds image) ↔ holds node)
    (body : List Statement) :
    (∀ node ∈ Statement.nodesOfAll (Statement.recastAll recasting body), holds node) ↔
      ∀ node ∈ Statement.nodesOfAll body, holds node := by
  rw [Statement.nodesOfAll_recastAll, List.forall_mem_flatMap]
  exact forall₂_congr fun node _ => same node

/-! ### Clauses that reach their ends -/

section

variable (recasting : Recasting)

mutual

/-- Where spans are forgotten, it does not matter how far clauses reach. -/
theorem Expression.recast_extendClauses : ∀ expression : Expression,
    expression.extendClauses.recast recasting.blind = expression.recast recasting.blind
  | .binary _ left right _ => by
    rw [Expression.extendClauses, Expression.recast, Expression.recast, left.recast_extendClauses,
      right.recast_extendClauses]
  | .unary _ argument _ => by
    rw [Expression.extendClauses, Expression.recast, Expression.recast,
      argument.recast_extendClauses]
  | .call base arguments _ => by
    rw [Expression.extendClauses, Expression.recast, Expression.recast, base.recast_extendClauses,
      Expression.recastAll_extendAll arguments]
  | .stringCall base _ _ => by
    rw [Expression.extendClauses, Expression.recast, Expression.recast, base.recast_extendClauses]
  | .tableCall base fields _ _ => by
    rw [Expression.extendClauses, Expression.recast, Expression.recast, base.recast_extendClauses,
      Field.recastAll_extendAll fields]
  | .function _ _ body _ => by
    rw [Expression.extendClauses, Expression.recast, Expression.recast,
      Statement.recastAll_extendAll body]
  | .group inner _ => by
    rw [Expression.extendClauses, Expression.recast, Expression.recast, inner.recast_extendClauses]
  | .name _ => rfl
  | .index base key _ => by
    rw [Expression.extendClauses, Expression.recast, Expression.recast, base.recast_extendClauses,
      key.recast_extendClauses]
  | .member base _ _ _ => by
    rw [Expression.extendClauses, Expression.recast, Expression.recast, base.recast_extendClauses]
  | .literal _ => rfl
  | .table fields _ => by
    rw [Expression.extendClauses, Expression.recast, Expression.recast,
      Field.recastAll_extendAll fields]

theorem Expression.recastAll_extendAll : ∀ expressions : List Expression,
    Expression.recastAll recasting.blind (Expression.extendAll expressions) =
      Expression.recastAll recasting.blind expressions
  | [] => rfl
  | expression :: rest => by
    rw [Expression.extendAll, Expression.recastAll, Expression.recastAll,
      expression.recast_extendClauses, Expression.recastAll_extendAll rest]

theorem Expression.recastOptional_extendOptional : ∀ optional : Option Expression,
    Expression.recastOptional recasting.blind (Expression.extendOptional optional) =
      Expression.recastOptional recasting.blind optional
  | none => rfl
  | some expression => congrArg some expression.recast_extendClauses

theorem Field.recast_extendClauses : ∀ field : Field,
    field.extendClauses.recast recasting.blind = field.recast recasting.blind
  | .keyed key value _ => by
    rw [Field.extendClauses, Field.recast, Field.recast, key.recast_extendClauses,
      value.recast_extendClauses]
  | .named _ value _ => by
    rw [Field.extendClauses, Field.recast, Field.recast, value.recast_extendClauses]
  | .positional value => by
    rw [Field.extendClauses, Field.recast, Field.recast, value.recast_extendClauses]
  | .comment _ => rfl

theorem Field.recastAll_extendAll : ∀ fields : List Field,
    Field.recastAll recasting.blind (Field.extendAll fields) =
      Field.recastAll recasting.blind fields
  | [] => rfl
  | field :: rest => by
    rw [Field.extendAll, Field.recastAll, Field.recastAll, field.recast_extendClauses,
      Field.recastAll_extendAll rest]

/-- Where spans are forgotten, it does not matter where a clause ends. -/
theorem Clause.recast_extendTo (stop : Nat) : ∀ clause : Clause,
    (clause.extendTo stop).recast recasting.blind = clause.recast recasting.blind
  | .guarded _ condition body _ => by
    rw [Clause.extendTo, Clause.recast, Clause.recast, condition.recast_extendClauses,
      Statement.recastAll_extendAll body]
    rfl
  | .otherwise body _ => by
    rw [Clause.extendTo, Clause.recast, Clause.recast, Statement.recastAll_extendAll body]
    rfl

theorem Clause.recastAll_extendAll (stop : Nat) : ∀ clauses : List Clause,
    Clause.recastAll recasting.blind (Clause.extendAll stop clauses) =
      Clause.recastAll recasting.blind clauses
  | [] => rfl
  | clause :: rest => by
    rw [Clause.extendAll, Clause.recastAll, Clause.recastAll,
      clause.recast_extendTo (Clause.reach rest stop), Clause.recastAll_extendAll stop rest]

theorem Statement.recast_extendClauses : ∀ statement : Statement,
    statement.extendClauses.recast recasting.blind = statement.recast recasting.blind
  | .assignment targets values _ => by
    rw [Statement.extendClauses, Statement.recast, Statement.recast,
      Expression.recastAll_extendAll targets, Expression.recastAll_extendAll values]
  | .breakLoop _ => rfl
  | .call expression _ => by
    rw [Statement.extendClauses, Statement.recast, Statement.recast,
      expression.recast_extendClauses]
  | .comment _ => rfl
  | .doBlock body _ => by
    rw [Statement.extendClauses, Statement.recast, Statement.recast,
      Statement.recastAll_extendAll body]
  | .genericFor _ iterators body _ => by
    rw [Statement.extendClauses, Statement.recast, Statement.recast,
      Expression.recastAll_extendAll iterators, Statement.recastAll_extendAll body]
  | .numericFor _ first last step body _ => by
    rw [Statement.extendClauses, Statement.recast, Statement.recast, first.recast_extendClauses,
      last.recast_extendClauses, Expression.recastOptional_extendOptional step,
      Statement.recastAll_extendAll body]
  | .function _ _ body _ => by
    rw [Statement.extendClauses, Statement.recast, Statement.recast,
      Statement.recastAll_extendAll body]
  | .goto _ _ => rfl
  | .ifElse clauses span => by
    rw [Statement.extendClauses, Statement.recast, Statement.recast,
      Clause.recastAll_extendAll span.stop clauses]
  | .label _ _ => rfl
  | .localVariables _ values _ => by
    rw [Statement.extendClauses, Statement.recast, Statement.recast,
      Expression.recastAll_extendAll values]
  | .repeatUntil body condition _ => by
    rw [Statement.extendClauses, Statement.recast, Statement.recast,
      Statement.recastAll_extendAll body, condition.recast_extendClauses]
  | .returnValues values _ => by
    rw [Statement.extendClauses, Statement.recast, Statement.recast,
      Expression.recastAll_extendAll values]
  | .whileLoop condition body _ => by
    rw [Statement.extendClauses, Statement.recast, Statement.recast, condition.recast_extendClauses,
      Statement.recastAll_extendAll body]

/-- Where spans are forgotten, clauses may be extended in a whole block. -/
theorem Statement.recastAll_extendAll : ∀ body : List Statement,
    Statement.recastAll recasting.blind (Statement.extendAll body) =
      Statement.recastAll recasting.blind body
  | [] => rfl
  | statement :: rest => by
    rw [Statement.extendAll, Statement.recastAll, Statement.recastAll,
      statement.recast_extendClauses, Statement.recastAll_extendAll rest]

end

end

end LuaStyle
