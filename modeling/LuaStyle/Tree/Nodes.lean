/-
This file lists the nodes of a syntax tree.

The list is in preorder: a node stands before everything inside it, and what is inside it comes in
the order of the source. What a program does "for every statement, wherever it stands" is said by
this list, whether the statement stands in a block, in a function used as a value, or in a function
that is the field of a table.
-/

import LuaStyle.Tree.Basic

namespace LuaStyle

/-- A node of the tree. -/
inductive Node where
  | expression (expression : Expression)
  | field (field : Field)
  | clause (clause : Clause)
  | statement (statement : Statement)

mutual

/-- An expression and the nodes inside it. -/
def Expression.nodes (expression : Expression) : List Node :=
  .expression expression ::
    match expression with
    | .binary _ left right _ => left.nodes ++ right.nodes
    | .unary _ argument _ => argument.nodes
    | .call base arguments _ => base.nodes ++ Expression.nodesOfAll arguments
    | .stringCall base _ _ => base.nodes
    | .tableCall base fields _ _ => base.nodes ++ Field.nodesOfAll fields
    | .function _ _ body _ => Statement.nodesOfAll body
    | .group inner _ => inner.nodes
    | .name _ => []
    | .index base key _ => base.nodes ++ key.nodes
    | .member base _ _ _ => base.nodes
    | .literal _ => []
    | .table fields _ => Field.nodesOfAll fields

/-- Expressions and the nodes inside them. -/
def Expression.nodesOfAll : List Expression → List Node
  | [] => []
  | expression :: rest => expression.nodes ++ Expression.nodesOfAll rest

/-- The expression that may be left out, and the nodes inside it. -/
def Expression.nodesOfOptional : Option Expression → List Node
  | none => []
  | some expression => expression.nodes

/-- A field and the nodes inside it. -/
def Field.nodes (field : Field) : List Node :=
  .field field ::
    match field with
    | .keyed key value _ => key.nodes ++ value.nodes
    | .named _ value _ => value.nodes
    | .positional value => value.nodes
    | .comment _ => []

/-- Fields and the nodes inside them. -/
def Field.nodesOfAll : List Field → List Node
  | [] => []
  | field :: rest => field.nodes ++ Field.nodesOfAll rest

/-- A clause and the nodes inside it. -/
def Clause.nodes (clause : Clause) : List Node :=
  .clause clause ::
    match clause with
    | .guarded _ condition body _ => condition.nodes ++ Statement.nodesOfAll body
    | .otherwise body _ => Statement.nodesOfAll body

/-- Clauses and the nodes inside them. -/
def Clause.nodesOfAll : List Clause → List Node
  | [] => []
  | clause :: rest => clause.nodes ++ Clause.nodesOfAll rest

/-- A statement and the nodes inside it. -/
def Statement.nodes (statement : Statement) : List Node :=
  .statement statement ::
    match statement with
    | .assignment targets values _ => Expression.nodesOfAll targets ++ Expression.nodesOfAll values
    | .breakLoop _ => []
    | .call expression _ => expression.nodes
    | .comment _ => []
    | .doBlock body _ => Statement.nodesOfAll body
    | .genericFor _ iterators body _ =>
      Expression.nodesOfAll iterators ++ Statement.nodesOfAll body
    | .numericFor _ first last step body _ =>
      first.nodes ++ last.nodes ++ Expression.nodesOfOptional step ++ Statement.nodesOfAll body
    | .function _ _ body _ => Statement.nodesOfAll body
    | .goto _ _ => []
    | .ifElse clauses _ => Clause.nodesOfAll clauses
    | .label _ _ => []
    | .localVariables _ values _ => Expression.nodesOfAll values
    | .repeatUntil body condition _ => Statement.nodesOfAll body ++ condition.nodes
    | .returnValues values _ => Expression.nodesOfAll values
    | .whileLoop condition body _ => condition.nodes ++ Statement.nodesOfAll body

/-- Statements and the nodes inside them. -/
def Statement.nodesOfAll : List Statement → List Node
  | [] => []
  | statement :: rest => statement.nodes ++ Statement.nodesOfAll rest

end

end LuaStyle
