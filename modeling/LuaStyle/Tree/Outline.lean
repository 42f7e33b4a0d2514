/-
This file draws the outline of a syntax tree, one line for each entry.

Some entries stand for nodes and others, like the values of an assignment, for a group of nodes. A
line is one column for every entry it lies below, a connector, and the label. A column is drawn as
long as the entry it belongs to is followed by another one, so the columns tell where each group of
entries ends. Every node says itself, for each of the entries it draws below its own, whether that
is the last; in a list of nodes it is the last of them. The entries at the top are drawn as if
another one followed.

Labels show the source text of strings and comments with everything spelled out that would not show,
so a label never breaks its line.
-/

import LuaStyle.Text.Escaped
import LuaStyle.Tree.Basic

namespace LuaStyle

/-! ### Entries -/

namespace Outline

/-- What joins an entry to the columns before it. -/
def connector (isLast : Bool) : List Char :=
  if isLast then ['╰', '─', ' '] else ['├', '─', ' ']

/-- What stands under the connector of an entry before the entries below it. -/
def column (isLast : Bool) : List Char :=
  if isLast then [' ', ' ', ' '] else ['│', ' ', ' ']

/-- The line of an entry behind the given columns. -/
def line (columns : List Char) (isLast : Bool) (label : List Char) : List Char :=
  columns ++ connector isLast ++ label ++ ['\n']

/-- The line of an entry, and behind it what is drawn below the entry, given the columns there. -/
def node (columns : List Char) (isLast : Bool) (label : List Char)
    (below : List Char → List Char) : List Char :=
  line columns isLast label ++ below (columns ++ column isLast)

/-- Entries that stand directly below one entry. -/
def list {Item : Type} (draw : List Char → Bool → Item → List Char) (columns : List Char) :
    List Item → List Char
  | [] => []
  | item :: rest => draw columns rest.isEmpty item ++ list draw columns rest

/-- A label with a text in parentheses. -/
def labelled (label text : List Char) : List Char :=
  label ++ ' ' :: '(' :: text ++ [')']

end Outline

open Outline

/-! ### Leaves -/

/-- The label of a comment. -/
def Comment.label (comment : Comment) : List Char :=
  labelled "Comment".toList (Escaped.ofText comment.raw)

/-- The label of a name. -/
def Name.label (name : Name) : List Char :=
  labelled "Name".toList name.text

/-- The label of a parameter. -/
def Parameter.label : Parameter → List Char
  | .name identifier => identifier.label
  | .vararg _ => "Vararg".toList

/-- The label of a literal. -/
def Literal.label (constant : Literal) : List Char :=
  match constant.value with
  | .nil => "Nil".toList
  | .boolean true => labelled "Boolean".toList "true".toList
  | .boolean false => labelled "Boolean".toList "false".toList
  | .number _ => labelled "Number".toList constant.raw
  | .string _ => "String ".toList ++ Escaped.ofText constant.raw
  | .vararg => "Vararg".toList

/-- The label of a clause with a condition. -/
def ClauseWord.label : ClauseWord → List Char
  | .ifWord => "If Clause".toList
  | .elseifWord => "Else If Clause".toList

/-- The label of a function. Without a name it does not matter whether it is local. -/
def FunctionHead.label : FunctionHead → List Char
  | ⟨some name, true⟩ => labelled "Local Function".toList name.text
  | ⟨some name, false⟩ => labelled "Function".toList name.text
  | ⟨none, _⟩ => "Function".toList

/-- The outline of a comment. -/
def Comment.outline (columns : List Char) (isLast : Bool) (comment : Comment) : List Char :=
  line columns isLast comment.label

/-- The outline of a name. -/
def Name.outline (columns : List Char) (isLast : Bool) (name : Name) : List Char :=
  line columns isLast name.label

/-- The outline of a parameter. -/
def Parameter.outline (columns : List Char) (isLast : Bool) (parameter : Parameter) : List Char :=
  line columns isLast parameter.label

/-- The outline of a literal. -/
def Literal.outline (columns : List Char) (isLast : Bool) (constant : Literal) : List Char :=
  line columns isLast constant.label

/-- The outlines of a function's parts. Without parameters there is no entry for them. -/
def Parameter.outlines (parameters : List Parameter) (body : List Char → List Char)
    (columns : List Char) : List Char :=
  (if parameters.isEmpty then []
    else node columns false "Parameters".toList (list Parameter.outline · parameters))
    ++ node columns true "Body".toList body

/-! ### Expressions and statements -/

mutual

/-- The outline of an expression. -/
def Expression.outline (columns : List Char) (isLast : Bool) : Expression → List Char
  | .binary operator left right _ =>
    node columns isLast (labelled "Binary".toList operator.text) fun inner =>
      left.outline inner false ++ right.outline inner true
  | .unary operator argument _ =>
    node columns isLast (labelled "Unary".toList operator.text) (argument.outline · true)
  | .call base arguments _ =>
    node columns isLast "Call".toList fun inner =>
      node inner false "Callee".toList (base.outline · true)
        ++ node inner true "Arguments".toList (Expression.outlines · arguments)
  | .stringCall base argument _ =>
    node columns isLast "String Call".toList fun inner =>
      base.outline inner false ++ argument.outline inner true
  | .tableCall base fields _ _ =>
    node columns isLast "Table Call".toList fun inner =>
      base.outline inner false ++ node inner true "Table".toList (Field.outlines · fields)
  | .function head parameters body _ =>
    node columns isLast head.label
      (Parameter.outlines parameters (Statement.outlines · body))
  | .group inner _ => node columns isLast "Group".toList (inner.outline · true)
  | .name identifier => line columns isLast (labelled "Variable".toList identifier.text)
  | .index base key _ =>
    node columns isLast "Index".toList fun inner =>
      base.outline inner false ++ key.outline inner true
  | .member base selector name _ =>
    node columns isLast (labelled "Member".toList (selector.text ++ name.text))
      (base.outline · true)
  | .literal constant => constant.outline columns isLast
  | .table fields _ => node columns isLast "Table".toList (Field.outlines · fields)

/-- The outlines of expressions. -/
def Expression.outlines (columns : List Char) : List Expression → List Char
  | [] => []
  | expression :: rest =>
    expression.outline columns rest.isEmpty ++ Expression.outlines columns rest

/-- The outline of the step of a loop, if there is one. -/
def Expression.stepOutline (columns : List Char) : Option Expression → List Char
  | none => []
  | some step => node columns false "Step".toList (step.outline · true)

/-- The outline of a field. -/
def Field.outline (columns : List Char) (isLast : Bool) : Field → List Char
  | .keyed key value _ =>
    node columns isLast "Keyed Field".toList fun inner =>
      key.outline inner false ++ value.outline inner true
  | .named name value _ =>
    node columns isLast (labelled "Named Field".toList name.text) (value.outline · true)
  | .positional value => value.outline columns isLast
  | .comment remark => remark.outline columns isLast

/-- The outlines of fields. -/
def Field.outlines (columns : List Char) : List Field → List Char
  | [] => []
  | field :: rest => field.outline columns rest.isEmpty ++ Field.outlines columns rest

/-- The outline of a clause. -/
def Clause.outline (columns : List Char) (isLast : Bool) : Clause → List Char
  | .guarded word condition body _ =>
    node columns isLast word.label fun inner =>
      node inner false "Condition".toList (condition.outline · true)
        ++ node inner true "Body".toList (Statement.outlines · body)
  | .otherwise body _ =>
    node columns isLast "Else Clause".toList fun inner =>
      node inner true "Body".toList (Statement.outlines · body)

/-- The outlines of clauses. -/
def Clause.outlines (columns : List Char) : List Clause → List Char
  | [] => []
  | clause :: rest => clause.outline columns rest.isEmpty ++ Clause.outlines columns rest

/-- The outline of a statement. -/
def Statement.outline (columns : List Char) (isLast : Bool) : Statement → List Char
  | .assignment targets values _ =>
    node columns isLast "Assignment".toList fun inner =>
      node inner false "Variables".toList (Expression.outlines · targets)
        ++ node inner true "Values".toList (Expression.outlines · values)
  | .breakLoop _ => line columns isLast "Break".toList
  | .call expression _ => node columns isLast "Call Statement".toList (expression.outline · true)
  | .comment remark => remark.outline columns isLast
  | .doBlock body _ => node columns isLast "Do".toList (Statement.outlines · body)
  | .genericFor declared iterators body _ =>
    node columns isLast "For Generic".toList fun inner =>
      node inner false "Variables".toList (list Name.outline · declared)
        ++ node inner false "Iterators".toList (Expression.outlines · iterators)
        ++ node inner true "Body".toList (Statement.outlines · body)
  | .numericFor counter first last step body _ =>
    node columns isLast (labelled "For Numeric".toList counter.text) fun inner =>
      node inner false "Start".toList (first.outline · true)
        ++ node inner false "End".toList (last.outline · true)
        ++ Expression.stepOutline inner step
        ++ node inner true "Body".toList (Statement.outlines · body)
  | .function head parameters body _ =>
    node columns isLast head.label
      (Parameter.outlines parameters (Statement.outlines · body))
  | .goto target _ => line columns isLast (labelled "Goto".toList target.text)
  | .ifElse clauses _ => node columns isLast "If".toList (Clause.outlines · clauses)
  | .label name _ => line columns isLast (labelled "Label".toList name.text)
  | .localVariables declared values _ =>
    node columns isLast "Local".toList fun inner =>
      if values.isEmpty then
        node inner true "Variables".toList (list Name.outline · declared)
      else
        node inner false "Variables".toList (list Name.outline · declared)
          ++ node inner true "Values".toList (Expression.outlines · values)
  | .repeatUntil body condition _ =>
    node columns isLast "Repeat".toList fun inner =>
      node inner false "Body".toList (Statement.outlines · body)
        ++ node inner true "Until".toList (condition.outline · true)
  | .returnValues values _ => node columns isLast "Return".toList (Expression.outlines · values)
  | .whileLoop condition body _ =>
    node columns isLast "While".toList fun inner =>
      node inner false "Condition".toList (condition.outline · true)
        ++ node inner true "Body".toList (Statement.outlines · body)

/-- The outlines of statements. -/
def Statement.outlines (columns : List Char) : List Statement → List Char
  | [] => []
  | statement :: rest =>
    statement.outline columns rest.isEmpty ++ Statement.outlines columns rest

end

/-! ### Programs -/

/-- The display of a chunk: the outlines of its statements. -/
def Chunk.display (chunk : Chunk) : List Char :=
  chunk.body.flatMap (Statement.outline [] false)

/-- The display of a program: its statements, and then its comments. -/
def Program.display (program : Program) : List Char :=
  program.chunk.display ++ program.comments.flatMap (Comment.outline [] false)

end LuaStyle
