/-
This file defines the syntax tree of a Lua program.

Every node carries the span of source it was read from. Comments are collected beside the tree when
a program is read; the bodies of blocks and the fields of tables can also hold them, which is where
they are put before the program is laid out. Parentheses are nodes of their own, and so are the
three ways to write a call, since the tree records how the program was written and not only what it
means.
-/

import LuaStyle.Number.Double
import LuaStyle.Source.Span
import LuaStyle.Tree.Operator

namespace LuaStyle

/-! ### Leaves -/

/-- A name of a variable, a field or a label. -/
structure Name where
  /-- The text of the name. -/
  text : List Char
  /-- Where the name stands. -/
  span : Span
deriving DecidableEq, Inhabited, Repr

/-- How a comment is delimited. -/
inductive CommentStyle where
  /-- By two dashes and the end of the line. -/
  | line
  /-- By two dashes and a pair of long brackets. -/
  | block
deriving DecidableEq, Inhabited, Repr

/-- A comment. -/
structure Comment where
  /-- The text between the delimiters. -/
  text : List Char
  /-- The text with its delimiters. -/
  raw : List Char
  /-- How the comment is delimited. -/
  style : CommentStyle
  /-- Where the comment stands. -/
  span : Span
deriving DecidableEq, Inhabited, Repr

/-- The value of a literal. -/
inductive LiteralValue where
  | nil
  | boolean (value : Bool)
  | number (value : Double)
  | string (bytes : List UInt8)
  /-- The arguments that a function was given beyond its parameters, written `...`. -/
  | vararg
deriving DecidableEq, Inhabited, Repr

/-- A literal. -/
structure Literal where
  /-- What the literal stands for. -/
  value : LiteralValue
  /-- How the literal is written in the source. -/
  raw : List Char
  /-- Where the literal stands. -/
  span : Span
deriving DecidableEq, Inhabited, Repr

/-- How a member is selected. -/
inductive Selector where
  /-- A field, `a.b`. -/
  | dot
  /-- A method about to be called, `a:b`. -/
  | colon
deriving DecidableEq, Inhabited, Repr

/-- The text of a selector. -/
def Selector.text : Selector → List Char
  | dot => ['.']
  | colon => [':']

/-- A parameter of a function. -/
inductive Parameter where
  | name (name : Name)
  /-- The last parameter, `...`, which takes all remaining arguments. -/
  | vararg (span : Span)
deriving DecidableEq, Inhabited, Repr

/-- The name that a function declaration assigns to, `a.b.c:d`. -/
structure FunctionName where
  /-- The names joined by points. -/
  path : List Name
  /-- The name behind the colon, which makes the function a method. -/
  method : Option Name
  /-- Where the whole name stands. -/
  span : Span
deriving DecidableEq, Inhabited, Repr

/-- The text of a function's name. -/
def FunctionName.text (name : FunctionName) : List Char :=
  ['.'].intercalate (name.path.map Name.text) ++
    (name.method.map fun method => ':' :: method.text).getD []

/-- What stands in front of the parameters of a function. Declarations have a name, and functions
that are only values have none. -/
structure FunctionHead where
  /-- The name that the function is assigned to. -/
  name : Option FunctionName
  /-- The name is declared as a local variable. -/
  isLocal : Bool
deriving DecidableEq, Inhabited, Repr

/-- The head of a function that is only a value. -/
def FunctionHead.anonymous : FunctionHead where
  name := none
  isLocal := false

/-- The word that opens a clause with a condition. -/
inductive ClauseWord where
  | ifWord
  | elseifWord
deriving DecidableEq, Inhabited, Repr

/-! ### Expressions and statements -/

mutual

/-- An expression. -/
inductive Expression where
  /-- Two operands joined by an operator. -/
  | binary (operator : BinaryOperator) (left right : Expression) (span : Span)
  /-- An operator before its operand. -/
  | unary (operator : UnaryOperator) (argument : Expression) (span : Span)
  /-- A call with its arguments in parentheses. -/
  | call (base : Expression) (arguments : List Expression) (span : Span)
  /-- A call whose one argument is a string written without parentheses. -/
  | stringCall (base : Expression) (argument : Literal) (span : Span)
  /-- A call whose one argument is a table written without parentheses. -/
  | tableCall (base : Expression) (fields : List Field) (tableSpan span : Span)
  /-- A function as a value. -/
  | function (head : FunctionHead) (parameters : List Parameter) (body : List Statement)
      (span : Span)
  /-- An expression in parentheses. -/
  | group (inner : Expression) (span : Span)
  /-- A variable. -/
  | name (name : Name)
  /-- An element selected by the value of an expression, `a[b]`. -/
  | index (base key : Expression) (span : Span)
  /-- An element selected by a name. -/
  | member (base : Expression) (selector : Selector) (name : Name) (span : Span)
  /-- A literal. -/
  | literal (literal : Literal)
  /-- A table. -/
  | table (fields : List Field) (span : Span)

/-- One entry of a table. -/
inductive Field where
  /-- An entry under a computed key, `[a] = b`. -/
  | keyed (key value : Expression) (span : Span)
  /-- An entry under a name, `a = b`. -/
  | named (name : Name) (value : Expression) (span : Span)
  /-- An entry under the next free number. -/
  | positional (value : Expression)
  /-- A comment between entries. -/
  | comment (comment : Comment)

/-- One branch of an `if` statement. -/
inductive Clause where
  /-- A branch with a condition. -/
  | guarded (word : ClauseWord) (condition : Expression) (body : List Statement) (span : Span)
  /-- The branch that is taken when no condition holds. -/
  | otherwise (body : List Statement) (span : Span)

/-- A statement. -/
inductive Statement where
  /-- Assigns values to variables, fields and elements. -/
  | assignment (targets values : List Expression) (span : Span)
  /-- Leaves the loop around it. -/
  | breakLoop (span : Span)
  /-- Calls a function for its effect. -/
  | call (expression : Expression) (span : Span)
  /-- A comment between statements. -/
  | comment (comment : Comment)
  /-- A block on its own, `do … end`. -/
  | doBlock (body : List Statement) (span : Span)
  /-- A loop over an iterator. -/
  | genericFor (declared : List Name) (iterators : List Expression) (body : List Statement)
      (span : Span)
  /-- A loop that counts. -/
  | numericFor (counter : Name) (first last : Expression) (step : Option Expression)
      (body : List Statement) (span : Span)
  /-- Declares a function. -/
  | function (head : FunctionHead) (parameters : List Parameter) (body : List Statement)
      (span : Span)
  /-- Jumps to a label. -/
  | goto (target : Name) (span : Span)
  /-- Takes one of several branches. -/
  | ifElse (clauses : List Clause) (span : Span)
  /-- A place to jump to, `::a::`. -/
  | label (name : Name) (span : Span)
  /-- Declares local variables. -/
  | localVariables (declared : List Name) (values : List Expression) (span : Span)
  /-- A loop that tests its condition behind the body. -/
  | repeatUntil (body : List Statement) (condition : Expression) (span : Span)
  /-- Leaves the function around it. -/
  | returnValues (values : List Expression) (span : Span)
  /-- A loop that tests its condition before the body. -/
  | whileLoop (condition : Expression) (body : List Statement) (span : Span)

end

instance : Inhabited Expression := ⟨.name default⟩
instance : Inhabited Field := ⟨.comment default⟩
instance : Inhabited Clause := ⟨.otherwise [] default⟩
instance : Inhabited Statement := ⟨.breakLoop default⟩

/-- The statements of a whole source. -/
structure Chunk where
  /-- The statements. -/
  body : List Statement
  /-- The whole source. -/
  span : Span
deriving Inhabited

/-- A program as it was read: its statements, and its comments in the order they appear. -/
structure Program where
  /-- The statements. -/
  chunk : Chunk
  /-- The comments. -/
  comments : List Comment
deriving Inhabited

/-! ### Spans -/

/-- Where a parameter stands. -/
def Parameter.span : Parameter → Span
  | name identifier => identifier.span
  | vararg span => span

/-- Where an expression stands. -/
def Expression.span : Expression → Span
  | binary _ _ _ span | unary _ _ span | call _ _ span | stringCall _ _ span
  | tableCall _ _ _ span | function _ _ _ span | group _ span | index _ _ span
  | member _ _ _ span | table _ span => span
  | name identifier => identifier.span
  | literal constant => constant.span

/-- Where a field stands. -/
def Field.span : Field → Span
  | keyed _ _ span | named _ _ span => span
  | positional value => value.span
  | comment remark => remark.span

/-- The stretch of source that counts as the clause. -/
def Clause.span : Clause → Span
  | guarded _ _ _ span | otherwise _ span => span

/-- Where a statement stands. -/
def Statement.span : Statement → Span
  | assignment _ _ span | breakLoop span | call _ span | doBlock _ span | genericFor _ _ _ span
  | numericFor _ _ _ _ _ span | function _ _ _ span | goto _ span | ifElse _ span | label _ span
  | localVariables _ _ span | repeatUntil _ _ span | returnValues _ span
  | whileLoop _ _ span => span
  | comment remark => remark.span

/-! ### Questions about nodes -/

namespace Expression

/-- The expression without the parentheses around it. -/
def unwrapGroups : Expression → Expression
  | group inner _ => inner.unwrapGroups
  | expression => expression

/-- The expression is one of the three forms of a call. -/
def isCall : Expression → Bool
  | call .. | stringCall .. | tableCall .. => true
  | _ => false

/-- The expression may stand for any number of values. Parentheses around it are part of the
meaning, since they cut the values down to one. -/
def isMultipleValue : Expression → Bool
  | call .. | stringCall .. | tableCall .. => true
  | literal ⟨.vararg, _, _⟩ => true
  | _ => false

/-- What kind of expression it is, in the words of the messages about it. -/
def kindName : Expression → List Char
  | binary .. => "Binary".toList
  | unary .. => "Unary".toList
  | call .. => "Call".toList
  | stringCall .. => "StringCall".toList
  | tableCall .. => "TableCall".toList
  | function .. => "Function".toList
  | group .. => "Group".toList
  | name .. => "Identifier".toList
  | index .. => "Index".toList
  | member .. => "Member".toList
  | literal .. => "Literal".toList
  | table .. => "Table".toList

end Expression

/-- The field is a comment. -/
def Field.isComment : Field → Bool
  | comment _ => true
  | _ => false

/-- The statement is a comment. -/
def Statement.isComment : Statement → Bool
  | comment _ => true
  | _ => false

/-- The statement declares a function. -/
def Statement.isFunctionDeclaration : Statement → Bool
  | function .. => true
  | _ => false

end LuaStyle
