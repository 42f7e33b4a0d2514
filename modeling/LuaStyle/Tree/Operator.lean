/-
This file lists the operators of Lua expressions.
-/

namespace LuaStyle

/-- The operators with two operands. -/
inductive BinaryOperator where
  | add | subtract | multiply | divide | remainder | power | concat
  | equal | notEqual | less | lessEqual | greater | greaterEqual
  | and | or
deriving DecidableEq, Inhabited, Repr

namespace BinaryOperator

/-- All operators with two operands. -/
def all : List BinaryOperator :=
  [add, subtract, multiply, divide, remainder, power, concat, equal, notEqual, less, lessEqual,
    greater, greaterEqual, and, or]

/-- The text of an operator. -/
def text : BinaryOperator → List Char
  | add => ['+']
  | subtract => ['-']
  | multiply => ['*']
  | divide => ['/']
  | remainder => ['%']
  | power => ['^']
  | concat => ['.', '.']
  | equal => ['=', '=']
  | notEqual => ['~', '=']
  | less => ['<']
  | lessEqual => ['<', '=']
  | greater => ['>']
  | greaterEqual => ['>', '=']
  | and => "and".toList
  | or => "or".toList

/-- The operator combines truth values, and may skip its right operand. -/
def isLogical : BinaryOperator → Bool
  | and | or => true
  | _ => false

end BinaryOperator

/-- The operators with one operand, which stand before it. -/
inductive UnaryOperator where
  | not | negate | length
deriving DecidableEq, Inhabited, Repr

namespace UnaryOperator

/-- The text of an operator. -/
def text : UnaryOperator → List Char
  | not => "not".toList
  | negate => ['-']
  | length => ['#']

/-- The operator is a word, and so has to be kept apart from the operand. -/
def isWord : UnaryOperator → Bool
  | not => true
  | _ => false

end UnaryOperator

end LuaStyle
