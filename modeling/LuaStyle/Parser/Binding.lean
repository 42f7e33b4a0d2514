/-
This file says how tightly operators bind when an expression is read.

Every binary operator has a power on either side. An operand between two operators goes to the one
whose power on that side is higher, and to the left one if they are equal; so an operator whose two
powers are equal groups to the left, and one whose right power is the lower groups to the right.
-/

import LuaStyle.Token.Kind
import LuaStyle.Tree.Operator

namespace LuaStyle

namespace BinaryOperator

/-- The kind of token that the operator is written as. -/
def token : BinaryOperator → Token.Kind
  | add => .symbol .plus
  | subtract => .symbol .minus
  | multiply => .symbol .star
  | divide => .symbol .slash
  | remainder => .symbol .percent
  | power => .symbol .caret
  | concat => .symbol .dotDot
  | equal => .symbol .equalEqual
  | notEqual => .symbol .tildeEqual
  | less => .symbol .less
  | lessEqual => .symbol .lessEqual
  | greater => .symbol .greater
  | greaterEqual => .symbol .greaterEqual
  | and => .keyword .andWord
  | or => .keyword .orWord

/-- The binary operator that a kind of token stands for behind an operand. -/
def ofToken? (kind : Token.Kind) : Option BinaryOperator :=
  all.find? fun operator => operator.token == kind

/-- How tightly the operator holds on to the operand before it. -/
def leftPower : BinaryOperator → Nat
  | or => 1
  | and => 2
  | equal | notEqual | less | lessEqual | greater | greaterEqual => 3
  | concat => 5
  | add | subtract => 6
  | multiply | divide | remainder => 7
  | power => 10

/-- How tightly the operator holds on to the operand behind it. -/
def rightPower : BinaryOperator → Nat
  | or => 1
  | and => 2
  | equal | notEqual | less | lessEqual | greater | greaterEqual => 3
  | concat => 4
  | add | subtract => 6
  | multiply | divide | remainder => 7
  | power => 9

end BinaryOperator

namespace UnaryOperator

/-- The kind of token that the operator is written as. -/
def token : UnaryOperator → Token.Kind
  | not => .keyword .notWord
  | negate => .symbol .minus
  | length => .symbol .hash

/-- The unary operator that a kind of token stands for where an operand is due. -/
def ofToken? (kind : Token.Kind) : Option UnaryOperator :=
  [not, negate, length].find? fun operator => operator.token == kind

/-- How tightly every unary operator holds on to its operand: tighter than all binary operators
except the power. -/
def bindingPower : Nat := 8

end UnaryOperator

end LuaStyle
