/-
This file decides where parentheses are written.

The parentheses of the source are not kept as they were. An operand gets parentheses when its
operator binds too loosely for the place it stands in, which is decided by rank alone; in a chain of
operators of equal rank it is decided by the way the chain groups. A right operand with the very
same operator goes without parentheses where regrouping the chain keeps its value.

Around an expression that may have any number of values parentheses are not about grouping. They cut
the values down to one, and are kept, once.
-/

import LuaStyle.Tree.Basic

namespace LuaStyle

/-! ### Ranks -/

/-- Which way a chain of one operator groups. -/
inductive Associativity where
  | left
  | right
deriving DecidableEq, Inhabited, Repr

namespace BinaryOperator

/-- How tightly an operator binds. -/
def rank : BinaryOperator → Nat
  | or => 1
  | and => 2
  | equal | notEqual | less | lessEqual | greater | greaterEqual => 3
  | concat => 4
  | add | subtract => 5
  | multiply | divide | remainder => 6
  | power => 8

/-- Which way a chain of the operator groups. -/
def associativity : BinaryOperator → Associativity
  | power | concat => .right
  | _ => .left

/-- A chain of the operator has the same value whichever way it groups. -/
def isAssociative : BinaryOperator → Bool
  | add | multiply | concat | and | or => true
  | _ => false

end BinaryOperator

/-- How tightly the unary operators bind: only the power binds tighter. -/
def UnaryOperator.rank : Nat := 7

/-! ### Where parentheses are needed -/

namespace Expression

/-- The left operand of the operator needs parentheses. An operand of equal rank always gets them,
even where the chain would group that way without. -/
def needsParensOnLeft (operator : BinaryOperator) : Expression → Bool
  | binary inner _ _ _ => inner.rank ≤ operator.rank
  | unary _ _ _ => UnaryOperator.rank < operator.rank
  | _ => false

/-- The right operand of the operator needs parentheses. -/
def needsParensOnRight (operator : BinaryOperator) : Expression → Bool
  | binary inner _ _ _ =>
    inner.rank < operator.rank ||
      (inner.rank == operator.rank && operator.associativity == .left
        && !(inner == operator && operator.isAssociative))
  | _ => false

/-- The operand of a unary operator needs parentheses. -/
def needsParensUnderUnary : Expression → Bool
  | binary inner _ _ _ => inner.rank < UnaryOperator.rank
  | _ => false

/-- Something can be selected from the expression, or it can be called, without parentheses. -/
def isBase : Expression → Bool
  | name _ | member .. | index .. | call .. | stringCall .. | tableCall .. | group .. => true
  | _ => false

/-- The expression as it is written: parentheses are left out unless they cut values down to
one. -/
def withoutParens : Expression → Expression
  | group inner span =>
    if inner.unwrapGroups.isMultipleValue then .group inner span else inner.withoutParens
  | expression => expression

/-- As the only argument of a call, the expression is written without parentheses. -/
def isBareArgument : Expression → Bool
  | literal ⟨.string _, _, _⟩ => true
  | table .. => true
  | _ => false

/-- The expression has the form of a unary operation. -/
def isUnary : Expression → Bool
  | unary .. => true
  | _ => false

end Expression

end LuaStyle
