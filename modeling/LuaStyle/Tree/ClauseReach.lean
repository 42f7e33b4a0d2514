/-
This file lets the clauses of `if` statements reach over everything written inside them.

When a program is read, the span of a clause is that of its header, from its word to the word `then`
or just the word `else`. To find out which clause a position belongs to, each clause has to reach up
to the next one, and the last clause to the end of the statement. Only the ends of clauses change,
and a clause that reaches its end already stays as it is, so doing it again changes nothing.

What changed can be asked for separately: `Chunk.extensions` lists the clauses that reach further
than they did, in the order in which the nodes of the tree are listed.
-/

import LuaStyle.Tree.Nodes

namespace LuaStyle

/-- Where a clause should end: where the next clause starts, or at the end of the statement. -/
def Clause.reach (further : List Clause) (stop : Nat) : Nat :=
  match further with
  | [] => stop
  | next :: _ => next.span.start

mutual

/-- The expression with every clause inside it reaching its end. -/
def Expression.extendClauses : Expression → Expression
  | .binary operator left right span =>
    .binary operator left.extendClauses right.extendClauses span
  | .unary operator argument span => .unary operator argument.extendClauses span
  | .call base arguments span =>
    .call base.extendClauses (Expression.extendAll arguments) span
  | .stringCall base argument span => .stringCall base.extendClauses argument span
  | .tableCall base fields tableSpan span =>
    .tableCall base.extendClauses (Field.extendAll fields) tableSpan span
  | .function head parameters body span => .function head parameters (Statement.extendAll body) span
  | .group inner span => .group inner.extendClauses span
  | .name identifier => .name identifier
  | .index base key span => .index base.extendClauses key.extendClauses span
  | .member base selector name span => .member base.extendClauses selector name span
  | .literal constant => .literal constant
  | .table fields span => .table (Field.extendAll fields) span

/-- The expressions with every clause inside them reaching its end. -/
def Expression.extendAll : List Expression → List Expression
  | [] => []
  | expression :: rest => expression.extendClauses :: Expression.extendAll rest

/-- The expression that may be left out, with every clause inside it reaching its end. -/
def Expression.extendOptional : Option Expression → Option Expression
  | none => none
  | some expression => some expression.extendClauses

/-- The field with every clause inside it reaching its end. -/
def Field.extendClauses : Field → Field
  | .keyed key value span => .keyed key.extendClauses value.extendClauses span
  | .named name value span => .named name value.extendClauses span
  | .positional value => .positional value.extendClauses
  | .comment remark => .comment remark

/-- The fields with every clause inside them reaching its end. -/
def Field.extendAll : List Field → List Field
  | [] => []
  | field :: rest => field.extendClauses :: Field.extendAll rest

/-- The clause, and every clause inside it, reaching its end. -/
def Clause.extendTo (stop : Nat) : Clause → Clause
  | .guarded word condition body span =>
    .guarded word condition.extendClauses (Statement.extendAll body) ⟨span.start, stop⟩
  | .otherwise body span => .otherwise (Statement.extendAll body) ⟨span.start, stop⟩

/-- The clauses of a statement that ends at the given offset, each reaching its end. -/
def Clause.extendAll (stop : Nat) : List Clause → List Clause
  | [] => []
  | clause :: rest => clause.extendTo (Clause.reach rest stop) :: Clause.extendAll stop rest

/-- The statement with every clause inside it reaching its end. -/
def Statement.extendClauses : Statement → Statement
  | .assignment targets values span =>
    .assignment (Expression.extendAll targets) (Expression.extendAll values) span
  | .breakLoop span => .breakLoop span
  | .call expression span => .call expression.extendClauses span
  | .comment remark => .comment remark
  | .doBlock body span => .doBlock (Statement.extendAll body) span
  | .genericFor declared iterators body span =>
    .genericFor declared (Expression.extendAll iterators) (Statement.extendAll body) span
  | .numericFor counter first last step body span =>
    .numericFor counter first.extendClauses last.extendClauses (Expression.extendOptional step)
      (Statement.extendAll body) span
  | .function head parameters body span =>
    .function head parameters (Statement.extendAll body) span
  | .goto target span => .goto target span
  | .ifElse clauses span => .ifElse (Clause.extendAll span.stop clauses) span
  | .label name span => .label name span
  | .localVariables declared values span =>
    .localVariables declared (Expression.extendAll values) span
  | .repeatUntil body condition span =>
    .repeatUntil (Statement.extendAll body) condition.extendClauses span
  | .returnValues values span => .returnValues (Expression.extendAll values) span
  | .whileLoop condition body span =>
    .whileLoop condition.extendClauses (Statement.extendAll body) span

/-- The statements with every clause inside them reaching its end. -/
def Statement.extendAll : List Statement → List Statement
  | [] => []
  | statement :: rest => statement.extendClauses :: Statement.extendAll rest

end

/-- The chunk with every clause reaching its end. -/
def Chunk.extendClauses (chunk : Chunk) : Chunk :=
  ⟨Statement.extendAll chunk.body, chunk.span⟩

/-! ### What changes -/

/-- A clause that reaches further, or less far, than it did. -/
structure Extension where
  /-- Where the clause starts. -/
  start : Nat
  /-- Where the clause now ends. -/
  stop : Nat
deriving DecidableEq, Inhabited, Repr

/-- The clauses of one statement that end elsewhere than they should. -/
def Clause.extensions (stop : Nat) : List Clause → List Extension
  | [] => []
  | clause :: rest =>
    let reach := Clause.reach rest stop
    if clause.span.stop = reach then Clause.extensions stop rest
    else ⟨clause.span.start, reach⟩ :: Clause.extensions stop rest

/-- The clauses of a node that end elsewhere than they should. -/
def Node.extensions : Node → List Extension
  | .statement (.ifElse clauses span) => Clause.extensions span.stop clauses
  | _ => []

/-- The clauses of a chunk that end elsewhere than they should. -/
def Chunk.extensions (chunk : Chunk) : List Extension :=
  (Statement.nodesOfAll chunk.body).flatMap Node.extensions

end LuaStyle
