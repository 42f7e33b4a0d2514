/-
This file puts comments into the tree.

A comment belongs into the innermost block or table around it. Expressions cannot hold comments
themselves, so looking for the place means going down into every node whose span contains the
comment, through expressions as well, since a function or a table may stand inside one. If the way
down ends in an expression that has no place, the comment moves out again, to the nearest block or
table on the way, and stands there in front of the item it was found in. Otherwise it stands in
front of the first item that begins behind it.

Going down is a search that may fail, and `none` says that a node has no place for the comment.
Blocks and tables never fail. Each comment is put into the tree exactly once, and `Placement` tells
how.
-/

import LuaStyle.Tree.Basic

namespace LuaStyle

/-- How a comment was put into a list of statements or fields. -/
structure Placement where
  /-- The comment was found inside an item of the list that had no place for it. -/
  movedOut : Bool
  /-- The index at which it now stands. -/
  index : Nat
deriving DecidableEq, Inhabited, Repr

/-- The index of the first span that begins behind the comment, or the number of spans if there is
none. -/
def Comment.indexAmong (comment : Comment) (spans : List Span) : Nat :=
  spans.findIdx fun span => comment.span.stop ≤ span.start

/-- What an attempt to place the comment in a node answers; a node that does not contain the comment
is not tried. -/
@[macro_inline]
def Comment.within {Placed : Type} (comment : Comment) (span : Span) (attempt : Option Placed) :
    Option Placed :=
  if span.Contains comment.span then attempt else none

/-- The fields with the comment among them, given the attempt to put it where a field is. A table
takes every comment. -/
def Field.settle (comment : Comment) (fields : List Field) :
    Option (List Field × Placement) → List Field × Placement
  | some placed => placed
  | none =>
    let index := comment.indexAmong (fields.map Field.span)
    (fields.insertIdx index (.comment comment), ⟨false, index⟩)

/-- The statements with the comment among them, given the attempt to put it where a statement is. A
block takes every comment. -/
def Statement.settle (comment : Comment) (body : List Statement) :
    Option (List Statement × Placement) → List Statement × Placement
  | some placed => placed
  | none =>
    let index := comment.indexAmong (body.map Statement.span)
    (body.insertIdx index (.comment comment), ⟨false, index⟩)

mutual

/-- Puts a comment into the expression. -/
def Expression.place (comment : Comment) : Expression → Option (Expression × Placement)
  | .binary operator left right span =>
    match comment.within left.span (left.place comment) with
    | some (left, placement) => some (.binary operator left right span, placement)
    | none =>
      (comment.within right.span (right.place comment)).map fun (right, placement) =>
        (.binary operator left right span, placement)
  | .unary operator argument span =>
    (comment.within argument.span (argument.place comment)).map fun (argument, placement) =>
      (.unary operator argument span, placement)
  | .call base arguments span =>
    match comment.within base.span (base.place comment) with
    | some (base, placement) => some (.call base arguments span, placement)
    | none =>
      (Expression.placeAmong comment arguments).map fun (arguments, placement) =>
        (.call base arguments span, placement)
  | .stringCall base argument span =>
    (comment.within base.span (base.place comment)).map fun (base, placement) =>
      (.stringCall base argument span, placement)
  | .tableCall base fields tableSpan span =>
    match comment.within base.span (base.place comment) with
    | some (base, placement) => some (.tableCall base fields tableSpan span, placement)
    | none =>
      if tableSpan.Contains comment.span then
        let (fields, placement) := Field.settle comment fields (Field.placeAmong comment 0 fields)
        some (.tableCall base fields tableSpan span, placement)
      else
        none
  | .function head parameters body span =>
    let (body, placement) := Statement.settle comment body (Statement.placeAmong comment 0 body)
    some (.function head parameters body span, placement)
  | .group inner span =>
    (comment.within inner.span (inner.place comment)).map fun (inner, placement) =>
      (.group inner span, placement)
  | .name _ => none
  | .index base key span =>
    match comment.within base.span (base.place comment) with
    | some (base, placement) => some (.index base key span, placement)
    | none =>
      (comment.within key.span (key.place comment)).map fun (key, placement) =>
        (.index base key span, placement)
  | .member base selector name span =>
    (comment.within base.span (base.place comment)).map fun (base, placement) =>
      (.member base selector name span, placement)
  | .literal _ => none
  | .table fields span =>
    let (fields, placement) := Field.settle comment fields (Field.placeAmong comment 0 fields)
    some (.table fields span, placement)

/-- Puts a comment into the first expression that contains it and has a place for it. -/
def Expression.placeAmong (comment : Comment) :
    List Expression → Option (List Expression × Placement)
  | [] => none
  | expression :: rest =>
    match comment.within expression.span (expression.place comment) with
    | some (expression, placement) => some (expression :: rest, placement)
    | none =>
      (Expression.placeAmong comment rest).map fun (rest, placement) =>
        (expression :: rest, placement)

/-- Puts a comment into the expression that may be left out, if it contains the comment. -/
def Expression.placeOptional (comment : Comment) :
    Option Expression → Option (Option Expression × Placement)
  | none => none
  | some expression =>
    (comment.within expression.span (expression.place comment)).map fun (expression, placement) =>
      (some expression, placement)

/-- Puts a comment into the field. -/
def Field.place (comment : Comment) : Field → Option (Field × Placement)
  | .keyed key value span =>
    match comment.within key.span (key.place comment) with
    | some (key, placement) => some (.keyed key value span, placement)
    | none =>
      (comment.within value.span (value.place comment)).map fun (value, placement) =>
        (.keyed key value span, placement)
  | .named name value span =>
    (comment.within value.span (value.place comment)).map fun (value, placement) =>
      (.named name value span, placement)
  | .positional value =>
    (comment.within value.span (value.place comment)).map fun (value, placement) =>
      (.positional value, placement)
  | .comment _ => none

/-- Puts a comment into, or in front of, the first field that contains it, if one does. The index is
that of the first field of the list. -/
def Field.placeAmong (comment : Comment) (index : Nat) :
    List Field → Option (List Field × Placement)
  | [] => none
  | field :: rest =>
    if field.span.Contains comment.span then
      match field.place comment with
      | some (field, placement) => some (field :: rest, placement)
      | none => some (.comment comment :: field :: rest, ⟨true, index⟩)
    else
      (Field.placeAmong comment (index + 1) rest).map fun (rest, placement) =>
        (field :: rest, placement)

/-- Puts a comment into the clause, which always has a place. -/
def Clause.place (comment : Comment) : Clause → Clause × Placement
  | .guarded word condition body span =>
    match comment.within condition.span (condition.place comment) with
    | some (condition, placement) => (.guarded word condition body span, placement)
    | none =>
      let (body, placement) := Statement.settle comment body (Statement.placeAmong comment 0 body)
      (.guarded word condition body span, placement)
  | .otherwise body span =>
    let (body, placement) := Statement.settle comment body (Statement.placeAmong comment 0 body)
    (.otherwise body span, placement)

/-- Puts a comment into the first clause that contains it, if one does. -/
def Clause.placeAmong (comment : Comment) : List Clause → Option (List Clause × Placement)
  | [] => none
  | clause :: rest =>
    if clause.span.Contains comment.span then
      let (clause, placement) := clause.place comment
      some (clause :: rest, placement)
    else
      (Clause.placeAmong comment rest).map fun (rest, placement) => (clause :: rest, placement)

/-- Puts a comment into the statement. -/
def Statement.place (comment : Comment) : Statement → Option (Statement × Placement)
  | .assignment targets values span =>
    match Expression.placeAmong comment targets with
    | some (targets, placement) => some (.assignment targets values span, placement)
    | none =>
      (Expression.placeAmong comment values).map fun (values, placement) =>
        (.assignment targets values span, placement)
  | .breakLoop _ => none
  | .call expression span =>
    (comment.within expression.span (expression.place comment)).map fun (expression, placement) =>
      (.call expression span, placement)
  | .comment _ => none
  | .doBlock body span =>
    let (body, placement) := Statement.settle comment body (Statement.placeAmong comment 0 body)
    some (.doBlock body span, placement)
  | .genericFor declared iterators body span =>
    match Expression.placeAmong comment iterators with
    | some (iterators, placement) => some (.genericFor declared iterators body span, placement)
    | none =>
      let (body, placement) := Statement.settle comment body (Statement.placeAmong comment 0 body)
      some (.genericFor declared iterators body span, placement)
  | .numericFor counter first last step body span =>
    match comment.within first.span (first.place comment) with
    | some (first, placement) => some (.numericFor counter first last step body span, placement)
    | none =>
      match comment.within last.span (last.place comment) with
      | some (last, placement) => some (.numericFor counter first last step body span, placement)
      | none =>
        match Expression.placeOptional comment step with
        | some (step, placement) =>
          some (.numericFor counter first last step body span, placement)
        | none =>
          let (body, placement) :=
            Statement.settle comment body (Statement.placeAmong comment 0 body)
          some (.numericFor counter first last step body span, placement)
  | .function head parameters body span =>
    let (body, placement) := Statement.settle comment body (Statement.placeAmong comment 0 body)
    some (.function head parameters body span, placement)
  | .goto _ _ => none
  | .ifElse clauses span =>
    (Clause.placeAmong comment clauses).map fun (clauses, placement) =>
      (.ifElse clauses span, placement)
  | .label _ _ => none
  | .localVariables declared values span =>
    (Expression.placeAmong comment values).map fun (values, placement) =>
      (.localVariables declared values span, placement)
  | .repeatUntil body condition span =>
    match comment.within condition.span (condition.place comment) with
    | some (condition, placement) => some (.repeatUntil body condition span, placement)
    | none =>
      let (body, placement) := Statement.settle comment body (Statement.placeAmong comment 0 body)
      some (.repeatUntil body condition span, placement)
  | .returnValues values span =>
    (Expression.placeAmong comment values).map fun (values, placement) =>
      (.returnValues values span, placement)
  | .whileLoop condition body span =>
    match comment.within condition.span (condition.place comment) with
    | some (condition, placement) => some (.whileLoop condition body span, placement)
    | none =>
      let (body, placement) := Statement.settle comment body (Statement.placeAmong comment 0 body)
      some (.whileLoop condition body span, placement)

/-- Puts a comment into, or in front of, the first statement that contains it, if one does. The
index is that of the first statement of the list. -/
def Statement.placeAmong (comment : Comment) (index : Nat) :
    List Statement → Option (List Statement × Placement)
  | [] => none
  | statement :: rest =>
    if statement.span.Contains comment.span then
      match statement.place comment with
      | some (statement, placement) => some (statement :: rest, placement)
      | none => some (.comment comment :: statement :: rest, ⟨true, index⟩)
    else
      (Statement.placeAmong comment (index + 1) rest).map fun (rest, placement) =>
        (statement :: rest, placement)

end

namespace Chunk

/-- Puts a comment into the chunk. -/
def placeComment (chunk : Chunk) (comment : Comment) : Chunk × Placement :=
  let (body, placement) :=
    Statement.settle comment chunk.body (Statement.placeAmong comment 0 chunk.body)
  (⟨body, chunk.span⟩, placement)

/-- Puts comments into the chunk, one after the other, and tells how each was put there. -/
def placeComments (chunk : Chunk) : List Comment → Chunk × List (Comment × Placement)
  | [] => (chunk, [])
  | comment :: rest =>
    let (chunk, placement) := chunk.placeComment comment
    let (chunk, placements) := chunk.placeComments rest
    (chunk, (comment, placement) :: placements)

end Chunk

end LuaStyle
