/-
This file proves what putting comments into a tree changes, and that it changes nothing else.

Wherever the search for a place ends, the tree gains the comment: it stands once more among the
items of one block or table, and the tree is the same otherwise. So a chunk that several comments
are put into gains them one after the other, and without them it is what it was.
-/

import LuaStyle.Layout.Format
import LuaStyle.Proofs.Gain

namespace LuaStyle

section

variable {comment : Comment} {span : Span}

/-- An attempt that is made only within a span is an attempt. -/
theorem Comment.of_within {Placed : Type} {attempt : Option Placed} {placed : Placed}
    (found : comment.within span attempt = some placed) : attempt = some placed := by
  unfold Comment.within at found
  split at found
  · exact found
  · cases found

/-- A block gains the comment that becomes one of its items. -/
theorem Statement.gains_insert (before after : List Statement) :
    Statement.GainsAmong comment (before ++ after) (before ++ .comment comment :: after) := by
  induction before with
  | nil => exact .here
  | cons statement rest inductionHypothesis => exact .behind inductionHypothesis

/-- A table gains the comment that becomes one of its items. -/
theorem Field.gains_insert (before after : List Field) :
    Field.GainsAmong comment (before ++ after) (before ++ .comment comment :: after) := by
  induction before with
  | nil => exact .here
  | cons field rest inductionHypothesis => exact .behind inductionHypothesis

/-- Inserting an item at an index within a list, or at its end, leaves items on either side. -/
theorem exists_insertIdx_eq {Item : Type} (item : Item) {index : Nat} {items : List Item}
    (inside : index ≤ items.length) :
    ∃ before after, items = before ++ after ∧ before.length = index ∧
      items.insertIdx index item = before ++ item :: after := by
  induction index generalizing items with
  | zero => exact ⟨[], items, rfl, rfl, List.insertIdx_zero⟩
  | succ index inductionHypothesis =>
    cases items with
    | nil => cases inside
    | cons first rest =>
      obtain ⟨before, after, split, length, same⟩ :=
        inductionHypothesis (Nat.le_of_succ_le_succ inside)
      refine ⟨first :: before, after, ?_, congrArg Nat.succ length, ?_⟩
      · rw [split, List.cons_append]
      · rw [List.insertIdx_succ_cons, same, List.cons_append]

theorem Comment.indexAmong_le (comment : Comment) (spans : List Span) :
    comment.indexAmong spans ≤ spans.length :=
  List.findIdx_le_length

theorem Statement.gains_settle {before after : List Statement} {placement : Placement}
    {attempt : Option (List Statement × Placement)}
    (settled : Statement.settle comment before attempt = (after, placement))
    (gains : ∀ {after placement}, attempt = some (after, placement) →
      Statement.GainsAmong comment before after) :
    Statement.GainsAmong comment before after := by
  cases attempt with
  | some placed => exact gains (congrArg some settled)
  | none =>
    have inside := comment.indexAmong_le (before.map Statement.span)
    rw [List.length_map] at inside
    obtain ⟨first, last, split, -, same⟩ := exists_insertIdx_eq (.comment comment) inside
    rw [Statement.settle] at settled
    cases settled
    rw [same, split]
    exact Statement.gains_insert first last

theorem Field.gains_settle {before after : List Field} {placement : Placement}
    {attempt : Option (List Field × Placement)}
    (settled : Field.settle comment before attempt = (after, placement))
    (gains : ∀ {after placement}, attempt = some (after, placement) →
      Field.GainsAmong comment before after) :
    Field.GainsAmong comment before after := by
  cases attempt with
  | some placed => exact gains (congrArg some settled)
  | none =>
    have inside := comment.indexAmong_le (before.map Field.span)
    rw [List.length_map] at inside
    obtain ⟨first, last, split, -, same⟩ := exists_insertIdx_eq (.comment comment) inside
    rw [Field.settle] at settled
    cases settled
    rw [same, split]
    exact Field.gains_insert first last

mutual

/-- An expression gains the comment that is put into it. -/
theorem Expression.gains_place : ∀ (before : Expression) {result : Expression × Placement},
    before.place comment = some result → Expression.Gains comment before result.1
  | .binary _ left right _, _, placed => by
    rw [Expression.place] at placed
    split at placed
    · rename_i found
      cases placed
      exact .binaryLeft (left.gains_place (Comment.of_within found))
    · obtain ⟨⟨_, _⟩, found, same⟩ := Option.map_eq_some_iff.1 placed
      cases same
      exact .binaryRight (right.gains_place (Comment.of_within found))
  | .unary _ argument _, _, placed => by
    rw [Expression.place] at placed
    obtain ⟨⟨_, _⟩, found, same⟩ := Option.map_eq_some_iff.1 placed
    cases same
    exact .unary (argument.gains_place (Comment.of_within found))
  | .call base arguments _, _, placed => by
    rw [Expression.place] at placed
    split at placed
    · rename_i found
      cases placed
      exact .callBase (base.gains_place (Comment.of_within found))
    · obtain ⟨⟨_, _⟩, found, same⟩ := Option.map_eq_some_iff.1 placed
      cases same
      exact .callArguments (Expression.gains_placeAmong arguments found)
  | .stringCall base _ _, _, placed => by
    rw [Expression.place] at placed
    obtain ⟨⟨_, _⟩, found, same⟩ := Option.map_eq_some_iff.1 placed
    cases same
    exact .stringCall (base.gains_place (Comment.of_within found))
  | .tableCall base fields _ _, _, placed => by
    rw [Expression.place] at placed
    split at placed
    · rename_i found
      cases placed
      exact .tableCallBase (base.gains_place (Comment.of_within found))
    · split at placed
      · generalize settled : Field.settle comment fields _ = result at placed
        obtain ⟨_, _⟩ := result
        cases placed
        exact .tableCallFields (Field.gains_settle settled (Field.gains_placeAmong fields 0))
      · cases placed
  | .function _ _ body _, _, placed => by
    rw [Expression.place] at placed
    generalize settled : Statement.settle comment body _ = result at placed
    obtain ⟨_, _⟩ := result
    cases placed
    exact .function (Statement.gains_settle settled (Statement.gains_placeAmong body 0))
  | .group inner _, _, placed => by
    rw [Expression.place] at placed
    obtain ⟨⟨_, _⟩, found, same⟩ := Option.map_eq_some_iff.1 placed
    cases same
    exact .group (inner.gains_place (Comment.of_within found))
  | .name _, _, placed => by
    rw [Expression.place] at placed
    cases placed
  | .index base key _, _, placed => by
    rw [Expression.place] at placed
    split at placed
    · rename_i found
      cases placed
      exact .indexBase (base.gains_place (Comment.of_within found))
    · obtain ⟨⟨_, _⟩, found, same⟩ := Option.map_eq_some_iff.1 placed
      cases same
      exact .indexKey (key.gains_place (Comment.of_within found))
  | .member base _ _ _, _, placed => by
    rw [Expression.place] at placed
    obtain ⟨⟨_, _⟩, found, same⟩ := Option.map_eq_some_iff.1 placed
    cases same
    exact .member (base.gains_place (Comment.of_within found))
  | .literal _, _, placed => by
    rw [Expression.place] at placed
    cases placed
  | .table fields _, _, placed => by
    rw [Expression.place] at placed
    generalize settled : Field.settle comment fields _ = result at placed
    obtain ⟨_, _⟩ := result
    cases placed
    exact .table (Field.gains_settle settled (Field.gains_placeAmong fields 0))

theorem Expression.gains_placeAmong : ∀ (before : List Expression)
    {result : List Expression × Placement}, Expression.placeAmong comment before = some result →
      Expression.GainsAmong comment before result.1
  | [], _, placed => by
    rw [Expression.placeAmong] at placed
    cases placed
  | expression :: rest, _, placed => by
    rw [Expression.placeAmong] at placed
    split at placed
    · rename_i found
      cases placed
      exact .inside (expression.gains_place (Comment.of_within found))
    · obtain ⟨⟨_, _⟩, found, same⟩ := Option.map_eq_some_iff.1 placed
      cases same
      exact .behind (Expression.gains_placeAmong rest found)

theorem Expression.gains_placeOptional : ∀ (before : Option Expression)
    {result : Option Expression × Placement},
    Expression.placeOptional comment before = some result →
      ∃ inner gained, before = some inner ∧ result.1 = some gained ∧
        Expression.Gains comment inner gained
  | none, _, placed => by
    rw [Expression.placeOptional] at placed
    cases placed
  | some expression, _, placed => by
    rw [Expression.placeOptional] at placed
    obtain ⟨⟨_, _⟩, found, same⟩ := Option.map_eq_some_iff.1 placed
    cases same
    exact ⟨_, _, rfl, rfl, expression.gains_place (Comment.of_within found)⟩

/-- A field gains the comment that is put into it. -/
theorem Field.gains_place : ∀ (before : Field) {result : Field × Placement},
    before.place comment = some result → Field.Gains comment before result.1
  | .keyed key value _, _, placed => by
    rw [Field.place] at placed
    split at placed
    · rename_i found
      cases placed
      exact .key (key.gains_place (Comment.of_within found))
    · obtain ⟨⟨_, _⟩, found, same⟩ := Option.map_eq_some_iff.1 placed
      cases same
      exact .keyedValue (value.gains_place (Comment.of_within found))
  | .named _ value _, _, placed => by
    rw [Field.place] at placed
    obtain ⟨⟨_, _⟩, found, same⟩ := Option.map_eq_some_iff.1 placed
    cases same
    exact .namedValue (value.gains_place (Comment.of_within found))
  | .positional value, _, placed => by
    rw [Field.place] at placed
    obtain ⟨⟨_, _⟩, found, same⟩ := Option.map_eq_some_iff.1 placed
    cases same
    exact .positional (value.gains_place (Comment.of_within found))
  | .comment _, _, placed => by
    rw [Field.place] at placed
    cases placed

theorem Field.gains_placeAmong : ∀ (before : List Field) (index : Nat)
    {result : List Field × Placement}, Field.placeAmong comment index before = some result →
      Field.GainsAmong comment before result.1
  | [], _, _, placed => by
    rw [Field.placeAmong] at placed
    cases placed
  | field :: rest, index, _, placed => by
    rw [Field.placeAmong] at placed
    split at placed
    · split at placed
      · rename_i found
        cases placed
        exact .inside (field.gains_place found)
      · cases placed
        exact .here
    · obtain ⟨⟨_, _⟩, found, same⟩ := Option.map_eq_some_iff.1 placed
      cases same
      exact .behind (Field.gains_placeAmong rest (index + 1) found)

/-- A clause gains the comment that is put into it. -/
theorem Clause.gains_place : ∀ (before : Clause) {result : Clause × Placement},
    before.place comment = result → Clause.Gains comment before result.1
  | .guarded _ condition body _, _, placed => by
    rw [Clause.place] at placed
    split at placed
    · rename_i found
      cases placed
      exact .condition (condition.gains_place (Comment.of_within found))
    · generalize settled : Statement.settle comment body _ = result at placed
      obtain ⟨_, _⟩ := result
      cases placed
      exact .guarded (Statement.gains_settle settled (Statement.gains_placeAmong body 0))
  | .otherwise body _, _, placed => by
    rw [Clause.place] at placed
    generalize settled : Statement.settle comment body _ = result at placed
    obtain ⟨_, _⟩ := result
    cases placed
    exact .otherwise (Statement.gains_settle settled (Statement.gains_placeAmong body 0))

theorem Clause.gains_placeAmong : ∀ (before : List Clause)
    {result : List Clause × Placement}, Clause.placeAmong comment before = some result →
      Clause.GainsAmong comment before result.1
  | [], _, placed => by
    rw [Clause.placeAmong] at placed
    cases placed
  | clause :: rest, _, placed => by
    rw [Clause.placeAmong] at placed
    split at placed
    · generalize found : clause.place comment = result at placed
      obtain ⟨_, _⟩ := result
      cases placed
      exact .inside (clause.gains_place found)
    · obtain ⟨⟨_, _⟩, found, same⟩ := Option.map_eq_some_iff.1 placed
      cases same
      exact .behind (Clause.gains_placeAmong rest found)

/-- A statement gains the comment that is put into it. -/
theorem Statement.gains_place : ∀ (before : Statement) {result : Statement × Placement},
    before.place comment = some result → Statement.Gains comment before result.1
  | .assignment targets values _, _, placed => by
    rw [Statement.place] at placed
    split at placed
    · rename_i found
      cases placed
      exact .targets (Expression.gains_placeAmong targets found)
    · obtain ⟨⟨_, _⟩, found, same⟩ := Option.map_eq_some_iff.1 placed
      cases same
      exact .values (Expression.gains_placeAmong values found)
  | .breakLoop _, _, placed => by
    rw [Statement.place] at placed
    cases placed
  | .call expression _, _, placed => by
    rw [Statement.place] at placed
    obtain ⟨⟨_, _⟩, found, same⟩ := Option.map_eq_some_iff.1 placed
    cases same
    exact .call (expression.gains_place (Comment.of_within found))
  | .comment _, _, placed => by
    rw [Statement.place] at placed
    cases placed
  | .doBlock body _, _, placed => by
    rw [Statement.place] at placed
    generalize settled : Statement.settle comment body _ = result at placed
    obtain ⟨_, _⟩ := result
    cases placed
    exact .doBlock (Statement.gains_settle settled (Statement.gains_placeAmong body 0))
  | .genericFor _ iterators body _, _, placed => by
    rw [Statement.place] at placed
    split at placed
    · rename_i found
      cases placed
      exact .iterators (Expression.gains_placeAmong iterators found)
    · generalize settled : Statement.settle comment body _ = result at placed
      obtain ⟨_, _⟩ := result
      cases placed
      exact .genericFor (Statement.gains_settle settled (Statement.gains_placeAmong body 0))
  | .numericFor _ first last step body _, _, placed => by
    rw [Statement.place] at placed
    split at placed
    · rename_i found
      cases placed
      exact .first (first.gains_place (Comment.of_within found))
    · split at placed
      · rename_i found
        cases placed
        exact .last (last.gains_place (Comment.of_within found))
      · split at placed
        · rename_i found
          cases placed
          obtain ⟨_, _, rfl, rfl, gains⟩ := Expression.gains_placeOptional step found
          exact .step gains
        · generalize settled : Statement.settle comment body _ = result at placed
          obtain ⟨_, _⟩ := result
          cases placed
          exact .numericFor (Statement.gains_settle settled (Statement.gains_placeAmong body 0))
  | .function _ _ body _, _, placed => by
    rw [Statement.place] at placed
    generalize settled : Statement.settle comment body _ = result at placed
    obtain ⟨_, _⟩ := result
    cases placed
    exact .function (Statement.gains_settle settled (Statement.gains_placeAmong body 0))
  | .goto _ _, _, placed => by
    rw [Statement.place] at placed
    cases placed
  | .ifElse clauses _, _, placed => by
    rw [Statement.place] at placed
    obtain ⟨⟨_, _⟩, found, same⟩ := Option.map_eq_some_iff.1 placed
    cases same
    exact .ifElse (Clause.gains_placeAmong clauses found)
  | .label _ _, _, placed => by
    rw [Statement.place] at placed
    cases placed
  | .localVariables _ values _, _, placed => by
    rw [Statement.place] at placed
    obtain ⟨⟨_, _⟩, found, same⟩ := Option.map_eq_some_iff.1 placed
    cases same
    exact .localVariables (Expression.gains_placeAmong values found)
  | .repeatUntil body condition _, _, placed => by
    rw [Statement.place] at placed
    split at placed
    · rename_i found
      cases placed
      exact .repeatCondition (condition.gains_place (Comment.of_within found))
    · generalize settled : Statement.settle comment body _ = result at placed
      obtain ⟨_, _⟩ := result
      cases placed
      exact .repeatUntil (Statement.gains_settle settled (Statement.gains_placeAmong body 0))
  | .returnValues values _, _, placed => by
    rw [Statement.place] at placed
    obtain ⟨⟨_, _⟩, found, same⟩ := Option.map_eq_some_iff.1 placed
    cases same
    exact .returnValues (Expression.gains_placeAmong values found)
  | .whileLoop condition body _, _, placed => by
    rw [Statement.place] at placed
    split at placed
    · rename_i found
      cases placed
      exact .whileCondition (condition.gains_place (Comment.of_within found))
    · generalize settled : Statement.settle comment body _ = result at placed
      obtain ⟨_, _⟩ := result
      cases placed
      exact .whileLoop (Statement.gains_settle settled (Statement.gains_placeAmong body 0))

theorem Statement.gains_placeAmong : ∀ (before : List Statement) (index : Nat)
    {result : List Statement × Placement}, Statement.placeAmong comment index before = some result →
      Statement.GainsAmong comment before result.1
  | [], _, _, placed => by
    rw [Statement.placeAmong] at placed
    cases placed
  | statement :: rest, index, _, placed => by
    rw [Statement.placeAmong] at placed
    split at placed
    · split at placed
      · rename_i found
        cases placed
        exact .inside (statement.gains_place found)
      · cases placed
        exact .here
    · obtain ⟨⟨_, _⟩, found, same⟩ := Option.map_eq_some_iff.1 placed
      cases same
      exact .behind (Statement.gains_placeAmong rest (index + 1) found)

end

end

/-! ### Chunks -/

/-- The chunk after has the comment as one item more. -/
structure Chunk.Gains (comment : Comment) (before after : Chunk) : Prop where
  body : Statement.GainsAmong comment before.body after.body
  span : after.span = before.span

/-- The chunk after has the comments as items more, each of them once, and the one before is what is
left without these items. -/
def Chunk.GainsAll : List Comment → Chunk → Chunk → Prop
  | [], before, after => after = before
  | comment :: rest, before, after =>
    ∃ middle, before.Gains comment middle ∧ middle.GainsAll rest after

/-- A chunk gains the comment that is put into it. -/
theorem Chunk.gains_placeComment (chunk : Chunk) (comment : Comment) :
    chunk.Gains comment (chunk.placeComment comment).1 := by
  unfold Chunk.placeComment
  generalize settled : Statement.settle comment chunk.body _ = result
  obtain ⟨body, placement⟩ := result
  exact ⟨Statement.gains_settle settled (Statement.gains_placeAmong chunk.body 0), rfl⟩

theorem Chunk.placeComments_cons (chunk : Chunk) (comment : Comment) (rest : List Comment) :
    (chunk.placeComments (comment :: rest)).1 =
      ((chunk.placeComment comment).1.placeComments rest).1 := rfl

/-- A chunk gains the comments that are put into it. -/
theorem Chunk.gainsAll_placeComments (comments : List Comment) (chunk : Chunk) :
    chunk.GainsAll comments (chunk.placeComments comments).1 := by
  induction comments generalizing chunk with
  | nil => rfl
  | cons comment rest inductionHypothesis =>
    exact ⟨_, chunk.gains_placeComment comment, inductionHypothesis _⟩

/-- Without the comments, nothing is changed by gaining them. -/
theorem Chunk.GainsAll.recast_eq {recasting : Recasting} {comments : List Comment}
    {before after : Chunk} (gains : before.GainsAll comments after)
    (drops : ∀ comment ∈ comments, recasting.comment comment = none) :
    Statement.recastAll recasting after.body = Statement.recastAll recasting before.body := by
  induction comments generalizing before with
  | nil =>
    cases gains
    rfl
  | cons comment rest inductionHypothesis =>
    obtain ⟨dropsFirst, dropsRest⟩ := List.forall_mem_cons.1 drops
    obtain ⟨middle, first, others⟩ := gains
    rw [inductionHypothesis others dropsRest, first.body.recast_eq dropsFirst]

/-- Each comment is gained once. -/
theorem Chunk.GainsAll.count_eq {comments : List Comment} {before after : Chunk}
    (gains : before.GainsAll comments after) (remark : Comment) :
    Node.count remark (Statement.nodesOfAll after.body) =
      Node.count remark (Statement.nodesOfAll before.body) + comments.count remark := by
  induction comments generalizing before with
  | nil =>
    cases gains
    rfl
  | cons comment rest inductionHypothesis =>
    obtain ⟨middle, first, others⟩ := gains
    rw [inductionHypothesis others, first.body.count_eq remark, Nat.add_assoc,
      ← List.count_append, List.singleton_append]

/-- A program that is arranged gains its comments. -/
theorem Program.gainsAll_arrange (program : Program) :
    program.chunk.extendClauses.GainsAll program.comments program.arrange :=
  Chunk.gainsAll_placeComments program.comments program.chunk.extendClauses

end LuaStyle
