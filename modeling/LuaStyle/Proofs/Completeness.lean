/-
This file proves that the parser finds every tree that tokens are strictly read as, provided that
its operators are grouped as the parser groups them.

It is the converse of what is proved about the parser's answers, for trees without comments. What
was shown form by form is put together along the tree.
-/

import LuaStyle.Proofs.Insertion
import LuaStyle.Proofs.StatementsFound

namespace LuaStyle

namespace Grammar

/-! ### Every tree -/

/-- The node is one that the parser builds: its operators are grouped as the parser groups them, and
it is not a comment. -/
def IsPlain (node : Node) : Prop :=
  node.IsGrouped ∧ node.comments = []

mutual

theorem found_expression : ∀ expression : Expression, (∀ node ∈ expression.nodes, IsPlain node) →
    Found expression
  | .binary _ left right _, plain => by
    obtain ⟨⟨grouped, -⟩, inner⟩ := List.forall_mem_cons.1 plain
    obtain ⟨leftPlain, rightPlain⟩ := List.forall_mem_append.1 inner
    exact found_binary grouped (found_expression left leftPlain) (found_expression right rightPlain)
  | .unary _ argument _, plain => by
    obtain ⟨⟨grouped, -⟩, inner⟩ := List.forall_mem_cons.1 plain
    exact found_unary grouped (found_expression argument inner)
  | .call base arguments _, plain => by
    obtain ⟨-, inner⟩ := List.forall_mem_cons.1 plain
    obtain ⟨basePlain, argumentsPlain⟩ := List.forall_mem_append.1 inner
    exact found_call (found_expression base basePlain) (found_expressions arguments argumentsPlain)
  | .stringCall base _ _, plain =>
    found_stringCall (found_expression base (List.forall_mem_cons.1 plain).2)
  | .tableCall base list _ _, plain => by
    obtain ⟨-, inner⟩ := List.forall_mem_cons.1 plain
    obtain ⟨basePlain, listPlain⟩ := List.forall_mem_append.1 inner
    obtain ⟨found, bare⟩ := found_fields list listPlain
    exact found_tableCall (found_expression base basePlain) found bare
  | .function _ _ body _, plain =>
    found_function (found_body body (List.forall_mem_cons.1 plain).2)
  | .group inner _, plain => found_group (found_expression inner (List.forall_mem_cons.1 plain).2)
  | .name identifier, _ => found_name identifier
  | .index base key _, plain => by
    obtain ⟨-, inner⟩ := List.forall_mem_cons.1 plain
    obtain ⟨basePlain, keyPlain⟩ := List.forall_mem_append.1 inner
    exact found_index (found_expression base basePlain) (found_expression key keyPlain)
  | .member base _ _ _, plain =>
    found_member (found_expression base (List.forall_mem_cons.1 plain).2)
  | .literal constant, _ => found_literal constant
  | .table list _, plain => by
    obtain ⟨found, bare⟩ := found_fields list (List.forall_mem_cons.1 plain).2
    exact found_table found bare

theorem found_expressions : ∀ list : List Expression,
    (∀ node ∈ Expression.nodesOfAll list, IsPlain node) → ∀ each ∈ list, Found each
  | [], _ => fun _ member => nomatch member
  | expression :: rest, plain => by
    obtain ⟨first, others⟩ := List.forall_mem_append.1 plain
    exact List.forall_mem_cons.2 ⟨found_expression expression first, found_expressions rest others⟩

theorem found_optional : ∀ optional : Option Expression,
    (∀ node ∈ Expression.nodesOfOptional optional, IsPlain node) → ∀ each ∈ optional, Found each
  | none, _ => fun _ member => nomatch member
  | some expression, plain => fun each member => by
    cases member
    exact found_expression expression plain

theorem found_field : ∀ entry : Field, (∀ node ∈ entry.nodes, IsPlain node) →
    FoundField entry ∧ entry.isComment = false
  | .keyed key value _, plain => by
    obtain ⟨-, inner⟩ := List.forall_mem_cons.1 plain
    obtain ⟨keyPlain, valuePlain⟩ := List.forall_mem_append.1 inner
    exact ⟨foundField_keyed (found_expression key keyPlain) (found_expression value valuePlain),
      rfl⟩
  | .named _ value _, plain =>
    ⟨foundField_named (found_expression value (List.forall_mem_cons.1 plain).2), rfl⟩
  | .positional value, plain =>
    ⟨foundField_positional (found_expression value (List.forall_mem_cons.1 plain).2), rfl⟩
  | .comment _, plain => nomatch (List.forall_mem_cons.1 plain).1.2

theorem found_fields : ∀ list : List Field, (∀ node ∈ Field.nodesOfAll list, IsPlain node) →
    (∀ each ∈ list, FoundField each) ∧ ∀ each ∈ list, each.isComment = false
  | [], _ => ⟨fun _ member => (nomatch member), fun _ member => nomatch member⟩
  | entry :: rest, plain => by
    obtain ⟨first, others⟩ := List.forall_mem_append.1 plain
    obtain ⟨found, bare⟩ := found_field entry first
    obtain ⟨restFound, restBare⟩ := found_fields rest others
    exact ⟨List.forall_mem_cons.2 ⟨found, restFound⟩, List.forall_mem_cons.2 ⟨bare, restBare⟩⟩

theorem found_clause : ∀ clause : Clause, (∀ node ∈ clause.nodes, IsPlain node) →
    FoundClause clause
  | .guarded _ condition body _, plain => by
    obtain ⟨-, inner⟩ := List.forall_mem_cons.1 plain
    obtain ⟨conditionPlain, bodyPlain⟩ := List.forall_mem_append.1 inner
    exact ⟨found_expression condition conditionPlain, found_body body bodyPlain⟩
  | .otherwise body _, plain => found_body body (List.forall_mem_cons.1 plain).2

theorem found_clauses : ∀ clauses : List Clause,
    (∀ node ∈ Clause.nodesOfAll clauses, IsPlain node) → ∀ each ∈ clauses, FoundClause each
  | [], _ => fun _ member => nomatch member
  | clause :: rest, plain => by
    obtain ⟨first, others⟩ := List.forall_mem_append.1 plain
    exact List.forall_mem_cons.2 ⟨found_clause clause first, found_clauses rest others⟩

theorem found_statement : ∀ step : Statement, (∀ node ∈ step.nodes, IsPlain node) →
    FoundStatement step ∧ step.isComment = false
  | .assignment targets values _, plain => by
    obtain ⟨-, inner⟩ := List.forall_mem_cons.1 plain
    obtain ⟨targetsPlain, valuesPlain⟩ := List.forall_mem_append.1 inner
    exact ⟨foundStatement_assignment (found_expressions targets targetsPlain)
      (found_expressions values valuesPlain), rfl⟩
  | .breakLoop _, _ => ⟨foundStatement_breakLoop, rfl⟩
  | .call value _, plain =>
    ⟨foundStatement_call (found_expression value (List.forall_mem_cons.1 plain).2), rfl⟩
  | .comment _, plain => nomatch (List.forall_mem_cons.1 plain).1.2
  | .doBlock body _, plain =>
    ⟨foundStatement_doBlock (found_body body (List.forall_mem_cons.1 plain).2), rfl⟩
  | .genericFor _ iterators body _, plain => by
    obtain ⟨-, inner⟩ := List.forall_mem_cons.1 plain
    obtain ⟨iteratorsPlain, bodyPlain⟩ := List.forall_mem_append.1 inner
    exact ⟨foundStatement_genericFor (found_expressions iterators iteratorsPlain)
      (found_body body bodyPlain), rfl⟩
  | .numericFor _ first last step body _, plain => by
    obtain ⟨-, inner⟩ := List.forall_mem_cons.1 plain
    obtain ⟨inner, bodyPlain⟩ := List.forall_mem_append.1 inner
    obtain ⟨inner, stepPlain⟩ := List.forall_mem_append.1 inner
    obtain ⟨firstPlain, lastPlain⟩ := List.forall_mem_append.1 inner
    exact ⟨foundStatement_numericFor (found_expression first firstPlain)
      (found_expression last lastPlain) (found_optional step stepPlain) (found_body body bodyPlain),
      rfl⟩
  | .function _ _ body _, plain =>
    ⟨foundStatement_function (found_body body (List.forall_mem_cons.1 plain).2), rfl⟩
  | .goto _ _, _ => ⟨foundStatement_goto, rfl⟩
  | .ifElse clauses _, plain =>
    ⟨foundStatement_ifElse (found_clauses clauses (List.forall_mem_cons.1 plain).2), rfl⟩
  | .label _ _, _ => ⟨foundStatement_label, rfl⟩
  | .localVariables _ values _, plain =>
    ⟨foundStatement_localVariables (found_expressions values (List.forall_mem_cons.1 plain).2), rfl⟩
  | .repeatUntil body condition _, plain => by
    obtain ⟨-, inner⟩ := List.forall_mem_cons.1 plain
    obtain ⟨bodyPlain, conditionPlain⟩ := List.forall_mem_append.1 inner
    exact ⟨foundStatement_repeatUntil (found_expression condition conditionPlain)
      (found_body body bodyPlain), rfl⟩
  | .returnValues values _, plain =>
    ⟨foundStatement_returnValues (found_expressions values (List.forall_mem_cons.1 plain).2), rfl⟩
  | .whileLoop condition body _, plain => by
    obtain ⟨-, inner⟩ := List.forall_mem_cons.1 plain
    obtain ⟨conditionPlain, bodyPlain⟩ := List.forall_mem_append.1 inner
    exact ⟨foundStatement_whileLoop (found_expression condition conditionPlain)
      (found_body body bodyPlain), rfl⟩

theorem found_body : ∀ body : List Statement,
    (∀ node ∈ Statement.nodesOfAll body, IsPlain node) → FoundBody body
  | [], _ => ⟨fun _ member => (nomatch member), fun _ member => nomatch member⟩
  | step :: rest, plain => by
    obtain ⟨first, others⟩ := List.forall_mem_append.1 plain
    obtain ⟨found, bare⟩ := found_statement step first
    obtain ⟨restFound, restBare⟩ := found_body rest others
    exact ⟨List.forall_mem_cons.2 ⟨found, restFound⟩, List.forall_mem_cons.2 ⟨bare, restBare⟩⟩

end

end Grammar

/-- A block that is strictly read from all the tokens of a source that are no comments, and that the
parser could have built, is what the parser answers. -/
theorem Program.parse_eq_of_readsBody {source : List Char} {body : List Statement}
    (reads : Statement.ReadsBody true body ((Token.ofText source).filter (·.kind != .comment)))
    (plain : ∀ node ∈ Statement.nodesOfAll body, Grammar.IsPlain node) :
    parse source = .ok ⟨⟨body, ⟨0, byteLength source⟩⟩, commentsOf source⟩ := by
  have steps : (start source).Steps ((Token.ofText source).filter (·.kind != .comment))
      ⟨[], ((Token.extent ((Token.ofText source).filter (·.kind != .comment))).stop),
        byteLength source⟩ := by
    refine ⟨(List.append_nil _).symm, ?_, rfl⟩
    rw [Token.extent]
    rfl
  obtain ⟨within, found⟩ := (Grammar.found_body body plain).returns reads steps rfl
  unfold parse
  rw [found]
  rfl

end LuaStyle
