/-
This file proves that formatting a layout changes nothing.

A layout is read as the surface of the tree it was laid out from, with each comment where it was
written. When the layout is formatted in turn, its comments are first taken away and put into the
tree again, and that gives back the tree that was read. What that tree shows is what the surface
shows, and a surface is laid out as the tree it is the surface of. So both layouts are the same
text.

The surface of a tree is laid out as the tree only if no chain of an operator is hung to the right
and regroups. That is looked at in the source, where parentheses and comments do not matter for it.
-/

import LuaStyle.Proofs.ReadBack
import LuaStyle.Proofs.Restoring
import LuaStyle.Proofs.Resurfacing

namespace LuaStyle

/-! ### Arranging a program that does not regroup -/

/-- Recasting changes nothing about where chains are hung. -/
theorem Node.regroups_recast (recasting : Recasting) (node : Node) :
    (∀ image ∈ node.recast recasting, image.regroups = false) ↔ node.regroups = false := by
  cases node with
  | expression value =>
    rw [Node.recast, List.forall_mem_singleton]
    cases value with
    | binary operator left right span =>
      rw [Expression.recast, Node.regroups, Node.regroups, Expression.unwrapGroups_recast,
        Expression.form_recast]
    | _ => rfl
  | field entry => simp [Node.recast, Node.regroups]
  | clause branch => simp [Node.recast, Node.regroups]
  | statement step => simp [Node.recast, Node.regroups]

/-- A program that is arranged regroups where the program does. -/
theorem Program.noneRegroups_arrange (program : Program) :
    Node.NoneRegroups (Statement.nodesOfAll program.arrange.body) ↔
      Node.NoneRegroups (Statement.nodesOfAll program.chunk.body) :=
  program.forall_nodes_arrange (Node.regroups_recast .bare)

/-! ### Formatting a layout -/

/-- A program that shows what another one shows has the same layout, if the other one has any. -/
theorem Program.format_congr {config : Config} {first second : Program} {text : List Char}
    (same : (first.arrange.doc config).toOption = (second.arrange.doc config).toOption)
    (laid : second.format config = .ok text) : first.format config = .ok text := by
  rw [Program.format] at laid ⊢
  cases secondDoc : second.arrange.doc config with
  | error error =>
    rw [secondDoc] at laid
    cases laid
  | ok doc =>
    rw [secondDoc] at same laid
    cases firstDoc : first.arrange.doc config with
    | error error =>
      rw [firstDoc] at same
      cases same
    | ok other =>
      rw [firstDoc] at same
      obtain rfl : other = doc := Option.some.inj same
      exact laid

/-- What is read from a layout shows, when it is arranged, what the surface shows that was laid
out. -/
theorem Program.shown_arrange_again {program : Program} {text : List Char} {read : List Statement}
    (reads : Statement.ReadsBody true read (Token.ofText text))
    (same : Statement.recastAll .shown read =
      Statement.recastAll .shown (Statement.surfaces program.arrange.body)) :
    Statement.recastAll .shown (Program.mk ⟨Statement.recastAll .uncommented read,
        ⟨0, byteLength text⟩⟩ (commentsOf text)).arrange.body =
      Statement.recastAll .shown (Statement.surfaces program.arrange.body) := by
  rw [Program.arrange_uncommented reads, ← same]
  exact Statement.recastAll_extendAll .shown read

/-- A source that is read like a layout is laid out like it, if the tree that was laid out has no
chain that regroups. -/
theorem Program.formatText_layout {config : Config} {program : Program} {text again : List Char}
    {read : List Statement} (laid : program.format config = .ok text)
    (reads : Statement.ReadsBody true read (Token.ofText again))
    (same : Statement.recastAll .shown read =
      Statement.recastAll .shown (Statement.surfaces program.arrange.body))
    (plain : Node.NoneRegroups (Statement.nodesOfAll program.arrange.body)) :
    formatText config again = .ok text := by
  have surface := Chunk.toOption_doc_surfaces config program.arrange.span plain
  rw [formatText, Program.parse_format reads same]
  exact Program.format_congr
    ((Chunk.toOption_doc_congr config (Program.shown_arrange_again reads same)).trans surface) laid

/-- Formatting the layout of a source gives the layout again, unless the source has a chain of `+`,
`*`, `and` or `or` on the right of the very same operator. -/
theorem format_again (config : Config) {source : List Char} {program : Program}
    (parsed : Program.parse source = .ok program)
    (plain : ∀ node ∈ Statement.nodesOfAll program.chunk.body, node.regroups = false) :
    ∃ text, formatText config source = .ok text ∧ formatText config text = .ok text := by
  obtain ⟨text, read, laid, reads, same⟩ := Program.format_reads config parsed
  refine ⟨text, laid, ?_⟩
  rw [formatText, parsed] at laid
  exact Program.formatText_layout laid reads same (program.noneRegroups_arrange.2 plain)

theorem format_again_of_call :
    ∃ program text,
      Program.parse "f( --a\n(x and y) + (...))--b".toList = .ok program ∧
      (∀ node ∈ Statement.nodesOfAll program.chunk.body, node.regroups = false) ∧
      formatText {} "f( --a\n(x and y) + (...))--b".toList = .ok text ∧
      formatText {} text = .ok text := by
  obtain ⟨program, parsed⟩ := Program.exists_of_isOk
    (show (Program.parse "f( --a\n(x and y) + (...))--b".toList).isOk by decide +kernel)
  have plain : (Program.parse "f( --a\n(x and y) + (...))--b".toList).toOption.all
      fun program : Program =>
        decide (∀ node ∈ Statement.nodesOfAll program.chunk.body, node.regroups = false) := by
    decide +kernel
  rw [parsed] at plain
  obtain ⟨text, laid, again⟩ := format_again {} parsed (of_decide_eq_true plain)
  exact ⟨program, text, parsed, of_decide_eq_true plain, laid, again⟩

end LuaStyle
