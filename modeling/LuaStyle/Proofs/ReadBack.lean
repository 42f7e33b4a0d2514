/-
This file proves that a laid-out program is read back.

The layout of a program that was read from a source is cut into the tokens of its surface, comments
included, and the parser finds the surface in the tokens that are not comments. So the layout
parses, to a program that means the same, and the comments of the layout are those of the source, up
to how their lines are set. Since neither the surface nor the place of a comment is looked at twice,
both facts are short here.
-/

import LuaStyle.Proofs.CommentTokens
import LuaStyle.Proofs.Completeness
import LuaStyle.Proofs.LaidTrees
import LuaStyle.Proofs.Meaning

namespace LuaStyle

/-! ### The comments of a surface -/

namespace Expression

theorem commentsAmong_join (operator : BinaryOperator) (left : Expression) :
    ∀ right : Expression, Node.commentsAmong (join operator left right).nodes =
      Node.commentsAmong left.nodes ++ Node.commentsAmong right.nodes
  | .binary inner middle right span => by
    rw [join]
    split
    · rw [nodes, Node.commentsAmong_cons, Node.commentsAmong_append,
        commentsAmong_join operator left middle, nodes, Node.commentsAmong_cons,
        Node.commentsAmong_append]
      simp only [Node.comments, List.nil_append, List.append_assoc]
    · rw [nodes, Node.commentsAmong_cons, Node.commentsAmong_append]
      rfl
  | .literal _ | .name _ | .group .. | .unary .. | .call .. | .stringCall .. | .tableCall ..
  | .function .. | .index .. | .member .. | .table .. => by
    rw [join, nodes, Node.commentsAmong_cons, Node.commentsAmong_append]
    · rfl
    · rintro _ _ _ _ ⟨⟩

theorem commentsAmong_inParens (needed : Bool) (inner : Expression) :
    Node.commentsAmong (inner.inParens needed).nodes = Node.commentsAmong inner.nodes := by
  cases needed <;> rfl

theorem commentsAmong_callOf (base : Expression) (arguments : List Expression) :
    Node.commentsAmong (callOf base arguments).nodes =
      Node.commentsAmong base.nodes ++ Node.commentsAmong (nodesOfAll arguments) := by
  unfold callOf
  split
  · rw [nodes, Node.commentsAmong_cons]
    exact (List.append_nil _).symm
  · rw [nodes, Node.commentsAmong_cons, Node.commentsAmong_append, nodesOfAll, nodesOfAll, nodes,
      List.append_nil, Node.commentsAmong_cons]
    rfl
  · rw [nodes, Node.commentsAmong_cons, Node.commentsAmong_append]
    rfl

end Expression

mutual

/-- The surface of an expression has the comments of the expression, in the same order. -/
theorem Expression.commentsAmong_surface : ∀ expression : Expression,
    Node.commentsAmong expression.surface.nodes = Node.commentsAmong expression.nodes
  | .binary operator left right _ => by
    rw [Expression.surface, Expression.commentsAmong_join, Expression.commentsAmong_inParens,
      Expression.commentsAmong_inParens, left.commentsAmong_surface, right.commentsAmong_surface,
      Expression.nodes, Node.commentsAmong_cons, Node.commentsAmong_append]
    rfl
  | .unary operator argument _ => by
    rw [Expression.surface, Expression.nodes, Node.commentsAmong_cons,
      Expression.commentsAmong_inParens, argument.commentsAmong_surface]
    rfl
  | .call base arguments _ => by
    rw [Expression.surface, Expression.commentsAmong_callOf, Expression.commentsAmong_inParens,
      base.commentsAmong_surface, Expression.commentsAmong_surfaces arguments, Expression.nodes,
      Node.commentsAmong_cons, Node.commentsAmong_append]
    rfl
  | .stringCall base argument _ => by
    rw [Expression.surface, Expression.nodes, Node.commentsAmong_cons,
      Expression.commentsAmong_inParens, base.commentsAmong_surface]
    rfl
  | .tableCall base fields _ _ => by
    rw [Expression.surface, Expression.nodes, Node.commentsAmong_cons, Node.commentsAmong_append,
      Expression.commentsAmong_inParens, base.commentsAmong_surface,
      Field.commentsAmong_surfaces fields, ← Node.commentsAmong_append]
    rfl
  | .function head parameters body _ => Statement.commentsAmong_surfaces body
  | .group inner _ => by
    rw [Expression.surface, Expression.commentsAmong_inParens]
    exact inner.commentsAmong_surface
  | .name _ => rfl
  | .index base key _ => by
    rw [Expression.surface, Expression.nodes, Node.commentsAmong_cons, Node.commentsAmong_append,
      Expression.commentsAmong_inParens, base.commentsAmong_surface, key.commentsAmong_surface,
      ← Node.commentsAmong_append]
    rfl
  | .member base selector name _ => by
    rw [Expression.surface, Expression.nodes, Node.commentsAmong_cons,
      Expression.commentsAmong_inParens, base.commentsAmong_surface]
    rfl
  | .literal _ => rfl
  | .table fields _ => Field.commentsAmong_surfaces fields

theorem Expression.commentsAmong_surfaces : ∀ expressions : List Expression,
    Node.commentsAmong (Expression.nodesOfAll (Expression.surfaces expressions)) =
      Node.commentsAmong (Expression.nodesOfAll expressions)
  | [] => rfl
  | expression :: rest => by
    simp only [Expression.surfaces, Expression.nodesOfAll, Node.commentsAmong_append,
      expression.commentsAmong_surface, Expression.commentsAmong_surfaces rest]

theorem Expression.commentsAmong_surfaceOptional : ∀ optional : Option Expression,
    Node.commentsAmong (Expression.nodesOfOptional (Expression.surfaceOptional optional)) =
      Node.commentsAmong (Expression.nodesOfOptional optional)
  | none => rfl
  | some expression => expression.commentsAmong_surface

theorem Field.commentsAmong_surface : ∀ field : Field,
    Node.commentsAmong field.surface.nodes = Node.commentsAmong field.nodes
  | .keyed key value _ => by
    simp only [Field.surface, Field.nodes, Node.commentsAmong_cons, Node.commentsAmong_append,
      Node.comments, key.commentsAmong_surface, value.commentsAmong_surface]
  | .named name value _ => value.commentsAmong_surface
  | .positional value => value.commentsAmong_surface
  | .comment _ => rfl

theorem Field.commentsAmong_surfaces : ∀ fields : List Field,
    Node.commentsAmong (Field.nodesOfAll (Field.surfaces fields)) =
      Node.commentsAmong (Field.nodesOfAll fields)
  | [] => rfl
  | field :: rest => by
    simp only [Field.surfaces, Field.nodesOfAll, Node.commentsAmong_append,
      field.commentsAmong_surface, Field.commentsAmong_surfaces rest]

theorem Clause.commentsAmong_surface : ∀ clause : Clause,
    Node.commentsAmong clause.surface.nodes = Node.commentsAmong clause.nodes
  | .guarded word condition body _ => by
    simp only [Clause.surface, Clause.nodes, Node.commentsAmong_cons, Node.commentsAmong_append,
      Node.comments, condition.commentsAmong_surface, Statement.commentsAmong_surfaces body]
  | .otherwise body _ => Statement.commentsAmong_surfaces body

theorem Clause.commentsAmong_surfaces : ∀ clauses : List Clause,
    Node.commentsAmong (Clause.nodesOfAll (Clause.surfaces clauses)) =
      Node.commentsAmong (Clause.nodesOfAll clauses)
  | [] => rfl
  | clause :: rest => by
    simp only [Clause.surfaces, Clause.nodesOfAll, Node.commentsAmong_append,
      clause.commentsAmong_surface, Clause.commentsAmong_surfaces rest]

theorem Statement.commentsAmong_surface : ∀ statement : Statement,
    Node.commentsAmong statement.surface.nodes = Node.commentsAmong statement.nodes
  | .assignment targets values _ => by
    simp only [Statement.surface, Statement.nodes, Node.commentsAmong_cons,
      Node.commentsAmong_append, Node.comments, Expression.commentsAmong_surfaces targets,
      Expression.commentsAmong_surfaces values]
  | .breakLoop _ => rfl
  | .call expression _ => expression.commentsAmong_surface
  | .comment _ => rfl
  | .doBlock body _ => Statement.commentsAmong_surfaces body
  | .genericFor _ iterators body _ => by
    simp only [Statement.surface, Statement.nodes, Node.commentsAmong_cons,
      Node.commentsAmong_append, Node.comments, Expression.commentsAmong_surfaces iterators,
      Statement.commentsAmong_surfaces body]
  | .numericFor _ first last step body _ => by
    simp only [Statement.surface, Statement.nodes, Node.commentsAmong_cons,
      Node.commentsAmong_append, Node.comments, first.commentsAmong_surface,
      last.commentsAmong_surface, Expression.commentsAmong_surfaceOptional step,
      Statement.commentsAmong_surfaces body]
  | .function _ _ body _ => Statement.commentsAmong_surfaces body
  | .goto _ _ => rfl
  | .ifElse clauses _ => Clause.commentsAmong_surfaces clauses
  | .label _ _ => rfl
  | .localVariables _ values _ => Expression.commentsAmong_surfaces values
  | .repeatUntil body condition _ => by
    simp only [Statement.surface, Statement.nodes, Node.commentsAmong_cons,
      Node.commentsAmong_append, Node.comments, condition.commentsAmong_surface,
      Statement.commentsAmong_surfaces body]
  | .returnValues values _ => Expression.commentsAmong_surfaces values
  | .whileLoop condition body _ => by
    simp only [Statement.surface, Statement.nodes, Node.commentsAmong_cons,
      Node.commentsAmong_append, Node.comments, condition.commentsAmong_surface,
      Statement.commentsAmong_surfaces body]

theorem Statement.commentsAmong_surfaces : ∀ body : List Statement,
    Node.commentsAmong (Statement.nodesOfAll (Statement.surfaces body)) =
      Node.commentsAmong (Statement.nodesOfAll body)
  | [] => rfl
  | statement :: rest => by
    simp only [Statement.surfaces, Statement.nodesOfAll, Node.commentsAmong_append,
      statement.commentsAmong_surface, Statement.commentsAmong_surfaces rest]

end

/-! ### The comments of a program that is arranged -/

/-- Recasting treats each comment as it says. -/
theorem Node.commentsAmong_recast (recasting : Recasting) (nodes : List Node) :
    commentsAmong (nodes.flatMap (Node.recast recasting)) =
      (commentsAmong nodes).filterMap recasting.comment := by
  induction nodes with
  | nil => rfl
  | cons node rest inductionHypothesis =>
    have single : commentsAmong (node.recast recasting) =
        node.comments.filterMap recasting.comment := by
      match node with
      | .expression _ | .clause _ => rfl
      | .field entry =>
        cases entry with
        | comment remark =>
          simp only [Node.recast, Field.recast, Node.comments, commentsAmong]
          cases same : recasting.comment remark <;> simp [same, Node.comments]
        | _ => rfl
      | .statement step =>
        cases step with
        | comment remark =>
          simp only [Node.recast, Statement.recast, Node.comments, commentsAmong]
          cases same : recasting.comment remark <;> simp [same, Node.comments]
        | _ => rfl
    rw [List.flatMap_cons, commentsAmong_append, single, inductionHypothesis, commentsAmong_cons,
      List.filterMap_append]

namespace Program

/-- The parser leaves comments beside the tree. -/
theorem commentsAmong_of_parse {source : List Char} {program : Program}
    (parsed : parse source = .ok program) :
    Node.commentsAmong (Statement.nodesOfAll program.chunk.body) = [] := by
  obtain ⟨reads, -⟩ := parse_reads parsed
  rw [Statement.ReadsBody.commentsFrom _ reads]
  exact Token.comments_of_code_eq (List.filter_filter.trans (by simp only [Bool.and_self]))

/-- Extending clauses neither adds comments nor drops them. -/
theorem commentsAmong_extendAll (body : List Statement) :
    Node.commentsAmong (Statement.nodesOfAll (Statement.extendAll body)) =
      Node.commentsAmong (Statement.nodesOfAll body) := by
  have keeps : ∀ nodes : List Statement,
      Node.commentsAmong (Statement.nodesOfAll
        (Statement.recastAll (Recasting.keeping fun _ => true).blind nodes)) =
      Node.commentsAmong (Statement.nodesOfAll nodes) := by
    intro nodes
    rw [Statement.nodesOfAll_recastAll, Node.commentsAmong_recast]
    exact List.filterMap_some
  rw [← keeps (Statement.extendAll body), Statement.recastAll_extendAll, keeps]

/-- A program that is arranged has the comments of the program, each of them once. -/
theorem perm_commentsAmong_arrange {source : List Char} {program : Program}
    (parsed : parse source = .ok program) :
    (Node.commentsAmong (Statement.nodesOfAll program.arrange.body)).Perm program.comments := by
  refine List.perm_iff_count.2 fun remark => ?_
  have counted := program.gainsAll_arrange.count_eq remark
  have none : Node.count remark (Statement.nodesOfAll program.chunk.extendClauses.body) = 0 := by
    rw [Node.count, Chunk.extendClauses, commentsAmong_extendAll, commentsAmong_of_parse parsed,
      List.count_nil]
  rw [none, Nat.zero_add] at counted
  exact counted

/-- Every node of a program that is arranged can be written. -/
theorem areWritable_arrange {source : List Char} {program : Program}
    (parsed : parse source = .ok program) :
    Node.AreWritable (Statement.nodesOfAll program.arrange.body) := by
  intro node member
  obtain ⟨grammatical, isBlock⟩ := grammatical_of_parse parsed
  refine ⟨(grammatical_arrange grammatical isBlock).1 node member, fun remark isComment => ?_⟩
  have among : remark ∈ Node.commentsAmong (Statement.nodesOfAll program.arrange.body) :=
    List.mem_flatMap.2 ⟨node, member, isComment⟩
  have beside := (perm_commentsAmong_arrange parsed).subset among
  rw [(parse_reads parsed).2, commentsOf] at beside
  obtain ⟨token, tokenMember, rfl⟩ := List.mem_map.1 beside
  obtain ⟨inSource, kind⟩ := List.mem_filter.1 tokenMember
  exact Comment.isSpelled_ofToken (beq_iff_eq.1 kind) (allSpelled_ofText source token inSource)

/-! ### Layouts -/

/-- All statements of a program that was read can be laid out. -/
theorem exists_docs_arrange (config : Config) {source : List Char} {program : Program}
    (parsed : parse source = .ok program) :
    ∃ docs, Statement.docs config 0 program.arrange.body = .ok docs := by
  have explained := Statement.explain_docs config 0 program.arrange.body
  cases laid : Statement.docs config 0 program.arrange.body with
  | error error =>
    rw [laid] at explained
    obtain ⟨node, member, fault⟩ := explained
    rw [Node.fault?_eq_none (areWritable_arrange parsed node member).grammatical] at fault
    cases fault
  | ok docs => exact ⟨docs, rfl⟩

/-- The text of a program is that of its statements below each other. -/
theorem formatText_of_docs {config : Config} {source : List Char} {program : Program}
    (parsed : parse source = .ok program) {docs : List Doc}
    (laid : Statement.docs config 0 program.arrange.body = .ok docs) :
    formatText config source =
      .ok (Doc.written config (Statement.stack config 0 program.arrange.body docs)) := by
  rw [formatText, parsed]
  simp only [Program.format, Chunk.doc, laid]
  rfl

/-- The layout of a program that was read is cut into the tokens of its surface, also with line
breaks behind it. -/
theorem format_reads_followed (config : Config) {source : List Char} {program : Program}
    (parsed : parse source = .ok program) {ending : List Char} (ends : LineEnds ending)
    (blank : ∀ c ∈ ending, Token.isSpace c) :
    ∃ text read, formatText config source = .ok text ∧
      Statement.ReadsBody true read (Token.ofText (text ++ ending)) ∧
      Statement.recastAll .shown read =
        Statement.recastAll .shown (Statement.surfaces program.arrange.body) := by
  have writable := areWritable_arrange parsed
  obtain ⟨grammatical, isBlock⟩ := grammatical_of_parse parsed
  obtain ⟨docs, laid⟩ := exists_docs_arrange config parsed
  have cuts : Doc.Cuts config (Statement.stack config 0 program.arrange.body docs) ending
      (Statement.WrittenBody (Statement.surfaces program.arrange.body)) :=
    (Statement.laid_docs config 0 program.arrange.body writable laid).cuts_stack 0
      (grammatical_arrange grammatical isBlock).2
      fun _ _ => Statement.follows_of_lineEnds ends
  have whole : Token.Cuts
      (Doc.written config (Statement.stack config 0 program.arrange.body docs) ++ ending) []
      (Statement.WrittenBody (Statement.surfaces program.arrange.body)) := by
    refine Token.Cuts.trailing ?_ blank
    rw [List.append_nil]
    exact cuts
  obtain ⟨tokens, ⟨read, reads, same⟩, all⟩ := whole 0
  rw [List.append_nil, Token.tokensFrom_nil, List.append_nil] at all
  refine ⟨Doc.written config (Statement.stack config 0 program.arrange.body docs), read,
    formatText_of_docs parsed laid, ?_, same⟩
  rw [Token.ofText]
  exact all ▸ reads

/-- The layout of a program that was read is cut into the tokens of its surface. -/
theorem format_reads (config : Config) {source : List Char} {program : Program}
    (parsed : parse source = .ok program) :
    ∃ text read, formatText config source = .ok text ∧
      Statement.ReadsBody true read (Token.ofText text) ∧
      Statement.recastAll .shown read =
        Statement.recastAll .shown (Statement.surfaces program.arrange.body) := by
  have nothing : LineEnds [] := nofun
  obtain ⟨text, read, laid, reads, same⟩ :=
    format_reads_followed config parsed nothing (List.forall_mem_nil _)
  rw [List.append_nil] at reads
  exact ⟨text, read, laid, reads, same⟩

/-- The parser finds in the layout what is read from it, comments apart. -/
theorem parse_format {program : Program} {text : List Char}
    {read : List Statement} (reads : Statement.ReadsBody true read (Token.ofText text))
    (same : Statement.recastAll .shown read =
      Statement.recastAll .shown (Statement.surfaces program.arrange.body)) :
    parse text =
      .ok ⟨⟨Statement.recastAll .uncommented read, ⟨0, byteLength text⟩⟩, commentsOf text⟩ := by
  have uncommented := Statement.ReadsBody.uncommented_of (Statement.allUncomment read) reads
    (Token.ordered_ofText text)
  have grouped : Node.AreGrouped (Statement.nodesOfAll read) := by
    rw [Node.AreGrouped, ← Statement.forall_nodes_recastAll (Node.isGrouped_recast .shown), same,
      Statement.forall_nodes_recastAll (Node.isGrouped_recast .shown)]
    exact fun node member => (Statement.settled_surfaces _ node member).2.1
  refine parse_eq_of_readsBody uncommented fun node member => ⟨?_, ?_⟩
  · exact (Statement.forall_nodes_recastAll (Node.isGrouped_recast .uncommented) read).2 grouped
      node member
  · have none : Node.commentsAmong
        (Statement.nodesOfAll (Statement.recastAll .uncommented read)) = [] := by
      rw [Statement.nodesOfAll_recastAll, Node.commentsAmong_recast]
      exact List.filterMap_none _
    exact List.flatMap_eq_nil_iff.1 none node member

/-- What is read from a layout means what the program means. -/
theorem meanings_format {source : List Char} {program : Program}
    (parsed : parse source = .ok program) {read : List Statement}
    (same : Statement.recastAll .shown read =
      Statement.recastAll .shown (Statement.surfaces program.arrange.body)) :
    Statement.meanings (Statement.recastAll .uncommented read) = program.chunk.meaning := by
  have grammatical : Node.AreGrammatical (Statement.nodesOfAll program.arrange.body) :=
    fun node member => (areWritable_arrange parsed node member).grammatical
  calc Statement.meanings (Statement.recastAll .uncommented read)
    _ = Statement.meanings read := Statement.meanings_recastAll _ read
    _ = Statement.meanings (Statement.surfaces program.arrange.body) :=
      Statement.meanings_eq_of_recastAll_eq same
    _ = Statement.meanings program.arrange.body := Statement.meanings_surfaces _ grammatical
    _ = program.chunk.meaning := Statement.meanings_eq_of_recastAll_eq program.recast_arrange

/-- The comments of a layout are those among the tokens that are read from it, and so, up to how
they are set off, those of the surface. -/
theorem shown_commentsOf {program : Program} {text : List Char} {read : List Statement}
    (reads : Statement.ReadsBody true read (Token.ofText text))
    (same : Statement.recastAll .shown read =
      Statement.recastAll .shown (Statement.surfaces program.arrange.body)) :
    (commentsOf text).map Comment.shown =
      (Node.commentsAmong (Statement.nodesOfAll program.arrange.body)).map Comment.shown := by
  have shown (body : List Statement) : Node.commentsAmong
      (Statement.nodesOfAll (Statement.recastAll .shown body)) =
        (Node.commentsAmong (Statement.nodesOfAll body)).map Comment.shown := by
    rw [Statement.nodesOfAll_recastAll, Node.commentsAmong_recast]
    exact congrFun (List.filterMap_eq_map) _
  have tokens : Node.commentsAmong (Statement.nodesOfAll read) = commentsOf text :=
    Statement.ReadsBody.commentsFrom read reads
  rw [← tokens, ← shown, same, shown, Statement.commentsAmong_surfaces]

end Program

/-! ### What formatting keeps -/

/-- The layout of a source that parses is a source that parses, to a program that means the same. -/
theorem format_keeps_meaning (config : Config) {source : List Char} {program : Program}
    (parsed : Program.parse source = .ok program) :
    ∃ text again, formatText config source = .ok text ∧ Program.parse text = .ok again ∧
      again.chunk.meaning = program.chunk.meaning := by
  obtain ⟨text, read, laid, reads, same⟩ := Program.format_reads config parsed
  exact ⟨text, _, laid, Program.parse_format reads same, Program.meanings_format parsed same⟩

theorem format_keeps_meaning_of_call :
    ∃ program text again,
      Program.parse "f(('x')) ; (a and ((b and c)))(g, ((...)))".toList = .ok program ∧
      formatText {} "f(('x')) ; (a and ((b and c)))(g, ((...)))".toList = .ok text ∧
      Program.parse text = .ok again ∧ again.chunk.meaning = program.chunk.meaning := by
  obtain ⟨program, parsed⟩ := Program.exists_of_isOk
    (show (Program.parse "f(('x')) ; (a and ((b and c)))(g, ((...)))".toList).isOk by
      decide +kernel)
  obtain ⟨text, again, laid, read, same⟩ := format_keeps_meaning {} parsed
  exact ⟨program, text, again, parsed, laid, read, same⟩

/-- The layout of a source has the comments of the source, each with the same content lines. -/
theorem format_keeps_comments (config : Config) {source : List Char} {program : Program}
    (parsed : Program.parse source = .ok program) :
    ∃ text again, formatText config source = .ok text ∧ Program.parse text = .ok again ∧
      (again.comments.map fun remark => Comment.contentLines (trim remark.text)).Perm
        (program.comments.map fun remark => Comment.contentLines (trim remark.text)) := by
  obtain ⟨text, read, laid, reads, same⟩ := Program.format_reads config parsed
  have lines (comments : List Comment) :
      (comments.map Comment.shown).map (fun remark => Comment.contentLines remark.text) =
        comments.map fun remark => Comment.contentLines (trim remark.text) := by
    rw [List.map_map]
    refine List.map_congr_left fun remark _ => ?_
    exact remark.contentLines_shown.trans (Comment.contentLines_trim remark.text).symm
  refine ⟨text, _, laid, Program.parse_format reads same, ?_⟩
  rw [← lines (Program.commentsOf text), Program.shown_commentsOf reads same, lines]
  exact (Program.perm_commentsAmong_arrange parsed).map _

theorem format_keeps_comments_of_call :
    ∃ program text again,
      Program.parse "f( --[[ a\n b ]] x --c\n)--d".toList = .ok program ∧
      formatText {} "f( --[[ a\n b ]] x --c\n)--d".toList = .ok text ∧
      Program.parse text = .ok again ∧
      (again.comments.map fun remark => Comment.contentLines (trim remark.text)).Perm
        (program.comments.map fun remark => Comment.contentLines (trim remark.text)) := by
  obtain ⟨program, parsed⟩ := Program.exists_of_isOk
    (show (Program.parse "f( --[[ a\n b ]] x --c\n)--d".toList).isOk by decide +kernel)
  obtain ⟨text, again, laid, read, same⟩ := format_keeps_comments {} parsed
  exact ⟨program, text, again, parsed, laid, read, same⟩

end LuaStyle
