/-
This file proves that laying out a program fails exactly where the program cannot be written.

Three kinds of node cannot be written, each by itself and wherever it stands: an `if` statement
without clauses, a statement that is no call although it should be one, and a number whose normal
form does not name it. The printer meets every node of a tree, also those whose layout it puts aside
to decide about the line they stand on, and no other step of it fails. A tree that was read from a
source has no such node, so every program can be formatted.
-/

import LuaStyle.Proofs.Grammatical

namespace LuaStyle

/-! ### Nodes that cannot be written -/

/-- The error of a literal that is written as another number. -/
def Literal.fault? (constant : Literal) : Option FormatError :=
  match constant.value with
  | .number value =>
    let text := Literal.normalNumber constant.raw value
    if (Numeral.valueOf? text).any (·.sameNumber value) then none
    else some (.changedNumber constant.raw text)
  | _ => none

/-- The error of a node that cannot be written where it stands, whatever else the tree holds. -/
def Node.fault? : Node → Option FormatError
  | .expression (.literal constant) => constant.fault?
  | .expression (.stringCall _ argument _) => argument.fault?
  | .statement (.call value _) =>
    if value.isCall then none else some (.unsupportedNode value.kindName)
  | .statement (.ifElse [] _) => some (.unsupportedNode "If".toList)
  | _ => none

/-- The result is an error that one of the nodes is the reason for, or none of the nodes is a reason
for an error. -/
def Node.Explain {Value : Type} (nodes : List Node) (result : Except FormatError Value) : Prop :=
  match result with
  | .ok _ => ∀ node ∈ nodes, node.fault? = none
  | .error error => ∃ node ∈ nodes, node.fault? = some error

namespace Node.Explain

variable {Value Further : Type} {nodes more : List Node} {result : Except FormatError Value}

theorem pure (value : Value) : Node.Explain [] (.ok value : Except FormatError Value) :=
  fun _ member => nomatch member

theorem congr (explained : Node.Explain nodes result) (same : ∀ node, node ∈ more ↔ node ∈ nodes) :
    Node.Explain more result := by
  cases result with
  | ok value => exact fun node member => explained node ((same node).1 member)
  | error error =>
    obtain ⟨node, member, fault⟩ := explained
    exact ⟨node, (same node).2 member, fault⟩

/-- Two steps of the printer are explained by the nodes of both. -/
theorem bind {next : Value → Except FormatError Further} (explained : Node.Explain nodes result)
    (further : ∀ value, Node.Explain more (next value)) :
    Node.Explain (nodes ++ more) (result >>= next) := by
  cases result with
  | error error =>
    obtain ⟨node, member, fault⟩ := explained
    exact ⟨node, List.mem_append_left _ member, fault⟩
  | ok value =>
    have rest := further value
    show Node.Explain _ (next value)
    cases last : next value with
    | error error =>
      rw [last] at rest
      obtain ⟨node, member, fault⟩ := rest
      exact ⟨node, List.mem_append_right _ member, fault⟩
    | ok result =>
      rw [last] at rest
      exact List.forall_mem_append.2 ⟨explained, rest⟩

/-- The last step of the printer, which cannot fail. -/
theorem map {Result : Type} {finish : Value → Result} (explained : Node.Explain nodes result) :
    Node.Explain nodes (result >>= fun value => .ok (finish value)) := by
  have both := explained.bind fun value => pure (finish value)
  rwa [List.append_nil] at both

/-- A node that is no reason for an error may stand in front. -/
theorem cons {node : Node} (fine : node.fault? = none) (explained : Node.Explain nodes result) :
    Node.Explain (node :: nodes) result := by
  cases result with
  | ok value => exact List.forall_mem_cons.2 ⟨fine, explained⟩
  | error error =>
    obtain ⟨other, member, fault⟩ := explained
    exact ⟨other, List.mem_cons_of_mem _ member, fault⟩

end Node.Explain

/-! ### The printer meets every node -/

theorem Literal.explain_doc (config : Config) (constant : Literal) (node : Node)
    (same : node.fault? = constant.fault?) : Node.Explain [node] (constant.doc config) := by
  obtain ⟨value, raw, span⟩ := constant
  cases value with
  | number value =>
    show Node.Explain [node] (Literal.numberDoc raw value)
    unfold Literal.fault? at same
    unfold Literal.numberDoc
    dsimp only at same ⊢
    split at same
    next named =>
      rw [if_pos named]
      exact List.forall_mem_singleton.2 same
    next lost =>
      rw [if_neg lost]
      exact ⟨node, List.mem_singleton_self _, same⟩
  | _ => exact List.forall_mem_singleton.2 same

section

variable (config : Config)

mutual

theorem Expression.explain_doc (depth : Nat) : ∀ expression : Expression,
    Node.Explain expression.nodes (expression.doc config depth)
  | .binary _ left right _ => by
    rw [Expression.doc, Expression.nodes]
    exact .cons rfl ((left.explain_doc depth).bind fun _ => (right.explain_doc depth).map)
  | .unary _ argument _ => by
    rw [Expression.doc, Expression.nodes]
    exact .cons rfl (argument.explain_doc depth).map
  | .call base arguments _ => by
    rw [Expression.doc, Expression.nodes]
    exact .cons rfl ((base.explain_doc depth).bind fun _ =>
      (Expression.explain_docs depth arguments).map)
  | .stringCall base argument span => by
    rw [Expression.doc, Expression.nodes]
    refine .congr ((base.explain_doc depth).bind fun _ =>
      (argument.explain_doc config (.expression (.stringCall base argument span)) rfl).map)
      fun node => ?_
    rw [List.mem_cons, List.mem_append, List.mem_singleton, or_comm]
  | .tableCall base fields _ _ => by
    rw [Expression.doc, Expression.nodes]
    exact .cons rfl ((base.explain_doc depth).bind fun _ =>
      (Field.explain_docs (depth + 1) fields).map)
  | .function _ _ body _ => by
    rw [Expression.doc, Expression.nodes]
    exact .cons rfl (Statement.explain_docs (depth + 1) body).map
  | .group inner _ => by
    rw [Expression.doc, Expression.nodes]
    exact .cons rfl (inner.explain_doc depth).map
  | .name _ => by
    rw [Expression.doc, Expression.nodes]
    exact .cons rfl (.pure _)
  | .index base key _ => by
    rw [Expression.doc, Expression.nodes]
    exact .cons rfl ((base.explain_doc depth).bind fun _ => (key.explain_doc depth).map)
  | .member base _ _ _ => by
    rw [Expression.doc, Expression.nodes]
    exact .cons rfl (base.explain_doc depth).map
  | .literal constant => by
    rw [Expression.doc, Expression.nodes]
    exact constant.explain_doc config (.expression (.literal constant)) rfl
  | .table fields _ => by
    rw [Expression.doc, Expression.nodes]
    exact .cons rfl (Field.explain_docs (depth + 1) fields).map

theorem Expression.explain_docs (depth : Nat) : ∀ expressions : List Expression,
    Node.Explain (Expression.nodesOfAll expressions) (Expression.docs config depth expressions)
  | [] => by
    rw [Expression.docs]
    exact .pure []
  | expression :: rest => by
    rw [Expression.docs, Expression.nodesOfAll]
    exact (expression.explain_doc depth).bind fun _ => (Expression.explain_docs depth rest).map

theorem Expression.explain_optionalDocs (depth : Nat) : ∀ optional : Option Expression,
    Node.Explain (Expression.nodesOfOptional optional)
      (Expression.optionalDocs config depth optional)
  | none => by
    rw [Expression.optionalDocs]
    exact .pure []
  | some expression => by
    rw [Expression.optionalDocs]
    exact (expression.explain_doc depth).map

theorem Field.explain_doc (depth : Nat) : ∀ field : Field,
    Node.Explain field.nodes (field.doc config depth)
  | .keyed key value _ => by
    rw [Field.doc, Field.nodes]
    exact .cons rfl ((key.explain_doc depth).bind fun _ => (value.explain_doc depth).map)
  | .named _ value _ => by
    rw [Field.doc, Field.nodes]
    exact .cons rfl (value.explain_doc depth).map
  | .positional value => by
    rw [Field.doc, Field.nodes]
    exact .cons rfl (value.explain_doc depth)
  | .comment _ => by
    rw [Field.doc, Field.nodes]
    exact .cons rfl (.pure _)

theorem Field.explain_docs (depth : Nat) : ∀ fields : List Field,
    Node.Explain (Field.nodesOfAll fields) (Field.docs config depth fields)
  | [] => by
    rw [Field.docs]
    exact .pure []
  | field :: rest => by
    rw [Field.docs, Field.nodesOfAll]
    exact (field.explain_doc depth).bind fun _ => (Field.explain_docs depth rest).map

theorem Clause.explain_doc (depth : Nat) (isLast : Bool) : ∀ clause : Clause,
    Node.Explain clause.nodes (clause.doc config depth isLast)
  | .guarded word condition body _ => by
    unfold Clause.doc
    rw [Clause.nodes]
    refine .cons rfl (.congr ((Statement.explain_docs (depth + 1) body).bind fun _ =>
      (condition.explain_doc depth).map) fun node => ?_)
    rw [List.mem_append, List.mem_append, or_comm]
  | .otherwise body _ => by
    rw [Clause.doc, Clause.nodes]
    exact .cons rfl (Statement.explain_docs (depth + 1) body).map

theorem Clause.explain_docs (depth : Nat) : ∀ clauses : List Clause,
    Node.Explain (Clause.nodesOfAll clauses) (Clause.docs config depth clauses)
  | [] => by
    rw [Clause.docs]
    exact .pure []
  | clause :: rest => by
    rw [Clause.docs, Clause.nodesOfAll]
    exact (clause.explain_doc depth rest.isEmpty).bind fun _ =>
      (Clause.explain_docs depth rest).map

theorem Statement.explain_doc (depth : Nat) : ∀ statement : Statement,
    Node.Explain statement.nodes (statement.doc config depth)
  | .assignment targets values _ => by
    rw [Statement.doc, Statement.nodes]
    exact .cons rfl ((Expression.explain_docs depth targets).bind fun _ =>
      (Expression.explain_docs depth values).map)
  | .breakLoop _ => by
    rw [Statement.doc, Statement.nodes]
    exact .cons rfl (.pure _)
  | .call expression span => by
    rw [Statement.doc, Statement.nodes]
    cases isCall : expression.isCall with
    | true =>
      rw [if_pos rfl]
      refine .cons ?_ (expression.explain_doc depth)
      rw [Node.fault?, isCall]
      rfl
    | false =>
      refine ⟨_, List.mem_cons_self, ?_⟩
      rw [Node.fault?, isCall]
      rfl
  | .comment _ => by
    rw [Statement.doc, Statement.nodes]
    exact .cons rfl (.pure _)
  | .doBlock body _ => by
    rw [Statement.doc, Statement.nodes]
    exact .cons rfl (Statement.explain_docs (depth + 1) body).map
  | .genericFor _ iterators body _ => by
    rw [Statement.doc, Statement.nodes]
    exact .cons rfl ((Expression.explain_docs depth iterators).bind fun _ =>
      (Statement.explain_docs (depth + 1) body).map)
  | .numericFor _ first last step body _ => by
    rw [Statement.doc, Statement.nodes, List.append_assoc, List.append_assoc]
    exact .cons rfl ((first.explain_doc depth).bind fun _ => (last.explain_doc depth).bind fun _ =>
      (Expression.explain_optionalDocs depth step).bind fun _ =>
        (Statement.explain_docs (depth + 1) body).map)
  | .function _ _ body _ => by
    rw [Statement.doc, Statement.nodes]
    exact .cons rfl (Statement.explain_docs (depth + 1) body).map
  | .goto _ _ => by
    rw [Statement.doc, Statement.nodes]
    exact .cons rfl (.pure _)
  | .ifElse [] span => ⟨.statement (.ifElse [] span), List.mem_cons_self, rfl⟩
  | .ifElse (clause :: rest) _ => by
    rw [Statement.doc, Statement.nodes]
    exact .cons rfl (Clause.explain_docs depth (clause :: rest)).map
  | .label _ _ => by
    rw [Statement.doc, Statement.nodes]
    exact .cons rfl (.pure _)
  | .localVariables _ values _ => by
    rw [Statement.doc, Statement.nodes]
    exact .cons rfl (Expression.explain_docs depth values).map
  | .repeatUntil body condition _ => by
    rw [Statement.doc, Statement.nodes]
    exact .cons rfl ((Statement.explain_docs (depth + 1) body).bind fun _ =>
      (condition.explain_doc depth).map)
  | .returnValues values _ => by
    rw [Statement.doc, Statement.nodes]
    exact .cons rfl (Expression.explain_docs depth values).map
  | .whileLoop condition body _ => by
    rw [Statement.doc, Statement.nodes]
    exact .cons rfl ((condition.explain_doc depth).bind fun _ =>
      (Statement.explain_docs (depth + 1) body).map)

theorem Statement.explain_docs (depth : Nat) : ∀ body : List Statement,
    Node.Explain (Statement.nodesOfAll body) (Statement.docs config depth body)
  | [] => by
    rw [Statement.docs]
    exact .pure []
  | statement :: rest => by
    rw [Statement.docs, Statement.nodesOfAll]
    exact (statement.explain_doc depth).bind fun _ => (Statement.explain_docs depth rest).map

end

end

/-! ### Formatting fails exactly where a node does -/

/-- Spans and comments do not matter for the error of a node. -/
theorem Node.fault?_recast (node : Node) (error : FormatError) :
    (∀ image ∈ node.recast .bare, image.fault? ≠ some error) ↔ node.fault? ≠ some error := by
  cases node with
  | expression value =>
    rw [Node.recast, List.forall_mem_singleton]
    cases value <;> rfl
  | field entry =>
    cases entry <;> simp [Node.recast, Field.recast, Recasting.bare, Node.fault?]
  | clause branch =>
    cases branch <;> simp [Node.recast, Clause.recast, Node.fault?]
  | statement step =>
    cases step with
    | comment remark => simp [Node.recast, Statement.recast, Recasting.bare, Node.fault?]
    | call value span =>
      rw [Node.recast, Statement.recast, List.map_singleton, List.forall_mem_singleton,
        Node.fault?, Node.fault?, Expression.isCall_recast]
      cases value <;> rfl
    | ifElse clauses span =>
      rw [Node.recast, Statement.recast, List.map_singleton, List.forall_mem_singleton]
      cases clauses <;> rfl
    | _ =>
      rw [Node.recast, Statement.recast, List.map_singleton, List.forall_mem_singleton]
      rfl

/-- A node causes an error in a program that is arranged exactly when one does in the program. -/
theorem Program.exists_fault_arrange (program : Program) (error : FormatError) :
    (∃ node ∈ Statement.nodesOfAll program.arrange.body, node.fault? = some error) ↔
      ∃ node ∈ Statement.nodesOfAll program.chunk.body, node.fault? = some error := by
  have same := program.forall_nodes_arrange fun node => Node.fault?_recast node error
  simpa using not_congr same

theorem Program.explain_format (config : Config) (program : Program) :
    Node.Explain (Statement.nodesOfAll program.arrange.body) (program.format config) := by
  have explained := Statement.explain_docs config 0 program.arrange.body
  unfold Program.format Chunk.doc
  cases docs : Statement.docs config 0 program.arrange.body with
  | error error =>
    rw [docs] at explained
    exact explained
  | ok docs =>
    rw [docs] at explained
    exact explained

/-- A grammatical node can be written. -/
theorem Node.fault?_eq_none {node : Node} (grammatical : node.IsGrammatical) :
    node.fault? = none := by
  have numbers (constant : Literal) (fine : constant.IsGrammatical) : constant.fault? = none := by
    obtain ⟨value, raw, span⟩ := constant
    cases value with
    | number value =>
      have named := fine.2
      have number := (Numeral.isMagnitude_of_valueOf? named).isNaN_eq
      rw [Literal.fault?]
      dsimp only
      rw [Literal.valueOf?_normalNumber named, Option.any_some, Double.sameNumber_self number]
      rfl
    | _ => rfl
  unfold Node.fault?
  split
  · exact numbers _ grammatical
  · rename_i argument _
    obtain ⟨value, raw, span⟩ := argument
    cases value with
    | string => rfl
    | _ => exact absurd grammatical.2 Bool.false_ne_true
  · exact if_pos grammatical
  · exact absurd grammatical Bool.false_ne_true
  · rfl

/-- Formatting fails exactly when a node of the program cannot be written, with the error of such a
node. A program that was read from a source has none. -/
theorem format_fails_iff_fault (config : Config) :
    (∀ program : Program,
      ((∃ error, program.format config = .error error) ↔
        ∃ node ∈ Statement.nodesOfAll program.chunk.body, node.fault? ≠ none) ∧
      ∀ error, program.format config = .error error →
        ∃ node ∈ Statement.nodesOfAll program.chunk.body, node.fault? = some error) ∧
    ∀ source program, Program.parse source = .ok program →
      ∃ text, formatText config source = .ok text := by
  have named (program : Program) (error : FormatError)
      (failed : program.format config = .error error) :
      ∃ node ∈ Statement.nodesOfAll program.chunk.body, node.fault? = some error := by
    have explained := program.explain_format config
    rw [failed] at explained
    exact (program.exists_fault_arrange error).1 explained
  have clean (program : Program) (text : List Char) (laidOut : program.format config = .ok text) :
      ∀ node ∈ Statement.nodesOfAll program.chunk.body, node.fault? = none := by
    have explained := program.explain_format config
    rw [laidOut] at explained
    intro node member
    cases fault : node.fault? with
    | none => rfl
    | some error =>
      obtain ⟨other, present, same⟩ := (program.exists_fault_arrange error).2 ⟨node, member, fault⟩
      rw [explained other present] at same
      cases same
  refine ⟨fun program => ⟨⟨?_, ?_⟩, named program⟩, fun source program parsed => ?_⟩
  · rintro ⟨error, failed⟩
    obtain ⟨node, member, fault⟩ := named program error failed
    exact ⟨node, member, by rw [fault]; exact Option.some_ne_none error⟩
  · rintro ⟨node, member, fault⟩
    cases result : program.format config with
    | error error => exact ⟨error, rfl⟩
    | ok text => exact absurd (clean program text result node member) fault
  · rw [formatText, parsed]
    dsimp only
    cases result : program.format config with
    | ok text => exact ⟨text, rfl⟩
    | error error =>
      obtain ⟨node, member, fault⟩ := named program error result
      rw [Node.fault?_eq_none ((Program.grammatical_of_parse parsed).1 node member)] at fault
      cases fault

theorem format_call_and_empty_if :
    (∃ program text, Program.parse "f(1e400) -- so".toList = .ok program ∧
      formatText {} "f(1e400) -- so".toList = .ok text) ∧
    ∃ error, Program.format {} ⟨⟨[.ifElse [] ⟨0, 6⟩], ⟨0, 6⟩⟩, []⟩ = .error error := by
  have fails := ((format_fails_iff_fault {}).1
    ⟨⟨[.ifElse [] ⟨0, 6⟩], ⟨0, 6⟩⟩, []⟩).1.2
  refine ⟨?_, fails ⟨.statement (.ifElse [] ⟨0, 6⟩), List.mem_cons_self, by decide⟩⟩
  have isRead : (Program.parse "f(1e400) -- so".toList).isOk = true := by decide +kernel
  cases parsed : Program.parse "f(1e400) -- so".toList with
  | error error =>
    rw [parsed] at isRead
    cases isRead
  | ok program =>
    obtain ⟨text, laidOut⟩ := (format_fails_iff_fault {}).2 _ program parsed
    exact ⟨program, text, rfl, laidOut⟩

end LuaStyle
