/-
This file proves that whatever is laid out is cut into the tokens of its surface.

A node can be written if the parser could have built it and its comments are spelled as comments
are. The layouts of all the nodes of a tree are put together along the printer's own recursion, and
a whole program is the layout of its statements with nothing behind it.
-/

import LuaStyle.Proofs.Faults
import LuaStyle.Proofs.LaidStatements

namespace LuaStyle

/-! ### Nodes that can be written -/

/-- A node whose layout is cut into the tokens of its surface. -/
structure Node.IsWritable (node : Node) : Prop where
  grammatical : node.IsGrammatical
  spelled : ∀ remark ∈ node.comments, remark.IsSpelled

/-- All the nodes can be written. -/
def Node.AreWritable (nodes : List Node) : Prop :=
  ∀ node ∈ nodes, node.IsWritable

theorem Node.areWritable_cons {node : Node} {rest : List Node} :
    Node.AreWritable (node :: rest) ↔ node.IsWritable ∧ Node.AreWritable rest :=
  List.forall_mem_cons

theorem Node.areWritable_append {first second : List Node} :
    Node.AreWritable (first ++ second) ↔ Node.AreWritable first ∧ Node.AreWritable second :=
  List.forall_mem_append

theorem Expression.isMethod_of_isPrefix {expression : Expression} (isPrefix : expression.isPrefix) :
    expression.isMethod = false := by
  cases expression with
  | member _ selector _ _ =>
    cases selector with
    | colon => cases isPrefix
    | dot => rfl
  | _ => rfl

/-! ### Trees -/

section

variable (config : Config)

mutual

theorem Expression.laid_doc (depth : Nat) : ∀ (expression : Expression) {doc : Doc},
    Node.AreWritable expression.nodes → expression.doc config depth = .ok doc →
      expression.Laid config doc
  | .binary operator left right _, doc, writable, laid => by
    rw [Expression.nodes, Node.areWritable_cons, Node.areWritable_append] at writable
    obtain ⟨⟨⟨leftPlain, rightPlain⟩, -⟩, leftWritable, rightWritable⟩ := writable
    rw [Expression.doc] at laid
    obtain ⟨leftDoc, leftLaid, laid⟩ := bind_eq_ok.1 laid
    obtain ⟨rightDoc, rightLaid, laid⟩ := bind_eq_ok.1 laid
    cases laid
    exact Expression.laid_binary (left.laid_doc depth leftWritable leftLaid) leftPlain
      (right.laid_doc depth rightWritable rightLaid) rightPlain
  | .unary _ argument _, doc, writable, laid => by
    rw [Expression.nodes, Node.areWritable_cons] at writable
    obtain ⟨⟨plain, -⟩, argumentWritable⟩ := writable
    rw [Expression.doc] at laid
    obtain ⟨argumentDoc, argumentLaid, laid⟩ := bind_eq_ok.1 laid
    cases laid
    exact Expression.laid_unary (argument.laid_doc depth argumentWritable argumentLaid) plain
  | .call base arguments _, doc, writable, laid => by
    rw [Expression.nodes, Node.areWritable_cons, Node.areWritable_append] at writable
    obtain ⟨⟨⟨-, values⟩, -⟩, baseWritable, argumentsWritable⟩ := writable
    rw [Expression.doc] at laid
    obtain ⟨baseDoc, baseLaid, laid⟩ := bind_eq_ok.1 laid
    obtain ⟨docs, argumentsLaid, laid⟩ := bind_eq_ok.1 laid
    cases laid
    exact Expression.laid_call (base.laid_doc depth baseWritable baseLaid)
      (Expression.laid_docs depth arguments argumentsWritable argumentsLaid) values
  | .stringCall base argument _, doc, writable, laid => by
    rw [Expression.nodes, Node.areWritable_cons] at writable
    obtain ⟨⟨⟨-, isString⟩, -⟩, baseWritable⟩ := writable
    rw [Expression.doc] at laid
    obtain ⟨baseDoc, baseLaid, laid⟩ := bind_eq_ok.1 laid
    obtain ⟨argumentDoc, argumentLaid, laid⟩ := bind_eq_ok.1 laid
    cases laid
    exact Expression.laid_stringCall (base.laid_doc depth baseWritable baseLaid) isString
      argumentLaid
  | .tableCall base fields tableSpan _, doc, writable, laid => by
    rw [Expression.nodes, Node.areWritable_cons, Node.areWritable_append] at writable
    obtain ⟨-, baseWritable, fieldsWritable⟩ := writable
    rw [Expression.doc] at laid
    obtain ⟨baseDoc, baseLaid, laid⟩ := bind_eq_ok.1 laid
    obtain ⟨docs, fieldsLaid, laid⟩ := bind_eq_ok.1 laid
    cases laid
    have areLaid := Field.laid_docs (depth + 1) fields fieldsWritable fieldsLaid
    exact Expression.laid_tableCall (base.laid_doc depth baseWritable baseLaid)
      (areLaid.laid_table depth tableSpan)
  | .function _ _ body _, doc, writable, laid => by
    rw [Expression.nodes, Node.areWritable_cons] at writable
    obtain ⟨⟨⟨rfl, parameters, isBlock⟩, -⟩, bodyWritable⟩ := writable
    rw [Expression.doc] at laid
    obtain ⟨docs, bodyLaid, laid⟩ := bind_eq_ok.1 laid
    cases laid
    exact Expression.laid_function
      (Statement.laid_docs (depth + 1) body bodyWritable bodyLaid) isBlock
      parameters depth
  | .group inner _, doc, writable, laid => by
    rw [Expression.nodes, Node.areWritable_cons] at writable
    obtain ⟨⟨plain, -⟩, innerWritable⟩ := writable
    rw [Expression.doc] at laid
    obtain ⟨innerDoc, innerLaid, laid⟩ := bind_eq_ok.1 laid
    cases laid
    exact Expression.laid_group (inner.laid_doc depth innerWritable innerLaid) plain
  | .name _, doc, writable, laid => by
    rw [Expression.nodes, Node.areWritable_cons] at writable
    obtain ⟨⟨named, -⟩, -⟩ := writable
    rw [Expression.doc] at laid
    cases laid
    exact Expression.laid_name named
  | .index base key _, doc, writable, laid => by
    rw [Expression.nodes, Node.areWritable_cons, Node.areWritable_append] at writable
    obtain ⟨⟨⟨isPrefix, keyPlain⟩, -⟩, baseWritable, keyWritable⟩ := writable
    rw [Expression.doc] at laid
    obtain ⟨baseDoc, baseLaid, laid⟩ := bind_eq_ok.1 laid
    obtain ⟨keyDoc, keyLaid, laid⟩ := bind_eq_ok.1 laid
    cases laid
    exact Expression.laid_index (base.laid_doc depth baseWritable baseLaid)
      (Expression.isMethod_of_isPrefix isPrefix)
      (key.laid_doc depth keyWritable keyLaid) keyPlain
  | .member base _ _ _, doc, writable, laid => by
    rw [Expression.nodes, Node.areWritable_cons] at writable
    obtain ⟨⟨⟨isPrefix, named⟩, -⟩, baseWritable⟩ := writable
    rw [Expression.doc] at laid
    obtain ⟨baseDoc, baseLaid, laid⟩ := bind_eq_ok.1 laid
    cases laid
    exact Expression.laid_member (base.laid_doc depth baseWritable baseLaid)
      (Expression.isMethod_of_isPrefix isPrefix) named
  | .literal _, doc, writable, laid => by
    rw [Expression.nodes, Node.areWritable_cons] at writable
    obtain ⟨⟨grammatical, -⟩, -⟩ := writable
    rw [Expression.doc] at laid
    exact Expression.laid_literal grammatical laid
  | .table fields span, doc, writable, laid => by
    rw [Expression.nodes, Node.areWritable_cons] at writable
    obtain ⟨-, fieldsWritable⟩ := writable
    rw [Expression.doc] at laid
    obtain ⟨docs, fieldsLaid, laid⟩ := bind_eq_ok.1 laid
    cases laid
    have areLaid := Field.laid_docs (depth + 1) fields fieldsWritable fieldsLaid
    exact areLaid.laid_table depth span

theorem Expression.laid_docs (depth : Nat) : ∀ (expressions : List Expression) {docs : List Doc},
    Node.AreWritable (Expression.nodesOfAll expressions) →
      Expression.docs config depth expressions = .ok docs →
        Expression.AreLaid config expressions docs
  | [], docs, _, laid => by
    rw [Expression.docs] at laid
    cases laid
    exact .nil
  | expression :: rest, docs, writable, laid => by
    rw [Expression.nodesOfAll, Node.areWritable_append] at writable
    obtain ⟨firstWritable, restWritable⟩ := writable
    rw [Expression.docs] at laid
    obtain ⟨first, firstLaid, laid⟩ := bind_eq_ok.1 laid
    obtain ⟨others, othersLaid, laid⟩ := bind_eq_ok.1 laid
    cases laid
    exact .cons (expression.laid_doc depth firstWritable firstLaid)
      (Expression.laid_docs depth rest restWritable othersLaid)

theorem Expression.laid_optionalDocs (depth : Nat) : ∀ (optional : Option Expression)
    {docs : List Doc}, Node.AreWritable (Expression.nodesOfOptional optional) →
      Expression.optionalDocs config depth optional = .ok docs →
        Expression.AreLaid config optional.toList docs
  | none, docs, _, laid => by
    rw [Expression.optionalDocs] at laid
    cases laid
    exact .nil
  | some expression, docs, writable, laid => by
    rw [Expression.nodesOfOptional] at writable
    rw [Expression.optionalDocs] at laid
    obtain ⟨doc, expressionLaid, laid⟩ := bind_eq_ok.1 laid
    cases laid
    exact .cons (expression.laid_doc depth writable expressionLaid) .nil

theorem Field.laid_doc (depth : Nat) : ∀ (field : Field) {doc : Doc},
    Node.AreWritable field.nodes → field.doc config depth = .ok doc → field.Laid config doc
  | .keyed key value _, doc, writable, laid => by
    rw [Field.nodes, Node.areWritable_cons, Node.areWritable_append] at writable
    obtain ⟨⟨⟨keyPlain, valuePlain⟩, -⟩, keyWritable, valueWritable⟩ := writable
    rw [Field.doc] at laid
    obtain ⟨keyDoc, keyLaid, laid⟩ := bind_eq_ok.1 laid
    obtain ⟨valueDoc, valueLaid, laid⟩ := bind_eq_ok.1 laid
    cases laid
    exact Field.laid_keyed (key.laid_doc depth keyWritable keyLaid) keyPlain
      (value.laid_doc depth valueWritable valueLaid) valuePlain
  | .named _ value _, doc, writable, laid => by
    rw [Field.nodes, Node.areWritable_cons] at writable
    obtain ⟨⟨⟨named, plain⟩, -⟩, valueWritable⟩ := writable
    rw [Field.doc] at laid
    obtain ⟨valueDoc, valueLaid, laid⟩ := bind_eq_ok.1 laid
    cases laid
    exact Field.laid_named named (value.laid_doc depth valueWritable valueLaid) plain
  | .positional value, doc, writable, laid => by
    rw [Field.nodes, Node.areWritable_cons] at writable
    obtain ⟨⟨plain, -⟩, valueWritable⟩ := writable
    rw [Field.doc] at laid
    exact Field.laid_positional (value.laid_doc depth valueWritable laid) plain
  | .comment remark, doc, writable, laid => by
    rw [Field.nodes, Node.areWritable_cons] at writable
    obtain ⟨⟨-, spelled⟩, -⟩ := writable
    rw [Field.doc] at laid
    cases laid
    exact fun rest ends => remark.cuts_doc (spelled remark (List.mem_singleton_self _)) depth ends

theorem Field.laid_docs (depth : Nat) : ∀ (fields : List Field) {docs : List Doc},
    Node.AreWritable (Field.nodesOfAll fields) → Field.docs config depth fields = .ok docs →
      Field.AreLaid config fields docs
  | [], docs, _, laid => by
    rw [Field.docs] at laid
    cases laid
    exact .nil
  | field :: rest, docs, writable, laid => by
    rw [Field.nodesOfAll, Node.areWritable_append] at writable
    obtain ⟨firstWritable, restWritable⟩ := writable
    rw [Field.docs] at laid
    obtain ⟨first, firstLaid, laid⟩ := bind_eq_ok.1 laid
    obtain ⟨others, othersLaid, laid⟩ := bind_eq_ok.1 laid
    cases laid
    exact .cons (field.laid_doc depth firstWritable firstLaid)
      (Field.laid_docs depth rest restWritable othersLaid)

theorem Clause.laid_doc (depth : Nat) (isLast : Bool) : ∀ (clause : Clause) {doc : Doc},
    Node.AreWritable clause.nodes → clause.doc config depth isLast = .ok doc →
      clause.Laid config isLast doc
  | .guarded word condition body _, doc, writable, laid => by
    rw [Clause.nodes, Node.areWritable_cons, Node.areWritable_append] at writable
    obtain ⟨⟨⟨plain, isBlock⟩, -⟩, conditionWritable, bodyWritable⟩ := writable
    rw [Clause.doc.eq_def] at laid
    obtain ⟨docs, bodyLaid, laid⟩ := bind_eq_ok.1 laid
    obtain ⟨conditionDoc, conditionLaid, laid⟩ := bind_eq_ok.1 laid
    cases laid
    exact Clause.laid_guarded (condition.laid_doc depth conditionWritable conditionLaid) plain
      (Statement.laid_docs (depth + 1) body bodyWritable bodyLaid) isBlock depth isLast
  | .otherwise body _, doc, writable, laid => by
    rw [Clause.nodes, Node.areWritable_cons] at writable
    obtain ⟨⟨isBlock, -⟩, bodyWritable⟩ := writable
    rw [Clause.doc] at laid
    obtain ⟨docs, bodyLaid, laid⟩ := bind_eq_ok.1 laid
    cases laid
    exact Clause.laid_otherwise (Statement.laid_docs (depth + 1) body bodyWritable bodyLaid) isBlock
      depth isLast

theorem Clause.laid_docs (depth : Nat) : ∀ (clauses : List Clause) {docs : List Doc},
    Node.AreWritable (Clause.nodesOfAll clauses) → Clause.docs config depth clauses = .ok docs →
      Clause.AreLaid config clauses docs
  | [], docs, _, laid => by
    rw [Clause.docs] at laid
    cases laid
    exact .nil
  | clause :: rest, docs, writable, laid => by
    rw [Clause.nodesOfAll, Node.areWritable_append] at writable
    obtain ⟨firstWritable, restWritable⟩ := writable
    rw [Clause.docs] at laid
    obtain ⟨first, firstLaid, laid⟩ := bind_eq_ok.1 laid
    obtain ⟨others, othersLaid, laid⟩ := bind_eq_ok.1 laid
    cases laid
    exact .cons (clause.laid_doc depth rest.isEmpty firstWritable firstLaid)
      (Clause.laid_docs depth rest restWritable othersLaid)

theorem Statement.laid_doc (depth : Nat) : ∀ (statement : Statement) {doc : Doc},
    Node.AreWritable statement.nodes → statement.doc config depth = .ok doc →
      statement.Laid config doc
  | .assignment targets values _, doc, writable, laid => by
    rw [Statement.nodes, Node.areWritable_cons, Node.areWritable_append] at writable
    obtain ⟨⟨⟨nonempty, assignable, some, areValues⟩, -⟩, targetsWritable, valuesWritable⟩ :=
      writable
    rw [Statement.doc] at laid
    obtain ⟨targetDocs, targetsLaid, laid⟩ := bind_eq_ok.1 laid
    obtain ⟨valueDocs, valuesLaid, laid⟩ := bind_eq_ok.1 laid
    cases laid
    exact Statement.laid_assignment (Expression.laid_docs depth targets targetsWritable targetsLaid)
      nonempty assignable (Expression.laid_docs depth values valuesWritable valuesLaid) some
      areValues
  | .breakLoop _, doc, _, laid => by
    rw [Statement.doc] at laid
    cases laid
    exact Statement.laid_breakLoop
  | .call expression _, doc, writable, laid => by
    rw [Statement.nodes, Node.areWritable_cons] at writable
    obtain ⟨⟨isCall, -⟩, expressionWritable⟩ := writable
    rw [Statement.doc, if_pos (show expression.isCall from isCall)] at laid
    exact Statement.laid_call isCall (expression.laid_doc depth expressionWritable laid)
  | .comment remark, doc, writable, laid => by
    rw [Statement.nodes, Node.areWritable_cons] at writable
    obtain ⟨⟨-, spelled⟩, -⟩ := writable
    rw [Statement.doc] at laid
    cases laid
    exact Statement.laid_comment (spelled remark (List.mem_singleton_self _)) depth
  | .doBlock body _, doc, writable, laid => by
    rw [Statement.nodes, Node.areWritable_cons] at writable
    obtain ⟨⟨isBlock, -⟩, bodyWritable⟩ := writable
    rw [Statement.doc] at laid
    obtain ⟨docs, bodyLaid, laid⟩ := bind_eq_ok.1 laid
    cases laid
    exact Statement.laid_doBlock (Statement.laid_docs (depth + 1) body bodyWritable bodyLaid)
      isBlock depth
  | .genericFor _ iterators body _, doc, writable, laid => by
    rw [Statement.nodes, Node.areWritable_cons, Node.areWritable_append] at writable
    obtain ⟨⟨⟨nonempty, named, some, areValues, isBlock⟩, -⟩, iteratorsWritable, bodyWritable⟩ :=
      writable
    rw [Statement.doc] at laid
    obtain ⟨iteratorDocs, iteratorsLaid, laid⟩ := bind_eq_ok.1 laid
    obtain ⟨docs, bodyLaid, laid⟩ := bind_eq_ok.1 laid
    cases laid
    exact Statement.laid_genericFor nonempty named
      (Expression.laid_docs depth iterators iteratorsWritable iteratorsLaid) some areValues
      (Statement.laid_docs (depth + 1) body bodyWritable bodyLaid) isBlock depth
  | .numericFor _ first last step body _, doc, writable, laid => by
    rw [Statement.nodes, Node.areWritable_cons, Node.areWritable_append,
      Node.areWritable_append, Node.areWritable_append] at writable
    obtain ⟨⟨⟨named, firstPlain, lastPlain, stepPlain, isBlock⟩, -⟩,
      ⟨⟨firstWritable, lastWritable⟩, stepWritable⟩, bodyWritable⟩ := writable
    rw [Statement.doc] at laid
    obtain ⟨firstDoc, firstLaid, laid⟩ := bind_eq_ok.1 laid
    obtain ⟨lastDoc, lastLaid, laid⟩ := bind_eq_ok.1 laid
    obtain ⟨stepDocs, stepLaid, laid⟩ := bind_eq_ok.1 laid
    obtain ⟨docs, bodyLaid, laid⟩ := bind_eq_ok.1 laid
    cases laid
    exact Statement.laid_numericFor named (first.laid_doc depth firstWritable firstLaid) firstPlain
      (last.laid_doc depth lastWritable lastLaid) lastPlain
      (Expression.laid_optionalDocs depth step stepWritable stepLaid) stepPlain
      (Statement.laid_docs (depth + 1) body bodyWritable bodyLaid) isBlock depth
  | .function ⟨none, _⟩ _ _ _, _, writable, _ => by
    rw [Statement.nodes, Node.areWritable_cons] at writable
    exact writable.1.1.1.elim
  | .function ⟨some _, _⟩ _ body _, doc, writable, laid => by
    rw [Statement.nodes, Node.areWritable_cons] at writable
    obtain ⟨⟨⟨⟨named, single⟩, parameters, isBlock⟩, -⟩, bodyWritable⟩ := writable
    rw [Statement.doc] at laid
    obtain ⟨docs, bodyLaid, laid⟩ := bind_eq_ok.1 laid
    cases laid
    exact Statement.laid_function named single parameters
      (Statement.laid_docs (depth + 1) body bodyWritable bodyLaid) isBlock depth
  | .goto _ _, doc, writable, laid => by
    rw [Statement.nodes, Node.areWritable_cons] at writable
    obtain ⟨⟨named, -⟩, -⟩ := writable
    rw [Statement.doc] at laid
    cases laid
    exact Statement.laid_goto named
  | .ifElse clauses _, doc, writable, laid => by
    rw [Statement.nodes, Node.areWritable_cons] at writable
    obtain ⟨⟨grammatical, -⟩, clausesWritable⟩ := writable
    cases clauses with
    | nil => cases grammatical
    | cons clause rest =>
      rw [Statement.doc] at laid
      obtain ⟨docs, clausesLaid, laid⟩ := bind_eq_ok.1 laid
      cases laid
      exact Statement.laid_ifElse
        (Clause.laid_docs depth (clause :: rest) clausesWritable clausesLaid)
        grammatical depth
  | .label _ _, doc, writable, laid => by
    rw [Statement.nodes, Node.areWritable_cons] at writable
    obtain ⟨⟨named, -⟩, -⟩ := writable
    rw [Statement.doc] at laid
    cases laid
    exact Statement.laid_label named
  | .localVariables _ values _, doc, writable, laid => by
    rw [Statement.nodes, Node.areWritable_cons] at writable
    obtain ⟨⟨⟨nonempty, named, areValues⟩, -⟩, valuesWritable⟩ := writable
    rw [Statement.doc] at laid
    obtain ⟨valueDocs, valuesLaid, laid⟩ := bind_eq_ok.1 laid
    cases laid
    exact Statement.laid_localVariables nonempty named
      (Expression.laid_docs depth values valuesWritable valuesLaid) areValues
  | .repeatUntil body condition _, doc, writable, laid => by
    rw [Statement.nodes, Node.areWritable_cons, Node.areWritable_append] at writable
    obtain ⟨⟨⟨isBlock, plain⟩, -⟩, bodyWritable, conditionWritable⟩ := writable
    rw [Statement.doc] at laid
    obtain ⟨docs, bodyLaid, laid⟩ := bind_eq_ok.1 laid
    obtain ⟨conditionDoc, conditionLaid, laid⟩ := bind_eq_ok.1 laid
    cases laid
    exact Statement.laid_repeatUntil
      (condition.laid_doc depth conditionWritable conditionLaid) plain
      (Statement.laid_docs (depth + 1) body bodyWritable bodyLaid) isBlock depth
  | .returnValues values _, doc, writable, laid => by
    rw [Statement.nodes, Node.areWritable_cons] at writable
    obtain ⟨⟨areValues, -⟩, valuesWritable⟩ := writable
    rw [Statement.doc] at laid
    obtain ⟨valueDocs, valuesLaid, laid⟩ := bind_eq_ok.1 laid
    cases laid
    exact Statement.laid_returnValues (Expression.laid_docs depth values valuesWritable valuesLaid)
      areValues
  | .whileLoop condition body _, doc, writable, laid => by
    rw [Statement.nodes, Node.areWritable_cons, Node.areWritable_append] at writable
    obtain ⟨⟨⟨plain, isBlock⟩, -⟩, conditionWritable, bodyWritable⟩ := writable
    rw [Statement.doc] at laid
    obtain ⟨conditionDoc, conditionLaid, laid⟩ := bind_eq_ok.1 laid
    obtain ⟨docs, bodyLaid, laid⟩ := bind_eq_ok.1 laid
    cases laid
    exact Statement.laid_whileLoop (condition.laid_doc depth conditionWritable conditionLaid) plain
      (Statement.laid_docs (depth + 1) body bodyWritable bodyLaid) isBlock depth

theorem Statement.laid_docs (depth : Nat) : ∀ (body : List Statement) {docs : List Doc},
    Node.AreWritable (Statement.nodesOfAll body) → Statement.docs config depth body = .ok docs →
      Statement.AreLaid config body docs
  | [], docs, _, laid => by
    rw [Statement.docs] at laid
    cases laid
    exact .nil
  | statement :: rest, docs, writable, laid => by
    rw [Statement.nodesOfAll, Node.areWritable_append] at writable
    obtain ⟨firstWritable, restWritable⟩ := writable
    rw [Statement.docs] at laid
    obtain ⟨first, firstLaid, laid⟩ := bind_eq_ok.1 laid
    obtain ⟨others, othersLaid, laid⟩ := bind_eq_ok.1 laid
    cases laid
    exact .cons (statement.laid_doc depth firstWritable firstLaid)
      (Statement.laid_docs depth rest restWritable othersLaid)

end

end

end LuaStyle
