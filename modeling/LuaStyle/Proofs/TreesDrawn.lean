/-
This file proves that a tree draws its script in the tokens it is read from.

The proof follows the tree. A group stands from its first parenthesis to its last, which is what its
span says; every other form of node adds words of its own or the parentheses of a call, and puts the
scripts of what is inside it one behind the other.
-/

import LuaStyle.Proofs.DrawnScripts

namespace LuaStyle

open Script (Drawn)

/-! ### Leaves -/

theorem Name.ReadsAll.drawn {names : List Name} {tokens : List Token}
    (reads : Name.ReadsAll (.symbol .comma) names tokens) : Drawn (Name.script names) tokens := by
  induction reads with
  | single reads => exact .name reads .done
  | cons reads comma _ inductionHypothesis => exact .name reads (.comma comma inductionHypothesis)

theorem Name.ReadsAll.drawn_path {names : List Name} {tokens : List Token}
    (reads : Name.ReadsAll (.symbol .dot) names tokens) :
    Drawn (.ofWords ((names.map Name.word).intersperse (Token.Kind.word (.symbol .dot))))
      tokens := by
  induction reads with
  | single reads => exact .name reads .done
  | @cons name token mark names tokens reads dot others inductionHypothesis =>
    have nonempty : names.map Name.word ≠ [] := by
      cases others <;> exact List.cons_ne_nil _ _
    rw [List.map_cons, intersperse_cons_of_ne_nil _ _ nonempty]
    exact .name reads (.mark dot rfl rfl inductionHypothesis)

theorem Script.ofWords_append (first second : List Token.Word) :
    Script.ofWords (first ++ second) = Script.ofWords first ++ Script.ofWords second := by
  induction first with
  | nil => rfl
  | cons only rest inductionHypothesis => exact congrArg (Script.word only) inductionHypothesis

theorem FunctionName.Reads.drawn {name : FunctionName} {tokens : List Token}
    (reads : name.Reads tokens) : Drawn name.script tokens := by
  cases reads with
  | plain pathReads =>
    rw [FunctionName.script, Script.ofWords_append, ← List.append_nil tokens]
    exact pathReads.drawn_path.append .done
  | method pathReads colon nameReads =>
    rw [FunctionName.script, Script.ofWords_append]
    exact pathReads.drawn_path.append (.mark colon rfl rfl (.name nameReads .done))

theorem Parameter.ReadsAll.drawn {parameters : List Parameter} {tokens : List Token}
    (reads : Parameter.ReadsAll parameters tokens) :
    Drawn (.ofWords (parameters.map Parameter.word)) tokens := by
  induction reads with
  | nil => exact .done
  | vararg kind => exact .mark kind rfl rfl .done
  | single reads => exact .name reads .done
  | cons reads comma _ _ inductionHypothesis =>
    exact .name reads (.comma comma inductionHypothesis)

/-! ### Trees -/

section

variable {strict : Bool}

theorem Expression.ReadsArguments.drawn {arguments : List Expression} {tokens : List Token}
    (reads : Expression.ReadsArguments strict arguments tokens)
    (all : Expression.ReadsAll strict arguments tokens →
      Drawn (Expression.scriptOfAll arguments) tokens) :
    Drawn (Expression.scriptOfAll arguments) tokens := by
  cases reads with
  | nil => exact .done
  | some reads => exact all reads

theorem Statement.ReadsFunction.drawn {parameters : List Parameter} {body : List Statement}
    {tokens : List Token} (reads : Statement.ReadsFunction strict parameters body tokens)
    (inner : ∀ {tokens}, Statement.ReadsBody strict body tokens →
      Drawn (Statement.scriptOfAll body) tokens) :
    Drawn (Parameter.script parameters ++ (Statement.scriptOfAll body ++
      .mark (.keyword .endWord) .done)) tokens := by
  cases reads with
  | intro opens parametersRead closes bodyReads ends =>
    rw [List.append_assoc]
    exact .enclosed opens parametersRead.drawn closes ((inner bodyReads).concat ends rfl rfl)

mutual

/-- The tokens that an expression is read from, or called from, draw its script. -/
theorem Expression.Reads.drawn : ∀ (expression : Expression) {tokens : List Token},
    expression.Reads strict tokens ∨ expression.ReadsCallee strict tokens →
      Drawn expression.script tokens
  | .binary operator left right _, _, reads => by
    cases Expression.reads_of_or reads rfl with
    | binary leftReads mark rightReads =>
      exact .single ((Expression.Reads.drawn left (.inl leftReads)).append
        (.mark mark operator.isMark_token operator.isPlain_token
          (Expression.Reads.drawn right (.inl rightReads))))
  | .unary operator argument _, _, reads => by
    cases Expression.reads_of_or reads rfl with
    | unary mark argumentReads =>
      exact .single (.mark mark operator.isMark_token operator.isPlain_token
        (Expression.Reads.drawn argument (.inl argumentReads)))
  | .call base arguments _, _, reads => by
    cases Expression.reads_of_or reads rfl with
    | call callee opens argumentsRead closes =>
      have inside := argumentsRead.drawn (Expression.ReadsAll.drawn arguments)
      rw [List.append_assoc]
      exact .single ((Expression.Reads.drawn base (.inr callee)).append
        (.enclosed opens inside closes .done))
  | .stringCall base _ _, _, reads => by
    cases Expression.reads_of_or reads rfl with
    | stringCall callee isString found =>
      exact .single ((Expression.Reads.drawn base (.inr callee)).append
        (.literal (.of_stringLiteral isString found) .done))
  | .tableCall base fields _ _, _, reads => by
    cases Expression.reads_of_or reads rfl with
    | tableCall callee opens fieldsRead closes =>
      have inside := Field.ReadsAll.drawn fields fieldsRead
      rw [List.append_assoc]
      exact .single ((Expression.Reads.drawn base (.inr callee)).append
        (.mark opens rfl rfl (inside.concat closes rfl rfl)))
  | .function _ _ body _, _, reads => by
    cases Expression.reads_of_or reads rfl with
    | function kind functionReads =>
      exact .single (.mark kind rfl rfl (functionReads.drawn (Statement.ReadsBody.drawn body)))
  | .group inner _, _, reads => by
    cases Expression.reads_of_or reads rfl with
    | group opens innerReads closes =>
      have core := Expression.Reads.drawn inner (.inl innerReads)
      obtain ⟨groups, form, inside, same⟩ := inner.script_eq
      rw [Expression.script, same]
      rw [same] at core
      exact core.grouped opens closes
  | .name _, _, reads => by
    cases Expression.reads_of_or reads rfl with
    | name nameReads => exact .single (.name nameReads .done)
  | .index base key _, _, reads => by
    cases Expression.reads_of_or reads rfl with
    | index _ baseReads opens keyReads closes =>
      have inside := Expression.Reads.drawn key (.inl keyReads)
      rw [List.append_assoc]
      exact .single ((Expression.Reads.drawn base (.inl baseReads)).append
        (.mark opens rfl rfl (inside.concat closes rfl rfl)))
  | .member base .dot _ _, _, reads => by
    rcases reads with reads | callee
    · cases reads with
      | member _ baseReads mark nameReads =>
        exact .single ((Expression.Reads.drawn base (.inl baseReads)).append
          (.mark mark rfl rfl (.name nameReads .done)))
    · cases callee with
      | value _ reads =>
        cases reads with
        | member _ baseReads mark nameReads =>
          exact .single ((Expression.Reads.drawn base (.inl baseReads)).append
            (.mark mark rfl rfl (.name nameReads .done)))
  | .member base .colon _ _, _, reads => by
    rcases reads with reads | callee
    · cases reads
    · cases callee with
      | value _ reads => cases reads
      | method _ baseReads mark nameReads =>
        exact .single ((Expression.Reads.drawn base (.inl baseReads)).append
          (.mark mark rfl rfl (.name nameReads .done)))
  | .literal _, _, reads => by
    cases Expression.reads_of_or reads rfl with
    | literal literalReads => exact .single (.literal (.of_literal literalReads) .done)
  | .table fields _, _, reads => by
    cases Expression.reads_of_or reads rfl with
    | table opens fieldsRead closes =>
      exact .single (.mark opens rfl rfl
        ((Field.ReadsAll.drawn fields fieldsRead).concat closes rfl rfl))

theorem Expression.ReadsAll.drawn : ∀ (expressions : List Expression) {tokens : List Token},
    Expression.ReadsAll strict expressions tokens →
      Drawn (Expression.scriptOfAll expressions) tokens
  | [], _, reads => by cases reads
  | expression :: rest, _, reads => by
    cases reads with
    | single reads =>
      rw [Expression.scriptOfAll, Expression.scriptOfAll, Script.append_done]
      exact Expression.Reads.drawn expression (.inl reads)
    | cons reads comma others =>
      exact (Expression.Reads.drawn expression (.inl reads)).append
        (.comma comma (Expression.ReadsAll.drawn rest others))

theorem Expression.ReadsStep.drawn : ∀ (step : Option Expression) {tokens : List Token},
    Expression.ReadsStep strict step tokens → Drawn (Expression.scriptOfOptional step) tokens
  | none, _, reads => by
    cases reads
    exact .done
  | some step, _, reads => by
    cases reads with
    | some comma reads => exact .comma comma (Expression.Reads.drawn step (.inl reads))

theorem Field.Reads.drawn : ∀ (field : Field) {tokens : List Token},
    field.Reads strict tokens → Drawn field.script tokens
  | .keyed key value _, _, reads => by
    cases reads with
    | keyed opens keyReads closes mark valueReads =>
      exact .mark opens rfl rfl ((Expression.Reads.drawn key (.inl keyReads)).append
        (.mark closes rfl rfl
          (.mark mark rfl rfl (Expression.Reads.drawn value (.inl valueReads)))))
  | .named _ value _, _, reads => by
    cases reads with
    | named nameReads mark valueReads =>
      exact .name nameReads
        (.mark mark rfl rfl (Expression.Reads.drawn value (.inl valueReads)))
  | .positional value, _, reads => by
    cases reads with
    | positional reads => exact Expression.Reads.drawn value (.inl reads)
  | .comment _, _, reads => by cases reads

theorem Field.ReadsAll.drawn : ∀ (fields : List Field) {tokens : List Token},
    Field.ReadsAll strict fields tokens → Drawn (Field.scriptOfAll fields) tokens
  | [], _, reads => by
    cases reads
    exact .done
  | field :: rest, _, reads => by
    cases reads with
    | comment kind others => exact .comment kind (Field.ReadsAll.drawn rest others)
    | last reads _ others =>
      exact (Field.Reads.drawn field reads).append (Field.ReadsAll.drawn rest others)
    | cons reads separator others =>
      exact (Field.Reads.drawn field reads).append
        (.separator separator (Field.ReadsAll.drawn rest others))

theorem Clause.ReadsGuarded.drawn : ∀ (clause : Clause) {word : ClauseWord}
    {tokens : List Token}, Clause.ReadsGuarded strict word clause tokens →
      Drawn clause.script tokens
  | .guarded _ condition body _, word, _, reads => by
    cases reads with
    | intro kind conditionReads header bodyReads =>
      exact .mark kind rfl (Token.isPlain_keyword _)
        ((Expression.Reads.drawn condition (.inl conditionReads)).append
          (.mark header rfl rfl (Statement.ReadsBody.drawn body bodyReads)))
  | .otherwise .., _, _, reads => by cases reads

theorem Clause.ReadsFurther.drawn : ∀ (clauses : List Clause) {tokens : List Token},
    Clause.ReadsFurther strict clauses tokens → Drawn (Clause.scriptOfAll clauses) tokens
  | [], _, reads => by
    cases reads
    exact .done
  | .guarded word condition body span :: rest, _, reads => by
    cases reads with
    | cons clauseReads others =>
      exact (Clause.ReadsGuarded.drawn (.guarded word condition body span) clauseReads).append
        (Clause.ReadsFurther.drawn rest others)
  | .otherwise body span :: rest, _, reads => by
    cases reads with
    | otherwise kind bodyReads =>
      rw [Clause.scriptOfAll, Clause.scriptOfAll, Script.append_done]
      exact .mark kind rfl rfl (Statement.ReadsBody.drawn body bodyReads)
    | cons clauseReads => cases clauseReads

theorem Statement.Reads.drawn : ∀ (statement : Statement) {tokens : List Token},
    statement.Reads strict tokens → Drawn statement.script tokens
  | .assignment targets values _, _, reads => by
    have targetsDrawn := @Expression.ReadsAll.drawn targets
    cases reads with
    | assignment _ targetsRead mark valuesRead =>
      exact (targetsDrawn targetsRead).append
        (.mark mark rfl rfl (Expression.ReadsAll.drawn values valuesRead))
  | .breakLoop _, _, reads => by
    cases reads with
    | breakLoop kind => exact .mark kind rfl rfl .done
  | .call expression _, _, reads => by
    cases reads with
    | call _ reads => exact Expression.Reads.drawn expression (.inl reads)
  | .comment _, _, reads => by
    cases reads with
    | comment kind => exact .comment kind .done
  | .doBlock body _, _, reads => by
    cases reads with
    | doBlock opens bodyReads closes =>
      exact .mark opens rfl rfl ((Statement.ReadsBody.drawn body bodyReads).concat closes rfl rfl)
  | .genericFor _ iterators body _, _, reads => by
    cases reads with
    | genericFor opens namesRead word iteratorsRead header bodyReads closes =>
      have block := (Statement.ReadsBody.drawn body bodyReads).concat closes rfl rfl
      simp only [List.append_assoc, List.cons_append]
      exact .mark opens rfl rfl (namesRead.drawn.append (.mark word rfl rfl
        ((Expression.ReadsAll.drawn iterators iteratorsRead).append
          (.mark header rfl rfl block))))
  | .numericFor _ first last step body _, _, reads => by
    cases reads with
    | numericFor opens counterReads equal firstReads comma lastReads stepReads header bodyReads
        closes =>
      have block := (Statement.ReadsBody.drawn body bodyReads).concat closes rfl rfl
      simp only [List.append_assoc, List.cons_append]
      exact .mark opens rfl rfl (.name counterReads (.mark equal rfl rfl
        ((Expression.Reads.drawn first (.inl firstReads)).append (.comma comma
          ((Expression.Reads.drawn last (.inl lastReads)).append
            ((Expression.ReadsStep.drawn step stepReads).append
              (.mark header rfl rfl block)))))))
  | .function _ _ body _, _, reads => by
    cases reads with
    | function opens nameReads functionReads =>
      exact .mark opens rfl rfl
        (nameReads.drawn.append (functionReads.drawn (Statement.ReadsBody.drawn body)))
    | localFunction opens word nameReads functionReads =>
      exact .mark opens rfl rfl (.mark word rfl rfl
        (.name nameReads (functionReads.drawn (Statement.ReadsBody.drawn body))))
  | .goto _ _, _, reads => by
    cases reads with
    | goto opens targetReads => exact .mark opens rfl rfl (.name targetReads .done)
  | .ifElse [] _, _, reads => by cases reads
  | .ifElse (clause :: rest) _, _, reads => by
    cases reads with
    | ifElse clauseReads furtherRead closes =>
      exact .concat ((Clause.ReadsGuarded.drawn clause clauseReads).append
        (Clause.ReadsFurther.drawn rest furtherRead)) closes rfl rfl
  | .label _ _, _, reads => by
    cases reads with
    | label opens nameReads closes =>
      exact .mark opens rfl rfl (.name nameReads (.mark closes rfl rfl .done))
  | .localVariables _ values _, _, reads => by
    cases reads with
    | localNames opens namesRead =>
      rw [Statement.script, Expression.scriptOfAll, Script.append_done]
      exact .mark opens rfl rfl (Script.append_done _ ▸ namesRead.drawn)
    | localVariables opens namesRead mark valuesRead =>
      have given : values ≠ [] := valuesRead.areValues.1
      rw [Statement.script, if_neg (by rwa [List.isEmpty_iff])]
      exact .mark opens rfl rfl (namesRead.drawn.append
        (.mark mark rfl rfl (Expression.ReadsAll.drawn values valuesRead)))
  | .repeatUntil body condition _, _, reads => by
    cases reads with
    | repeatUntil opens bodyReads word conditionReads =>
      exact .mark opens rfl rfl ((Statement.ReadsBody.drawn body bodyReads).append
        (.mark word rfl rfl (Expression.Reads.drawn condition (.inl conditionReads))))
  | .returnValues values _, _, reads => by
    cases reads with
    | returnValues opens valuesRead ends =>
      have valuesDrawn := valuesRead.drawn (Expression.ReadsAll.drawn values)
      rcases ends with rfl | ⟨-, mark, kind, rfl⟩
      · rw [List.append_nil]
        exact .mark opens rfl rfl valuesDrawn
      · rw [Statement.script, ← Script.append_done (Expression.scriptOfAll values)]
        exact .mark opens rfl rfl (valuesDrawn.append (.separator (.inr kind) .done))
  | .whileLoop condition body _, _, reads => by
    cases reads with
    | whileLoop opens conditionReads header bodyReads closes =>
      have block := (Statement.ReadsBody.drawn body bodyReads).concat closes rfl rfl
      rw [List.append_assoc]
      exact .mark opens rfl rfl ((Expression.Reads.drawn condition (.inl conditionReads)).append
        (.mark header rfl rfl block))

theorem Statement.ReadsBody.drawn : ∀ (body : List Statement) {tokens : List Token},
    Statement.ReadsBody strict body tokens → Drawn (Statement.scriptOfAll body) tokens
  | [], tokens, reads => by
    rw [← List.append_nil tokens]
    exact Drawn.done.semicolons reads.eq_semicolons
  | statement :: rest, _, reads => by
    obtain ⟨marks, segment, more, rfl, semicolons, first, -, -, others⟩ := reads.uncons
    have drawn := (Statement.Reads.drawn statement first).append
      (Statement.ReadsBody.drawn rest others)
    rw [List.append_assoc]
    exact drawn.semicolons semicolons

end

end

end LuaStyle
