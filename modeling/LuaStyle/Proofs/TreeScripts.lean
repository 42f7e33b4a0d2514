/-
This file writes trees as scripts.

The script of a tree says nothing about how the tree is built beyond the limits of its expressions,
so a tree without its groups has the script of the tree without the groups, and the parts of a
script are the expressions among the nodes, in the same order. What is asked of a node about its
immediate operands can therefore be asked of a part.
-/

import LuaStyle.Proofs.Script

namespace LuaStyle

/-! ### Scripts of leaves -/

namespace Script

/-- The reserved word or symbol, and the script behind it. -/
abbrev mark (kind : Token.Kind) (rest : Script) : Script :=
  word kind.word rest

/-- The words in a row. -/
def ofWords (words : List Token.Word) : Script :=
  words.foldr word done

/-- There are no expressions among plain words. -/
theorem parts_ofWords (words : List Token.Word) : (ofWords words).parts = [] := by
  induction words with
  | nil => rfl
  | cons only rest inductionHypothesis => exact inductionHypothesis

theorem mapGroups_ofWords (change : List Span → List Span) (words : List Token.Word) :
    (ofWords words).mapGroups change = ofWords words := by
  induction words with
  | nil => rfl
  | cons only rest inductionHypothesis => exact congrArg (word only) inductionHypothesis

end Script

/-- The word of a name. -/
def Name.word (name : Name) : Token.Word :=
  ⟨.name, name.text⟩

/-- The script of names with commas between them. -/
def Name.script (names : List Name) : Script :=
  .ofWords (names.map Name.word)

/-- The script of a function's name. -/
def FunctionName.script (name : FunctionName) : Script :=
  .ofWords ((name.path.map Name.word).intersperse (Token.Kind.word (.symbol .dot)) ++
    (name.method.map fun method => [Token.Kind.word (.symbol .colon), method.word]).getD [])

/-- The script of what stands in front of the parameters of a function. -/
def FunctionHead.script (head : FunctionHead) : Script :=
  .ofWords (if head.isLocal then [Token.Kind.word (.keyword .localWord)] else []) ++
    .mark (.keyword .functionWord) ((head.name.map FunctionName.script).getD .done)

/-- The word of a parameter. -/
def Parameter.word : Parameter → Token.Word
  | name identifier => identifier.word
  | vararg _ => Token.Kind.word (.symbol .dotDotDot)

/-- The script of parameters with their parentheses. -/
def Parameter.script (parameters : List Parameter) : Script :=
  .enclosed (.ofWords (parameters.map Parameter.word)) .done

/-- The symbol of a selector. -/
def Selector.token : Selector → Token.Kind
  | dot => .symbol .dot
  | colon => .symbol .colon

/-! ### Scripts of trees -/

mutual

/-- The script of an expression. -/
def Expression.script : Expression → Script
  | .binary operator left right _ =>
    .expression [] (.binary operator) (left.script ++ .mark operator.token right.script) .done
  | .unary operator argument _ =>
    .expression [] .unary (.mark operator.token argument.script) .done
  | .call base arguments _ =>
    .expression [] .base (base.script ++ .enclosed (Expression.scriptOfAll arguments) .done) .done
  | .stringCall base argument _ =>
    .expression [] .base (base.script ++ .word argument.word .done) .done
  | .tableCall base fields _ _ =>
    .expression [] .base (base.script ++ .mark (.symbol .leftCurly)
      (Field.scriptOfAll fields ++ .mark (.symbol .rightCurly) .done)) .done
  | .function head parameters body _ =>
    .expression [] .other (head.script ++ (Parameter.script parameters ++
      (Statement.scriptOfAll body ++ .mark (.keyword .endWord) .done))) .done
  | .group inner span => inner.script.grouped span
  | .name identifier => .expression [] .base (.word identifier.word .done) .done
  | .index base key _ =>
    .expression [] .base (base.script ++ .mark (.symbol .leftSquare)
      (key.script ++ .mark (.symbol .rightSquare) .done)) .done
  | .member base selector name _ =>
    .expression [] .base (base.script ++ .mark selector.token (.word name.word .done)) .done
  | .literal constant =>
    .expression [] (Expression.form (.literal constant)) (.word constant.word .done) .done
  | .table fields _ =>
    .expression [] .bareArgument (.mark (.symbol .leftCurly)
      (Field.scriptOfAll fields ++ .mark (.symbol .rightCurly) .done)) .done

/-- The script of expressions. -/
def Expression.scriptOfAll : List Expression → Script
  | [] => .done
  | expression :: rest => expression.script ++ Expression.scriptOfAll rest

/-- The script of the step of a loop. -/
def Expression.scriptOfOptional : Option Expression → Script
  | none => .done
  | some expression => expression.script

/-- The script of a field. -/
def Field.script : Field → Script
  | .keyed key value _ =>
    .mark (.symbol .leftSquare) (key.script ++ .mark (.symbol .rightSquare)
      (.mark (.symbol .equal) value.script))
  | .named name value _ => .word name.word (.mark (.symbol .equal) value.script)
  | .positional value => value.script
  | .comment _ => .done

/-- The script of fields. -/
def Field.scriptOfAll : List Field → Script
  | [] => .done
  | field :: rest => field.script ++ Field.scriptOfAll rest

/-- The script of a clause. -/
def Clause.script : Clause → Script
  | .guarded word condition body _ =>
    .mark (.keyword word.keyword) (condition.script ++ .mark (.keyword .thenWord)
      (Statement.scriptOfAll body))
  | .otherwise body _ => .mark (.keyword .elseWord) (Statement.scriptOfAll body)

/-- The script of clauses. -/
def Clause.scriptOfAll : List Clause → Script
  | [] => .done
  | clause :: rest => clause.script ++ Clause.scriptOfAll rest

/-- The script of a statement. -/
def Statement.script : Statement → Script
  | .assignment targets values _ =>
    Expression.scriptOfAll targets ++ .mark (.symbol .equal) (Expression.scriptOfAll values)
  | .breakLoop _ => .mark (.keyword .breakWord) .done
  | .call expression _ => expression.script
  | .comment _ => .done
  | .doBlock body _ =>
    .mark (.keyword .doWord) (Statement.scriptOfAll body ++ .mark (.keyword .endWord) .done)
  | .genericFor declared iterators body _ =>
    .mark (.keyword .forWord) (Name.script declared ++ .mark (.keyword .inWord)
      (Expression.scriptOfAll iterators ++ .mark (.keyword .doWord)
        (Statement.scriptOfAll body ++ .mark (.keyword .endWord) .done)))
  | .numericFor counter first last step body _ =>
    .mark (.keyword .forWord) (.word counter.word (.mark (.symbol .equal)
      (first.script ++ (last.script ++ (Expression.scriptOfOptional step ++
        .mark (.keyword .doWord)
          (Statement.scriptOfAll body ++ .mark (.keyword .endWord) .done))))))
  | .function head parameters body _ =>
    head.script ++ (Parameter.script parameters ++ (Statement.scriptOfAll body ++
      .mark (.keyword .endWord) .done))
  | .goto target _ => .mark (.keyword .gotoWord) (.word target.word .done)
  | .ifElse clauses _ => Clause.scriptOfAll clauses ++ .mark (.keyword .endWord) .done
  | .label name _ =>
    .mark (.symbol .colonColon) (.word name.word (.mark (.symbol .colonColon) .done))
  | .localVariables declared values _ =>
    .mark (.keyword .localWord) (Name.script declared ++
      (.ofWords (if values.isEmpty then [] else [Token.Kind.word (.symbol .equal)]) ++
        Expression.scriptOfAll values))
  | .repeatUntil body condition _ =>
    .mark (.keyword .repeatWord) (Statement.scriptOfAll body ++ .mark (.keyword .untilWord)
      condition.script)
  | .returnValues values _ => .mark (.keyword .returnWord) (Expression.scriptOfAll values)
  | .whileLoop condition body _ =>
    .mark (.keyword .whileWord) (condition.script ++ .mark (.keyword .doWord)
      (Statement.scriptOfAll body ++ .mark (.keyword .endWord) .done))

/-- The script of a block. -/
def Statement.scriptOfAll : List Statement → Script
  | [] => .done
  | statement :: rest => statement.script ++ Statement.scriptOfAll rest

end

/-- The script of an expression is one expression. -/
theorem Expression.script_eq : ∀ expression : Expression,
    ∃ groups form inside, expression.script = .expression groups form inside .done
  | .group inner span => by
    obtain ⟨groups, form, inside, same⟩ := inner.script_eq
    exact ⟨span :: groups, form, inside, by rw [Expression.script, same]; rfl⟩
  | .binary .. | .unary .. | .call .. | .stringCall .. | .tableCall .. | .function .. | .name _
  | .index .. | .member .. | .literal _ | .table .. => ⟨_, _, _, rfl⟩

/-! ### Trees without groups -/

mutual

/-- The expression without its groups and without spans. -/
def Expression.ungrouped : Expression → Expression
  | .binary operator left right _ => .binary operator left.ungrouped right.ungrouped default
  | .unary operator argument _ => .unary operator argument.ungrouped default
  | .call base arguments _ => .call base.ungrouped (Expression.ungroupedAll arguments) default
  | .stringCall base argument _ => .stringCall base.ungrouped (argument.recast .bare) default
  | .tableCall base fields _ _ =>
    .tableCall base.ungrouped (Field.ungroupedAll fields) default default
  | .function head parameters body _ =>
    .function (head.recast .bare) (parameters.map (Parameter.recast .bare))
      (Statement.ungroupedAll body) default
  | .group inner _ => inner.ungrouped
  | .name identifier => .name (identifier.recast .bare)
  | .index base key _ => .index base.ungrouped key.ungrouped default
  | .member base selector name _ => .member base.ungrouped selector (name.recast .bare) default
  | .literal constant => .literal (constant.recast .bare)
  | .table fields _ => .table (Field.ungroupedAll fields) default

/-- The expressions without their groups and without spans. -/
def Expression.ungroupedAll : List Expression → List Expression
  | [] => []
  | expression :: rest => expression.ungrouped :: Expression.ungroupedAll rest

/-- The expression that may be left out, without its groups and without spans. -/
def Expression.ungroupedOptional : Option Expression → Option Expression
  | none => none
  | some expression => some expression.ungrouped

/-- The field without its groups and without spans. -/
def Field.ungrouped : Field → Field
  | .keyed key value _ => .keyed key.ungrouped value.ungrouped default
  | .named name value _ => .named (name.recast .bare) value.ungrouped default
  | .positional value => .positional value.ungrouped
  | .comment remark => .comment ⟨remark.text, remark.raw, remark.style, default⟩

/-- The fields without their groups and without spans. -/
def Field.ungroupedAll : List Field → List Field
  | [] => []
  | field :: rest => field.ungrouped :: Field.ungroupedAll rest

/-- The clause without its groups and without spans. -/
def Clause.ungrouped : Clause → Clause
  | .guarded word condition body _ =>
    .guarded word condition.ungrouped (Statement.ungroupedAll body) default
  | .otherwise body _ => .otherwise (Statement.ungroupedAll body) default

/-- The clauses without their groups and without spans. -/
def Clause.ungroupedAll : List Clause → List Clause
  | [] => []
  | clause :: rest => clause.ungrouped :: Clause.ungroupedAll rest

/-- The statement without its groups and without spans. -/
def Statement.ungrouped : Statement → Statement
  | .assignment targets values _ =>
    .assignment (Expression.ungroupedAll targets) (Expression.ungroupedAll values) default
  | .breakLoop _ => .breakLoop default
  | .call expression _ => .call expression.ungrouped default
  | .comment remark => .comment ⟨remark.text, remark.raw, remark.style, default⟩
  | .doBlock body _ => .doBlock (Statement.ungroupedAll body) default
  | .genericFor declared iterators body _ =>
    .genericFor (declared.map (Name.recast .bare)) (Expression.ungroupedAll iterators)
      (Statement.ungroupedAll body) default
  | .numericFor counter first last step body _ =>
    .numericFor (counter.recast .bare) first.ungrouped last.ungrouped
      (Expression.ungroupedOptional step) (Statement.ungroupedAll body) default
  | .function head parameters body _ =>
    .function (head.recast .bare) (parameters.map (Parameter.recast .bare))
      (Statement.ungroupedAll body) default
  | .goto target _ => .goto (target.recast .bare) default
  | .ifElse clauses _ => .ifElse (Clause.ungroupedAll clauses) default
  | .label name _ => .label (name.recast .bare) default
  | .localVariables declared values _ =>
    .localVariables (declared.map (Name.recast .bare)) (Expression.ungroupedAll values) default
  | .repeatUntil body condition _ =>
    .repeatUntil (Statement.ungroupedAll body) condition.ungrouped default
  | .returnValues values _ => .returnValues (Expression.ungroupedAll values) default
  | .whileLoop condition body _ =>
    .whileLoop condition.ungrouped (Statement.ungroupedAll body) default

/-- The statements without their groups and without spans. -/
def Statement.ungroupedAll : List Statement → List Statement
  | [] => []
  | statement :: rest => statement.ungrouped :: Statement.ungroupedAll rest

end

theorem Name.mapGroups_script (change : List Span → List Span) (names : List Name) :
    (Name.script names).mapGroups change = Name.script names :=
  Script.mapGroups_ofWords change _

theorem FunctionName.mapGroups_script (change : List Span → List Span) (name : FunctionName) :
    name.script.mapGroups change = name.script :=
  Script.mapGroups_ofWords change _

/-- The head of a function has no groups. -/
theorem FunctionHead.mapGroups_script (change : List Span → List Span) (head : FunctionHead) :
    head.script.mapGroups change = head.script := by
  obtain ⟨_ | name, _ | _⟩ := head
  · rfl
  · rfl
  · exact congrArg (Script.mark _) (name.mapGroups_script change)
  · exact congrArg (fun name => Script.mark _ (.mark _ name)) (name.mapGroups_script change)

theorem Parameter.mapGroups_script (change : List Span → List Span) (parameters : List Parameter) :
    (Parameter.script parameters).mapGroups change = Parameter.script parameters :=
  congrArg (Script.enclosed · .done) (Script.mapGroups_ofWords change _)

theorem Name.script_map_recast (names : List Name) :
    Name.script (names.map (Name.recast .bare)) = Name.script names := by
  rw [Name.script, List.map_map]
  rfl

theorem FunctionName.script_recast (name : FunctionName) :
    (name.recast .bare).script = name.script := by
  obtain ⟨path, method, span⟩ := name
  rw [FunctionName.script, FunctionName.recast, List.map_map, Option.map_map]
  rfl

/-- The script of the head of a function knows no spans. -/
theorem FunctionHead.script_recast (head : FunctionHead) :
    (head.recast .bare).script = head.script := by
  obtain ⟨_ | name, isLocal⟩ := head
  · rfl
  · rw [FunctionHead.script, FunctionHead.script, FunctionHead.recast, Option.map_some,
      Option.map_some, Option.map_some, name.script_recast]

/-- The script of parameters knows no spans. -/
theorem Parameter.script_map_recast (parameters : List Parameter) :
    Parameter.script (parameters.map (Parameter.recast .bare)) = Parameter.script parameters := by
  have words : (parameters.map (Parameter.recast .bare)).map Parameter.word =
      parameters.map Parameter.word := by
    rw [List.map_map]
    refine List.map_congr_left fun parameter _ => ?_
    cases parameter <;> rfl
  rw [Parameter.script, words]
  rfl

theorem Literal.word_recast (constant : Literal) :
    (constant.recast .bare).word = constant.word := rfl

theorem Literal.form_recast (constant : Literal) :
    (Expression.literal (constant.recast .bare)).form = (Expression.literal constant).form :=
  Expression.form_recast .bare (.literal constant)

theorem Expression.isEmpty_ungroupedAll (expressions : List Expression) :
    (Expression.ungroupedAll expressions).isEmpty = expressions.isEmpty := by
  cases expressions <;> rfl

mutual

/-- Without its groups, a tree has the script of the tree without the groups. -/
theorem Expression.ungrouped_script : ∀ expression : Expression,
    expression.script.ungrouped = expression.ungrouped.script
  | .binary operator left right _ => by
    simp [Expression.script, Expression.ungrouped, left.ungrouped_script, right.ungrouped_script]
  | .unary operator argument _ => by
    simp [Expression.script, Expression.ungrouped, argument.ungrouped_script]
  | .call base arguments _ => by
    simp [Expression.script, Expression.ungrouped, base.ungrouped_script,
      Expression.ungrouped_scriptOfAll arguments]
  | .stringCall base argument _ => by
    simp [Expression.script, Expression.ungrouped, base.ungrouped_script, argument.word_recast]
  | .tableCall base fields _ _ => by
    simp [Expression.script, Expression.ungrouped, base.ungrouped_script,
      Field.ungrouped_scriptOfAll fields]
  | .function head parameters body _ => by
    simp [Expression.script, Expression.ungrouped, head.script_recast, head.mapGroups_script,
      Parameter.script_map_recast parameters, Parameter.mapGroups_script,
      Statement.ungrouped_scriptOfAll body]
  | .group inner _ => by
    simp [Expression.script, Expression.ungrouped, inner.ungrouped_script]
  | .name identifier => rfl
  | .index base key _ => by
    simp [Expression.script, Expression.ungrouped, base.ungrouped_script, key.ungrouped_script]
  | .member base _ name _ => by
    simp [Expression.script, Expression.ungrouped, base.ungrouped_script, Name.word, Name.recast]
  | .literal constant => by
    simp [Expression.script, Expression.ungrouped, constant.word_recast, constant.form_recast]
  | .table fields _ => by
    simp [Expression.script, Expression.ungrouped, Field.ungrouped_scriptOfAll fields]

/-- Without its groups, a list of expressions has the script of the list without them. -/
theorem Expression.ungrouped_scriptOfAll : ∀ expressions : List Expression,
    (Expression.scriptOfAll expressions).ungrouped =
      Expression.scriptOfAll (Expression.ungroupedAll expressions)
  | [] => rfl
  | expression :: rest => by
    simp [Expression.scriptOfAll, Expression.ungroupedAll, expression.ungrouped_script,
      Expression.ungrouped_scriptOfAll rest]

theorem Expression.ungrouped_scriptOfOptional : ∀ optional : Option Expression,
    (Expression.scriptOfOptional optional).ungrouped =
      Expression.scriptOfOptional (Expression.ungroupedOptional optional)
  | none => rfl
  | some expression => expression.ungrouped_script

theorem Field.ungrouped_script : ∀ field : Field,
    field.script.ungrouped = field.ungrouped.script
  | .keyed key value _ => by
    simp [Field.script, Field.ungrouped, key.ungrouped_script, value.ungrouped_script]
  | .named name value _ => by
    simp [Field.script, Field.ungrouped, value.ungrouped_script, Name.word, Name.recast]
  | .positional value => value.ungrouped_script
  | .comment _ => rfl

theorem Field.ungrouped_scriptOfAll : ∀ fields : List Field,
    (Field.scriptOfAll fields).ungrouped = Field.scriptOfAll (Field.ungroupedAll fields)
  | [] => rfl
  | field :: rest => by
    simp [Field.scriptOfAll, Field.ungroupedAll, field.ungrouped_script,
      Field.ungrouped_scriptOfAll rest]

theorem Clause.ungrouped_script : ∀ clause : Clause,
    clause.script.ungrouped = clause.ungrouped.script
  | .guarded _ condition body _ => by
    simp [Clause.script, Clause.ungrouped, condition.ungrouped_script,
      Statement.ungrouped_scriptOfAll body]
  | .otherwise body _ => by
    simp [Clause.script, Clause.ungrouped, Statement.ungrouped_scriptOfAll body]

theorem Clause.ungrouped_scriptOfAll : ∀ clauses : List Clause,
    (Clause.scriptOfAll clauses).ungrouped = Clause.scriptOfAll (Clause.ungroupedAll clauses)
  | [] => rfl
  | clause :: rest => by
    simp [Clause.scriptOfAll, Clause.ungroupedAll, clause.ungrouped_script,
      Clause.ungrouped_scriptOfAll rest]

theorem Statement.ungrouped_script : ∀ statement : Statement,
    statement.script.ungrouped = statement.ungrouped.script
  | .assignment targets values _ => by
    simp [Statement.script, Statement.ungrouped, Expression.ungrouped_scriptOfAll targets,
      Expression.ungrouped_scriptOfAll values]
  | .breakLoop _ | .comment _ | .goto _ _ | .label _ _ => rfl
  | .call expression _ => expression.ungrouped_script
  | .doBlock body _ => by
    simp [Statement.script, Statement.ungrouped, Statement.ungrouped_scriptOfAll body]
  | .genericFor declared iterators body _ => by
    simp [Statement.script, Statement.ungrouped, Name.script_map_recast declared,
      Name.mapGroups_script, Expression.ungrouped_scriptOfAll iterators,
      Statement.ungrouped_scriptOfAll body]
  | .numericFor counter first last step body _ => by
    simp [Statement.script, Statement.ungrouped, first.ungrouped_script, last.ungrouped_script,
      Expression.ungrouped_scriptOfOptional step, Statement.ungrouped_scriptOfAll body, Name.word,
      Name.recast]
  | .function head parameters body _ => by
    simp [Statement.script, Statement.ungrouped, head.script_recast, head.mapGroups_script,
      Parameter.script_map_recast parameters, Parameter.mapGroups_script,
      Statement.ungrouped_scriptOfAll body]
  | .ifElse clauses _ => by
    simp [Statement.script, Statement.ungrouped, Clause.ungrouped_scriptOfAll clauses]
  | .localVariables declared values _ => by
    simp [Statement.script, Statement.ungrouped, Name.script_map_recast declared,
      Name.mapGroups_script, Script.mapGroups_ofWords, Expression.isEmpty_ungroupedAll values,
      Expression.ungrouped_scriptOfAll values]
  | .repeatUntil body condition _ => by
    simp [Statement.script, Statement.ungrouped, Statement.ungrouped_scriptOfAll body,
      condition.ungrouped_script]
  | .returnValues values _ => by
    simp [Statement.script, Statement.ungrouped, Expression.ungrouped_scriptOfAll values]
  | .whileLoop condition body _ => by
    simp [Statement.script, Statement.ungrouped, condition.ungrouped_script,
      Statement.ungrouped_scriptOfAll body]

/-- Without its groups, a block has the script of the block without them. -/
theorem Statement.ungrouped_scriptOfAll : ∀ body : List Statement,
    (Statement.scriptOfAll body).ungrouped = Statement.scriptOfAll (Statement.ungroupedAll body)
  | [] => rfl
  | statement :: rest => by
    simp [Statement.scriptOfAll, Statement.ungroupedAll, statement.ungrouped_script,
      Statement.ungrouped_scriptOfAll rest]

end

/-! ### Parts -/

/-- What is in the expression that the script starts with. -/
def Script.inside : Script → Script
  | expression _ _ inside _ => inside
  | _ => done

/-- The part that a node is in the script of its tree. A group is part of what is around the
expression in it. -/
def Node.part? : Node → Option (Expression.Form × Script)
  | .expression (.group ..) => none
  | .expression value => some (value.form, value.script.inside)
  | _ => none

namespace Node

variable (rest : List Node)

/-- A group is no part of its own. -/
@[simp] theorem filterMap_part?_group (inner : Expression) (span : Span) :
    (Node.expression (.group inner span) :: rest).filterMap part? = rest.filterMap part? := rfl

@[simp] theorem filterMap_part?_field (entry : Field) :
    (Node.field entry :: rest).filterMap part? = rest.filterMap part? := rfl

@[simp] theorem filterMap_part?_clause (branch : Clause) :
    (Node.clause branch :: rest).filterMap part? = rest.filterMap part? := rfl

@[simp] theorem filterMap_part?_statement (step : Statement) :
    (Node.statement step :: rest).filterMap part? = rest.filterMap part? := rfl

end Node

/-- There are no expressions in the head of a function. -/
theorem FunctionHead.parts_script (head : FunctionHead) : head.script.parts = [] := by
  obtain ⟨name, isLocal⟩ := head
  cases name <;> cases isLocal <;>
    simp [FunctionHead.script, FunctionName.script, Script.parts_ofWords]

mutual

/-- The parts of the script of a tree are the expressions among its nodes. -/
theorem Expression.parts_script : ∀ expression : Expression,
    expression.script.parts = expression.nodes.filterMap Node.part?
  | .binary operator left right _ => by
    simp [Expression.script, Expression.nodes, Node.part?, Script.inside, Expression.form,
      left.parts_script, right.parts_script]
  | .unary operator argument _ => by
    simp [Expression.script, Expression.nodes, Node.part?, Script.inside, Expression.form,
      argument.parts_script]
  | .call base arguments _ => by
    simp [Expression.script, Expression.nodes, Node.part?, Script.inside, Expression.form,
      base.parts_script, Expression.parts_scriptOfAll arguments]
  | .stringCall base argument _ => by
    simp [Expression.script, Expression.nodes, Node.part?, Script.inside, Expression.form,
      base.parts_script]
  | .tableCall base fields _ _ => by
    simp [Expression.script, Expression.nodes, Node.part?, Script.inside, Expression.form,
      base.parts_script, Field.parts_scriptOfAll fields]
  | .function head parameters body _ => by
    simp [Expression.script, Expression.nodes, Node.part?, Script.inside, Expression.form,
      head.parts_script, Parameter.script, Script.parts_ofWords, Statement.parts_scriptOfAll body]
  | .group inner _ => by
    simp [Expression.script, Expression.nodes, inner.parts_script]
  | .name identifier => by
    simp [Expression.script, Expression.nodes, Node.part?, Script.inside, Expression.form]
  | .index base key _ => by
    simp [Expression.script, Expression.nodes, Node.part?, Script.inside, Expression.form,
      base.parts_script, key.parts_script]
  | .member base _ name _ => by
    simp [Expression.script, Expression.nodes, Node.part?, Script.inside, Expression.form,
      base.parts_script]
  | .literal constant => by
    simp [Expression.script, Expression.nodes, Node.part?, Script.inside]
  | .table fields _ => by
    simp [Expression.script, Expression.nodes, Node.part?, Script.inside, Expression.form,
      Field.parts_scriptOfAll fields]

/-- The parts of the script of a list are the expressions among its nodes. -/
theorem Expression.parts_scriptOfAll : ∀ expressions : List Expression,
    (Expression.scriptOfAll expressions).parts =
      (Expression.nodesOfAll expressions).filterMap Node.part?
  | [] => rfl
  | expression :: rest => by
    simp [Expression.scriptOfAll, Expression.nodesOfAll, expression.parts_script,
      Expression.parts_scriptOfAll rest]

theorem Expression.parts_scriptOfOptional : ∀ optional : Option Expression,
    (Expression.scriptOfOptional optional).parts =
      (Expression.nodesOfOptional optional).filterMap Node.part?
  | none => rfl
  | some expression => expression.parts_script

theorem Field.parts_script : ∀ field : Field,
    field.script.parts = field.nodes.filterMap Node.part?
  | .keyed key value _ => by
    simp [Field.script, Field.nodes, key.parts_script, value.parts_script]
  | .named name value _ => by
    simp [Field.script, Field.nodes, value.parts_script]
  | .positional value => by
    simp [Field.script, Field.nodes, value.parts_script]
  | .comment _ => by simp [Field.script, Field.nodes]

theorem Field.parts_scriptOfAll : ∀ fields : List Field,
    (Field.scriptOfAll fields).parts = (Field.nodesOfAll fields).filterMap Node.part?
  | [] => rfl
  | field :: rest => by
    simp [Field.scriptOfAll, Field.nodesOfAll, field.parts_script, Field.parts_scriptOfAll rest]

theorem Clause.parts_script : ∀ clause : Clause,
    clause.script.parts = clause.nodes.filterMap Node.part?
  | .guarded _ condition body _ => by
    simp [Clause.script, Clause.nodes, condition.parts_script,
      Statement.parts_scriptOfAll body]
  | .otherwise body _ => by
    simp [Clause.script, Clause.nodes, Statement.parts_scriptOfAll body]

theorem Clause.parts_scriptOfAll : ∀ clauses : List Clause,
    (Clause.scriptOfAll clauses).parts = (Clause.nodesOfAll clauses).filterMap Node.part?
  | [] => rfl
  | clause :: rest => by
    simp [Clause.scriptOfAll, Clause.nodesOfAll, clause.parts_script, Clause.parts_scriptOfAll rest]

theorem Statement.parts_script : ∀ statement : Statement,
    statement.script.parts = statement.nodes.filterMap Node.part?
  | .assignment targets values _ => by
    simp [Statement.script, Statement.nodes, Expression.parts_scriptOfAll targets,
      Expression.parts_scriptOfAll values]
  | .breakLoop _ | .comment _ | .goto _ _ | .label _ _ => by
    simp [Statement.script, Statement.nodes]
  | .call expression _ => by
    simp [Statement.script, Statement.nodes, expression.parts_script]
  | .doBlock body _ => by
    simp [Statement.script, Statement.nodes, Statement.parts_scriptOfAll body]
  | .genericFor declared iterators body _ => by
    simp [Statement.script, Statement.nodes, Name.script, Script.parts_ofWords,
      Expression.parts_scriptOfAll iterators, Statement.parts_scriptOfAll body]
  | .numericFor _ first last step body _ => by
    simp [Statement.script, Statement.nodes, first.parts_script, last.parts_script,
      Expression.parts_scriptOfOptional step, Statement.parts_scriptOfAll body]
  | .function head parameters body _ => by
    simp [Statement.script, Statement.nodes, head.parts_script, Parameter.script,
      Script.parts_ofWords, Statement.parts_scriptOfAll body]
  | .ifElse clauses _ => by
    simp [Statement.script, Statement.nodes, Clause.parts_scriptOfAll clauses]
  | .localVariables declared values _ => by
    simp [Statement.script, Statement.nodes, Name.script, Script.parts_ofWords,
      Expression.parts_scriptOfAll values]
  | .repeatUntil body condition _ => by
    simp [Statement.script, Statement.nodes, Statement.parts_scriptOfAll body,
      condition.parts_script]
  | .returnValues values _ => by
    simp [Statement.script, Statement.nodes, Expression.parts_scriptOfAll values]
  | .whileLoop condition body _ => by
    simp [Statement.script, Statement.nodes, condition.parts_script,
      Statement.parts_scriptOfAll body]

/-- The parts of the script of a block are the expressions among its nodes. -/
theorem Statement.parts_scriptOfAll : ∀ body : List Statement,
    (Statement.scriptOfAll body).parts = (Statement.nodesOfAll body).filterMap Node.part?
  | [] => rfl
  | statement :: rest => by
    simp [Statement.scriptOfAll, Statement.nodesOfAll, statement.parts_script,
      Statement.parts_scriptOfAll rest]

end

end LuaStyle
