/-
This file proves that the layout of a program does not depend on how it was spelled.

The canonical form of a tree forgets its spans and its parentheses, save for one pair around an
expression that may have any number of values. A call whose only argument is a string or a table
takes one of the two short forms, a string is its bytes, and a number in decimal digits its value.
All other literals are their raw texts, and what they stand for is read from these again.

A tree is laid out as its canonical form, so trees that have the same one have the same layout. The
parser is asked for one thing only: that it read a literal as what its text stands for.
-/

import LuaStyle.Proofs.Idempotence

namespace LuaStyle

/-! ### Canonical literals -/

namespace Literal

/-- What the text of a literal other than a string stands for. -/
def valueOf (raw : List Char) : LiteralValue :=
  if raw = Token.Keyword.nilWord.text then .nil
  else if raw = Token.Keyword.trueWord.text then .boolean true
  else if raw = Token.Keyword.falseWord.text then .boolean false
  else if raw = Token.Symbol.dotDotDot.text then .vararg
  else ((Numeral.valueOf? raw).map LiteralValue.number).getD .nil

/-- The literal that is told by its raw text alone. -/
def ofRaw (raw : List Char) : Literal :=
  ⟨valueOf raw, raw, default⟩

/-- The literal without its spelling: a string is its bytes, a finite number in decimal digits is
its value, and every other literal is its raw text. -/
def canonical (constant : Literal) : Literal :=
  match constant.value with
  | .string bytes => ⟨.string bytes, [], default⟩
  | .number value =>
    if value.isFinite && !Token.startsHexadecimal constant.raw then ⟨.number value, [], default⟩
    else ofRaw constant.raw
  | _ => ofRaw constant.raw

theorem valueOf_of_isNumber {raw : List Char} {value : Double} (isNumber : Token.IsNumber raw)
    (named : Numeral.valueOf? raw = some value) : valueOf raw = .number value := by
  obtain ⟨c, rest, rfl, starts, -⟩ := isNumber
  have noNil : c :: rest ≠ Token.Keyword.nilWord.text := by
    rintro ⟨⟩
    cases starts
  have noTrue : c :: rest ≠ Token.Keyword.trueWord.text := by
    rintro ⟨⟩
    cases starts
  have noFalse : c :: rest ≠ Token.Keyword.falseWord.text := by
    rintro ⟨⟩
    cases starts
  have noVararg : c :: rest ≠ Token.Symbol.dotDotDot.text := by
    rintro ⟨⟩
    cases starts
  rw [valueOf, if_neg noNil, if_neg noTrue, if_neg noFalse, if_neg noVararg, named]
  rfl

/-- A grammatical literal other than a string stands for what its text says. -/
theorem valueOf_raw {constant : Literal} (grammatical : constant.IsGrammatical)
    (noString : constant.isString = false) : valueOf constant.raw = constant.value := by
  obtain ⟨value, raw, span⟩ := constant
  cases value with
  | nil =>
    obtain rfl : raw = _ := grammatical
    rfl
  | boolean value =>
    cases value with
    | true =>
      obtain rfl : raw = _ := grammatical
      rfl
    | false =>
      obtain rfl : raw = _ := grammatical
      rfl
  | number value => exact valueOf_of_isNumber grammatical.1 grammatical.2
  | string bytes => cases noString
  | vararg =>
    obtain rfl : raw = _ := grammatical
    rfl

/-- A grammatical literal stands for the same in its canonical form. -/
theorem value_canonical {constant : Literal} (grammatical : constant.IsGrammatical) :
    constant.canonical.value = constant.value := by
  unfold canonical
  split
  next bytes isString => exact isString.symm
  next value isNumber =>
    split
    · exact isNumber.symm
    · exact valueOf_raw grammatical (by rw [isString, isNumber])
  next noString _ =>
    refine valueOf_raw grammatical ?_
    unfold isString
    split
    next bytes same => exact absurd same (noString bytes)
    · rfl

theorem doc_congr {first second : Literal} (value : first.value = second.value)
    (raw : first.raw = second.raw) (config : Config) : first.doc config = second.doc config := by
  rw [doc, doc, value, raw]

/-- A finite number in decimal digits is laid out as its value. -/
theorem toOption_numberDoc_decimal {raw : List Char} {value : Double} (finite : value.isFinite)
    (decimal : Token.startsHexadecimal raw = false) :
    (numberDoc [] value).toOption = (numberDoc raw value).toOption := by
  have text : normalNumber [] value = normalNumber raw value := by
    have empty : normalHexadecimal? [] = none := rfl
    rw [normalNumber, normalNumber, normalHexadecimal?_eq_none decimal, empty]
    dsimp only
    rw [if_pos finite, if_pos finite]
  rw [numberDoc, numberDoc, text]
  split <;> rfl

/-- A grammatical literal is laid out as its canonical form. -/
theorem toOption_doc_canonical {constant : Literal} (grammatical : constant.IsGrammatical)
    (config : Config) :
    (constant.canonical.doc config).toOption = (constant.doc config).toOption := by
  have told (raw : constant.canonical.raw = constant.raw) :
      (constant.canonical.doc config).toOption = (constant.doc config).toOption :=
    congrArg _ (doc_congr (value_canonical grammatical) raw config)
  obtain ⟨value, raw, span⟩ := constant
  cases value with
  | string bytes => rfl
  | number value =>
    cases byValue : value.isFinite && !Token.startsHexadecimal raw with
    | true =>
      obtain ⟨finite, decimal⟩ := Bool.and_eq_true_iff.1 byValue
      have canonical : canonical ⟨.number value, raw, span⟩ = ⟨.number value, [], default⟩ :=
        if_pos byValue
      rw [canonical]
      exact toOption_numberDoc_decimal finite (Bool.not_eq_true' _ ▸ decimal)
    | false =>
      refine told ?_
      have canonical : canonical ⟨.number value, raw, span⟩ = ofRaw raw :=
        if_neg (Bool.eq_false_iff.1 byValue)
      rw [canonical]
      rfl
  | nil => exact told rfl
  | boolean value => exact told rfl
  | vararg => exact told rfl

end Literal

/-! ### Canonical trees -/

mutual

/-- The expression without its spelling. -/
def Expression.canonical : Expression → Expression
  | .binary operator left right _ => .binary operator left.canonical right.canonical default
  | .unary operator argument _ => .unary operator argument.canonical default
  | .call base arguments _ => .callOf base.canonical (Expression.canonicals arguments)
  | .stringCall base argument _ => .stringCall base.canonical argument.canonical default
  | .tableCall base fields _ _ =>
    .tableCall base.canonical (Field.canonicals fields) default default
  | .function head parameters body _ =>
    .function (head.recast .bare) (parameters.map (Parameter.recast .bare))
      (Statement.canonicals body) default
  | .group inner _ => inner.canonical.inParens inner.isMultipleValue
  | .name identifier => .name (identifier.recast .bare)
  | .index base key _ => .index base.canonical key.canonical default
  | .member base selector name _ => .member base.canonical selector (name.recast .bare) default
  | .literal constant => .literal constant.canonical
  | .table fields _ => .table (Field.canonicals fields) default

/-- The expressions without their spelling. -/
def Expression.canonicals : List Expression → List Expression
  | [] => []
  | expression :: rest => expression.canonical :: Expression.canonicals rest

/-- The expression that may be left out, without its spelling. -/
def Expression.canonicalOptional : Option Expression → Option Expression
  | none => none
  | some expression => some expression.canonical

/-- The field without its spelling. -/
def Field.canonical : Field → Field
  | .keyed key value _ => .keyed key.canonical value.canonical default
  | .named name value _ => .named (name.recast .bare) value.canonical default
  | .positional value => .positional value.canonical
  | .comment remark => .comment remark

/-- The fields without their spelling. -/
def Field.canonicals : List Field → List Field
  | [] => []
  | field :: rest => field.canonical :: Field.canonicals rest

/-- The clause without its spelling. -/
def Clause.canonical : Clause → Clause
  | .guarded word condition body _ =>
    .guarded word condition.canonical (Statement.canonicals body) default
  | .otherwise body _ => .otherwise (Statement.canonicals body) default

/-- The clauses without their spelling. -/
def Clause.canonicals : List Clause → List Clause
  | [] => []
  | clause :: rest => clause.canonical :: Clause.canonicals rest

/-- The statement without its spelling. -/
def Statement.canonical : Statement → Statement
  | .assignment targets values _ =>
    .assignment (Expression.canonicals targets) (Expression.canonicals values) default
  | .breakLoop _ => .breakLoop default
  | .call expression _ => .call expression.canonical default
  | .comment remark => .comment remark
  | .doBlock body _ => .doBlock (Statement.canonicals body) default
  | .genericFor declared iterators body _ =>
    .genericFor (declared.map (Name.recast .bare)) (Expression.canonicals iterators)
      (Statement.canonicals body) default
  | .numericFor counter first last step body _ =>
    .numericFor (counter.recast .bare) first.canonical last.canonical
      (Expression.canonicalOptional step) (Statement.canonicals body) default
  | .function head parameters body _ =>
    .function (head.recast .bare) (parameters.map (Parameter.recast .bare))
      (Statement.canonicals body) default
  | .goto target _ => .goto (target.recast .bare) default
  | .ifElse clauses _ => .ifElse (Clause.canonicals clauses) default
  | .label name _ => .label (name.recast .bare) default
  | .localVariables declared values _ =>
    .localVariables (declared.map (Name.recast .bare)) (Expression.canonicals values) default
  | .repeatUntil body condition _ =>
    .repeatUntil (Statement.canonicals body) condition.canonical default
  | .returnValues values _ => .returnValues (Expression.canonicals values) default
  | .whileLoop condition body _ =>
    .whileLoop condition.canonical (Statement.canonicals body) default

/-- The statements without their spelling. -/
def Statement.canonicals : List Statement → List Statement
  | [] => []
  | statement :: rest => statement.canonical :: Statement.canonicals rest

end

/-! ### What decides about the layout -/

namespace Expression

theorem form_literal_congr {first second : Literal} (value : first.value = second.value) :
    (literal first).form = (literal second).form := by
  obtain ⟨firstValue, firstRaw, firstSpan⟩ := first
  obtain ⟨secondValue, secondRaw, secondSpan⟩ := second
  obtain rfl : firstValue = secondValue := value
  cases firstValue <;> rfl

theorem isMultipleValue_literal_congr {first second : Literal}
    (value : first.value = second.value) :
    (literal first).isMultipleValue = (literal second).isMultipleValue := by
  obtain ⟨firstValue, firstRaw, firstSpan⟩ := first
  obtain ⟨secondValue, secondRaw, secondSpan⟩ := second
  obtain rfl : firstValue = secondValue := value
  cases firstValue <;> rfl

/-- What may have any number of values still may in its canonical form. -/
theorem isMultipleValue_canonical {expression : Expression}
    (grammatical : Node.AreGrammatical expression.nodes) (several : expression.isMultipleValue) :
    expression.canonical.isMultipleValue := by
  cases expression with
  | call base arguments span => exact isMultipleValue_callOf ..
  | stringCall | tableCall => rfl
  | literal constant =>
    obtain ⟨isGrammatical, -⟩ := Node.areGrammatical_cons.1 grammatical
    rw [canonical, isMultipleValue_literal_congr (Literal.value_canonical isGrammatical)]
    exact several
  | _ => cases several

/-- A group around several values is around several values in the canonical form. -/
theorem isMultipleValue_and_canonical {expression : Expression}
    (grammatical : Node.AreGrammatical expression.nodes) :
    (expression.isMultipleValue && expression.canonical.isMultipleValue) =
      expression.isMultipleValue := by
  cases several : expression.isMultipleValue with
  | false => rfl
  | true => exact isMultipleValue_canonical grammatical several

/-- The canonical form gets the parentheses that the expression gets. -/
theorem form_withoutParens_canonical : ∀ expression : Expression,
    Node.AreGrammatical expression.nodes →
      expression.canonical.withoutParens.form = expression.withoutParens.form
  | call base arguments _, _ => by
    rw [canonical]
    unfold callOf
    split <;> rfl
  | group inner span, grammatical => by
    obtain ⟨-, innerGrammatical⟩ := Node.areGrammatical_cons.1 grammatical
    rw [canonical]
    cases several : inner.isMultipleValue with
    | true =>
      rw [inParens, if_pos rfl, form_withoutParens_of_isMultipleValue
        (isMultipleValue_canonical innerGrammatical several),
        form_withoutParens_of_isMultipleValue several]
    | false =>
      rw [inParens, if_neg Bool.false_ne_true, form_withoutParens_group several]
      exact form_withoutParens_canonical inner innerGrammatical
  | literal constant, grammatical => by
    obtain ⟨isGrammatical, -⟩ := Node.areGrammatical_cons.1 grammatical
    exact form_literal_congr (Literal.value_canonical isGrammatical)
  | binary .., _ | unary .., _ | stringCall .., _ | tableCall .., _ | function .., _ | name _, _
  | index .., _ | member .., _ | table .., _ => rfl

theorem canonicals_eq_map (expressions : List Expression) :
    canonicals expressions = expressions.map canonical := by
  induction expressions with
  | nil => rfl
  | cons expression rest inductionHypothesis =>
    rw [canonicals, inductionHypothesis, List.map_cons]

theorem isEmpty_canonicals (expressions : List Expression) :
    (canonicals expressions).isEmpty = expressions.isEmpty := by
  rw [canonicals_eq_map, List.isEmpty_map]

theorem forms_canonicals {expressions : List Expression}
    (grammatical : Node.AreGrammatical (nodesOfAll expressions)) :
    (canonicals expressions).map (·.withoutParens.form) =
      expressions.map (·.withoutParens.form) := by
  induction expressions with
  | nil => rfl
  | cons expression rest inductionHypothesis =>
    obtain ⟨first, others⟩ := Node.areGrammatical_append.1 grammatical
    rw [canonicals, List.map_cons, List.map_cons, form_withoutParens_canonical expression first,
      inductionHypothesis others]

theorem isCall_canonical : ∀ expression : Expression,
    expression.canonical.isCall = expression.isCall
  | call .. => isCall_callOf ..
  | group inner _ => by
    rw [canonical]
    cases several : inner.isMultipleValue with
    | true => rfl
    | false =>
      have single : inner.isCall = false := by
        cases inner <;> first | rfl | cases several
      rw [inParens, if_neg Bool.false_ne_true, isCall_canonical inner, single]
      rfl
  | binary .. | unary .. | stringCall .. | tableCall .. | function .. | name _ | index ..
  | member .. | literal _ | table .. => rfl

end Expression

theorem Statement.map_role_canonicals (body : List Statement) :
    (canonicals body).map role = body.map role := by
  induction body with
  | nil => rfl
  | cons statement rest inductionHypothesis =>
    have first : statement.canonical.role = statement.role := by
      cases statement <;> rfl
    rw [canonicals, List.map_cons, first, inductionHypothesis, List.map_cons]

theorem Statement.blockDoc_canonicals (config : Config) (depth : Nat) (isClosed : Bool)
    (body : List Statement) :
    blockDoc config depth isClosed (canonicals body) = blockDoc config depth isClosed body :=
  funext (blockDoc_congr config depth isClosed (map_role_canonicals body))

theorem Field.map_isComment_canonicals (fields : List Field) :
    (canonicals fields).map isComment = fields.map isComment := by
  induction fields with
  | nil => rfl
  | cons field rest inductionHypothesis =>
    have first : field.canonical.isComment = field.isComment := by
      cases field <;> rfl
    rw [canonicals, List.map_cons, first, inductionHypothesis, List.map_cons]

theorem Field.tableDoc_canonicals (config : Config) (depth : Nat) (fields : List Field) :
    tableDoc config depth (canonicals fields) = tableDoc config depth fields :=
  funext (tableDoc_congr config depth (map_isComment_canonicals fields))

theorem Clause.isEmpty_canonicals (clauses : List Clause) :
    (canonicals clauses).isEmpty = clauses.isEmpty := by
  cases clauses <;> rfl

/-! ### The layout of a canonical form -/

variable (config : Config)

mutual

/-- An expression is laid out as its canonical form. -/
theorem Expression.toOption_doc_canonical : ∀ (expression : Expression) (depth : Nat),
    Node.AreGrammatical expression.nodes →
      (expression.canonical.doc config depth).toOption = (expression.doc config depth).toOption
  | .binary operator left right _, depth, grammatical => by
    obtain ⟨-, inner⟩ := Node.areGrammatical_cons.1 grammatical
    obtain ⟨leftGrammatical, rightGrammatical⟩ := Node.areGrammatical_append.1 inner
    have leftForm := left.form_withoutParens_canonical leftGrammatical
    have rightForm := right.form_withoutParens_canonical rightGrammatical
    simp only [Expression.canonical, Expression.doc, toOption_bind, toOption_pure,
      left.toOption_doc_canonical depth leftGrammatical,
      right.toOption_doc_canonical depth rightGrammatical,
      Expression.binaryDoc_congr leftForm rightForm]
  | .unary operator argument _, depth, grammatical => by
    obtain ⟨-, inner⟩ := Node.areGrammatical_cons.1 grammatical
    have form := argument.form_withoutParens_canonical inner
    simp only [Expression.canonical, Expression.doc, toOption_bind, toOption_pure,
      argument.toOption_doc_canonical depth inner, Expression.unaryDoc_congr form]
  | .call base arguments _, depth, grammatical => by
    obtain ⟨-, inner⟩ := Node.areGrammatical_cons.1 grammatical
    obtain ⟨baseGrammatical, argumentsGrammatical⟩ := Node.areGrammatical_append.1 inner
    have form := base.form_withoutParens_canonical baseGrammatical
    have forms := Expression.forms_canonicals argumentsGrammatical
    rw [Expression.canonical, Expression.toOption_doc_callOf]
    simp only [Expression.doc, toOption_bind, toOption_pure,
      base.toOption_doc_canonical depth baseGrammatical,
      Expression.toOption_docs_canonicals arguments depth argumentsGrammatical,
      Expression.baseDoc_congr form, Expression.argumentsDoc_congr forms]
  | .stringCall base argument _, depth, grammatical => by
    obtain ⟨⟨-, isString⟩, inner⟩ := Node.areGrammatical_cons.1 grammatical
    have form := base.form_withoutParens_canonical inner
    simp only [Expression.canonical, Expression.doc, toOption_bind, toOption_pure,
      base.toOption_doc_canonical depth inner,
      Literal.toOption_doc_canonical (Literal.isGrammatical_of_isString isString),
      Expression.baseDoc_congr form]
  | .tableCall base fields _ _, depth, grammatical => by
    obtain ⟨-, inner⟩ := Node.areGrammatical_cons.1 grammatical
    obtain ⟨baseGrammatical, fieldsGrammatical⟩ := Node.areGrammatical_append.1 inner
    have form := base.form_withoutParens_canonical baseGrammatical
    simp only [Expression.canonical, Expression.doc, toOption_bind, toOption_pure,
      base.toOption_doc_canonical depth baseGrammatical,
      Field.toOption_docs_canonicals fields (depth + 1) fieldsGrammatical,
      Expression.baseDoc_congr form, Field.tableDoc_canonicals]
  | .function head parameters body _, depth, grammatical => by
    obtain ⟨-, inner⟩ := Node.areGrammatical_cons.1 grammatical
    simp only [Expression.canonical, Expression.doc, toOption_bind, toOption_pure,
      Statement.toOption_docs_canonicals body (depth + 1) inner, FunctionHead.doc_recast,
      Parameter.docs_recast, Statement.blockDoc_canonicals]
  | .group inner _, depth, grammatical => by
    obtain ⟨-, innerGrammatical⟩ := Node.areGrammatical_cons.1 grammatical
    rw [Expression.canonical, Expression.toOption_doc_inParens, Expression.doc, toOption_bind,
      inner.toOption_doc_canonical depth innerGrammatical, Option.map_eq_bind,
      Expression.isMultipleValue_and_canonical innerGrammatical]
    rfl
  | .name _, _, _ => rfl
  | .index base key _, depth, grammatical => by
    obtain ⟨-, inner⟩ := Node.areGrammatical_cons.1 grammatical
    obtain ⟨baseGrammatical, keyGrammatical⟩ := Node.areGrammatical_append.1 inner
    have form := base.form_withoutParens_canonical baseGrammatical
    simp only [Expression.canonical, Expression.doc, toOption_bind, toOption_pure,
      base.toOption_doc_canonical depth baseGrammatical,
      key.toOption_doc_canonical depth keyGrammatical, Expression.baseDoc_congr form]
  | .member base _ _ _, depth, grammatical => by
    obtain ⟨-, inner⟩ := Node.areGrammatical_cons.1 grammatical
    have form := base.form_withoutParens_canonical inner
    simp only [Expression.canonical, Expression.doc, toOption_bind, toOption_pure,
      base.toOption_doc_canonical depth inner, Expression.baseDoc_congr form, Name.recast]
  | .literal _, _, grammatical => by
    obtain ⟨isGrammatical, -⟩ := Node.areGrammatical_cons.1 grammatical
    exact Literal.toOption_doc_canonical isGrammatical config
  | .table fields _, depth, grammatical => by
    obtain ⟨-, inner⟩ := Node.areGrammatical_cons.1 grammatical
    simp only [Expression.canonical, Expression.doc, toOption_bind, toOption_pure,
      Field.toOption_docs_canonicals fields (depth + 1) inner, Field.tableDoc_canonicals]

theorem Expression.toOption_docs_canonicals : ∀ (expressions : List Expression) (depth : Nat),
    Node.AreGrammatical (Expression.nodesOfAll expressions) →
      (Expression.docs config depth (Expression.canonicals expressions)).toOption =
        (Expression.docs config depth expressions).toOption
  | [], _, _ => rfl
  | expression :: rest, depth, grammatical => by
    obtain ⟨first, others⟩ := Node.areGrammatical_append.1 grammatical
    simp only [Expression.canonicals, Expression.docs, toOption_bind, toOption_pure,
      expression.toOption_doc_canonical depth first, Expression.toOption_docs_canonicals rest depth
        others]

theorem Expression.toOption_optionalDocs_canonical : ∀ (optional : Option Expression) (depth : Nat),
    Node.AreGrammatical (Expression.nodesOfOptional optional) →
      (Expression.optionalDocs config depth (Expression.canonicalOptional optional)).toOption =
        (Expression.optionalDocs config depth optional).toOption
  | none, _, _ => rfl
  | some expression, depth, grammatical => by
    simp only [Expression.canonicalOptional, Expression.optionalDocs, toOption_bind, toOption_pure,
      expression.toOption_doc_canonical depth grammatical]

theorem Field.toOption_doc_canonical : ∀ (field : Field) (depth : Nat),
    Node.AreGrammatical field.nodes →
      (field.canonical.doc config depth).toOption = (field.doc config depth).toOption
  | .keyed key value _, depth, grammatical => by
    obtain ⟨-, inner⟩ := Node.areGrammatical_cons.1 grammatical
    obtain ⟨keyGrammatical, valueGrammatical⟩ := Node.areGrammatical_append.1 inner
    simp only [Field.canonical, Field.doc, toOption_bind, toOption_pure,
      key.toOption_doc_canonical depth keyGrammatical,
      value.toOption_doc_canonical depth valueGrammatical]
  | .named _ value _, depth, grammatical => by
    obtain ⟨-, inner⟩ := Node.areGrammatical_cons.1 grammatical
    simp only [Field.canonical, Field.doc, toOption_bind, toOption_pure,
      value.toOption_doc_canonical depth inner, Name.recast]
  | .positional value, depth, grammatical => by
    obtain ⟨-, inner⟩ := Node.areGrammatical_cons.1 grammatical
    exact value.toOption_doc_canonical depth inner
  | .comment _, _, _ => rfl

theorem Field.toOption_docs_canonicals : ∀ (fields : List Field) (depth : Nat),
    Node.AreGrammatical (Field.nodesOfAll fields) →
      (Field.docs config depth (Field.canonicals fields)).toOption =
        (Field.docs config depth fields).toOption
  | [], _, _ => rfl
  | field :: rest, depth, grammatical => by
    obtain ⟨first, others⟩ := Node.areGrammatical_append.1 grammatical
    simp only [Field.canonicals, Field.docs, toOption_bind, toOption_pure,
      field.toOption_doc_canonical depth first, Field.toOption_docs_canonicals rest depth others]

theorem Clause.toOption_doc_canonical : ∀ (clause : Clause) (depth : Nat) (isLast : Bool),
    Node.AreGrammatical clause.nodes →
      (clause.canonical.doc config depth isLast).toOption =
        (clause.doc config depth isLast).toOption
  | .guarded _ condition body _, depth, isLast, grammatical => by
    obtain ⟨-, inner⟩ := Node.areGrammatical_cons.1 grammatical
    obtain ⟨conditionGrammatical, bodyGrammatical⟩ := Node.areGrammatical_append.1 inner
    simp only [Clause.canonical, Clause.doc, toOption_bind, toOption_pure,
      condition.toOption_doc_canonical depth conditionGrammatical,
      Statement.toOption_docs_canonicals body (depth + 1) bodyGrammatical,
      Statement.blockDoc_canonicals]
  | .otherwise body _, depth, isLast, grammatical => by
    obtain ⟨-, inner⟩ := Node.areGrammatical_cons.1 grammatical
    simp only [Clause.canonical, Clause.doc, toOption_bind, toOption_pure,
      Statement.toOption_docs_canonicals body (depth + 1) inner, Statement.blockDoc_canonicals]

theorem Clause.toOption_docs_canonicals : ∀ (clauses : List Clause) (depth : Nat),
    Node.AreGrammatical (Clause.nodesOfAll clauses) →
      (Clause.docs config depth (Clause.canonicals clauses)).toOption =
        (Clause.docs config depth clauses).toOption
  | [], _, _ => rfl
  | clause :: rest, depth, grammatical => by
    obtain ⟨first, others⟩ := Node.areGrammatical_append.1 grammatical
    simp only [Clause.canonicals, Clause.docs, toOption_bind, toOption_pure,
      clause.toOption_doc_canonical depth _ first,
      Clause.toOption_docs_canonicals rest depth others, Clause.isEmpty_canonicals]

theorem Statement.toOption_doc_canonical : ∀ (statement : Statement) (depth : Nat),
    Node.AreGrammatical statement.nodes →
      (statement.canonical.doc config depth).toOption = (statement.doc config depth).toOption
  | .assignment targets values _, depth, grammatical => by
    obtain ⟨-, inner⟩ := Node.areGrammatical_cons.1 grammatical
    obtain ⟨targetsGrammatical, valuesGrammatical⟩ := Node.areGrammatical_append.1 inner
    simp only [Statement.canonical, Statement.doc, toOption_bind, toOption_pure,
      Expression.toOption_docs_canonicals targets depth targetsGrammatical,
      Expression.toOption_docs_canonicals values depth valuesGrammatical]
  | .breakLoop _, _, _ => rfl
  | .call expression _, depth, grammatical => by
    obtain ⟨-, inner⟩ := Node.areGrammatical_cons.1 grammatical
    simp only [Statement.canonical, Statement.doc, Expression.isCall_canonical]
    split
    · exact expression.toOption_doc_canonical depth inner
    · rfl
  | .comment _, _, _ => rfl
  | .doBlock body _, depth, grammatical => by
    obtain ⟨-, inner⟩ := Node.areGrammatical_cons.1 grammatical
    simp only [Statement.canonical, Statement.doc, toOption_bind, toOption_pure,
      Statement.toOption_docs_canonicals body (depth + 1) inner, Statement.blockDoc_canonicals]
  | .genericFor _ iterators body _, depth, grammatical => by
    obtain ⟨-, inner⟩ := Node.areGrammatical_cons.1 grammatical
    obtain ⟨iteratorsGrammatical, bodyGrammatical⟩ := Node.areGrammatical_append.1 inner
    simp only [Statement.canonical, Statement.doc, toOption_bind, toOption_pure,
      Expression.toOption_docs_canonicals iterators depth iteratorsGrammatical, Name.docs_recast,
      Statement.toOption_docs_canonicals body (depth + 1) bodyGrammatical,
      Statement.blockDoc_canonicals]
  | .numericFor _ first last step body _, depth, grammatical => by
    obtain ⟨-, inner⟩ := Node.areGrammatical_cons.1 grammatical
    obtain ⟨inner, bodyGrammatical⟩ := Node.areGrammatical_append.1 inner
    obtain ⟨inner, stepGrammatical⟩ := Node.areGrammatical_append.1 inner
    obtain ⟨firstGrammatical, lastGrammatical⟩ := Node.areGrammatical_append.1 inner
    simp only [Statement.canonical, Statement.doc, toOption_bind, toOption_pure,
      first.toOption_doc_canonical depth firstGrammatical,
      last.toOption_doc_canonical depth lastGrammatical,
      Expression.toOption_optionalDocs_canonical step depth stepGrammatical, Name.recast,
      Statement.toOption_docs_canonicals body (depth + 1) bodyGrammatical,
      Statement.blockDoc_canonicals]
  | .function _ _ body _, depth, grammatical => by
    obtain ⟨-, inner⟩ := Node.areGrammatical_cons.1 grammatical
    simp only [Statement.canonical, Statement.doc, toOption_bind, toOption_pure,
      Statement.toOption_docs_canonicals body (depth + 1) inner, FunctionHead.doc_recast,
      Parameter.docs_recast, Statement.blockDoc_canonicals]
  | .goto _ _, _, _ => rfl
  | .ifElse clauses _, depth, grammatical => by
    obtain ⟨-, inner⟩ := Node.areGrammatical_cons.1 grammatical
    simp only [Statement.canonical, Statement.doc, Clause.isEmpty_canonicals]
    split
    · rfl
    · simp only [toOption_bind, toOption_pure, Clause.toOption_docs_canonicals clauses depth inner]
  | .label _ _, _, _ => rfl
  | .localVariables _ values _, depth, grammatical => by
    obtain ⟨-, inner⟩ := Node.areGrammatical_cons.1 grammatical
    simp only [Statement.canonical, Statement.doc, toOption_bind, toOption_pure,
      Expression.toOption_docs_canonicals values depth inner, Name.docs_recast,
      Expression.isEmpty_canonicals]
  | .repeatUntil body condition _, depth, grammatical => by
    obtain ⟨-, inner⟩ := Node.areGrammatical_cons.1 grammatical
    obtain ⟨bodyGrammatical, conditionGrammatical⟩ := Node.areGrammatical_append.1 inner
    simp only [Statement.canonical, Statement.doc, toOption_bind, toOption_pure,
      Statement.toOption_docs_canonicals body (depth + 1) bodyGrammatical,
      condition.toOption_doc_canonical depth conditionGrammatical, Statement.blockDoc_canonicals]
  | .returnValues values _, depth, grammatical => by
    obtain ⟨-, inner⟩ := Node.areGrammatical_cons.1 grammatical
    simp only [Statement.canonical, Statement.doc, toOption_bind, toOption_pure,
      Expression.toOption_docs_canonicals values depth inner, Expression.isEmpty_canonicals]
  | .whileLoop condition body _, depth, grammatical => by
    obtain ⟨-, inner⟩ := Node.areGrammatical_cons.1 grammatical
    obtain ⟨conditionGrammatical, bodyGrammatical⟩ := Node.areGrammatical_append.1 inner
    simp only [Statement.canonical, Statement.doc, toOption_bind, toOption_pure,
      condition.toOption_doc_canonical depth conditionGrammatical,
      Statement.toOption_docs_canonicals body (depth + 1) bodyGrammatical,
      Statement.blockDoc_canonicals]

theorem Statement.toOption_docs_canonicals : ∀ (body : List Statement) (depth : Nat),
    Node.AreGrammatical (Statement.nodesOfAll body) →
      (Statement.docs config depth (Statement.canonicals body)).toOption =
        (Statement.docs config depth body).toOption
  | [], _, _ => rfl
  | statement :: rest, depth, grammatical => by
    obtain ⟨first, others⟩ := Node.areGrammatical_append.1 grammatical
    simp only [Statement.canonicals, Statement.docs, toOption_bind, toOption_pure,
      statement.toOption_doc_canonical depth first, Statement.toOption_docs_canonicals rest depth
        others]

end

/-- A chunk is laid out as its canonical form. -/
theorem Chunk.toOption_doc_canonicals {body : List Statement} (span : Span)
    (grammatical : Node.AreGrammatical (Statement.nodesOfAll body)) :
    ((Chunk.mk (Statement.canonicals body) span).doc config).toOption =
      ((Chunk.mk body span).doc config).toOption := by
  simp only [Chunk.doc, toOption_bind, toOption_pure,
    Statement.toOption_docs_canonicals config body 0 grammatical,
    Statement.stack_congr config 0 (Statement.map_role_canonicals body)]

/-- Where there is no comment to put in, a program is laid out as its statements. -/
theorem Program.toOption_doc_of_uncommented {program : Program}
    (uncommented : program.comments = []) :
    (program.arrange.doc config).toOption = (program.chunk.doc config).toOption := by
  refine Chunk.toOption_doc_congr config ?_
  rw [Program.arrange, uncommented]
  exact Statement.recastAll_extendAll .shown program.chunk.body

/-- Without comments, a program is laid out as its canonical form. -/
theorem Program.toOption_doc_canonicals {source : List Char} {program : Program}
    (parsed : Program.parse source = .ok program) (uncommented : program.comments = []) :
    ((Chunk.mk (Statement.canonicals program.chunk.body) default).doc config).toOption =
      (program.arrange.doc config).toOption := by
  rw [Program.toOption_doc_of_uncommented config uncommented]
  exact Chunk.toOption_doc_canonicals config default (Program.grammatical_of_parse parsed).1

/-! ### Sources that differ in spelling -/

/-- Two sources without comments have the same layout in every configuration if their trees have the
same canonical form: if they are the same apart from spans, needless parentheses, the ways to write
a call of one string or table, and the spelling of strings and of finite decimal numbers. -/
theorem format_ignores_spelling {first second : List Char} {program other : Program}
    (parsed : Program.parse first = .ok program) (otherParsed : Program.parse second = .ok other)
    (uncommented : program.comments = []) (otherUncommented : other.comments = [])
    (same : Statement.canonicals program.chunk.body = Statement.canonicals other.chunk.body) :
    ∀ config, ∃ text, formatText config first = .ok text ∧ formatText config second = .ok text := by
  intro config
  obtain ⟨text, -, laid, -, -⟩ := Program.format_reads config parsed
  refine ⟨text, laid, ?_⟩
  rw [formatText, parsed] at laid
  rw [formatText, otherParsed]
  have doc := Program.toOption_doc_canonicals config parsed uncommented
  rw [same] at doc
  exact Program.format_congr
    ((Program.toOption_doc_canonicals config otherParsed otherUncommented).symm.trans doc) laid

/-- The statements return what a call of a name with one string gives, and a number, in canonical
form. -/
def Statement.returnsCall (callee : List Char) (bytes : List UInt8) (value : Double) :
    List Statement → Bool
  | [.returnValues [.stringCall (.name name) text inner, .literal number] outer] =>
    name = ⟨callee, default⟩ && text = ⟨.string bytes, [], default⟩ && inner = default
      && number = ⟨.number value, [], default⟩ && outer = default
  | _ => false

theorem Statement.eq_of_returnsCall {callee : List Char} {bytes : List UInt8} {value : Double}
    {body : List Statement} (returns : returnsCall callee bytes value body) :
    body = [.returnValues [.stringCall (.name ⟨callee, default⟩) ⟨.string bytes, [], default⟩
      default, .literal ⟨.number value, [], default⟩] default] := by
  unfold returnsCall at returns
  split at returns
  · simp only [Bool.and_eq_true, decide_eq_true_eq] at returns
    obtain ⟨⟨⟨⟨rfl, rfl⟩, rfl⟩, rfl⟩, rfl⟩ := returns
    rfl
  · cases returns

theorem format_ignores_spelling_of_call :
    ∃ program other, Program.parse "return f(('a')), (1e2)".toList = .ok program ∧
      Program.parse "return f [[\na]], 0100.0".toList = .ok other ∧
      program.comments = [] ∧ other.comments = [] ∧
      Statement.canonicals program.chunk.body = Statement.canonicals other.chunk.body ∧
      ∀ config, ∃ text, formatText config "return f(('a')), (1e2)".toList = .ok text ∧
        formatText config "return f [[\na]], 0100.0".toList = .ok text := by
  obtain ⟨program, parsed⟩ := Program.exists_of_isOk
    (show (Program.parse "return f(('a')), (1e2)".toList).isOk by decide +kernel)
  obtain ⟨other, otherParsed⟩ := Program.exists_of_isOk
    (show (Program.parse "return f [[\na]], 0100.0".toList).isOk by decide +kernel)
  have looks : (Program.parse "return f(('a')), (1e2)".toList).toOption.any fun program =>
      decide (program.comments = []) && Statement.returnsCall "f".toList [0x61]
        ⟨0x4059000000000000⟩ (Statement.canonicals program.chunk.body) := by
    decide +kernel
  have otherLooks : (Program.parse "return f [[\na]], 0100.0".toList).toOption.any fun program =>
      decide (program.comments = []) && Statement.returnsCall "f".toList [0x61]
        ⟨0x4059000000000000⟩ (Statement.canonicals program.chunk.body) := by
    decide +kernel
  rw [parsed] at looks
  rw [otherParsed] at otherLooks
  obtain ⟨uncommented, returns⟩ := Bool.and_eq_true_iff.1 looks
  obtain ⟨otherUncommented, otherReturns⟩ := Bool.and_eq_true_iff.1 otherLooks
  have same := (Statement.eq_of_returnsCall returns).trans
    (Statement.eq_of_returnsCall otherReturns).symm
  have none := of_decide_eq_true uncommented
  have otherNone := of_decide_eq_true otherUncommented
  exact ⟨program, other, parsed, otherParsed, none, otherNone, same,
    format_ignores_spelling parsed otherParsed none otherNone same⟩

end LuaStyle
