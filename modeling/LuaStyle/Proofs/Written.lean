/-
This file says in which tokens a syntax tree is written.

Written in tokens, a tree is strictly read from them again, up to what does not show: spans, the raw
texts of strings, how numbers are spelled, and how comments are set off from what is around them.
Here the tokens of the parts of an expression are put together to those of the whole. Where a right
operand is a chain of the same operator that is hung to the left, its tokens are cut at each
operator of the chain.
-/

import LuaStyle.Proofs.CommentText
import LuaStyle.Proofs.Grammatical
import LuaStyle.Proofs.Surface

namespace LuaStyle

/-! ### What shows -/

/-- The raw text of a literal, as far as it shows. -/
def Literal.shownRaw (constant : Literal) : List Char :=
  match constant.value with
  | .number value => Literal.normalNumber constant.raw value
  | .string _ => []
  | _ => constant.raw

/-- Forgets what does not show in the layout of a tree. -/
def Recasting.shown : Recasting where
  span := fun _ => default
  comment := fun remark => some remark.shown
  raw := Literal.shownRaw

/-! ### Names and parameters -/

/-- The tokens are those of the names with the separator between them. -/
def Name.WrittenAll (separator : Token.Kind) (names : List Name) (tokens : List Token) : Prop :=
  ∃ read, Name.ReadsAll separator read tokens ∧
    read.map (Name.recast .shown) = names.map (Name.recast .shown)

/-- The token is that of the name. -/
def Name.Written (name : Name) (token : Token) : Prop :=
  ∃ read : Name, read.Reads token ∧ read.recast .shown = name.recast .shown

theorem Name.written_of_text {name : Name} {token : Token} (kind : token.kind = .name)
    (text : token.text = name.text) : name.Written token :=
  ⟨⟨token.text, token.span⟩, ⟨kind, rfl⟩, by rw [recast, recast, text]; rfl⟩

theorem Name.WrittenAll.single {separator : Token.Kind} {name : Name} {token : Token}
    (written : name.Written token) : Name.WrittenAll separator [name] [token] := by
  obtain ⟨read, reads, same⟩ := written
  exact ⟨[read], .single reads, by rw [List.map_singleton, same]; rfl⟩

theorem Name.WrittenAll.cons {separator : Token.Kind} {name : Name} {names : List Name}
    {token mark : Token} {tokens : List Token} (written : name.Written token)
    (kind : mark.kind = separator) (others : Name.WrittenAll separator names tokens) :
    Name.WrittenAll separator (name :: names) (token :: mark :: tokens) := by
  obtain ⟨read, reads, same⟩ := written
  obtain ⟨more, readsMore, sameMore⟩ := others
  exact ⟨read :: more, .cons reads kind readsMore, by
    rw [List.map_cons, List.map_cons, same, sameMore]⟩

/-- The tokens are those of the name of a function. -/
def FunctionName.Written (name : FunctionName) (tokens : List Token) : Prop :=
  ∃ read : FunctionName, read.Reads tokens ∧ read.recast .shown = name.recast .shown

/-- The tokens are those of the parameters between two parentheses. -/
def Parameter.WrittenAll (parameters : List Parameter) (tokens : List Token) : Prop :=
  ∃ read, Parameter.ReadsAll read tokens ∧
    read.map (Parameter.recast .shown) = parameters.map (Parameter.recast .shown)

/-! ### Written trees -/

/-- The symbol of a selector. -/
def Selector.symbol : Selector → Token.Symbol
  | .dot => .dot
  | .colon => .colon

/-- The tokens are those in which the expression is written. -/
def Expression.Written (expression : Expression) (tokens : List Token) : Prop :=
  ∃ read : Expression, (read.Reads true tokens ∨ read.ReadsCallee true tokens) ∧
    read.recast .shown = expression.recast .shown

/-- The tokens are those of the expressions, at least one, with commas between them. -/
def Expression.WrittenAll (expressions : List Expression) (tokens : List Token) : Prop :=
  ∃ read, Expression.ReadsAll true read tokens ∧
    Expression.recastAll .shown read = Expression.recastAll .shown expressions

/-- The tokens are those of the arguments between two parentheses. -/
def Expression.WrittenArguments (arguments : List Expression) (tokens : List Token) : Prop :=
  ∃ read, Expression.ReadsArguments true read tokens ∧
    Expression.recastAll .shown read = Expression.recastAll .shown arguments

/-- The tokens are those of the fields between two braces. -/
def Field.WrittenAll (fields : List Field) (tokens : List Token) : Prop :=
  ∃ read, Field.ReadsAll true read tokens ∧
    Field.recastAll .shown read = Field.recastAll .shown fields

/-- The tokens are those of the statements of a block. -/
def Statement.WrittenBody (body : List Statement) (tokens : List Token) : Prop :=
  ∃ read, Statement.ReadsBody true read tokens ∧
    Statement.recastAll .shown read = Statement.recastAll .shown body

/-- The tokens are those of a function from its opening parenthesis on. -/
def Statement.WrittenFunction (parameters : List Parameter) (body : List Statement)
    (tokens : List Token) : Prop :=
  ∃ readParameters readBody, Statement.ReadsFunction true readParameters readBody tokens ∧
    readParameters.map (Parameter.recast .shown) = parameters.map (Parameter.recast .shown) ∧
    Statement.recastAll .shown readBody = Statement.recastAll .shown body

namespace Expression

variable {tokens before after : List Token} {mark opening closing token : Token}

theorem isMethod_eq_of_recast_eq {first second : Expression}
    (same : first.recast .shown = second.recast .shown) : first.isMethod = second.isMethod := by
  rw [← isMethod_recast .shown, same, isMethod_recast]

theorem isPrefix_eq_of_recast_eq {first second : Expression}
    (same : first.recast .shown = second.recast .shown) : first.isPrefix = second.isPrefix := by
  rw [← isPrefix_recast .shown, same, isPrefix_recast]

/-- What is written and does not select a method is an expression. -/
theorem Written.value {expression : Expression} (written : expression.Written tokens)
    (plain : expression.isMethod = false) :
    ∃ read : Expression, read.Reads true tokens ∧
      read.recast .shown = expression.recast .shown := by
  obtain ⟨read, reads, same⟩ := written
  exact ⟨read, reads_of_or reads ((isMethod_eq_of_recast_eq same).trans plain), same⟩

/-- What is written can be called if its form lets it. -/
theorem Written.callee {expression : Expression} (written : expression.Written tokens)
    (callee : expression.isPrefix || expression.isMethod) :
    ∃ read : Expression, read.ReadsCallee true tokens ∧
      read.recast .shown = expression.recast .shown := by
  obtain ⟨read, reads, same⟩ := written
  refine ⟨read, ?_, same⟩
  rcases reads with reads | reads
  · rw [← isPrefix_eq_of_recast_eq same, ← isMethod_eq_of_recast_eq same, reads.isMethod_eq,
      Bool.or_false] at callee
    exact .value callee reads
  · exact reads

theorem Written.isPrefix {expression : Expression} (written : expression.Written tokens)
    (isPrefix : expression.isPrefix) (plain : expression.isMethod = false) :
    ∃ read : Expression, read.isPrefix ∧ read.Reads true tokens ∧
      read.recast .shown = expression.recast .shown := by
  obtain ⟨read, reads, same⟩ := written.value plain
  exact ⟨read, (isPrefix_eq_of_recast_eq same).trans isPrefix, reads, same⟩

theorem written_of_reads {read expression : Expression} (reads : read.Reads true tokens)
    (same : read.recast .shown = expression.recast .shown) : expression.Written tokens :=
  ⟨read, .inl reads, same⟩

theorem Written.congr {first second : Expression} (written : first.Written tokens)
    (same : first.recast .shown = second.recast .shown) : second.Written tokens := by
  obtain ⟨read, reads, again⟩ := written
  exact ⟨read, reads, again.trans same⟩

theorem written_binary {operator : BinaryOperator} {left right : Expression} {span : Span}
    (leftWritten : left.Written before) (leftPlain : left.isMethod = false)
    (kind : mark.kind = operator.token) (rightWritten : right.Written after)
    (rightPlain : right.isMethod = false) :
    (binary operator left right span).Written (before ++ mark :: after) := by
  obtain ⟨readLeft, leftReads, sameLeft⟩ := leftWritten.value leftPlain
  obtain ⟨readRight, rightReads, sameRight⟩ := rightWritten.value rightPlain
  refine written_of_reads (.binary leftReads kind rightReads) ?_
  simp only [Expression.recast, sameLeft, sameRight]
  rfl

theorem isMethod_join (operator : BinaryOperator) (left right : Expression) :
    (join operator left right).isMethod = false := by
  cases right with
  | binary =>
    rw [join]
    split <;> rfl
  | _ => rfl

/-- Where two operands are joined, the tokens of a chain of the same operator on the right are cut
again. -/
theorem written_join {operator : BinaryOperator} {left : Expression}
    (leftWritten : left.Written before) (leftPlain : left.isMethod = false)
    (kind : mark.kind = operator.token) : ∀ (right : Expression) {after : List Token},
    right.Written after → right.isMethod = false →
      (join operator left right).Written (before ++ mark :: after)
  | binary inner middle right span, after, rightWritten, rightPlain => by
    rw [join]
    split
    next chain =>
      obtain ⟨rfl, -⟩ := chain
      obtain ⟨read, reads, same⟩ := rightWritten.value rightPlain
      cases reads with
      | binary middleReads further rightReads =>
        rw [Expression.recast, Expression.recast, binary.injEq] at same
        obtain ⟨rfl, sameMiddle, sameRight, -⟩ := same
        have middlePlain := (isMethod_eq_of_recast_eq sameMiddle).symm.trans middleReads.isMethod_eq
        have chained := written_join leftWritten leftPlain kind middle
          (written_of_reads middleReads sameMiddle) middlePlain
        have whole : Written (binary _ _ _ default) _ :=
          written_binary chained (isMethod_join _ _ _) further
          (written_of_reads rightReads sameRight)
          ((isMethod_eq_of_recast_eq sameRight).symm.trans rightReads.isMethod_eq)
        rwa [List.append_assoc, List.cons_append] at whole
      | _ =>
        rw [Expression.recast, Expression.recast] at same
        cases same
    · exact written_binary leftWritten leftPlain kind rightWritten rightPlain
  | unary .., _, rightWritten, rightPlain | call .., _, rightWritten, rightPlain
  | stringCall .., _, rightWritten, rightPlain | tableCall .., _, rightWritten, rightPlain
  | function .., _, rightWritten, rightPlain | group .., _, rightWritten, rightPlain
  | name _, _, rightWritten, rightPlain | index .., _, rightWritten, rightPlain
  | member .., _, rightWritten, rightPlain | literal _, _, rightWritten, rightPlain
  | table .., _, rightWritten, rightPlain =>
    written_binary leftWritten leftPlain kind rightWritten rightPlain

theorem written_unary {operator : UnaryOperator} {argument : Expression} {span : Span}
    (kind : mark.kind = operator.token) (written : argument.Written tokens)
    (plain : argument.isMethod = false) :
    (unary operator argument span).Written (mark :: tokens) := by
  obtain ⟨read, reads, same⟩ := written.value plain
  refine written_of_reads (.unary kind reads) ?_
  rw [Expression.recast, Expression.recast, same]
  rfl

theorem written_group {inner : Expression} {span : Span}
    (opens : opening.kind = .symbol .leftParen) (written : inner.Written tokens)
    (plain : inner.isMethod = false) (closes : closing.kind = .symbol .rightParen) :
    (group inner span).Written (opening :: tokens ++ [closing]) := by
  obtain ⟨read, reads, same⟩ := written.value plain
  refine written_of_reads (.group opens reads closes) ?_
  rw [Expression.recast, Expression.recast, same]
  rfl

theorem written_call {base : Expression} {arguments : List Expression} {span : Span}
    (baseWritten : base.Written before) (callee : base.isPrefix || base.isMethod)
    (opens : opening.kind = .symbol .leftParen) (written : WrittenArguments arguments tokens)
    (closes : closing.kind = .symbol .rightParen) :
    (call base arguments span).Written (before ++ opening :: tokens ++ [closing]) := by
  obtain ⟨readBase, baseReads, sameBase⟩ := baseWritten.callee callee
  obtain ⟨read, reads, same⟩ := written
  refine written_of_reads (.call baseReads opens reads closes) ?_
  rw [Expression.recast, Expression.recast, sameBase, same]
  rfl

theorem written_stringCall {base : Expression} {argument : Literal} {span : Span}
    (baseWritten : base.Written before) (callee : base.isPrefix || base.isMethod)
    (written : (literal argument).Written [token]) (isString : argument.isString) :
    (stringCall base argument span).Written (before ++ [token]) := by
  obtain ⟨readBase, baseReads, sameBase⟩ := baseWritten.callee callee
  obtain ⟨read, reads, same⟩ := written.value rfl
  generalize single : [token] = tokens at reads
  cases reads with
  | literal reads =>
    cases single
    rw [Expression.recast, Expression.recast, literal.injEq] at same
    cases reads with
    | string kind found =>
      refine written_of_reads (.stringCall baseReads kind found) ?_
      rw [Expression.recast, Expression.recast, sameBase, same]
      rfl
    | number _ found =>
      have value := congrArg Literal.value same
      unfold Grammar.numberLiteral at found
      split at found
      · cases found
        rw [Literal.isString, ← show _ = argument.value from value] at isString
        cases isString
      · cases found
    | _ =>
      have value := congrArg Literal.value same
      rw [Literal.isString, ← show _ = argument.value from value] at isString
      cases isString
  | _ =>
    rw [Expression.recast, Expression.recast] at same
    cases same

theorem written_tableCall {base : Expression} {fields : List Field} {tableSpan span : Span}
    (baseWritten : base.Written before) (callee : base.isPrefix || base.isMethod)
    (written : (table fields tableSpan).Written tokens) :
    (tableCall base fields tableSpan span).Written (before ++ tokens) := by
  obtain ⟨readBase, baseReads, sameBase⟩ := baseWritten.callee callee
  obtain ⟨read, reads, same⟩ := written.value rfl
  cases reads with
  | table opens reads closes =>
    rw [Expression.recast, Expression.recast, table.injEq] at same
    have whole := Expression.Reads.tableCall baseReads opens reads closes
    rw [List.append_assoc] at whole
    refine written_of_reads whole ?_
    rw [Expression.recast, Expression.recast, sameBase, same.1]
    rfl
  | _ =>
    rw [Expression.recast, Expression.recast] at same
    cases same

theorem written_function {parameters : List Parameter} {body : List Statement} {span : Span}
    (kind : mark.kind = .keyword .functionWord)
    (written : Statement.WrittenFunction parameters body tokens) :
    (function .anonymous parameters body span).Written (mark :: tokens) := by
  obtain ⟨readParameters, readBody, reads, sameParameters, sameBody⟩ := written
  refine written_of_reads (.function kind reads) ?_
  rw [Expression.recast, Expression.recast, sameParameters, sameBody]
  rfl

theorem written_name {identifier : Name} (written : identifier.Written token) :
    (name identifier).Written [token] := by
  obtain ⟨read, reads, same⟩ := written
  refine written_of_reads (.name reads) ?_
  rw [Expression.recast, Expression.recast, same]

theorem written_index {base key : Expression} {span : Span} (baseWritten : base.Written before)
    (isPrefix : base.isPrefix) (basePlain : base.isMethod = false)
    (opens : opening.kind = .symbol .leftSquare) (keyWritten : key.Written tokens)
    (keyPlain : key.isMethod = false) (closes : closing.kind = .symbol .rightSquare) :
    (index base key span).Written (before ++ opening :: tokens ++ [closing]) := by
  obtain ⟨readBase, readPrefix, baseReads, sameBase⟩ := baseWritten.isPrefix isPrefix basePlain
  obtain ⟨readKey, keyReads, sameKey⟩ := keyWritten.value keyPlain
  refine written_of_reads (.index readPrefix baseReads opens keyReads closes) ?_
  rw [Expression.recast, Expression.recast, sameBase, sameKey]
  rfl

theorem written_member {base : Expression} {selector : Selector} {name : Name} {span : Span}
    (baseWritten : base.Written before) (isPrefix : base.isPrefix)
    (basePlain : base.isMethod = false)
    (kind : mark.kind = .symbol selector.symbol)
    (nameWritten : name.Written token) :
    (member base selector name span).Written (before ++ [mark, token]) := by
  obtain ⟨readBase, readPrefix, baseReads, sameBase⟩ := baseWritten.isPrefix isPrefix basePlain
  obtain ⟨readName, nameReads, sameName⟩ := nameWritten
  cases selector with
  | dot =>
    refine written_of_reads (.member readPrefix baseReads kind nameReads) ?_
    rw [Expression.recast, Expression.recast, sameBase, sameName]
    rfl
  | colon =>
    refine ⟨_, .inr (.method readPrefix baseReads kind nameReads), ?_⟩
    rw [Expression.recast, Expression.recast, sameBase, sameName]
    rfl

theorem written_table {fields : List Field} {span : Span}
    (opens : opening.kind = .symbol .leftCurly) (written : Field.WrittenAll fields tokens)
    (closes : closing.kind = .symbol .rightCurly) :
    (table fields span).Written (opening :: tokens ++ [closing]) := by
  obtain ⟨read, reads, same⟩ := written
  refine written_of_reads (.table opens reads closes) ?_
  rw [Expression.recast, Expression.recast, same]
  rfl

end Expression

end LuaStyle
