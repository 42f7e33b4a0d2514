/-
This file reads statements and expressions from tokens.

The grammar is read from left to right with one token of foresight, and two where the entry of a
table may start with a name. Each function reads one form and answers with the tree, the place
behind it and the bound on what remains there; the first error ends the reading.

All functions are defined together. Their recursion is well founded by the tokens that remain, and
where a function calls another one at the same place, by the fixed order of the grammar: a block
over a statement over an expression over its operand over a suffixed expression over its start. The
measure puts both into one number, eight for each token and less than eight for the place in the
order.
-/

import LuaStyle.Literal.Escape
import LuaStyle.Parser.Binding
import LuaStyle.Parser.Cursor

namespace LuaStyle.Grammar

/-! ### Forms without statements or expressions inside -/

/-- These tokens end a block and are left for what is around the block to read. -/
def isBlockEnd : Token.Kind → Bool
  | .keyword .endWord | .keyword .elseWord | .keyword .elseifWord | .keyword .untilWord
  | .endOfSource => true
  | _ => false

/-- Variables, fields and elements can be assigned to. -/
def isAssignable : Expression → Bool
  | .name _ | .index .. | .member _ .dot _ _ => true
  | _ => false

/-- The literal that a string token stands for. -/
def stringLiteral (token : Token) : Except ParseError Literal :=
  if token.kind = .longString then
    .ok ⟨.string (Utf8.encode (LongBracket.value token.text)), token.text, token.span⟩
  else
    match Escape.decode (token.text.drop 1).dropLast with
    | .ok bytes => .ok ⟨.string bytes, token.text, token.span⟩
    | .error span =>
      .error (.invalidEscape ⟨token.start + 1 + span.start, token.start + 1 + span.stop⟩)

/-- The literal that a number token stands for. -/
def numberLiteral (token : Token) : Except ParseError Literal :=
  match Numeral.valueOf? token.text with
  | some value => .ok ⟨.number value, token.text, token.span⟩
  | none => .error (.invalidNumber token)

/-- Selects a member by name. -/
def member (base : Expression) (selector : Selector) (name : Name) : Expression :=
  .member base selector name ⟨base.span.start, name.span.stop⟩

/-- The names behind a name, each announced by the given token. -/
def furtherNames (separator : Token.Kind) (cursor : Cursor) :
    Except ParseError (Parsed (cursor.size + 1) (List Name)) :=
  match cursor.accept? separator with
  | none => .ok ⟨[], cursor, by omega⟩
  | some ⟨_, afterSeparator, _⟩ => do
    let ⟨name, afterName, _⟩ ← afterSeparator.name
    let ⟨names, rest, _⟩ ← furtherNames separator afterName
    return ⟨name :: names, rest, by omega⟩
termination_by cursor.size

/-- A name and the names behind it, separated by commas. -/
def names (cursor : Cursor) : Except ParseError (Parsed cursor.size (List Name)) := do
  let ⟨first, afterFirst, _⟩ ← cursor.name
  let ⟨further, rest, _⟩ ← furtherNames (.symbol .comma) afterFirst
  return ⟨first :: further, rest, by omega⟩

/-- The name of a declared function. -/
def functionName (cursor : Cursor) : Except ParseError (Parsed cursor.size FunctionName) := do
  let ⟨first, afterFirst, _⟩ ← cursor.name
  let ⟨further, afterPath, _⟩ ← furtherNames (.symbol .dot) afterFirst
  match afterPath.accept? (.symbol .colon) with
  | none =>
    return ⟨⟨first :: further, none, afterPath.spanFrom first.span.start⟩, afterPath, by omega⟩
  | some ⟨_, afterColon, _⟩ => do
    let ⟨method, rest, _⟩ ← afterColon.name
    return ⟨⟨first :: further, some method, rest.spanFrom first.span.start⟩, rest, by omega⟩

/-- One parameter or more. Nothing follows the parameter that takes all remaining arguments. -/
def parametersFrom (cursor : Cursor) :
    Except ParseError (Parsed cursor.size (List Parameter)) :=
  match cursor.accept? (.symbol .dotDotDot) with
  | some ⟨token, rest, within⟩ => .ok ⟨[.vararg token.span], rest, within⟩
  | none => do
    let ⟨name, afterName, _⟩ ← cursor.name
    match afterName.accept? (.symbol .comma) with
    | none => return ⟨[.name name], afterName, by omega⟩
    | some ⟨_, afterComma, _⟩ => do
      let ⟨parameters, rest, _⟩ ← parametersFrom afterComma
      return ⟨.name name :: parameters, rest, by omega⟩
termination_by cursor.size

/-- Parameters in parentheses. -/
def parameters (cursor : Cursor) : Except ParseError (Parsed cursor.size (List Parameter)) := do
  let ⟨_, inside, opened⟩ ← cursor.expect (.symbol .leftParen)
  match inside.accept? (.symbol .rightParen) with
  | some ⟨_, rest, closed⟩ => return ⟨[], rest, Nat.lt_trans closed opened⟩
  | none => do
    let ⟨parameters, afterLast, within⟩ ← parametersFrom inside
    let ⟨_, rest, closed⟩ ← afterLast.expect (.symbol .rightParen)
    return ⟨parameters, rest, Nat.lt_trans closed (Nat.lt_trans within opened)⟩

/-! ### Statements and expressions -/

mutual

/-- Statements up to a token that ends a block. Semicolons between statements are passed over, and
a `return` is the last statement. -/
def block (cursor : Cursor) : Except ParseError (Parsed (cursor.size + 1) (List Statement)) :=
  if isBlockEnd cursor.kind then
    .ok ⟨[], cursor, by omega⟩
  else
    match cursor.accept? (.symbol .semicolon) with
    | some ⟨_, afterSemicolon, _⟩ => do
      let ⟨body, rest, _⟩ ← block afterSemicolon
      return ⟨body, rest, by omega⟩
    | none =>
      match cursor.accept? (.keyword .returnWord) with
      | some ⟨keyword, afterKeyword, _⟩ => do
        let ⟨last, rest, _⟩ ← returnValues keyword afterKeyword
        if isBlockEnd rest.kind then
          return ⟨[last], rest, by omega⟩
        else
          throw (rest.missing (.keyword .endWord))
      | none => do
        let ⟨first, afterFirst, _⟩ ← statement cursor
        let ⟨others, rest, _⟩ ← block afterFirst
        return ⟨first :: others, rest, by omega⟩
termination_by 8 * cursor.size + 7

/-- A statement other than `return`. -/
def statement (cursor : Cursor) : Except ParseError (Parsed cursor.size Statement) :=
  match cursor.next? with
  | none => .error (cursor.unexpected .expectedStatement)
  | some ⟨token, rest, within⟩ =>
    match token.kind with
    | .keyword .breakWord => .ok ⟨.breakLoop token.span, rest, within⟩
    | .symbol .colonColon => do
      let ⟨name, afterName, _⟩ ← rest.name
      let ⟨_, rest, _⟩ ← afterName.expect (.symbol .colonColon)
      return ⟨.label name (rest.spanFrom token.start), rest, by omega⟩
    | .keyword .doWord => do
      let ⟨body, afterBody, _⟩ ← block rest
      let ⟨_, rest, _⟩ ← afterBody.expect (.keyword .endWord)
      return ⟨.doBlock body (rest.spanFrom token.start), rest, by omega⟩
    | .keyword .forWord => do
      let ⟨loop, rest, _⟩ ← forLoop token rest
      return ⟨loop, rest, by omega⟩
    | .keyword .functionWord => do
      let ⟨name, afterName, _⟩ ← functionName rest
      let ⟨(parameters, body), rest, _⟩ ← functionBody afterName
      return ⟨.function ⟨some name, false⟩ parameters body (rest.spanFrom token.start), rest,
        by omega⟩
    | .keyword .gotoWord => do
      let ⟨target, rest, _⟩ ← rest.name
      return ⟨.goto target (rest.spanFrom token.start), rest, by omega⟩
    | .keyword .ifWord => do
      let ⟨first, afterFirst, _⟩ ← guardedClause .ifWord token rest
      let ⟨further, afterClauses, _⟩ ← furtherClauses afterFirst
      let ⟨_, rest, _⟩ ← afterClauses.expect (.keyword .endWord)
      return ⟨.ifElse (first :: further) (rest.spanFrom token.start), rest, by omega⟩
    | .keyword .localWord => do
      let ⟨declaration, rest, _⟩ ← localDeclaration token rest
      return ⟨declaration, rest, by omega⟩
    | .keyword .repeatWord => do
      let ⟨body, afterBody, _⟩ ← block rest
      let ⟨_, afterUntil, _⟩ ← afterBody.expect (.keyword .untilWord)
      let ⟨condition, rest, _⟩ ← expression 0 afterUntil
      return ⟨.repeatUntil body condition (rest.spanFrom token.start), rest, by omega⟩
    | .keyword .whileWord => do
      let ⟨condition, afterCondition, _⟩ ← expression 0 rest
      let ⟨_, afterDo, _⟩ ← afterCondition.expect (.keyword .doWord)
      let ⟨body, afterBody, _⟩ ← block afterDo
      let ⟨_, rest, _⟩ ← afterBody.expect (.keyword .endWord)
      return ⟨.whileLoop condition body (rest.spanFrom token.start), rest, by omega⟩
    | .name | .symbol .leftParen => assignmentOrCall cursor
    | _ => .error (cursor.unexpected .expectedStatement)
termination_by 8 * cursor.size + 6

/-- A statement that starts with an expression: an assignment if `=` or `,` follows, and otherwise
a call. -/
def assignmentOrCall (cursor : Cursor) : Except ParseError (Parsed cursor.size Statement) := do
  let ⟨first, afterFirst, _⟩ ← suffixed cursor
  if afterFirst.kind = .symbol .equal ∨ afterFirst.kind = .symbol .comma then
    let ⟨targets, afterTargets, _⟩ ← assignmentTargets first afterFirst
    let ⟨_, afterEqual, _⟩ ← afterTargets.expect (.symbol .equal)
    let ⟨values, rest, _⟩ ← expressions afterEqual
    return ⟨.assignment targets values (rest.spanFrom first.span.start), rest, by omega⟩
  else if first.isCall then
    return ⟨.call first first.span, afterFirst, by omega⟩
  else
    throw (afterFirst.missing (.symbol .equal))
termination_by 8 * cursor.size + 5

/-- The targets of an assignment, of which the first is already read. -/
def assignmentTargets (first : Expression) (cursor : Cursor) :
    Except ParseError (Parsed (cursor.size + 1) (List Expression)) :=
  if isAssignable first then
    match cursor.accept? (.symbol .comma) with
    | none => .ok ⟨[first], cursor, by omega⟩
    | some ⟨_, afterComma, _⟩ => do
      let ⟨second, afterSecond, _⟩ ← suffixed afterComma
      let ⟨others, rest, _⟩ ← assignmentTargets second afterSecond
      return ⟨first :: others, rest, by omega⟩
  else
    .error (.invalidAssignmentTarget first.span)
termination_by 8 * cursor.size

/-- What follows the word `for`. -/
def forLoop (keyword : Token) (cursor : Cursor) :
    Except ParseError (Parsed cursor.size Statement) := do
  let ⟨name, afterName, _⟩ ← cursor.name
  match afterName.accept? (.symbol .equal) with
  | some ⟨_, afterEqual, _⟩ => do
    let ⟨first, afterFirst, _⟩ ← expression 0 afterEqual
    let ⟨_, afterComma, _⟩ ← afterFirst.expect (.symbol .comma)
    let ⟨last, afterLast, _⟩ ← expression 0 afterComma
    let ⟨step, afterStep, _⟩ ← optionalStep afterLast
    let ⟨_, afterDo, _⟩ ← afterStep.expect (.keyword .doWord)
    let ⟨body, afterBody, _⟩ ← block afterDo
    let ⟨_, rest, _⟩ ← afterBody.expect (.keyword .endWord)
    return ⟨.numericFor name first last step body (rest.spanFrom keyword.start), rest, by omega⟩
  | none => do
    let ⟨further, afterNames, _⟩ ← furtherNames (.symbol .comma) afterName
    let ⟨_, afterIn, _⟩ ← afterNames.expect (.keyword .inWord)
    let ⟨iterators, afterIterators, _⟩ ← expressions afterIn
    let ⟨_, afterDo, _⟩ ← afterIterators.expect (.keyword .doWord)
    let ⟨body, afterBody, _⟩ ← block afterDo
    let ⟨_, rest, _⟩ ← afterBody.expect (.keyword .endWord)
    return ⟨.genericFor (name :: further) iterators body (rest.spanFrom keyword.start), rest,
      by omega⟩
termination_by 8 * cursor.size + 7

/-- The step of a loop that counts, which may be left out. -/
def optionalStep (cursor : Cursor) :
    Except ParseError (Parsed (cursor.size + 1) (Option Expression)) :=
  match cursor.accept? (.symbol .comma) with
  | none => .ok ⟨none, cursor, by omega⟩
  | some ⟨_, afterComma, _⟩ => do
    let ⟨step, rest, _⟩ ← expression 0 afterComma
    return ⟨some step, rest, by omega⟩
termination_by 8 * cursor.size

/-- The parameters and the body of a function, up to the word `end`. -/
def functionBody (cursor : Cursor) :
    Except ParseError (Parsed cursor.size (List Parameter × List Statement)) := do
  let ⟨parameters, afterParameters, _⟩ ← parameters cursor
  let ⟨body, afterBody, _⟩ ← block afterParameters
  let ⟨_, rest, _⟩ ← afterBody.expect (.keyword .endWord)
  return ⟨(parameters, body), rest, by omega⟩
termination_by 8 * cursor.size

/-- A clause with a condition, behind its word. Its span is that of its header. -/
def guardedClause (word : ClauseWord) (keyword : Token) (cursor : Cursor) :
    Except ParseError (Parsed cursor.size Clause) := do
  let ⟨condition, afterCondition, _⟩ ← expression 0 cursor
  let ⟨_, afterThen, _⟩ ← afterCondition.expect (.keyword .thenWord)
  let ⟨body, rest, _⟩ ← block afterThen
  return ⟨.guarded word condition body (afterThen.spanFrom keyword.start), rest, by omega⟩
termination_by 8 * cursor.size + 5

/-- The clauses behind the first one. -/
def furtherClauses (cursor : Cursor) :
    Except ParseError (Parsed (cursor.size + 1) (List Clause)) :=
  match cursor.accept? (.keyword .elseifWord) with
  | some ⟨keyword, afterKeyword, _⟩ => do
    let ⟨clause, afterClause, _⟩ ← guardedClause .elseifWord keyword afterKeyword
    let ⟨clauses, rest, _⟩ ← furtherClauses afterClause
    return ⟨clause :: clauses, rest, by omega⟩
  | none =>
    match cursor.accept? (.keyword .elseWord) with
    | some ⟨keyword, afterKeyword, _⟩ => do
      let ⟨body, rest, _⟩ ← block afterKeyword
      return ⟨[.otherwise body keyword.span], rest, by omega⟩
    | none => .ok ⟨[], cursor, by omega⟩
termination_by 8 * cursor.size

/-- What follows the word `local`. -/
def localDeclaration (keyword : Token) (cursor : Cursor) :
    Except ParseError (Parsed cursor.size Statement) :=
  match cursor.accept? (.keyword .functionWord) with
  | some ⟨_, afterFunction, _⟩ => do
    let ⟨name, afterName, _⟩ ← afterFunction.name
    let ⟨(parameters, body), rest, _⟩ ← functionBody afterName
    return ⟨.function ⟨some ⟨[name], none, name.span⟩, true⟩ parameters body
      (rest.spanFrom keyword.start), rest, by omega⟩
  | none => do
    let ⟨declared, afterNames, _⟩ ← names cursor
    match afterNames.accept? (.symbol .equal) with
    | some ⟨_, afterEqual, _⟩ => do
      let ⟨values, rest, _⟩ ← expressions afterEqual
      return ⟨.localVariables declared values (rest.spanFrom keyword.start), rest, by omega⟩
    | none =>
      return ⟨.localVariables declared [] (afterNames.spanFrom keyword.start), afterNames,
        by omega⟩
termination_by 8 * cursor.size + 7

/-- What follows the word `return`. A semicolon may end it. -/
def returnValues (keyword : Token) (cursor : Cursor) :
    Except ParseError (Parsed (cursor.size + 1) Statement) := do
  let ⟨values, afterValues, _⟩ ← optionalExpressions cursor
  match afterValues.accept? (.symbol .semicolon) with
  | some ⟨_, rest, _⟩ => return ⟨.returnValues values (rest.spanFrom keyword.start), rest, by omega⟩
  | none =>
    return ⟨.returnValues values (afterValues.spanFrom keyword.start), afterValues, by omega⟩
termination_by 8 * cursor.size + 7

/-- The values of a `return`, which may have none. -/
def optionalExpressions (cursor : Cursor) :
    Except ParseError (Parsed (cursor.size + 1) (List Expression)) :=
  if cursor.kind = .symbol .semicolon ∨ isBlockEnd cursor.kind then
    .ok ⟨[], cursor, by omega⟩
  else do
    let ⟨values, rest, _⟩ ← expressions cursor
    return ⟨values, rest, by omega⟩
termination_by 8 * cursor.size + 6

/-- Expressions separated by commas, at least one. -/
def expressions (cursor : Cursor) : Except ParseError (Parsed cursor.size (List Expression)) := do
  let ⟨first, afterFirst, _⟩ ← expression 0 cursor
  match afterFirst.accept? (.symbol .comma) with
  | none => return ⟨[first], afterFirst, by omega⟩
  | some ⟨_, afterComma, _⟩ => do
    let ⟨others, rest, _⟩ ← expressions afterComma
    return ⟨first :: others, rest, by omega⟩
termination_by 8 * cursor.size + 5

/-- An expression whose outermost binary operators all bind tighter than the limit. -/
def expression (limit : Nat) (cursor : Cursor) :
    Except ParseError (Parsed cursor.size Expression) := do
  let ⟨left, afterLeft, _⟩ ← operand cursor
  let ⟨whole, rest, _⟩ ← operators limit left afterLeft
  return ⟨whole, rest, by omega⟩
termination_by 8 * cursor.size + 4

/-- The operators behind an expression that bind tighter than the limit, with their right
operands. -/
def operators (limit : Nat) (left : Expression) (cursor : Cursor) :
    Except ParseError (Parsed (cursor.size + 1) Expression) :=
  match cursor.next? with
  | none => .ok ⟨left, cursor, by omega⟩
  | some ⟨token, afterOperator, _⟩ =>
    match BinaryOperator.ofToken? token.kind with
    | none => .ok ⟨left, cursor, by omega⟩
    | some operator =>
      if operator.leftPower ≤ limit then
        .ok ⟨left, cursor, by omega⟩
      else do
        let ⟨right, afterRight, _⟩ ← expression operator.rightPower afterOperator
        let joined := .binary operator left right (left.span.merge right.span)
        let ⟨whole, rest, _⟩ ← operators limit joined afterRight
        return ⟨whole, rest, by omega⟩
termination_by 8 * cursor.size

/-- An expression without binary operators outside of brackets, except in the operand of a unary
operator. -/
def operand (cursor : Cursor) : Except ParseError (Parsed cursor.size Expression) :=
  match cursor.next? with
  | none => suffixed cursor
  | some ⟨token, rest, within⟩ =>
    match UnaryOperator.ofToken? token.kind with
    | some operator => do
      let ⟨argument, rest, _⟩ ← expression UnaryOperator.bindingPower rest
      return ⟨.unary operator argument ⟨token.start, argument.span.stop⟩, rest, by omega⟩
    | none =>
      match token.kind with
      | .keyword .nilWord => .ok ⟨.literal ⟨.nil, token.text, token.span⟩, rest, within⟩
      | .keyword .trueWord =>
        .ok ⟨.literal ⟨.boolean true, token.text, token.span⟩, rest, within⟩
      | .keyword .falseWord =>
        .ok ⟨.literal ⟨.boolean false, token.text, token.span⟩, rest, within⟩
      | .symbol .dotDotDot => .ok ⟨.literal ⟨.vararg, token.text, token.span⟩, rest, within⟩
      | .number => do
        let literal ← numberLiteral token
        return ⟨.literal literal, rest, within⟩
      | .quotedString | .longString => do
        let literal ← stringLiteral token
        return ⟨.literal literal, rest, within⟩
      | .symbol .leftCurly => do
        let ⟨(fields, closing), rest, _⟩ ← tableBody rest
        return ⟨.table fields ⟨token.start, closing.stop⟩, rest, by omega⟩
      | .keyword .functionWord => do
        let ⟨(parameters, body), rest, _⟩ ← functionBody rest
        return ⟨.function .anonymous parameters body (rest.spanFrom token.start), rest,
          by omega⟩
      | _ => suffixed cursor
termination_by 8 * cursor.size + 3

/-- A name or an expression in parentheses, with the selections and calls behind it. -/
def suffixed (cursor : Cursor) : Except ParseError (Parsed cursor.size Expression) := do
  let ⟨base, afterBase, _⟩ ← primary cursor
  let ⟨whole, rest, _⟩ ← suffixes base afterBase
  return ⟨whole, rest, by omega⟩
termination_by 8 * cursor.size + 2

/-- A name or an expression in parentheses. -/
def primary (cursor : Cursor) : Except ParseError (Parsed cursor.size Expression) :=
  match cursor.next? with
  | none => .error (cursor.unexpected .expectedExpression)
  | some ⟨token, rest, within⟩ =>
    match token.kind with
    | .name => .ok ⟨.name ⟨token.text, token.span⟩, rest, within⟩
    | .symbol .leftParen => do
      let ⟨inner, afterInner, _⟩ ← expression 0 rest
      let ⟨closing, rest, _⟩ ← afterInner.expect (.symbol .rightParen)
      return ⟨.group inner ⟨token.start, closing.stop⟩, rest, by omega⟩
    | _ => .error (cursor.unexpected .expectedExpression)
termination_by 8 * cursor.size + 1

/-- The selections and calls behind an expression. -/
def suffixes (base : Expression) (cursor : Cursor) :
    Except ParseError (Parsed (cursor.size + 1) Expression) :=
  match cursor.next? with
  | none => .ok ⟨base, cursor, by omega⟩
  | some ⟨token, afterToken, _⟩ =>
    match token.kind with
    | .symbol .dot => do
      let ⟨name, afterName, _⟩ ← afterToken.name
      let ⟨whole, rest, _⟩ ← suffixes (member base .dot name) afterName
      return ⟨whole, rest, by omega⟩
    | .symbol .colon => do
      let ⟨name, afterName, _⟩ ← afterToken.name
      let ⟨call, afterCall, _⟩ ← call (member base .colon name) afterName
      let ⟨whole, rest, _⟩ ← suffixes call afterCall
      return ⟨whole, rest, by omega⟩
    | .symbol .leftSquare => do
      let ⟨key, afterKey, _⟩ ← expression 0 afterToken
      let ⟨closing, afterClosing, _⟩ ← afterKey.expect (.symbol .rightSquare)
      let ⟨whole, rest, _⟩ ←
        suffixes (.index base key ⟨base.span.start, closing.stop⟩) afterClosing
      return ⟨whole, rest, by omega⟩
    | .symbol .leftParen | .quotedString | .longString | .symbol .leftCurly => do
      let ⟨call, afterCall, _⟩ ← call base cursor
      let ⟨whole, rest, _⟩ ← suffixes call afterCall
      return ⟨whole, rest, by omega⟩
    | _ => .ok ⟨base, cursor, by omega⟩
termination_by 8 * cursor.size + 1

/-- The arguments of a call: in parentheses, or a single string or table. -/
def call (base : Expression) (cursor : Cursor) :
    Except ParseError (Parsed cursor.size Expression) :=
  match cursor.next? with
  | none => .error (cursor.missing (.symbol .leftParen))
  | some ⟨token, afterToken, within⟩ =>
    match token.kind with
    | .quotedString | .longString => do
      let argument ← stringLiteral token
      return ⟨.stringCall base argument ⟨base.span.start, token.stop⟩, afterToken, within⟩
    | .symbol .leftCurly => do
      let ⟨(fields, closing), rest, _⟩ ← tableBody afterToken
      return ⟨.tableCall base fields ⟨token.start, closing.stop⟩ ⟨base.span.start, closing.stop⟩,
        rest, by omega⟩
    | .symbol .leftParen => do
      let ⟨(arguments, closing), rest, _⟩ ← callArguments afterToken
      return ⟨.call base arguments ⟨base.span.start, closing.stop⟩, rest, by omega⟩
    | _ => .error (cursor.missing (.symbol .leftParen))
termination_by 8 * cursor.size

/-- The arguments of a call behind the opening parenthesis, and the closing one. -/
def callArguments (cursor : Cursor) :
    Except ParseError (Parsed cursor.size (List Expression × Token)) :=
  match cursor.accept? (.symbol .rightParen) with
  | some ⟨closing, rest, within⟩ => .ok ⟨([], closing), rest, within⟩
  | none => do
    let ⟨arguments, afterLast, _⟩ ← expressions cursor
    let ⟨closing, rest, _⟩ ← afterLast.expect (.symbol .rightParen)
    return ⟨(arguments, closing), rest, by omega⟩
termination_by 8 * cursor.size + 6

/-- The fields of a table behind the opening brace, and the closing one. -/
def tableBody (cursor : Cursor) :
    Except ParseError (Parsed cursor.size (List Field × Token)) := do
  let ⟨fields, afterFields, _⟩ ← fields cursor
  let ⟨closing, rest, _⟩ ← afterFields.expect (.symbol .rightCurly)
  return ⟨(fields, closing), rest, by omega⟩
termination_by 8 * cursor.size + 7

/-- The fields of a table, separated by commas or semicolons, of which one may also follow the last
field. -/
def fields (cursor : Cursor) : Except ParseError (Parsed (cursor.size + 1) (List Field)) :=
  if cursor.kind = .symbol .rightCurly then
    .ok ⟨[], cursor, by omega⟩
  else do
    let ⟨first, afterFirst, _⟩ ← field cursor
    match (afterFirst.accept? (.symbol .comma)).or (afterFirst.accept? (.symbol .semicolon)) with
    | none => return ⟨[first], afterFirst, by omega⟩
    | some ⟨_, afterSeparator, _⟩ => do
      let ⟨others, rest, _⟩ ← fields afterSeparator
      return ⟨first :: others, rest, by omega⟩
termination_by 8 * cursor.size + 6

/-- One field of a table. -/
def field (cursor : Cursor) : Except ParseError (Parsed cursor.size Field) :=
  match cursor.accept? (.symbol .leftSquare) with
  | some ⟨opening, afterOpening, _⟩ => do
    let ⟨key, afterKey, _⟩ ← expression 0 afterOpening
    let ⟨_, afterClosing, _⟩ ← afterKey.expect (.symbol .rightSquare)
    let ⟨_, afterEqual, _⟩ ← afterClosing.expect (.symbol .equal)
    let ⟨value, rest, _⟩ ← expression 0 afterEqual
    return ⟨.keyed key value (rest.spanFrom opening.start), rest, by omega⟩
  | none =>
    if cursor.kind = .name ∧ cursor.kindAfter = .symbol .equal then do
      let ⟨name, afterName, _⟩ ← cursor.name
      let ⟨_, afterEqual, _⟩ ← afterName.expect (.symbol .equal)
      let ⟨value, rest, _⟩ ← expression 0 afterEqual
      return ⟨.named name value (rest.spanFrom name.span.start), rest, by omega⟩
    else do
      let ⟨value, rest, _⟩ ← expression 0 cursor
      return ⟨.positional value, rest, by omega⟩
termination_by 8 * cursor.size + 5

end

end LuaStyle.Grammar
