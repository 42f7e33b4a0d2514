/-
This file takes the functions of the grammar apart into what each of them does by itself and the
calls that it makes.

A function of the grammar shows its result, but not the way there. A course shows it: it ends, or it
fails, or it calls a rule of the grammar at a place and goes on with whatever the call answers. A
course performs no call, so it needs no reason to end, and which calls are made, at which places and
in which order, can be read off it. Each rule has a routine here, written with elementary steps and
calls only; a loop is a rule that calls itself for its next round. Run with the functions of the
grammar to answer the calls, a routine gives what the function of its rule gives.
-/

import LuaStyle.Parser.Grammar

namespace LuaStyle

namespace Grammar

/-! ### Rules -/

/-- The functions of the grammar, each with what it is handed besides the place. -/
inductive Rule where
  | furtherNames (separator : Token.Kind)
  | names
  | functionName
  | parametersFrom
  | parameters
  | block
  | statement
  | assignmentOrCall
  | assignmentTargets (first : Expression)
  | forLoop (keyword : Token)
  | optionalStep
  | functionBody
  | guardedClause (word : ClauseWord) (keyword : Token)
  | furtherClauses
  | localDeclaration (keyword : Token)
  | returnValues (keyword : Token)
  | optionalExpressions
  | expressions
  | expression (limit : Nat)
  | operators (limit : Nat) (left : Expression)
  | operand
  | suffixed
  | primary
  | suffixes (base : Expression)
  | call (base : Expression)
  | callArguments
  | tableBody
  | fields
  | field

namespace Rule

/-- What is read by a rule. -/
abbrev Value : Rule → Type
  | furtherNames _ | names => List Name
  | functionName => FunctionName
  | parametersFrom | parameters => List Parameter
  | block => List Statement
  | statement | assignmentOrCall | forLoop _ | localDeclaration _ | returnValues _ => Statement
  | optionalStep => Option Expression
  | functionBody => List Parameter × List Statement
  | guardedClause _ _ => Clause
  | furtherClauses => List Clause
  | assignmentTargets _ | optionalExpressions | expressions => List Expression
  | expression _ | operators _ _ | operand | suffixed | primary | suffixes _ | call _ => Expression
  | callArguments => List Expression × Token
  | tableBody => List Field × Token
  | fields => List Field
  | field => Field

/-- The least number of tokens that a rule uses. The rules that may use none are those that also
read what is left out, and those that go on behind something that is already read. -/
def least : Rule → Nat
  | furtherNames _ | block | assignmentTargets _ | optionalStep | furtherClauses | returnValues _
  | optionalExpressions | operators _ _ | suffixes _ | fields => 0
  | _ => 1

/-- The order of the grammar, from the bottom up: a rule stands above those that it calls before it
has used a token. -/
def rank : Rule → Nat
  | block | returnValues _ | tableBody => 7
  | statement | optionalExpressions | callArguments | fields => 6
  | assignmentOrCall | guardedClause _ _ | expressions | field => 5
  | expression _ => 4
  | operand => 3
  | suffixed => 2
  | functionBody | localDeclaration _ | primary | suffixes _ => 1
  | _ => 0

end Rule

/-! ### Courses -/

/-- A computation that calls rules, and goes on with the answers. -/
inductive Course (Value : Type) where
  | fails (error : ParseError)
  | ends (value : Value)
  | calls (rule : Rule) (place : Cursor) (next : rule.Value × Cursor → Course Value)

namespace Course

variable {First Second Value : Type}

/-- Goes on behind the end of a course. -/
def bind : Course First → (First → Course Second) → Course Second
  | fails error, _ => fails error
  | ends value, further => further value
  | calls rule place next, further => calls rule place fun read => (next read).bind further

instance : Monad Course where
  pure := ends
  bind := bind

/-- What answers a call: a value and the place behind it, or an error. -/
abbrev Answers := (rule : Rule) → Cursor → Except ParseError (rule.Value × Cursor)

/-- The result of a course whose calls are answered. -/
def run (answers : Answers) : Course Value → Except ParseError Value
  | fails error => .error error
  | ends value => .ok value
  | calls rule place next => answers rule place >>= fun read => (next read).run answers

/-- The course makes the call before it ends or fails. -/
inductive Makes (answers : Answers) (rule : Rule) (place : Cursor) : Course Value → Prop
  | first {next : rule.Value × Cursor → Course Value} :
    Makes answers rule place (calls rule place next)
  | later {earlier : Rule} {before : Cursor} {next : earlier.Value × Cursor → Course Value}
    {read : earlier.Value × Cursor} (answered : answers earlier before = .ok read)
    (makes : Makes answers rule place (next read)) :
    Makes answers rule place (calls earlier before next)

end Course

/-! ### Routines -/

/-- A computation that starts at a place between two tokens and calls rules on its way. -/
abbrev Routine (Value : Type) := StateT Cursor Course Value

namespace Routine

variable {Value : Type}

/-- Calls a rule at the place that is reached. -/
def ask (rule : Rule) : Routine rule.Value :=
  fun cursor => .calls rule cursor .ends

/-- Does what is no rule of the grammar. -/
def lift (run : Except ParseError Value) : Routine Value :=
  fun cursor =>
    match run with
    | .error error => .fails error
    | .ok value => .ends (value, cursor)

/-- Fails at the token that follows. -/
def fail (cause : Token → ParseError) : Routine Value :=
  fun cursor => .fails (cursor.unexpected cause)

/-- Goes on as the kind of the token that follows says. -/
def look (next : Token.Kind → Routine Value) : Routine Value :=
  fun cursor => next cursor.kind cursor

/-- Uses a token of the kind. -/
def expect (kind : Token.Kind) : Routine Token :=
  fun cursor =>
    match cursor.expect kind with
    | .error error => .fails error
    | .ok parsed => .ends (parsed.value, parsed.rest)

/-- Uses a name. -/
def name : Routine Name := do
  let token ← expect .name
  return ⟨token.text, token.span⟩

/-- Goes on behind a token of the kind if such a token follows, and otherwise goes on here. -/
def ifNext (kind : Token.Kind) (behind : Token → Routine Value) (here : Routine Value) :
    Routine Value :=
  fun cursor => (cursor.accept? kind).elim (here cursor) fun parsed =>
    behind parsed.value parsed.rest

/-- From an offset to the end of the last token that was used. -/
def spanFrom (start : Nat) : Routine Span :=
  fun cursor => .ends (cursor.spanFrom start, cursor)

/-! ### Names and parameters -/

def furtherNames (separator : Token.Kind) : Routine (List Name) :=
  ifNext separator
    (fun _ => do
      let first ← name
      let others ← ask (.furtherNames separator)
      return first :: others)
    (pure [])

def names : Routine (List Name) := do
  let first ← name
  let further ← ask (.furtherNames (.symbol .comma))
  return first :: further

def functionName : Routine FunctionName := do
  let first ← name
  let further ← ask (.furtherNames (.symbol .dot))
  ifNext (.symbol .colon)
    (fun _ => do
      let method ← name
      return ⟨first :: further, some method, ← spanFrom first.span.start⟩)
    (do return ⟨first :: further, none, ← spanFrom first.span.start⟩)

def parametersFrom : Routine (List Parameter) :=
  ifNext (.symbol .dotDotDot) (fun token => pure [.vararg token.span]) do
    let name ← name
    ifNext (.symbol .comma)
      (fun _ => do
        let others ← ask .parametersFrom
        return .name name :: others)
      (pure [.name name])

def parameters : Routine (List Parameter) := do
  let _ ← expect (.symbol .leftParen)
  ifNext (.symbol .rightParen) (fun _ => pure []) do
    let parameters ← ask .parametersFrom
    let _ ← expect (.symbol .rightParen)
    return parameters

/-! ### Statements -/

def block : Routine (List Statement) :=
  look fun kind =>
    if isBlockEnd kind then pure []
    else
      ifNext (.symbol .semicolon) (fun _ => ask .block) <|
      ifNext (.keyword .returnWord)
        (fun keyword => do
          let last ← ask (.returnValues keyword)
          look fun kind =>
            if isBlockEnd kind then pure [last] else fail (.expected (.keyword .endWord)))
        do
          let first ← ask .statement
          let others ← ask .block
          return first :: others

def statement : Routine Statement :=
  look fun
    | .keyword .ifWord => do
      let token ← expect (.keyword .ifWord)
      let first ← ask (.guardedClause .ifWord token)
      let further ← ask .furtherClauses
      let _ ← expect (.keyword .endWord)
      return .ifElse (first :: further) (← spanFrom token.start)
    | .keyword .whileWord => do
      let token ← expect (.keyword .whileWord)
      let condition ← ask (.expression 0)
      let _ ← expect (.keyword .doWord)
      let body ← ask .block
      let _ ← expect (.keyword .endWord)
      return .whileLoop condition body (← spanFrom token.start)
    | .keyword .repeatWord => do
      let token ← expect (.keyword .repeatWord)
      let body ← ask .block
      let _ ← expect (.keyword .untilWord)
      let condition ← ask (.expression 0)
      return .repeatUntil body condition (← spanFrom token.start)
    | .keyword .forWord => do
      let token ← expect (.keyword .forWord)
      ask (.forLoop token)
    | .keyword .functionWord => do
      let token ← expect (.keyword .functionWord)
      let name ← ask .functionName
      let function ← ask .functionBody
      return .function ⟨some name, false⟩ function.1 function.2 (← spanFrom token.start)
    | .keyword .localWord => do
      let token ← expect (.keyword .localWord)
      ask (.localDeclaration token)
    | .keyword .doWord => do
      let token ← expect (.keyword .doWord)
      let body ← ask .block
      let _ ← expect (.keyword .endWord)
      return .doBlock body (← spanFrom token.start)
    | .keyword .breakWord => do
      let token ← expect (.keyword .breakWord)
      return .breakLoop token.span
    | .keyword .gotoWord => do
      let token ← expect (.keyword .gotoWord)
      let target ← name
      return .goto target (← spanFrom token.start)
    | .symbol .colonColon => do
      let token ← expect (.symbol .colonColon)
      let name ← name
      let _ ← expect (.symbol .colonColon)
      return .label name (← spanFrom token.start)
    | .name | .symbol .leftParen => ask .assignmentOrCall
    | _ => fail .expectedStatement

def assignmentOrCall : Routine Statement := do
  let first ← ask .suffixed
  look fun kind =>
    if kind = .symbol .equal ∨ kind = .symbol .comma then do
      let targets ← ask (.assignmentTargets first)
      let _ ← expect (.symbol .equal)
      let values ← ask .expressions
      return .assignment targets values (← spanFrom first.span.start)
    else if first.isCall then pure (.call first first.span)
    else fail (.expected (.symbol .equal))

def assignmentTargets (first : Expression) : Routine (List Expression) :=
  if isAssignable first then
    ifNext (.symbol .comma)
      (fun _ => do
        let second ← ask .suffixed
        let others ← ask (.assignmentTargets second)
        return first :: others)
      (pure [first])
  else lift (.error (.invalidAssignmentTarget first.span))

def forLoop (keyword : Token) : Routine Statement := do
  let first ← name
  ifNext (.symbol .equal)
    (fun _ => do
      let start ← ask (.expression 0)
      let _ ← expect (.symbol .comma)
      let last ← ask (.expression 0)
      let step ← ask .optionalStep
      let _ ← expect (.keyword .doWord)
      let body ← ask .block
      let _ ← expect (.keyword .endWord)
      return .numericFor first start last step body (← spanFrom keyword.start))
    do
      let further ← ask (.furtherNames (.symbol .comma))
      let _ ← expect (.keyword .inWord)
      let iterators ← ask .expressions
      let _ ← expect (.keyword .doWord)
      let body ← ask .block
      let _ ← expect (.keyword .endWord)
      return .genericFor (first :: further) iterators body (← spanFrom keyword.start)

def optionalStep : Routine (Option Expression) :=
  ifNext (.symbol .comma)
    (fun _ => do
      let step ← ask (.expression 0)
      return some step)
    (pure none)

def functionBody : Routine (List Parameter × List Statement) := do
  let parameters ← ask .parameters
  let body ← ask .block
  let _ ← expect (.keyword .endWord)
  return (parameters, body)

def guardedClause (word : ClauseWord) (keyword : Token) : Routine Clause := do
  let condition ← ask (.expression 0)
  let _ ← expect (.keyword .thenWord)
  let header ← spanFrom keyword.start
  let body ← ask .block
  return .guarded word condition body header

def furtherClauses : Routine (List Clause) :=
  ifNext (.keyword .elseifWord)
    (fun keyword => do
      let clause ← ask (.guardedClause .elseifWord keyword)
      let clauses ← ask .furtherClauses
      return clause :: clauses) <|
  ifNext (.keyword .elseWord)
    (fun keyword => do
      let body ← ask .block
      return [.otherwise body keyword.span])
    (pure [])

def localDeclaration (keyword : Token) : Routine Statement :=
  ifNext (.keyword .functionWord)
    (fun _ => do
      let name ← name
      let function ← ask .functionBody
      return .function ⟨some ⟨[name], none, name.span⟩, true⟩ function.1 function.2
        (← spanFrom keyword.start))
    do
      let declared ← ask .names
      ifNext (.symbol .equal)
        (fun _ => do
          let values ← ask .expressions
          return .localVariables declared values (← spanFrom keyword.start))
        (do return .localVariables declared [] (← spanFrom keyword.start))

def returnValues (keyword : Token) : Routine Statement := do
  let values ← ask .optionalExpressions
  ifNext (.symbol .semicolon)
    (fun _ => do return .returnValues values (← spanFrom keyword.start))
    (do return .returnValues values (← spanFrom keyword.start))

/-! ### Expressions -/

def optionalExpressions : Routine (List Expression) :=
  look fun kind =>
    if kind = .symbol .semicolon ∨ isBlockEnd kind then pure [] else ask .expressions

def expressions : Routine (List Expression) := do
  let first ← ask (.expression 0)
  ifNext (.symbol .comma)
    (fun _ => do
      let others ← ask .expressions
      return first :: others)
    (pure [first])

def expression (limit : Nat) : Routine Expression := do
  let left ← ask .operand
  ask (.operators limit left)

def operators (limit : Nat) (left : Expression) : Routine Expression :=
  look fun kind =>
    match BinaryOperator.ofToken? kind with
    | some operator =>
      if operator.leftPower ≤ limit then pure left
      else do
        let _ ← expect kind
        let right ← ask (.expression operator.rightPower)
        ask (.operators limit (.binary operator left right (left.span.merge right.span)))
    | none => pure left

/-- A token that is a literal by its kind alone. -/
def constant (kind : Token.Kind) (value : LiteralValue) : Routine Expression := do
  let token ← expect kind
  return .literal ⟨value, token.text, token.span⟩

def operand : Routine Expression :=
  look fun kind =>
    match UnaryOperator.ofToken? kind with
    | none =>
      match kind with
      | .number => do
        let token ← expect .number
        let literal ← lift (numberLiteral token)
        return .literal literal
      | .quotedString | .longString => do
        let token ← expect kind
        let literal ← lift (stringLiteral token)
        return .literal literal
      | .keyword .nilWord => constant (.keyword .nilWord) .nil
      | .keyword .trueWord => constant (.keyword .trueWord) (.boolean true)
      | .keyword .falseWord => constant (.keyword .falseWord) (.boolean false)
      | .symbol .dotDotDot => constant (.symbol .dotDotDot) .vararg
      | .symbol .leftCurly => do
        let opening ← expect (.symbol .leftCurly)
        let table ← ask .tableBody
        return .table table.1 ⟨opening.start, table.2.stop⟩
      | .keyword .functionWord => do
        let token ← expect (.keyword .functionWord)
        let function ← ask .functionBody
        return .function .anonymous function.1 function.2 (← spanFrom token.start)
      | _ => ask .suffixed
    | some operator => do
      let token ← expect kind
      let argument ← ask (.expression UnaryOperator.bindingPower)
      return .unary operator argument ⟨token.start, argument.span.stop⟩

def suffixed : Routine Expression := do
  let base ← ask .primary
  ask (.suffixes base)

def primary : Routine Expression :=
  look fun
    | .symbol .leftParen => do
      let opening ← expect (.symbol .leftParen)
      let inner ← ask (.expression 0)
      let closing ← expect (.symbol .rightParen)
      return .group inner ⟨opening.start, closing.stop⟩
    | .name => do
      let token ← expect .name
      return .name ⟨token.text, token.span⟩
    | _ => fail .expectedExpression

def suffixes (base : Expression) : Routine Expression :=
  look fun
    | .symbol .leftSquare => do
      let _ ← expect (.symbol .leftSquare)
      let key ← ask (.expression 0)
      let closing ← expect (.symbol .rightSquare)
      ask (.suffixes (.index base key ⟨base.span.start, closing.stop⟩))
    | .symbol .dot => do
      let _ ← expect (.symbol .dot)
      let name ← name
      ask (.suffixes (member base .dot name))
    | .symbol .colon => do
      let _ ← expect (.symbol .colon)
      let name ← name
      let call ← ask (.call (member base .colon name))
      ask (.suffixes call)
    | .symbol .leftParen | .symbol .leftCurly | .quotedString | .longString => do
      let call ← ask (.call base)
      ask (.suffixes call)
    | _ => pure base

def call (base : Expression) : Routine Expression :=
  look fun kind =>
    match kind with
    | .symbol .leftParen => do
      let _ ← expect (.symbol .leftParen)
      let arguments ← ask .callArguments
      return .call base arguments.1 ⟨base.span.start, arguments.2.stop⟩
    | .symbol .leftCurly => do
      let opening ← expect (.symbol .leftCurly)
      let table ← ask .tableBody
      return .tableCall base table.1 ⟨opening.start, table.2.stop⟩
        ⟨base.span.start, table.2.stop⟩
    | .quotedString | .longString => do
      let token ← expect kind
      let argument ← lift (stringLiteral token)
      return .stringCall base argument ⟨base.span.start, token.stop⟩
    | _ => fail (.expected (.symbol .leftParen))

def callArguments : Routine (List Expression × Token) :=
  ifNext (.symbol .rightParen) (fun closing => pure ([], closing)) do
    let arguments ← ask .expressions
    let closing ← expect (.symbol .rightParen)
    return (arguments, closing)

def tableBody : Routine (List Field × Token) := do
  let fields ← ask .fields
  let closing ← expect (.symbol .rightCurly)
  return (fields, closing)

def fields : Routine (List Field) :=
  look fun kind =>
    if kind = .symbol .rightCurly then pure []
    else do
      let first ← ask .field
      let further : Routine (List Field) := do
        let others ← ask .fields
        return first :: others
      ifNext (.symbol .comma) (fun _ => further) <|
      ifNext (.symbol .semicolon) (fun _ => further) (pure [first])

def field : Routine Field :=
  ifNext (.symbol .leftSquare)
    (fun opening => do
      let key ← ask (.expression 0)
      let _ ← expect (.symbol .rightSquare)
      let _ ← expect (.symbol .equal)
      let value ← ask (.expression 0)
      return .keyed key value (← spanFrom opening.start))
    fun cursor =>
      if cursor.kind = .name ∧ cursor.kindAfter = .symbol .equal then named cursor
      else positional cursor
where
  named : Routine Field := do
    let name ← name
    let _ ← expect (.symbol .equal)
    let value ← ask (.expression 0)
    return .named name value (← spanFrom name.span.start)
  positional : Routine Field := do
    let value ← ask (.expression 0)
    return .positional value

end Routine

/-! ### The routine and the function of each rule -/

namespace Rule

/-- What a rule does by itself. -/
def routine : (rule : Rule) → Routine rule.Value
  | furtherNames separator => Routine.furtherNames separator
  | names => Routine.names
  | functionName => Routine.functionName
  | parametersFrom => Routine.parametersFrom
  | parameters => Routine.parameters
  | block => Routine.block
  | statement => Routine.statement
  | assignmentOrCall => Routine.assignmentOrCall
  | assignmentTargets first => Routine.assignmentTargets first
  | forLoop keyword => Routine.forLoop keyword
  | optionalStep => Routine.optionalStep
  | functionBody => Routine.functionBody
  | guardedClause word keyword => Routine.guardedClause word keyword
  | furtherClauses => Routine.furtherClauses
  | localDeclaration keyword => Routine.localDeclaration keyword
  | returnValues keyword => Routine.returnValues keyword
  | optionalExpressions => Routine.optionalExpressions
  | expressions => Routine.expressions
  | expression limit => Routine.expression limit
  | operators limit left => Routine.operators limit left
  | operand => Routine.operand
  | suffixed => Routine.suffixed
  | primary => Routine.primary
  | suffixes base => Routine.suffixes base
  | call base => Routine.call base
  | callArguments => Routine.callArguments
  | tableBody => Routine.tableBody
  | fields => Routine.fields
  | field => Routine.field

/-- A result without its bound. -/
def forget {bound : Nat} {Value : Type} (run : Except ParseError (Parsed bound Value)) :
    Except ParseError (Value × Cursor) :=
  run.map fun parsed => (parsed.value, parsed.rest)

/-- The function of the grammar that a rule names. -/
def apply : (rule : Rule) → Cursor → Except ParseError (rule.Value × Cursor)
  | furtherNames separator, cursor => forget (Grammar.furtherNames separator cursor)
  | names, cursor => forget (Grammar.names cursor)
  | functionName, cursor => forget (Grammar.functionName cursor)
  | parametersFrom, cursor => forget (Grammar.parametersFrom cursor)
  | parameters, cursor => forget (Grammar.parameters cursor)
  | block, cursor => forget (Grammar.block cursor)
  | statement, cursor => forget (Grammar.statement cursor)
  | assignmentOrCall, cursor => forget (Grammar.assignmentOrCall cursor)
  | assignmentTargets first, cursor => forget (Grammar.assignmentTargets first cursor)
  | forLoop keyword, cursor => forget (Grammar.forLoop keyword cursor)
  | optionalStep, cursor => forget (Grammar.optionalStep cursor)
  | functionBody, cursor => forget (Grammar.functionBody cursor)
  | guardedClause word keyword, cursor => forget (Grammar.guardedClause word keyword cursor)
  | furtherClauses, cursor => forget (Grammar.furtherClauses cursor)
  | localDeclaration keyword, cursor => forget (Grammar.localDeclaration keyword cursor)
  | returnValues keyword, cursor => forget (Grammar.returnValues keyword cursor)
  | optionalExpressions, cursor => forget (Grammar.optionalExpressions cursor)
  | expressions, cursor => forget (Grammar.expressions cursor)
  | expression limit, cursor => forget (Grammar.expression limit cursor)
  | operators limit left, cursor => forget (Grammar.operators limit left cursor)
  | operand, cursor => forget (Grammar.operand cursor)
  | suffixed, cursor => forget (Grammar.suffixed cursor)
  | primary, cursor => forget (Grammar.primary cursor)
  | suffixes base, cursor => forget (Grammar.suffixes base cursor)
  | call base, cursor => forget (Grammar.call base cursor)
  | callArguments, cursor => forget (Grammar.callArguments cursor)
  | tableBody, cursor => forget (Grammar.tableBody cursor)
  | fields, cursor => forget (Grammar.fields cursor)
  | field, cursor => forget (Grammar.field cursor)

end Rule

end Grammar

end LuaStyle
