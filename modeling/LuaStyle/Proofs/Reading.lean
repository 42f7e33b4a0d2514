/-
This file says which tokens a syntax tree is read from.

The grammar is given a second time, as a relation between trees and stretches of tokens: every node
names the tokens of its own and leaves the stretches between them to its children. Nothing here
decides how a stretch is to be cut, so precedence and foresight have no place in it; what the
relation fixes is that each token is accounted for once, in order, and that each node carries the
span that belongs to its tokens.

Comments take part where the tree has room for them, between the statements of a block and between
the fields of a table. A tree without comments reads a stretch of tokens without comments, which is
what the parser sees; a tree that has its comments in place reads the tokens of a whole source.

Semicolons may stand anywhere between statements, or nowhere, though a statement that starts with a
parenthesis may then be meant to go on the one before it. A strict reading has no such doubts: in it
semicolons stand exactly in front of the statements that start with a parenthesis and are not the
first of their block.
-/

import LuaStyle.Parser.Program

namespace LuaStyle

/-! ### Leaves -/

/-- The stretch of source from the first token to the last. -/
def Token.extent (tokens : List Token) : Span :=
  ⟨(tokens.head?.map Token.start).getD 0, (tokens.getLast?.map Token.stop).getD 0⟩

/-- The tokens start with a parenthesis. -/
def Token.startParenthesis (tokens : List Token) : Bool :=
  tokens.head?.any (·.kind == .symbol .leftParen)

/-- The name is read from the token. -/
def Name.Reads (name : Name) (token : Token) : Prop :=
  token.kind = .name ∧ name = ⟨token.text, token.span⟩

/-- The names are read from tokens with the separator between them. -/
inductive Name.ReadsAll (separator : Token.Kind) : List Name → List Token → Prop
  | single {name token} : name.Reads token → ReadsAll separator [name] [token]
  | cons {name token mark names tokens} :
    name.Reads token → mark.kind = separator → ReadsAll separator names tokens →
      ReadsAll separator (name :: names) (token :: mark :: tokens)

/-- The name of a declared function is read from the tokens. -/
inductive FunctionName.Reads : FunctionName → List Token → Prop
  | plain {path tokens} :
    Name.ReadsAll (.symbol .dot) path tokens → Reads ⟨path, none, Token.extent tokens⟩ tokens
  | method {path tokens mark name token} :
    Name.ReadsAll (.symbol .dot) path tokens → mark.kind = .symbol .colon → name.Reads token →
      Reads ⟨path, some name, Token.extent (tokens ++ [mark, token])⟩ (tokens ++ [mark, token])

/-- The literal is read from the token. -/
inductive Literal.Reads : Literal → Token → Prop
  | nil {token} :
    token.kind = .keyword .nilWord → Reads ⟨.nil, token.text, token.span⟩ token
  | true {token} :
    token.kind = .keyword .trueWord → Reads ⟨.boolean true, token.text, token.span⟩ token
  | false {token} :
    token.kind = .keyword .falseWord → Reads ⟨.boolean false, token.text, token.span⟩ token
  | vararg {token} :
    token.kind = .symbol .dotDotDot → Reads ⟨.vararg, token.text, token.span⟩ token
  | number {constant token} :
    token.kind = .number → Grammar.numberLiteral token = .ok constant → Reads constant token
  | string {constant token} :
    token.kind = .quotedString ∨ token.kind = .longString →
      Grammar.stringLiteral token = .ok constant → Reads constant token

/-- The parameters between two parentheses are read from the tokens. -/
inductive Parameter.ReadsAll : List Parameter → List Token → Prop
  | nil : ReadsAll [] []
  | vararg {token} :
    token.kind = .symbol .dotDotDot → ReadsAll [.vararg token.span] [token]
  | single {name token} : name.Reads token → ReadsAll [.name name] [token]
  | cons {name token mark parameters tokens} :
    name.Reads token → mark.kind = .symbol .comma → parameters ≠ [] →
      ReadsAll parameters tokens →
      ReadsAll (.name name :: parameters) (token :: mark :: tokens)

/-- The reserved word that opens the clause. -/
def ClauseWord.keyword : ClauseWord → Token.Keyword
  | ifWord => .ifWord
  | elseifWord => .elseifWord

/-- The statement is a `return`. -/
def Statement.isReturn : Statement → Bool
  | returnValues .. => true
  | _ => false

/-- Members can be selected from the expression, and it can be called, as it stands: it is a name or
something in parentheses, with selections and calls behind it. -/
def Expression.isPrefix : Expression → Bool
  | name _ | group .. | index .. | member _ .dot _ _ => true
  | call .. | stringCall .. | tableCall .. => true
  | _ => false

/-! ### Expressions and statements -/

section

variable (strict : Bool)

mutual

/-- The expression is read from the tokens. -/
inductive Expression.Reads : Expression → List Token → Prop
  | binary {operator left right before mark after} :
    left.Reads before → mark.kind = operator.token → right.Reads after →
      Expression.Reads (.binary operator left right (left.span.merge right.span))
        (before ++ mark :: after)
  | unary {operator argument mark tokens} :
    mark.kind = operator.token → argument.Reads tokens →
      Expression.Reads (.unary operator argument ⟨mark.start, argument.span.stop⟩) (mark :: tokens)
  | call {base arguments before opening tokens closing} :
    base.ReadsCallee before → opening.kind = .symbol .leftParen →
      Expression.ReadsArguments arguments tokens → closing.kind = .symbol .rightParen →
      Expression.Reads (.call base arguments ⟨base.span.start, closing.stop⟩)
        (before ++ opening :: tokens ++ [closing])
  | stringCall {base argument before token} :
    base.ReadsCallee before → token.kind = .quotedString ∨ token.kind = .longString →
      Grammar.stringLiteral token = .ok argument →
      Expression.Reads (.stringCall base argument ⟨base.span.start, token.stop⟩) (before ++ [token])
  | tableCall {base fields before opening tokens closing} :
    base.ReadsCallee before → opening.kind = .symbol .leftCurly → Field.ReadsAll fields tokens →
      closing.kind = .symbol .rightCurly →
      Expression.Reads
        (.tableCall base fields ⟨opening.start, closing.stop⟩ ⟨base.span.start, closing.stop⟩)
        (before ++ opening :: tokens ++ [closing])
  | function {parameters body keyword tokens} :
    keyword.kind = .keyword .functionWord → Statement.ReadsFunction parameters body tokens →
      Expression.Reads (.function .anonymous parameters body (Token.extent (keyword :: tokens)))
        (keyword :: tokens)
  | group {inner opening tokens closing} :
    opening.kind = .symbol .leftParen → inner.Reads tokens → closing.kind = .symbol .rightParen →
      Expression.Reads (.group inner ⟨opening.start, closing.stop⟩) (opening :: tokens ++ [closing])
  | name {name token} : name.Reads token → Expression.Reads (.name name) [token]
  | index {base key before opening tokens closing} :
    base.isPrefix → base.Reads before → opening.kind = .symbol .leftSquare → key.Reads tokens →
      closing.kind = .symbol .rightSquare →
      Expression.Reads (.index base key ⟨base.span.start, closing.stop⟩)
        (before ++ opening :: tokens ++ [closing])
  | member {base name before mark token} :
    base.isPrefix → base.Reads before → mark.kind = .symbol .dot → name.Reads token →
      Expression.Reads (.member base .dot name ⟨base.span.start, name.span.stop⟩)
        (before ++ [mark, token])
  | literal {constant token} : constant.Reads token → Expression.Reads (.literal constant) [token]
  | table {fields opening tokens closing} :
    opening.kind = .symbol .leftCurly → Field.ReadsAll fields tokens →
      closing.kind = .symbol .rightCurly →
      Expression.Reads (.table fields ⟨opening.start, closing.stop⟩)
        (opening :: tokens ++ [closing])

/-- What is called is read from the tokens: an expression, or a method of one. -/
inductive Expression.ReadsCallee : Expression → List Token → Prop
  | value {base tokens} : base.isPrefix → base.Reads tokens → Expression.ReadsCallee base tokens
  | method {base name before mark token} :
    base.isPrefix → base.Reads before → mark.kind = .symbol .colon → name.Reads token →
      Expression.ReadsCallee (.member base .colon name ⟨base.span.start, name.span.stop⟩)
        (before ++ [mark, token])

/-- The expressions, at least one, are read from the tokens, which have commas between them. -/
inductive Expression.ReadsAll : List Expression → List Token → Prop
  | single {expression tokens} : expression.Reads tokens → Expression.ReadsAll [expression] tokens
  | cons {expression rest tokens mark more} :
    expression.Reads tokens → mark.kind = .symbol .comma → Expression.ReadsAll rest more →
      Expression.ReadsAll (expression :: rest) (tokens ++ mark :: more)

/-- The arguments between two parentheses are read from the tokens. -/
inductive Expression.ReadsArguments : List Expression → List Token → Prop
  | nil : Expression.ReadsArguments [] []
  | some {arguments tokens} :
    Expression.ReadsAll arguments tokens → Expression.ReadsArguments arguments tokens

/-- The step of a loop that counts is read from the tokens, which start with its comma. -/
inductive Expression.ReadsStep : Option Expression → List Token → Prop
  | none : Expression.ReadsStep .none []
  | some {step mark tokens} :
    mark.kind = .symbol .comma → step.Reads tokens →
      Expression.ReadsStep (.some step) (mark :: tokens)

/-- The field is read from the tokens. -/
inductive Field.Reads : Field → List Token → Prop
  | keyed {key value opening inner closing mark tokens} :
    opening.kind = .symbol .leftSquare → key.Reads inner → closing.kind = .symbol .rightSquare →
      mark.kind = .symbol .equal → value.Reads tokens →
      Field.Reads (.keyed key value (Token.extent (opening :: inner ++ closing :: mark :: tokens)))
        (opening :: inner ++ closing :: mark :: tokens)
  | named {name value token mark tokens} :
    name.Reads token → mark.kind = .symbol .equal → value.Reads tokens →
      Field.Reads (.named name value (Token.extent (token :: mark :: tokens)))
        (token :: mark :: tokens)
  | positional {value tokens} : value.Reads tokens → Field.Reads (.positional value) tokens

/-- The fields between two braces are read from the tokens. A separator stands behind every value
that another one follows, and may stand behind the last. -/
inductive Field.ReadsAll : List Field → List Token → Prop
  | nil : Field.ReadsAll [] []
  | comment {token fields tokens} :
    token.kind = .comment → Field.ReadsAll fields tokens →
      Field.ReadsAll (.comment (Comment.ofToken token) :: fields) (token :: tokens)
  | last {field tokens fields comments} :
    field.Reads tokens → fields.all Field.isComment → Field.ReadsAll fields comments →
      Field.ReadsAll (field :: fields) (tokens ++ comments)
  | cons {field tokens mark fields more} :
    field.Reads tokens → mark.kind = .symbol .comma ∨ mark.kind = .symbol .semicolon →
      Field.ReadsAll fields more →
      Field.ReadsAll (field :: fields) (tokens ++ mark :: more)

/-- The parameters and the body of a function are read from the tokens. -/
inductive Statement.ReadsFunction : List Parameter → List Statement → List Token → Prop
  | intro {parameters body opening before closing tokens last} :
    opening.kind = .symbol .leftParen → Parameter.ReadsAll parameters before →
      closing.kind = .symbol .rightParen → Statement.ReadsBody body tokens →
      last.kind = .keyword .endWord →
      Statement.ReadsFunction parameters body (opening :: before ++ closing :: tokens ++ [last])

/-- The clause with a condition is read from the tokens. Its span is that of its header. -/
inductive Clause.ReadsGuarded : ClauseWord → Clause → List Token → Prop
  | intro {word condition body keyword inner header tokens} :
    keyword.kind = .keyword word.keyword → condition.Reads inner →
      header.kind = .keyword .thenWord → Statement.ReadsBody body tokens →
      Clause.ReadsGuarded word
        (.guarded word condition body (Token.extent (keyword :: inner ++ [header])))
        (keyword :: inner ++ header :: tokens)

/-- The clauses behind the first one are read from the tokens. -/
inductive Clause.ReadsFurther : List Clause → List Token → Prop
  | nil : Clause.ReadsFurther [] []
  | otherwise {body keyword tokens} :
    keyword.kind = .keyword .elseWord → Statement.ReadsBody body tokens →
      Clause.ReadsFurther [.otherwise body keyword.span] (keyword :: tokens)
  | cons {clause clauses tokens more} :
    Clause.ReadsGuarded .elseifWord clause tokens → Clause.ReadsFurther clauses more →
      Clause.ReadsFurther (clause :: clauses) (tokens ++ more)

/-- The statement is read from the tokens. -/
inductive Statement.Reads : Statement → List Token → Prop
  | assignment {target targets values before mark after} :
    (target :: targets).all Grammar.isAssignable →
      Expression.ReadsAll (target :: targets) before →
      mark.kind = .symbol .equal → Expression.ReadsAll values after →
      Statement.Reads (.assignment (target :: targets) values
        ⟨target.span.start, (Token.extent after).stop⟩) (before ++ mark :: after)
  | breakLoop {keyword} :
    keyword.kind = .keyword .breakWord → Statement.Reads (.breakLoop keyword.span) [keyword]
  | call {expression tokens} :
    expression.isCall → expression.Reads tokens →
      Statement.Reads (.call expression expression.span) tokens
  | comment {token} :
    token.kind = .comment → Statement.Reads (.comment (Comment.ofToken token)) [token]
  | doBlock {body keyword tokens last} :
    keyword.kind = .keyword .doWord → Statement.ReadsBody body tokens →
      last.kind = .keyword .endWord →
      Statement.Reads (.doBlock body ⟨keyword.start, last.stop⟩) (keyword :: tokens ++ [last])
  | genericFor {declared iterators body keyword before word inner header tokens last} :
    keyword.kind = .keyword .forWord → Name.ReadsAll (.symbol .comma) declared before →
      word.kind = .keyword .inWord → Expression.ReadsAll iterators inner →
      header.kind = .keyword .doWord → Statement.ReadsBody body tokens →
      last.kind = .keyword .endWord →
      Statement.Reads (.genericFor declared iterators body ⟨keyword.start, last.stop⟩)
        (keyword :: before ++ word :: inner ++ header :: tokens ++ [last])
  | numericFor {counter first final step body keyword token mark before comma after further header
      tokens last} :
    keyword.kind = .keyword .forWord → counter.Reads token → mark.kind = .symbol .equal →
      first.Reads before → comma.kind = .symbol .comma → final.Reads after →
      Expression.ReadsStep step further → header.kind = .keyword .doWord →
      Statement.ReadsBody body tokens → last.kind = .keyword .endWord →
      Statement.Reads (.numericFor counter first final step body ⟨keyword.start, last.stop⟩)
        (keyword :: token :: mark :: before ++ comma :: after ++ further
          ++ header :: tokens ++ [last])
  | function {name parameters body keyword before tokens} :
    keyword.kind = .keyword .functionWord → name.Reads before →
      Statement.ReadsFunction parameters body tokens →
      Statement.Reads
        (.function ⟨some name, false⟩ parameters body
          (Token.extent (keyword :: before ++ tokens)))
        (keyword :: before ++ tokens)
  | localFunction {name parameters body keyword word token tokens} :
    keyword.kind = .keyword .localWord → word.kind = .keyword .functionWord → name.Reads token →
      Statement.ReadsFunction parameters body tokens →
      Statement.Reads (.function ⟨some ⟨[name], none, name.span⟩, true⟩ parameters body
        (Token.extent (keyword :: word :: token :: tokens))) (keyword :: word :: token :: tokens)
  | goto {target keyword token} :
    keyword.kind = .keyword .gotoWord → target.Reads token →
      Statement.Reads (.goto target ⟨keyword.start, token.stop⟩) [keyword, token]
  | ifElse {clause clauses tokens more last} :
    Clause.ReadsGuarded .ifWord clause tokens → Clause.ReadsFurther clauses more →
      last.kind = .keyword .endWord →
      Statement.Reads (.ifElse (clause :: clauses) ⟨(Token.extent tokens).start, last.stop⟩)
        (tokens ++ more ++ [last])
  | label {name opening token closing} :
    opening.kind = .symbol .colonColon → name.Reads token → closing.kind = .symbol .colonColon →
      Statement.Reads (.label name ⟨opening.start, closing.stop⟩) [opening, token, closing]
  | localNames {declared keyword tokens} :
    keyword.kind = .keyword .localWord → Name.ReadsAll (.symbol .comma) declared tokens →
      Statement.Reads (.localVariables declared [] (Token.extent (keyword :: tokens)))
        (keyword :: tokens)
  | localVariables {declared values keyword before mark after} :
    keyword.kind = .keyword .localWord → Name.ReadsAll (.symbol .comma) declared before →
      mark.kind = .symbol .equal → Expression.ReadsAll values after →
      Statement.Reads
        (.localVariables declared values (Token.extent (keyword :: before ++ mark :: after)))
        (keyword :: before ++ mark :: after)
  | repeatUntil {body condition keyword tokens word after} :
    keyword.kind = .keyword .repeatWord → Statement.ReadsBody body tokens →
      word.kind = .keyword .untilWord → condition.Reads after →
      Statement.Reads
        (.repeatUntil body condition (Token.extent (keyword :: tokens ++ word :: after)))
        (keyword :: tokens ++ word :: after)
  | returnValues {values keyword tokens final} :
    keyword.kind = .keyword .returnWord → Expression.ReadsArguments values tokens →
      (final = [] ∨ strict = false ∧ ∃ mark, mark.kind = .symbol .semicolon ∧ final = [mark]) →
      Statement.Reads (.returnValues values (Token.extent (keyword :: tokens ++ final)))
        (keyword :: tokens ++ final)
  | whileLoop {condition body keyword inner header tokens last} :
    keyword.kind = .keyword .whileWord → condition.Reads inner → header.kind = .keyword .doWord →
      Statement.ReadsBody body tokens → last.kind = .keyword .endWord →
      Statement.Reads (.whileLoop condition body ⟨keyword.start, last.stop⟩)
        (keyword :: inner ++ header :: tokens ++ [last])

/-- The statements of a block are read from the tokens. Only comments follow a `return`. -/
inductive Statement.ReadsBody : List Statement → List Token → Prop
  | nil : Statement.ReadsBody [] []
  | semicolon {body mark tokens} :
    mark.kind = .symbol .semicolon → (strict → Token.startParenthesis tokens) →
      Statement.ReadsBody body tokens → Statement.ReadsBody body (mark :: tokens)
  | cons {statement rest tokens more} :
    statement.Reads tokens → (statement.isReturn → rest.all Statement.isComment) →
      (strict → Token.startParenthesis more = false) → Statement.ReadsBody rest more →
      Statement.ReadsBody (statement :: rest) (tokens ++ more)

end

end

end LuaStyle
