/-
This file lays out the nodes of a syntax tree.

Each statement starts a line, and what is inside a block is one level deeper than the block. Two
things may stay within a line: a block of a single short statement, and a short table with few
entries. Whether they do is decided from their laid-out form alone, from the inside out.

Parentheses are written where the place of an expression asks for them and not where the source has
them. Because a group is laid out as what is inside it, an operand can be laid out first and looked
at without its groups afterwards.
-/

import LuaStyle.Layout.Config
import LuaStyle.Layout.Doc
import LuaStyle.Layout.Error
import LuaStyle.Layout.Parentheses
import LuaStyle.Literal.LongBracket
import LuaStyle.Number.Notation
import LuaStyle.Number.Numeral
import LuaStyle.Text.Blank

namespace LuaStyle

/-! ### Leaves -/

/-- The most fields a table can have to stay on one line. -/
def Field.inlineCount : Nat := 3

/-- A text cut at each carriage return and line feed. -/
def Comment.split : List Char → List (List Char)
  | [] => [[]]
  | c :: rest =>
    if Token.isLineBreak c then [] :: Comment.split rest
    else
      match Comment.split rest with
      | [] => [[c]]
      | line :: lines => (c :: line) :: lines

/-- The lines of a comment that say something, without the blank characters around them. -/
def Comment.contentLines (text : List Char) : List (List Char) :=
  ((Comment.split text).map trim).filter (!·.isEmpty)

/-- A comment. One that goes over several lines gets long brackets, and each of its lines is one
level deeper than the comment; every other comment goes to the end of its line. The level of the
brackets is the lowest that holds the lines, and since a closing bracket cannot go over a line break
it does not depend on the indentation. -/
def Comment.doc (depth : Nat) (comment : Comment) : Doc :=
  let content := trim comment.text
  if comment.style = .block ∧ content.any Token.isLineBreak then
    let lines := Comment.contentLines content
    let level := LongBracket.lowestLevel (lines.flatMap ('\n' :: ·) ++ ['\n'])
    Doc.ofText ['-', '-'] ++ Doc.ofText (LongBracket.opening level)
      ++ lines.flatMap (fun line => .lineBreak (depth + 1) :: Doc.ofText line)
      ++ .lineBreak depth :: Doc.ofText (LongBracket.closing level)
  else if content = [] then
    Doc.ofText ['-', '-']
  else
    Doc.ofText ('-' :: '-' :: ' ' :: content)

/-- A hexadecimal number with its digits in upper case. -/
def Literal.normalHexadecimal? : List Char → Option (List Char)
  | '0' :: 'x' :: digits => some ('0' :: 'x' :: digits.map Char.toUpper)
  | '0' :: 'X' :: digits => some ('0' :: 'x' :: digits.map Char.toUpper)
  | _ => none

/-- The text in which a number is written. Hexadecimal numbers stay hexadecimal, and a number too
large to have digits keeps the text it was written with. -/
def Literal.normalNumber (raw : List Char) (value : Double) : List Char :=
  match Literal.normalHexadecimal? raw with
  | some text => text
  | none => if value.isFinite then value.normalForm else raw

/-- A number, provided that the text in which it is written still names it. -/
def Literal.numberDoc (raw : List Char) (value : Double) : Except FormatError Doc :=
  let text := Literal.normalNumber raw value
  if (Numeral.valueOf? text).any (·.sameNumber value) then .ok (Doc.ofText text)
  else .error (.changedNumber raw text)

/-- A literal. -/
def Literal.doc (config : Config) (constant : Literal) : Except FormatError Doc :=
  match constant.value with
  | .nil | .boolean _ | .vararg => .ok (Doc.ofText constant.raw)
  | .number value => Literal.numberDoc constant.raw value
  | .string bytes => .ok (Doc.ofText (Quoted.encode bytes config.quoteStyle))

/-- Names separated by commas. -/
def Name.docs (names : List Name) : Doc :=
  Doc.commaSeparated (names.map fun name => Doc.ofText name.text)

/-- A parameter. -/
def Parameter.doc : Parameter → Doc
  | .name identifier => Doc.ofText identifier.text
  | .vararg _ => Doc.ofText ['.', '.', '.']

/-- What stands in front of the parameters of a function. -/
def FunctionHead.doc (head : FunctionHead) : Doc :=
  Doc.ofText (if head.isLocal then "local function".toList else "function".toList)
    ++ (head.name.map fun name => .char ' ' :: Doc.ofText name.text).getD []

/-- Parameters in parentheses. -/
def Parameter.docs (parameters : List Parameter) : Doc :=
  Doc.parenthesize true (Doc.commaSeparated (parameters.map Parameter.doc))

/-! ### Blocks and tables, given their parts -/

namespace Statement

/-- The statements are comments, perhaps none, and then a function declaration. -/
def leadToDeclaration : List Statement → Bool
  | [] => false
  | statement :: rest =>
    if statement.isComment then leadToDeclaration rest else statement.isFunctionDeclaration

/-- An empty line stands between a statement and the statements that follow it. Function
declarations are set off from their neighbours, but the comments directly above a declaration belong
to it. -/
def blankLineBetween (statement : Statement) (following : List Statement) : Bool :=
  statement.isFunctionDeclaration ||
    (leadToDeclaration following && !leadToDeclaration (statement :: following))

/-- A statement behind another one. If it starts with a parenthesis, a semicolon keeps it from being
read as the arguments of a call. -/
def guarded (doc : Doc) : Doc :=
  if doc.head? = some (.char '(') then .char ';' :: doc else doc

/-- Statements below each other, given how each of them is laid out. -/
def stack (config : Config) (depth : Nat) : List Statement → List Doc → Doc
  | statement :: rest, doc :: next :: docs =>
    doc
      ++ (if config.extraNewlines && blankLineBetween statement rest then [.lineBreak 0] else [])
      ++ .lineBreak depth :: stack config depth rest (guarded next :: docs)
  | _, [doc] => doc
  | _, _ => []

/-- The statement is alone, and not a comment. -/
def isSingle : List Statement → Bool
  | [statement] => !statement.isComment
  | _ => false

/-- A block from behind the word that opens it, given how each of its statements is laid out one
level deeper. If the word that closes the block follows, there is a space or a line break before it;
otherwise the line ends with the block and gets neither. -/
def blockDoc (config : Config) (depth : Nat) (isClosed : Bool) (body : List Statement)
    (docs : List Doc) : Doc :=
  let inner := stack config (depth + 1) body docs
  if body.isEmpty then
    if isClosed then [.char ' '] else []
  else if config.inlineBlocks && isSingle body && inner.fitsInline then
    .char ' ' :: inner ++ (if isClosed then [.char ' '] else [])
  else
    .lineBreak (depth + 1) :: inner ++ (if isClosed then [.lineBreak depth] else [])

end Statement

namespace Field

/-- The fields of a table on lines of their own. A comma stands behind every value but the last,
and never behind a comment. -/
def stack (depth : Nat) : List Field → List Doc → Doc
  | field :: rest, doc :: docs =>
    .lineBreak depth :: doc
      ++ (if !field.isComment && rest.any (!·.isComment) then [.char ','] else [])
      ++ stack depth rest docs
  | _, _ => []

/-- A table, given how each of its fields is laid out one level deeper. -/
def tableDoc (config : Config) (depth : Nat) (fields : List Field) (docs : List Doc) : Doc :=
  if fields.isEmpty then
    Doc.ofText ['\x7b', '\x7d']
  else if config.inlineTables && fields.length ≤ inlineCount && !fields.any isComment
      && docs.all Doc.fitsInline then
    Doc.ofText ['\x7b', ' '] ++ Doc.commaSeparated docs ++ Doc.ofText [' ', '\x7d']
  else
    .char '\x7b' :: stack (depth + 1) fields docs ++ [.lineBreak depth, .char '\x7d']

end Field

/-- Something that is selected from or called, given how it is laid out. -/
def Expression.baseDoc (base : Expression) (doc : Doc) : Doc :=
  Doc.parenthesize (!base.withoutParens.isBase) doc

/-- The arguments of a call, given how they are laid out. -/
def Expression.argumentsDoc (arguments : List Expression) (docs : List Doc) : Doc :=
  match arguments with
  | [argument] =>
    Doc.parenthesize (!argument.withoutParens.isBareArgument) (Doc.commaSeparated docs)
  | _ => Doc.parenthesize true (Doc.commaSeparated docs)

/-- A unary operator and its operand, given how the operand is laid out. A space keeps a word, and
an operator before another one, from running into what follows. -/
def Expression.unaryDoc (operator : UnaryOperator) (argument : Expression) (doc : Doc) : Doc :=
  if argument.withoutParens.needsParensUnderUnary then
    Doc.ofText operator.text ++ Doc.parenthesize true doc
  else if operator.isWord || argument.withoutParens.isUnary then
    Doc.ofText operator.text ++ .char ' ' :: doc
  else
    Doc.ofText operator.text ++ doc

/-- A binary operator and its operands, given how the operands are laid out. -/
def Expression.binaryDoc (operator : BinaryOperator) (left right : Expression)
    (leftDoc rightDoc : Doc) : Doc :=
  Doc.parenthesize (left.withoutParens.needsParensOnLeft operator) leftDoc
    ++ .char ' ' :: Doc.ofText operator.text
    ++ .char ' ' ::
      Doc.parenthesize (right.withoutParens.needsParensOnRight operator) rightDoc

/-! ### The tree -/

mutual

/-- An expression. -/
def Expression.doc (config : Config) (depth : Nat) : Expression → Except FormatError Doc
  | .binary operator left right _ => do
    let leftDoc ← left.doc config depth
    let rightDoc ← right.doc config depth
    return Expression.binaryDoc operator left right leftDoc rightDoc
  | .unary operator argument _ => do
    let argumentDoc ← argument.doc config depth
    return Expression.unaryDoc operator argument argumentDoc
  | .call base arguments _ => do
    let baseDoc ← base.doc config depth
    let argumentDocs ← Expression.docs config depth arguments
    return base.baseDoc baseDoc ++ Expression.argumentsDoc arguments argumentDocs
  | .stringCall base argument _ => do
    let baseDoc ← base.doc config depth
    let argumentDoc ← argument.doc config
    return base.baseDoc baseDoc ++ argumentDoc
  | .tableCall base fields _ _ => do
    let baseDoc ← base.doc config depth
    let fieldDocs ← Field.docs config (depth + 1) fields
    return base.baseDoc baseDoc ++ Field.tableDoc config depth fields fieldDocs
  | .function head parameters body _ => do
    let bodyDocs ← Statement.docs config (depth + 1) body
    return head.doc ++ Parameter.docs parameters
      ++ Statement.blockDoc config depth true body bodyDocs ++ Doc.ofText "end".toList
  | .group inner _ => do
    let innerDoc ← inner.doc config depth
    return Doc.parenthesize inner.isMultipleValue innerDoc
  | .name identifier => return Doc.ofText identifier.text
  | .index base key _ => do
    let baseDoc ← base.doc config depth
    let keyDoc ← key.doc config depth
    return base.baseDoc baseDoc ++ .char '[' :: keyDoc ++ [.char ']']
  | .member base selector name _ => do
    let baseDoc ← base.doc config depth
    return base.baseDoc baseDoc ++ Doc.ofText selector.text ++ Doc.ofText name.text
  | .literal constant => constant.doc config
  | .table fields _ => do
    let fieldDocs ← Field.docs config (depth + 1) fields
    return Field.tableDoc config depth fields fieldDocs

/-- Expressions, one by one. -/
def Expression.docs (config : Config) (depth : Nat) :
    List Expression → Except FormatError (List Doc)
  | [] => return []
  | expression :: rest => do
    let doc ← expression.doc config depth
    let docs ← Expression.docs config depth rest
    return doc :: docs

/-- The expression that may be left out. -/
def Expression.optionalDocs (config : Config) (depth : Nat) :
    Option Expression → Except FormatError (List Doc)
  | none => return []
  | some expression => do
    let doc ← expression.doc config depth
    return [doc]

/-- A field. -/
def Field.doc (config : Config) (depth : Nat) : Field → Except FormatError Doc
  | .keyed key value _ => do
    let keyDoc ← key.doc config depth
    let valueDoc ← value.doc config depth
    return .char '[' :: keyDoc ++ Doc.ofText "] = ".toList ++ valueDoc
  | .named name value _ => do
    let valueDoc ← value.doc config depth
    return Doc.ofText name.text ++ Doc.ofText " = ".toList ++ valueDoc
  | .positional value => value.doc config depth
  | .comment remark => return remark.doc depth

/-- Fields, one by one. -/
def Field.docs (config : Config) (depth : Nat) : List Field → Except FormatError (List Doc)
  | [] => return []
  | field :: rest => do
    let doc ← field.doc config depth
    let docs ← Field.docs config depth rest
    return doc :: docs

/-- A clause. Only the last one is closed by the word `end`. -/
def Clause.doc (config : Config) (depth : Nat) (isLast : Bool) :
    Clause → Except FormatError Doc
  | .guarded word condition body _ => do
    let bodyDocs ← Statement.docs config (depth + 1) body
    let conditionDoc ← condition.doc config depth
    let opening :=
      match word with
      | .ifWord => "if ".toList
      | .elseifWord => "elseif ".toList
    return Doc.ofText opening ++ conditionDoc ++ Doc.ofText " then".toList
      ++ Statement.blockDoc config depth isLast body bodyDocs
  | .otherwise body _ => do
    let bodyDocs ← Statement.docs config (depth + 1) body
    return Doc.ofText "else".toList ++ Statement.blockDoc config depth isLast body bodyDocs

/-- Clauses, one by one. -/
def Clause.docs (config : Config) (depth : Nat) : List Clause → Except FormatError (List Doc)
  | [] => return []
  | clause :: rest => do
    let doc ← clause.doc config depth rest.isEmpty
    let docs ← Clause.docs config depth rest
    return doc :: docs

/-- A statement. -/
def Statement.doc (config : Config) (depth : Nat) : Statement → Except FormatError Doc
  | .assignment targets values _ => do
    let targetDocs ← Expression.docs config depth targets
    let valueDocs ← Expression.docs config depth values
    return Doc.commaSeparated targetDocs ++ Doc.ofText " = ".toList
      ++ Doc.commaSeparated valueDocs
  | .breakLoop _ => return Doc.ofText "break".toList
  | .call expression _ =>
    if expression.isCall then expression.doc config depth
    else throw (.unsupportedNode expression.kindName)
  | .comment remark => return remark.doc depth
  | .doBlock body _ => do
    let bodyDocs ← Statement.docs config (depth + 1) body
    return Doc.ofText "do".toList ++ Statement.blockDoc config depth true body bodyDocs
      ++ Doc.ofText "end".toList
  | .genericFor declared iterators body _ => do
    let iteratorDocs ← Expression.docs config depth iterators
    let bodyDocs ← Statement.docs config (depth + 1) body
    return Doc.ofText "for ".toList ++ Name.docs declared ++ Doc.ofText " in ".toList
      ++ Doc.commaSeparated iteratorDocs ++ Doc.ofText " do".toList
      ++ Statement.blockDoc config depth true body bodyDocs ++ Doc.ofText "end".toList
  | .numericFor counter first last step body _ => do
    let firstDoc ← first.doc config depth
    let lastDoc ← last.doc config depth
    let stepDocs ← Expression.optionalDocs config depth step
    let bodyDocs ← Statement.docs config (depth + 1) body
    return Doc.ofText "for ".toList ++ Doc.ofText counter.text ++ Doc.ofText " = ".toList
      ++ Doc.commaSeparated (firstDoc :: lastDoc :: stepDocs) ++ Doc.ofText " do".toList
      ++ Statement.blockDoc config depth true body bodyDocs ++ Doc.ofText "end".toList
  | .function head parameters body _ => do
    let bodyDocs ← Statement.docs config (depth + 1) body
    return head.doc ++ Parameter.docs parameters
      ++ Statement.blockDoc config depth true body bodyDocs ++ Doc.ofText "end".toList
  | .goto target _ => return Doc.ofText ("goto ".toList ++ target.text)
  | .ifElse clauses _ => do
    if clauses.isEmpty then throw (.unsupportedNode "If".toList)
    let clauseDocs ← Clause.docs config depth clauses
    return [.lineBreak depth].intercalate clauseDocs ++ Doc.ofText "end".toList
  | .label name _ => return Doc.ofText ("::".toList ++ name.text ++ "::".toList)
  | .localVariables declared values _ => do
    let valueDocs ← Expression.docs config depth values
    return Doc.ofText "local ".toList ++ Name.docs declared
      ++ (if values.isEmpty then []
        else Doc.ofText " = ".toList ++ Doc.commaSeparated valueDocs)
  | .repeatUntil body condition _ => do
    let bodyDocs ← Statement.docs config (depth + 1) body
    let conditionDoc ← condition.doc config depth
    return Doc.ofText "repeat".toList ++ Statement.blockDoc config depth true body bodyDocs
      ++ Doc.ofText "until ".toList ++ conditionDoc
  | .returnValues values _ => do
    let valueDocs ← Expression.docs config depth values
    return Doc.ofText "return".toList
      ++ (if values.isEmpty then [] else .char ' ' :: Doc.commaSeparated valueDocs)
  | .whileLoop condition body _ => do
    let conditionDoc ← condition.doc config depth
    let bodyDocs ← Statement.docs config (depth + 1) body
    return Doc.ofText "while ".toList ++ conditionDoc ++ Doc.ofText " do".toList
      ++ Statement.blockDoc config depth true body bodyDocs ++ Doc.ofText "end".toList

/-- Statements, one by one. -/
def Statement.docs (config : Config) (depth : Nat) :
    List Statement → Except FormatError (List Doc)
  | [] => return []
  | statement :: rest => do
    let doc ← statement.doc config depth
    let docs ← Statement.docs config depth rest
    return doc :: docs

end

/-- A chunk. -/
def Chunk.doc (config : Config) (chunk : Chunk) : Except FormatError Doc := do
  let docs ← Statement.docs config 0 chunk.body
  return Statement.stack config 0 chunk.body docs

end LuaStyle
