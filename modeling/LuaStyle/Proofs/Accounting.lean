/-
This file proves that a syntax tree writes out the tokens it was read from.

Written out in order, a tree gives the words of its source: reserved words and symbols where the
grammar has them, names, operators, parentheses for groups, and literals by their raw texts. Two
things are not in the tree. Semicolons may stand around the statements of a block, any number of
them, and the entries of a table may be separated by commas or by semicolons, of which one may also
stand behind the last entry. So a tree writes out a list of patterns, most of which stand for one
word, and a few of which leave this much open.

The relation between trees and tokens looks at the kind of a reserved word or a symbol and not at
its text, and at the text of a string and not at how it is delimited. Each tells the other in every
token of a source, so what a token is first known by is told from what the relation looks at.
-/

import LuaStyle.Proofs.CommentTokens
import Mathlib.Data.List.Forall2

namespace LuaStyle

/-! ### Words -/

/-- What a token is and how it is written, without where it stands. -/
structure Token.Word where
  /-- What the token is. -/
  kind : Token.Kind
  /-- The text of the token. -/
  text : List Char
deriving DecidableEq, Repr

/-- The word of a token. -/
def Token.word (token : Token) : Word :=
  ⟨token.kind, token.text⟩

/-- The word of a kind that has one text. -/
def Token.Kind.word (kind : Kind) : Word :=
  ⟨kind, kind.label⟩

/-- The word of a string that is written as the text. -/
def Token.Word.ofString (text : List Char) : Word :=
  ⟨if text.head? = some '[' then .longString else .quotedString, text⟩

/-- The word in which a literal is written. -/
def Literal.word (constant : Literal) : Token.Word :=
  match constant.value with
  | .nil => ⟨.keyword .nilWord, constant.raw⟩
  | .boolean true => ⟨.keyword .trueWord, constant.raw⟩
  | .boolean false => ⟨.keyword .falseWord, constant.raw⟩
  | .vararg => ⟨.symbol .dotDotDot, constant.raw⟩
  | .number _ => ⟨.number, constant.raw⟩
  | .string _ => .ofString constant.raw

/-! ### Patterns -/

/-- A part of what a tree writes out, with what it leaves open. -/
inductive Pattern where
  /-- One word. -/
  | word (word : Token.Word)
  /-- A comment, in whatever way it is written. -/
  | comment
  /-- What separates two entries of a table. -/
  | separator
  /-- What may stand behind the last entry of a table. -/
  | lastSeparator
  /-- Any number of semicolons. -/
  | semicolons

namespace Pattern

/-- The one word of the kind. -/
def mark (kind : Token.Kind) : Pattern :=
  .word kind.word

/-- The words are among those that the pattern leaves open. -/
def Allows : Pattern → List Token.Word → Prop
  | word only, words => words = [only]
  | comment, words => ∃ text, words = [⟨.comment, text⟩]
  | separator, words =>
    words = [Token.Kind.word (.symbol .comma)] ∨ words = [Token.Kind.word (.symbol .semicolon)]
  | lastSeparator, words =>
    words = [] ∨ words = [Token.Kind.word (.symbol .comma)] ∨
      words = [Token.Kind.word (.symbol .semicolon)]
  | semicolons, words => ∀ word ∈ words, word = Token.Kind.word (.symbol .semicolon)

/-- The words are those of the patterns, in order. -/
inductive Spell : List Pattern → List Token.Word → Prop
  | nil : Spell [] []
  | cons {pattern first patterns rest} :
    pattern.Allows first → Spell patterns rest → Spell (pattern :: patterns) (first ++ rest)

/-- A comma, if anything comes behind it. -/
def commaBefore {Item : Type} (rest : List Item) : List Pattern :=
  if rest.isEmpty then [] else [mark (.symbol .comma)]

end Pattern

/-! ### Writing out a tree -/

/-- The pattern that a name writes out. -/
def Name.pattern (name : Name) : Pattern :=
  .word ⟨.name, name.text⟩

/-- The patterns that names write out, with the separator between them. -/
def Name.patterns (separator : Token.Kind) (names : List Name) : List Pattern :=
  (names.map Name.pattern).intersperse (.mark separator)

/-- The patterns that the name of a function writes out. -/
def FunctionName.patterns (name : FunctionName) : List Pattern :=
  Name.patterns (.symbol .dot) name.path ++
    (name.method.map fun method => [.mark (.symbol .colon), method.pattern]).getD []

/-- The patterns that stand in front of the parameters of a function. -/
def FunctionHead.patterns (head : FunctionHead) : List Pattern :=
  (if head.isLocal then [.mark (.keyword .localWord)] else []) ++
    .mark (.keyword .functionWord) :: (head.name.map FunctionName.patterns).getD []

/-- The pattern that a parameter writes out. -/
def Parameter.pattern : Parameter → Pattern
  | name identifier => identifier.pattern
  | vararg _ => .mark (.symbol .dotDotDot)

/-- The patterns that parameters write out, with their parentheses. -/
def Parameter.patterns (parameters : List Parameter) : List Pattern :=
  .mark (.symbol .leftParen) ::
    (parameters.map Parameter.pattern).intersperse (.mark (.symbol .comma)) ++
      [.mark (.symbol .rightParen)]

/-- What stands behind an entry of a table that the others follow. -/
def Field.separatorBefore (rest : List Field) : Pattern :=
  if rest.all Field.isComment then .lastSeparator else .separator

mutual

/-- The patterns that an expression writes out. -/
def Expression.patterns : Expression → List Pattern
  | .binary operator left right _ => left.patterns ++ .mark operator.token :: right.patterns
  | .unary operator argument _ => .mark operator.token :: argument.patterns
  | .call base arguments _ =>
    base.patterns ++ .mark (.symbol .leftParen) :: Expression.patternsOfAll arguments ++
      [.mark (.symbol .rightParen)]
  | .stringCall base argument _ => base.patterns ++ [.word argument.word]
  | .tableCall base fields _ _ =>
    base.patterns ++ .mark (.symbol .leftCurly) :: Field.patternsOfAll fields ++
      [.mark (.symbol .rightCurly)]
  | .function head parameters body _ =>
    head.patterns ++
      (Parameter.patterns parameters ++ Statement.patternsOfAll body ++ [.mark (.keyword .endWord)])
  | .group inner _ =>
    .mark (.symbol .leftParen) :: inner.patterns ++ [.mark (.symbol .rightParen)]
  | .name identifier => [identifier.pattern]
  | .index base key _ =>
    base.patterns ++ .mark (.symbol .leftSquare) :: key.patterns ++ [.mark (.symbol .rightSquare)]
  | .member base .dot name _ => base.patterns ++ [.mark (.symbol .dot), name.pattern]
  | .member base .colon name _ => base.patterns ++ [.mark (.symbol .colon), name.pattern]
  | .literal constant => [.word constant.word]
  | .table fields _ =>
    .mark (.symbol .leftCurly) :: Field.patternsOfAll fields ++ [.mark (.symbol .rightCurly)]

/-- The patterns that expressions write out, with commas between them. -/
def Expression.patternsOfAll : List Expression → List Pattern
  | [] => []
  | expression :: rest =>
    expression.patterns ++ (Pattern.commaBefore rest ++ Expression.patternsOfAll rest)

/-- The patterns that the step of a loop writes out, with its comma. -/
def Expression.patternsOfStep : Option Expression → List Pattern
  | none => []
  | some step => .mark (.symbol .comma) :: step.patterns

/-- The patterns that a field writes out. -/
def Field.patterns : Field → List Pattern
  | .keyed key value _ =>
    .mark (.symbol .leftSquare) :: key.patterns ++
      .mark (.symbol .rightSquare) :: .mark (.symbol .equal) :: value.patterns
  | .named name value _ => name.pattern :: .mark (.symbol .equal) :: value.patterns
  | .positional value => value.patterns
  | .comment _ => [.comment]

/-- The patterns that fields write out, with separators between them. -/
def Field.patternsOfAll : List Field → List Pattern
  | [] => []
  | field :: rest =>
    if field.isComment then field.patterns ++ Field.patternsOfAll rest
    else field.patterns ++ Field.separatorBefore rest :: Field.patternsOfAll rest

/-- The patterns that a clause writes out. -/
def Clause.patterns : Clause → List Pattern
  | .guarded word condition body _ =>
    .mark (.keyword word.keyword) :: condition.patterns ++
      .mark (.keyword .thenWord) :: Statement.patternsOfAll body
  | .otherwise body _ => .mark (.keyword .elseWord) :: Statement.patternsOfAll body

/-- The patterns that clauses write out. -/
def Clause.patternsOfAll : List Clause → List Pattern
  | [] => []
  | clause :: rest => clause.patterns ++ Clause.patternsOfAll rest

/-- The patterns that a statement writes out. -/
def Statement.patterns : Statement → List Pattern
  | .assignment targets values _ =>
    Expression.patternsOfAll targets ++ .mark (.symbol .equal) :: Expression.patternsOfAll values
  | .breakLoop _ => [.mark (.keyword .breakWord)]
  | .call expression _ => expression.patterns
  | .comment _ => [.comment]
  | .doBlock body _ =>
    .mark (.keyword .doWord) :: Statement.patternsOfAll body ++ [.mark (.keyword .endWord)]
  | .genericFor declared iterators body _ =>
    .mark (.keyword .forWord) :: Name.patterns (.symbol .comma) declared ++
      .mark (.keyword .inWord) :: Expression.patternsOfAll iterators ++
      .mark (.keyword .doWord) :: Statement.patternsOfAll body ++ [.mark (.keyword .endWord)]
  | .numericFor counter first last step body _ =>
    .mark (.keyword .forWord) :: counter.pattern :: .mark (.symbol .equal) :: first.patterns ++
      .mark (.symbol .comma) :: last.patterns ++ Expression.patternsOfStep step ++
      .mark (.keyword .doWord) :: Statement.patternsOfAll body ++ [.mark (.keyword .endWord)]
  | .function head parameters body _ =>
    head.patterns ++
      (Parameter.patterns parameters ++ Statement.patternsOfAll body ++ [.mark (.keyword .endWord)])
  | .goto target _ => [.mark (.keyword .gotoWord), target.pattern]
  | .ifElse clauses _ => Clause.patternsOfAll clauses ++ [.mark (.keyword .endWord)]
  | .label name _ => [.mark (.symbol .colonColon), name.pattern, .mark (.symbol .colonColon)]
  | .localVariables declared values _ =>
    .mark (.keyword .localWord) :: Name.patterns (.symbol .comma) declared ++
      (if values.isEmpty then []
        else .mark (.symbol .equal) :: Expression.patternsOfAll values)
  | .repeatUntil body condition _ =>
    .mark (.keyword .repeatWord) :: Statement.patternsOfAll body ++
      .mark (.keyword .untilWord) :: condition.patterns
  | .returnValues values _ => .mark (.keyword .returnWord) :: Expression.patternsOfAll values
  | .whileLoop condition body _ =>
    .mark (.keyword .whileWord) :: condition.patterns ++
      .mark (.keyword .doWord) :: Statement.patternsOfAll body ++ [.mark (.keyword .endWord)]

/-- The patterns that the statements of a block write out. Semicolons may stand before each of them
and behind the last. -/
def Statement.patternsOfAll : List Statement → List Pattern
  | [] => [.semicolons]
  | statement :: rest => .semicolons :: (statement.patterns ++ Statement.patternsOfAll rest)

end

/-! ### What a token is known by -/

namespace Token

/-- The kind is that of a reserved word or a symbol. -/
def Kind.isMark : Kind → Bool
  | keyword _ | symbol _ => true
  | _ => false

/-- The token is known by the word: by its kind and text, by the kind alone if it is a reserved word
or a symbol, or by the text alone if it is a string. A number is known only if it has a value. -/
inductive KnownBy : Word → Token → Prop
  | word {token} : token.kind ≠ .number → KnownBy token.word token
  | number {constant token} :
    token.kind = .number → Grammar.numberLiteral token = .ok constant → KnownBy token.word token
  | mark {token} : token.kind.isMark → KnownBy token.kind.word token
  | string {token} :
    token.kind = .quotedString ∨ token.kind = .longString → KnownBy (.ofString token.text) token

/-- A token that is written like its kind is known by its word only. -/
theorem KnownBy.eq_word {word : Word} {token : Token} (known : KnownBy word token)
    (spelled : Spelled token.kind token.text) : word = token.word := by
  obtain ⟨kind, text, start⟩ := token
  cases known with
  | word | number => rfl
  | mark isMark =>
    cases spelled with
    | keyword | symbol => rfl
    | _ => cases isMark
  | string isString =>
    cases spelled with
    | @quotedString quote rest notBracket =>
      have other : (quote :: rest).head? ≠ some '[' := fun same => notBracket (Option.some.inj same)
      exact congrArg (Word.mk · _) (if_neg other)
    | longString => rfl
    | _ => rcases isString with same | same <;> cases same

/-- A token known by a number is one that the parser reads as a number. -/
theorem KnownBy.exists_numberLiteral {word : Word} {token : Token} (known : KnownBy word token)
    (kind : token.kind = .number) : ∃ constant, Grammar.numberLiteral token = .ok constant := by
  cases known with
  | word other => exact absurd kind other
  | number _ found => exact ⟨_, found⟩
  | mark isMark =>
    rw [kind] at isMark
    cases isMark
  | string isString => rcases isString with same | same <;> cases kind.symm.trans same

/-- A mark is known by its kind. -/
theorem KnownBy.of_kind {kind : Kind} {token : Token} (is : token.kind = kind)
    (isMark : kind.isMark) : KnownBy kind.word token := by
  subst is
  exact .mark isMark

theorem KnownBy.of_other {kind : Kind} {token : Token} (is : token.kind = kind)
    (other : kind ≠ .number) : KnownBy ⟨kind, token.text⟩ token := by
  subst is
  exact .word other

/-- A name is known by its text. -/
theorem KnownBy.of_name {name : Name} {token : Token} (reads : name.Reads token) :
    KnownBy ⟨.name, name.text⟩ token := by
  obtain ⟨kind, rfl⟩ := reads
  exact .of_other kind Kind.noConfusion

/-- A string is known by its bytes. -/
theorem KnownBy.of_stringLiteral {constant : Literal} {token : Token}
    (isString : token.kind = .quotedString ∨ token.kind = .longString)
    (found : Grammar.stringLiteral token = .ok constant) : KnownBy constant.word token := by
  unfold Grammar.stringLiteral at found
  split at found
  · cases found
    exact .string isString
  · split at found
    · cases found
      exact .string isString
    · cases found

/-- A literal is known by its word. -/
theorem KnownBy.of_literal {constant : Literal} {token : Token} (reads : constant.Reads token) :
    KnownBy constant.word token := by
  cases reads with
  | nil kind | true kind | false kind | vararg kind => exact .of_other kind Kind.noConfusion
  | number kind found =>
    have known := KnownBy.number kind found
    unfold Grammar.numberLiteral at found
    split at found
    · cases found
      rwa [Literal.word, ← kind]
    · cases found
  | string isString found => exact .of_stringLiteral isString found

end Token

theorem BinaryOperator.isMark_token (operator : BinaryOperator) : operator.token.isMark := by
  cases operator <;> rfl

theorem UnaryOperator.isMark_token (operator : UnaryOperator) : operator.token.isMark := by
  cases operator <;> rfl

/-! ### Spelling -/

/-- Words of two lists of patterns, one behind the other, are words of both. -/
theorem Pattern.Spell.append {first second : List Pattern} {words more : List Token.Word}
    (spelled : Pattern.Spell first words) (further : Pattern.Spell second more) :
    Pattern.Spell (first ++ second) (words ++ more) := by
  induction spelled with
  | nil => exact further
  | cons allowed _ inductionHypothesis =>
    rw [List.append_assoc]
    exact .cons allowed inductionHypothesis

/-- The patterns are those of words that the tokens are known by. -/
def Pattern.Spells (patterns : List Pattern) (tokens : List Token) : Prop :=
  ∃ words, Pattern.Spell patterns words ∧ List.Forall₂ Token.KnownBy words tokens

namespace Pattern.Spells

variable {patterns more : List Pattern} {tokens further : List Token} {token : Token}
  {kind : Token.Kind}

theorem nil : Spells [] [] :=
  ⟨[], .nil, .nil⟩

/-- Tokens of two lists of patterns, one behind the other, are tokens of both. -/
theorem append (spelled : Spells patterns tokens) (others : Spells more further) :
    Spells (patterns ++ more) (tokens ++ further) := by
  obtain ⟨words, spelled, known⟩ := spelled
  obtain ⟨moreWords, others, moreKnown⟩ := others
  exact ⟨words ++ moreWords, spelled.append others, List.rel_append known moreKnown⟩

/-- A pattern that leaves open what the tokens are known by. -/
theorem single {pattern : Pattern} {words : List Token.Word} (allowed : pattern.Allows words)
    (known : List.Forall₂ Token.KnownBy words tokens) : Spells [pattern] tokens :=
  ⟨words ++ [], .cons allowed .nil, (List.append_nil words).symm ▸ known⟩

/-- A token stands in front. -/
theorem word {only : Token.Word} (known : Token.KnownBy only token)
    (others : Spells patterns tokens) : Spells (.word only :: patterns) (token :: tokens) := by
  have first : Spells [.word only] [token] := single rfl (.cons known .nil)
  exact first.append others

/-- A reserved word or a symbol stands in front. -/
theorem mark (is : token.kind = kind) (isMark : kind.isMark) (others : Spells patterns tokens) :
    Spells (.mark kind :: patterns) (token :: tokens) :=
  .word (.of_kind is isMark) others

/-- A reserved word or a symbol stands behind. -/
theorem concat (spelled : Spells patterns tokens) (is : token.kind = kind) (isMark : kind.isMark) :
    Spells (patterns ++ [.mark kind]) (tokens ++ [token]) :=
  spelled.append (.mark is isMark .nil)

/-- A name stands in front. -/
theorem name {identifier : Name} (reads : identifier.Reads token)
    (others : Spells patterns tokens) :
    Spells (identifier.pattern :: patterns) (token :: tokens) :=
  .word (.of_name reads) others

end Pattern.Spells

/-! ### Lists of leaves -/

theorem intersperse_cons_of_ne_nil {Item : Type} (separator first : Item) {rest : List Item}
    (nonempty : rest ≠ []) :
    (first :: rest).intersperse separator = first :: separator :: rest.intersperse separator := by
  cases rest with
  | nil => exact absurd rfl nonempty
  | cons => rfl

/-- Names write out their tokens. -/
theorem Name.ReadsAll.spells {separator : Token.Kind} {names : List Name} {tokens : List Token}
    (reads : Name.ReadsAll separator names tokens) (isMark : separator.isMark) :
    Pattern.Spells (Name.patterns separator names) tokens := by
  induction reads with
  | single reads => exact .name reads .nil
  | @cons name token mark names tokens reads kind others inductionHypothesis =>
    have nonempty : names.map Name.pattern ≠ [] := by
      cases others <;> exact List.cons_ne_nil _ _
    rw [Name.patterns, List.map_cons, intersperse_cons_of_ne_nil _ _ nonempty]
    exact .name reads (.mark kind isMark inductionHypothesis)

/-- The name of a function writes out its tokens. -/
theorem FunctionName.Reads.spells {name : FunctionName} {tokens : List Token}
    (reads : name.Reads tokens) : Pattern.Spells name.patterns tokens := by
  cases reads with
  | plain pathReads =>
    rw [FunctionName.patterns, ← List.append_nil tokens]
    exact (pathReads.spells rfl).append .nil
  | method pathReads kind nameReads =>
    exact (pathReads.spells rfl).append (.mark kind rfl (.name nameReads .nil))

theorem Parameter.ReadsAll.spells {parameters : List Parameter} {tokens : List Token}
    (reads : Parameter.ReadsAll parameters tokens) :
    Pattern.Spells ((parameters.map Parameter.pattern).intersperse (.mark (.symbol .comma)))
      tokens := by
  induction reads with
  | nil => exact .nil
  | vararg kind => exact .mark kind rfl .nil
  | single reads => exact .name reads .nil
  | cons reads kind nonempty _ inductionHypothesis =>
    rw [List.map_cons, intersperse_cons_of_ne_nil _ _ (mt List.map_eq_nil_iff.1 nonempty)]
    exact .name reads (.mark kind rfl inductionHypothesis)

/-! ### Trees -/

namespace Pattern.Spells

variable {patterns : List Pattern} {tokens marks : List Token}

/-- A comment stands in front. -/
theorem comment {token : Token} (is : token.kind = .comment) (others : Spells patterns tokens) :
    Spells (.comment :: patterns) (token :: tokens) := by
  have first : Spells [.comment] [token] :=
    single ⟨token.text, rfl⟩ (.cons (.of_other is Token.Kind.noConfusion) .nil)
  exact first.append others

/-- Semicolons are known by what they are. -/
theorem known_semicolons (semicolons : ∀ mark ∈ marks, mark.kind = .symbol .semicolon) :
    ∃ words, Pattern.semicolons.Allows words ∧ List.Forall₂ Token.KnownBy words marks := by
  induction marks with
  | nil => exact ⟨[], nofun, .nil⟩
  | cons mark marks inductionHypothesis =>
    obtain ⟨is, others⟩ := List.forall_mem_cons.1 semicolons
    obtain ⟨words, allowed, known⟩ := inductionHypothesis others
    exact ⟨_ :: words, List.forall_mem_cons.2 ⟨rfl, allowed⟩, .cons (.of_kind is rfl) known⟩

/-- Semicolons may be left out. -/
theorem semicolons (marked : ∀ mark ∈ marks, mark.kind = .symbol .semicolon) :
    Spells [.semicolons] marks := by
  obtain ⟨words, allowed, known⟩ := known_semicolons marked
  exact single allowed known

/-- A separator stands between two entries of a table, and perhaps behind the last. -/
theorem separator {mark : Token}
    (is : mark.kind = .symbol .comma ∨ mark.kind = .symbol .semicolon) (rest : List Field) :
    Spells [Field.separatorBefore rest] [mark] := by
  have comma (kind : mark.kind = .symbol .comma) :
      List.Forall₂ Token.KnownBy [Token.Kind.word (.symbol .comma)] [mark] :=
    .cons (.of_kind kind rfl) .nil
  have semicolon (kind : mark.kind = .symbol .semicolon) :
      List.Forall₂ Token.KnownBy [Token.Kind.word (.symbol .semicolon)] [mark] :=
    .cons (.of_kind kind rfl) .nil
  rw [Field.separatorBefore]
  split
  · rcases is with kind | kind
    · exact single (.inr (.inl rfl)) (comma kind)
    · exact single (.inr (.inr rfl)) (semicolon kind)
  · rcases is with kind | kind
    · exact single (.inl rfl) (comma kind)
    · exact single (.inr rfl) (semicolon kind)

/-- More semicolons may stand where semicolons may stand. -/
theorem semicolons_append (marked : ∀ mark ∈ marks, mark.kind = .symbol .semicolon)
    (spelled : Spells (.semicolons :: patterns) tokens) :
    Spells (.semicolons :: patterns) (marks ++ tokens) := by
  obtain ⟨words, allowed, known⟩ := known_semicolons marked
  obtain ⟨more, spelled, moreKnown⟩ := spelled
  cases spelled with
  | @cons _ first _ rest firstAllowed others =>
    refine ⟨words ++ (first ++ rest), ?_, List.rel_append known moreKnown⟩
    rw [← List.append_assoc]
    exact .cons (List.forall_mem_append.2 ⟨allowed, firstAllowed⟩) others

end Pattern.Spells

section

variable {strict : Bool}

/-- A block without statements has semicolons only. -/
theorem Statement.ReadsBody.eq_semicolons {tokens : List Token}
    (reads : Statement.ReadsBody strict [] tokens) :
    ∀ mark ∈ tokens, mark.kind = .symbol .semicolon := by
  induction tokens with
  | nil => exact nofun
  | cons token tokens inductionHypothesis =>
    cases reads with
    | semicolon kind _ inner => exact List.forall_mem_cons.2 ⟨kind, inductionHypothesis inner⟩

/-- A block may start with semicolons. -/
theorem Statement.patternsOfAll_eq_cons (body : List Statement) :
    ∃ patterns, Statement.patternsOfAll body = .semicolons :: patterns := by
  cases body <;> exact ⟨_, rfl⟩

/-- No field that is read is a comment. -/
theorem Field.Reads.isComment_eq {field : Field} {tokens : List Token}
    (reads : field.Reads strict tokens) : field.isComment = false := by
  cases reads <;> rfl

/-- The tokens are those that the statement writes out. Semicolons may be taken for its end. -/
def Statement.Spells (statement : Statement) (tokens : List Token) : Prop :=
  ∃ front marks, tokens = front ++ marks ∧ Pattern.Spells statement.patterns front ∧
    ∀ mark ∈ marks, mark.kind = .symbol .semicolon

theorem Statement.spells_of_patterns {statement : Statement} {tokens : List Token}
    (spelled : Pattern.Spells statement.patterns tokens) : statement.Spells tokens :=
  ⟨tokens, [], (List.append_nil tokens).symm, spelled, nofun⟩

theorem Expression.ReadsArguments.spells {arguments : List Expression} {tokens : List Token}
    (reads : Expression.ReadsArguments strict arguments tokens)
    (all : Expression.ReadsAll strict arguments tokens →
      Pattern.Spells (Expression.patternsOfAll arguments) tokens) :
    Pattern.Spells (Expression.patternsOfAll arguments) tokens := by
  cases reads with
  | nil => exact .nil
  | some reads => exact all reads

/-- Parameters and block of a function write out their tokens. -/
theorem Statement.ReadsFunction.spells {parameters : List Parameter} {body : List Statement}
    {tokens : List Token} (reads : Statement.ReadsFunction strict parameters body tokens)
    (inner : ∀ {tokens}, Statement.ReadsBody strict body tokens →
      Pattern.Spells (Statement.patternsOfAll body) tokens) :
    Pattern.Spells (Parameter.patterns parameters ++ Statement.patternsOfAll body ++
      [.mark (.keyword .endWord)]) tokens := by
  cases reads with
  | @intro _ _ opening before closing inside last opens parametersRead closes bodyReads ends =>
    have header : Pattern.Spells (Parameter.patterns parameters) (opening :: before ++ [closing]) :=
      .concat (.mark opens rfl parametersRead.spells) closes rfl
    have whole := (header.append (inner bodyReads)).concat ends rfl
    rwa [List.append_assoc (opening :: before)] at whole

mutual

/-- The tokens that an expression is read from, or called from, are those that it writes out. -/
theorem Expression.Reads.spells : ∀ (expression : Expression) {tokens : List Token},
    expression.Reads strict tokens ∨ expression.ReadsCallee strict tokens →
      Pattern.Spells expression.patterns tokens
  | .binary operator left right _, _, reads => by
    cases Expression.reads_of_or reads rfl with
    | binary leftReads mark rightReads =>
      exact (Expression.Reads.spells left (.inl leftReads)).append
        (.mark mark operator.isMark_token (Expression.Reads.spells right (.inl rightReads)))
  | .unary operator argument _, _, reads => by
    cases Expression.reads_of_or reads rfl with
    | unary mark argumentReads =>
      exact .mark mark operator.isMark_token
        (Expression.Reads.spells argument (.inl argumentReads))
  | .call base arguments _, _, reads => by
    cases Expression.reads_of_or reads rfl with
    | call callee opens argumentsRead closes =>
      have inside := argumentsRead.spells (Expression.ReadsAll.spells arguments)
      exact ((Expression.Reads.spells base (.inr callee)).append (.mark opens rfl inside)).concat
        closes rfl
  | .stringCall base _ _, _, reads => by
    cases Expression.reads_of_or reads rfl with
    | stringCall callee isString found =>
      exact (Expression.Reads.spells base (.inr callee)).append
        (.word (.of_stringLiteral isString found) .nil)
  | .tableCall base fields _ _, _, reads => by
    cases Expression.reads_of_or reads rfl with
    | tableCall callee opens fieldsRead closes =>
      have inside := Field.ReadsAll.spells fields fieldsRead
      exact ((Expression.Reads.spells base (.inr callee)).append (.mark opens rfl inside)).concat
        closes rfl
  | .function _ _ body _, _, reads => by
    cases Expression.reads_of_or reads rfl with
    | function kind functionReads =>
      exact .mark kind rfl (functionReads.spells (Statement.ReadsBody.spells body))
  | .group inner _, _, reads => by
    cases Expression.reads_of_or reads rfl with
    | group opens innerReads closes =>
      exact .concat (.mark opens rfl (Expression.Reads.spells inner (.inl innerReads))) closes rfl
  | .name _, _, reads => by
    cases Expression.reads_of_or reads rfl with
    | name nameReads => exact .name nameReads .nil
  | .index base key _, _, reads => by
    cases Expression.reads_of_or reads rfl with
    | index _ baseReads opens keyReads closes =>
      have inside := Expression.Reads.spells key (.inl keyReads)
      exact ((Expression.Reads.spells base (.inl baseReads)).append (.mark opens rfl inside)).concat
        closes rfl
  | .member base .dot _ _, _, reads => by
    rcases reads with reads | callee
    · cases reads with
      | member _ baseReads mark nameReads =>
        exact (Expression.Reads.spells base (.inl baseReads)).append
          (.mark mark rfl (.name nameReads .nil))
    · cases callee with
      | value _ reads =>
        cases reads with
        | member _ baseReads mark nameReads =>
          exact (Expression.Reads.spells base (.inl baseReads)).append
            (.mark mark rfl (.name nameReads .nil))
  | .member base .colon _ _, _, reads => by
    rcases reads with reads | callee
    · cases reads
    · cases callee with
      | value _ reads => cases reads
      | method _ baseReads mark nameReads =>
        exact (Expression.Reads.spells base (.inl baseReads)).append
          (.mark mark rfl (.name nameReads .nil))
  | .literal _, _, reads => by
    cases Expression.reads_of_or reads rfl with
    | literal literalReads => exact .word (.of_literal literalReads) .nil
  | .table fields _, _, reads => by
    cases Expression.reads_of_or reads rfl with
    | table opens fieldsRead closes =>
      exact .concat (.mark opens rfl (Field.ReadsAll.spells fields fieldsRead)) closes rfl

theorem Expression.ReadsAll.spells : ∀ (expressions : List Expression) {tokens : List Token},
    Expression.ReadsAll strict expressions tokens →
      Pattern.Spells (Expression.patternsOfAll expressions) tokens
  | [], _, reads => by cases reads
  | expression :: rest, _, reads => by
    cases reads with
    | single reads =>
      rw [Expression.patternsOfAll, Expression.patternsOfAll, List.append_nil]
      exact List.append_nil _ ▸ Expression.Reads.spells expression (.inl reads)
    | cons reads mark others =>
      have further : rest ≠ [] := others.areValues.1
      rw [Expression.patternsOfAll, Pattern.commaBefore,
        if_neg (by rwa [List.isEmpty_iff])]
      exact (Expression.Reads.spells expression (.inl reads)).append
        (.mark mark rfl (Expression.ReadsAll.spells rest others))

theorem Expression.ReadsStep.spells : ∀ (step : Option Expression) {tokens : List Token},
    Expression.ReadsStep strict step tokens →
      Pattern.Spells (Expression.patternsOfStep step) tokens
  | none, _, reads => by
    cases reads
    exact .nil
  | some step, _, reads => by
    cases reads with
    | some mark reads => exact .mark mark rfl (Expression.Reads.spells step (.inl reads))

theorem Field.Reads.spells : ∀ (field : Field) {tokens : List Token},
    field.Reads strict tokens → Pattern.Spells field.patterns tokens
  | .keyed key value _, _, reads => by
    cases reads with
    | keyed opens keyReads closes mark valueReads =>
      exact .append (.mark opens rfl (Expression.Reads.spells key (.inl keyReads)))
        (.mark closes rfl (.mark mark rfl (Expression.Reads.spells value (.inl valueReads))))
  | .named _ value _, _, reads => by
    cases reads with
    | named nameReads mark valueReads =>
      exact .name nameReads (.mark mark rfl (Expression.Reads.spells value (.inl valueReads)))
  | .positional value, _, reads => by
    cases reads with
    | positional reads => exact Expression.Reads.spells value (.inl reads)
  | .comment _, _, reads => by cases reads

/-- The fields of a table write out their tokens. -/
theorem Field.ReadsAll.spells : ∀ (fields : List Field) {tokens : List Token},
    Field.ReadsAll strict fields tokens → Pattern.Spells (Field.patternsOfAll fields) tokens
  | [], _, reads => by
    cases reads
    exact .nil
  | field :: rest, _, reads => by
    cases reads with
    | comment kind others => exact .comment kind (Field.ReadsAll.spells rest others)
    | last reads comments others =>
      rw [Field.patternsOfAll, reads.isComment_eq, if_neg Bool.false_ne_true,
        Field.separatorBefore, if_pos comments]
      have none : Pattern.Spells [.lastSeparator] [] := .single (.inl rfl) .nil
      exact (Field.Reads.spells field reads).append
        (none.append (Field.ReadsAll.spells rest others))
    | @cons _ _ mark _ _ reads kind others =>
      rw [Field.patternsOfAll, reads.isComment_eq, if_neg Bool.false_ne_true]
      exact (Field.Reads.spells field reads).append
        (.append (.separator kind rest) (Field.ReadsAll.spells rest others))

theorem Clause.ReadsGuarded.spells : ∀ (clause : Clause) {word : ClauseWord}
    {tokens : List Token}, Clause.ReadsGuarded strict word clause tokens →
      Pattern.Spells clause.patterns tokens
  | .guarded _ condition body _, word, _, reads => by
    cases reads with
    | intro kind conditionReads header bodyReads =>
      exact .append (.mark kind rfl (Expression.Reads.spells condition (.inl conditionReads)))
        (.mark header rfl (Statement.ReadsBody.spells body bodyReads))
  | .otherwise .., _, _, reads => by cases reads

theorem Clause.ReadsFurther.spells : ∀ (clauses : List Clause) {tokens : List Token},
    Clause.ReadsFurther strict clauses tokens →
      Pattern.Spells (Clause.patternsOfAll clauses) tokens
  | [], _, reads => by
    cases reads
    exact .nil
  | .guarded word condition body span :: rest, _, reads => by
    cases reads with
    | cons clauseReads others =>
      exact (Clause.ReadsGuarded.spells (.guarded word condition body span) clauseReads).append
        (Clause.ReadsFurther.spells rest others)
  | .otherwise body span :: rest, _, reads => by
    cases reads with
    | otherwise kind bodyReads =>
      rw [Clause.patternsOfAll, Clause.patternsOfAll, List.append_nil]
      exact .mark kind rfl (Statement.ReadsBody.spells body bodyReads)
    | cons clauseReads => cases clauseReads

/-- A statement writes out its tokens. -/
theorem Statement.Reads.spells : ∀ (statement : Statement) {tokens : List Token},
    statement.Reads strict tokens → statement.Spells tokens
  | .assignment targets values _, _, reads => by
    have targetsSpell := @Expression.ReadsAll.spells targets
    cases reads with
    | assignment _ targetsRead mark valuesRead =>
      exact Statement.spells_of_patterns ((targetsSpell targetsRead).append
        (.mark mark rfl (Expression.ReadsAll.spells values valuesRead)))
  | .breakLoop _, _, reads => by
    cases reads with
    | breakLoop kind => exact Statement.spells_of_patterns (.mark kind rfl .nil)
  | .call expression _, _, reads => by
    cases reads with
    | call _ reads =>
      exact Statement.spells_of_patterns (Expression.Reads.spells expression (.inl reads))
  | .comment _, _, reads => by
    cases reads with
    | comment kind => exact Statement.spells_of_patterns (.comment kind .nil)
  | .doBlock body _, _, reads => by
    cases reads with
    | doBlock opens bodyReads closes =>
      exact Statement.spells_of_patterns
        (.concat (.mark opens rfl (Statement.ReadsBody.spells body bodyReads)) closes rfl)
  | .genericFor _ iterators body _, _, reads => by
    cases reads with
    | genericFor opens namesRead word iteratorsRead header bodyReads closes =>
      have start := (Pattern.Spells.mark opens rfl (namesRead.spells rfl)).append
        (.mark word rfl (Expression.ReadsAll.spells iterators iteratorsRead))
      exact Statement.spells_of_patterns
        (.concat (start.append (.mark header rfl (Statement.ReadsBody.spells body bodyReads)))
          closes rfl)
  | .numericFor _ first last step body _, _, reads => by
    cases reads with
    | numericFor opens counterReads equal firstReads comma lastReads stepReads header bodyReads
        closes =>
      have start := Pattern.Spells.mark opens rfl (.name counterReads
        (.mark equal rfl (Expression.Reads.spells first (.inl firstReads))))
      have bounds := (start.append (.mark comma rfl
        (Expression.Reads.spells last (.inl lastReads)))).append
          (Expression.ReadsStep.spells step stepReads)
      exact Statement.spells_of_patterns
        (.concat (bounds.append (.mark header rfl (Statement.ReadsBody.spells body bodyReads)))
          closes rfl)
  | .function _ _ body _, _, reads => by
    cases reads with
    | function opens nameReads functionReads =>
      exact Statement.spells_of_patterns (.append (.mark opens rfl nameReads.spells)
        (functionReads.spells (Statement.ReadsBody.spells body)))
    | localFunction opens word nameReads functionReads =>
      exact Statement.spells_of_patterns (.mark opens rfl (.mark word rfl
        (.name nameReads (functionReads.spells (Statement.ReadsBody.spells body)))))
  | .goto _ _, _, reads => by
    cases reads with
    | goto opens targetReads =>
      exact Statement.spells_of_patterns (.mark opens rfl (.name targetReads .nil))
  | .ifElse [] _, _, reads => by cases reads
  | .ifElse (clause :: rest) _, _, reads => by
    cases reads with
    | ifElse clauseReads furtherRead closes =>
      exact Statement.spells_of_patterns
        (.concat ((Clause.ReadsGuarded.spells clause clauseReads).append
          (Clause.ReadsFurther.spells rest furtherRead)) closes rfl)
  | .label _ _, _, reads => by
    cases reads with
    | label opens nameReads closes =>
      exact Statement.spells_of_patterns
        (.mark opens rfl (.name nameReads (.mark closes rfl .nil)))
  | .localVariables _ values _, _, reads => by
    cases reads with
    | localNames opens namesRead =>
      refine Statement.spells_of_patterns ?_
      rw [Statement.patterns, List.isEmpty_nil, if_pos rfl, List.append_nil]
      exact .mark opens rfl (namesRead.spells rfl)
    | localVariables opens namesRead mark valuesRead =>
      refine Statement.spells_of_patterns ?_
      have given : values ≠ [] := valuesRead.areValues.1
      rw [Statement.patterns, if_neg (by rwa [List.isEmpty_iff])]
      exact .append (.mark opens rfl (namesRead.spells rfl))
        (.mark mark rfl (Expression.ReadsAll.spells values valuesRead))
  | .repeatUntil body condition _, _, reads => by
    cases reads with
    | repeatUntil opens bodyReads word conditionReads =>
      have inside := Pattern.Spells.mark opens rfl (Statement.ReadsBody.spells body bodyReads)
      exact Statement.spells_of_patterns (inside.append
        (.mark word rfl (Expression.Reads.spells condition (.inl conditionReads))))
  | .returnValues values _, _, reads => by
    cases reads with
    | returnValues opens valuesRead ends =>
      refine ⟨_, _, rfl, .mark opens rfl
        (valuesRead.spells (Expression.ReadsAll.spells values)), ?_⟩
      rcases ends with rfl | ⟨-, mark, kind, rfl⟩
      · exact nofun
      · exact List.forall_mem_singleton.2 kind
  | .whileLoop condition body _, _, reads => by
    cases reads with
    | whileLoop opens conditionReads header bodyReads closes =>
      exact Statement.spells_of_patterns (.concat
        (.append (.mark opens rfl (Expression.Reads.spells condition (.inl conditionReads)))
          (.mark header rfl (Statement.ReadsBody.spells body bodyReads))) closes rfl)

/-- A block writes out its tokens. -/
theorem Statement.ReadsBody.spells : ∀ (body : List Statement) {tokens : List Token},
    Statement.ReadsBody strict body tokens →
      Pattern.Spells (Statement.patternsOfAll body) tokens
  | [], _, reads => .semicolons reads.eq_semicolons
  | statement :: rest, _, reads => by
    obtain ⟨marks, segment, more, rfl, semicolons, first, -, -, others⟩ := reads.uncons
    obtain ⟨front, ends, rfl, spelled, final⟩ := Statement.Reads.spells statement first
    obtain ⟨patterns, starts⟩ := Statement.patternsOfAll_eq_cons rest
    have further := Statement.ReadsBody.spells rest others
    rw [starts] at further
    rw [Statement.patternsOfAll, starts, List.append_assoc, List.append_assoc]
    exact .append (.semicolons semicolons)
      (spelled.append (.semicolons_append final further))

end

end

/-! ### Programs -/

/-- Each token that is written out is known by a word of it. -/
theorem Token.exists_knownBy {words : List Token.Word} {tokens : List Token}
    (known : List.Forall₂ Token.KnownBy words tokens) :
    ∀ token ∈ tokens, ∃ word, Token.KnownBy word token := by
  induction known with
  | nil => exact List.forall_mem_nil _
  | cons first _ inductionHypothesis =>
    exact List.forall_mem_cons.2 ⟨⟨_, first⟩, inductionHypothesis⟩

/-- Words that tokens are known by are the words of the tokens, if these are written like their
kinds. -/
theorem Token.eq_map_word {words : List Token.Word} {tokens : List Token}
    (known : List.Forall₂ Token.KnownBy words tokens) (spelled : Token.AllSpelled tokens) :
    words = tokens.map Token.word := by
  induction known with
  | nil => rfl
  | cons first _ inductionHypothesis =>
    obtain ⟨firstSpelled, others⟩ := Token.allSpelled_cons.1 spelled
    rw [List.map_cons, first.eq_word firstSpelled, inductionHypothesis others]

/-- The numbers of a source that is a program have a value. -/
theorem Program.exists_numberLiteral {source : List Char} {program : Program}
    (parsed : parse source = .ok program) :
    ∀ token ∈ Token.ofText source, token.kind = .number →
      ∃ constant, Grammar.numberLiteral token = .ok constant := by
  intro token member kind
  obtain ⟨reads, -⟩ := Program.parse_reads parsed
  obtain ⟨words, -, known⟩ := Statement.ReadsBody.spells program.chunk.body reads
  have kept : token ∈ (Token.ofText source).filter (·.kind != .comment) :=
    List.mem_filter.2 ⟨member, by rw [kind]; rfl⟩
  obtain ⟨word, known⟩ := Token.exists_knownBy known token kept
  exact known.exists_numberLiteral kind

/-- The words of a source, comments apart, are those that its tree writes out: nothing is dropped,
added or moved. -/
theorem parse_spells_source {source : List Char} {program : Program}
    (parsed : Program.parse source = .ok program) :
    Pattern.Spell (Statement.patternsOfAll program.chunk.body)
      (((Token.ofText source).filter (·.kind != .comment)).map Token.word) := by
  obtain ⟨reads, -⟩ := Program.parse_reads parsed
  obtain ⟨words, spelled, known⟩ := Statement.ReadsBody.spells program.chunk.body reads
  have written : Token.AllSpelled ((Token.ofText source).filter (·.kind != .comment)) :=
    fun token member => Program.allSpelled_ofText source token (List.mem_filter.1 member).1
  rwa [Token.eq_map_word known written] at spelled

theorem parse_spells_source_of_table :
    ∃ program, Program.parse ";t\x7b[a]=1,'b';\x7d --c\n;; return (#x)".toList = .ok program ∧
      Pattern.Spell (Statement.patternsOfAll program.chunk.body)
        (((Token.ofText ";t\x7b[a]=1,'b';\x7d --c\n;; return (#x)".toList).filter
          (·.kind != .comment)).map Token.word) := by
  obtain ⟨program, parsed⟩ := Program.exists_of_isOk
    (show (Program.parse ";t\x7b[a]=1,'b';\x7d --c\n;; return (#x)".toList).isOk by
      decide +kernel)
  exact ⟨program, parsed, parse_spells_source parsed⟩

end LuaStyle
