/-
This file prepares the proof that the parser finds every tree that tokens are strictly read as.

An expression is not complete when its last token is used but when the token behind it does not go
on the expression. So the proof is about resuming. After the tokens of a left operand, or of
something that is selected from, the parser is where it would be if it had just been given that
expression, and what it reads from there on is what it reads altogether. Here are results and what
it means to resume, the forms that hold neither statements nor expressions, the tokens that an
expression starts with, and the tokens that go on it.
-/

import LuaStyle.Proofs.Grammatical

namespace LuaStyle

/-! ### Results -/

/-- The run ends with the value, at the cursor. -/
def Grammar.Returns {bound : Nat} {Value : Type} (run : Except ParseError (Parsed bound Value))
    (value : Value) (rest : Cursor) : Prop :=
  ∃ within, run = .ok ⟨value, rest, within⟩

/-- Whatever the later run ends with, the run ends with as well. -/
def Grammar.Resumes {bound later : Nat} {Value : Type}
    (run : Except ParseError (Parsed bound Value))
    (next : Except ParseError (Parsed later Value)) : Prop :=
  ∀ {value rest}, Grammar.Returns next value rest → Grammar.Returns run value rest

theorem Grammar.Returns.bind {bound later : Nat} {First Second : Type}
    {first : Except ParseError (Parsed bound First)}
    {next : Parsed bound First → Except ParseError (Parsed later Second)} {value : First}
    {result : Second} {middle rest : Cursor} (found : Grammar.Returns first value middle)
    (further : ∀ within, Grammar.Returns (next ⟨value, middle, within⟩) result rest) :
    Grammar.Returns (first >>= next) result rest := by
  obtain ⟨within, rfl⟩ := found
  exact further within

namespace Cursor.Steps

variable {cursor rest : Cursor} {token : Token}

theorem expect_returns (steps : cursor.Steps [token] rest) {kind : Token.Kind}
    (same : token.kind = kind) : Grammar.Returns (cursor.expect kind) token rest := by
  subst same
  exact steps.expect_eq

theorem name_returns (steps : cursor.Steps [token] rest) {name : Name} (reads : name.Reads token) :
    Grammar.Returns cursor.name name rest := by
  obtain ⟨kind, rfl⟩ := reads
  obtain ⟨within, found⟩ := steps.expect_eq
  rw [kind] at found
  exact ⟨within, by rw [Cursor.name, found]; rfl⟩

theorem accept?_of_kind (steps : cursor.Steps [token] rest) {kind : Token.Kind}
    (same : token.kind = kind) : ∃ within, cursor.accept? kind = some ⟨token, rest, within⟩ := by
  subst same
  exact steps.accept?_eq

end Cursor.Steps

namespace Grammar

/-! ### Forms without statements or expressions inside -/

/-- The names behind the first one are found. -/
theorem furtherNames_returns {separator : Token.Kind} {names : List Name} {tokens : List Token}
    (reads : Name.ReadsAll separator names tokens) :
    ∃ name further token more, names = name :: further ∧ tokens = token :: more ∧
      name.Reads token ∧ ∀ {cursor rest : Cursor}, cursor.Steps more rest → rest.kind ≠ separator →
        Returns (furtherNames separator cursor) further rest := by
  induction reads with
  | single first =>
    refine ⟨_, [], _, [], rfl, rfl, first, fun {cursor rest} steps ends => ?_⟩
    cases steps.eq_of_nil
    rw [furtherNames, Cursor.Steps.accept?_eq_none ends]
    exact ⟨_, rfl⟩
  | cons first kind _ inductionHypothesis =>
    obtain ⟨second, further, token, more, rfl, rfl, secondReads, finds⟩ := inductionHypothesis
    refine ⟨_, _, _, _, rfl, rfl, first, fun {cursor rest} steps ends => ?_⟩
    obtain ⟨afterMark, markStep, steps⟩ := steps.split_cons
    obtain ⟨afterName, nameStep, steps⟩ := steps.split_cons
    obtain ⟨_, accepted⟩ := markStep.accept?_of_kind kind
    rw [furtherNames, accepted]
    exact (nameStep.name_returns secondReads).bind fun _ =>
      (finds steps ends).bind fun _ => ⟨_, rfl⟩

theorem names_returns {names : List Name} {tokens : List Token} {cursor rest : Cursor}
    (reads : Name.ReadsAll (.symbol .comma) names tokens) (steps : cursor.Steps tokens rest)
    (ends : rest.kind ≠ .symbol .comma) : Returns (Grammar.names cursor) names rest := by
  obtain ⟨_, _, _, _, rfl, rfl, first, finds⟩ := furtherNames_returns reads
  obtain ⟨afterName, nameStep, steps⟩ := steps.split_cons
  exact (nameStep.name_returns first).bind fun _ => (finds steps ends).bind fun _ => ⟨_, rfl⟩

theorem functionName_returns {name : FunctionName} {tokens : List Token} {cursor rest : Cursor}
    (reads : name.Reads tokens) (steps : cursor.Steps tokens rest)
    (ends : rest.kind = .symbol .leftParen) : Returns (functionName cursor) name rest := by
  have noFurtherName : rest.kind ≠ .symbol .dot := by
    rw [ends]
    exact nofun
  cases reads with
  | plain path =>
    obtain ⟨first, further, token, more, rfl, rfl, firstReads, finds⟩ := furtherNames_returns path
    have all := steps
    obtain ⟨afterName, nameStep, steps⟩ := steps.split_cons
    have start : first.span.start = token.start := congrArg (·.span.start) firstReads.2
    refine (nameStep.name_returns firstReads).bind fun _ =>
      (finds steps noFurtherName).bind fun _ => ?_
    dsimp only
    rw [Cursor.Steps.accept?_eq_none (by rw [ends]; exact nofun), start, all.spanFrom_extent]
    exact ⟨_, rfl⟩
  | @method path tokens mark method last pathReads kind methodReads =>
    obtain ⟨first, further, token, more, rfl, rfl, firstReads, finds⟩ :=
      furtherNames_returns pathReads
    have all := steps
    rw [List.cons_append] at steps
    obtain ⟨afterName, nameStep, steps⟩ := steps.split_cons
    obtain ⟨afterPath, pathSteps, steps⟩ := steps.split
    obtain ⟨afterColon, colonStep, lastStep⟩ := steps.split_cons
    have start : first.span.start = token.start := congrArg (·.span.start) firstReads.2
    have pathEnds : afterPath.kind ≠ .symbol .dot := by
      rw [steps.kind_eq, kind]
      exact nofun
    obtain ⟨_, accepted⟩ := colonStep.accept?_of_kind kind
    refine (nameStep.name_returns firstReads).bind fun _ =>
      (finds pathSteps pathEnds).bind fun _ => ?_
    dsimp only
    rw [accepted]
    refine (lastStep.name_returns methodReads).bind fun _ => ?_
    rw [List.cons_append] at all
    rw [start, all.spanFrom_extent]
    exact ⟨_, rfl⟩

theorem parametersFrom_returns {parameters : List Parameter} {tokens : List Token}
    (reads : Parameter.ReadsAll parameters tokens) (nonempty : parameters ≠ [])
    {cursor rest : Cursor}
    (steps : cursor.Steps tokens rest) (ends : rest.kind = .symbol .rightParen) :
    Returns (parametersFrom cursor) parameters rest := by
  induction reads generalizing cursor with
  | nil => exact absurd rfl nonempty
  | vararg kind =>
    obtain ⟨_, accepted⟩ := steps.accept?_of_kind kind
    rw [parametersFrom, accepted]
    exact ⟨_, rfl⟩
  | single name =>
    rw [parametersFrom,
      Cursor.Steps.accept?_eq_none (by rw [steps.kind_eq, name.1]; rintro ⟨⟩)]
    refine (steps.name_returns name).bind fun _ => ?_
    dsimp only
    rw [Cursor.Steps.accept?_eq_none (by rw [ends]; rintro ⟨⟩)]
    exact ⟨_, rfl⟩
  | cons name kind further _ inductionHypothesis =>
    rw [parametersFrom,
      Cursor.Steps.accept?_eq_none (by rw [steps.kind_eq, name.1]; rintro ⟨⟩)]
    obtain ⟨afterName, nameStep, steps⟩ := steps.split_cons
    obtain ⟨afterComma, commaStep, steps⟩ := steps.split_cons
    obtain ⟨_, accepted⟩ := commaStep.accept?_of_kind kind
    refine (nameStep.name_returns name).bind fun _ => ?_
    dsimp only
    rw [accepted]
    exact (inductionHypothesis further steps).bind fun _ => ⟨_, rfl⟩

theorem head_of_parameters {parameters : List Parameter} {token : Token}
    {tokens : List Token} (reads : Parameter.ReadsAll parameters (token :: tokens)) :
    parameters ≠ [] ∧ token.kind ≠ .symbol .rightParen := by
  cases reads with
  | vararg kind => exact ⟨nofun, by rw [kind]; exact nofun⟩
  | single name => exact ⟨nofun, by rw [name.1]; exact nofun⟩
  | cons name => exact ⟨nofun, by rw [name.1]; exact nofun⟩

theorem parameters_returns {parameters : List Parameter} {opening closing : Token}
    {tokens : List Token} {cursor rest : Cursor} (opens : opening.kind = .symbol .leftParen)
    (reads : Parameter.ReadsAll parameters tokens) (closes : closing.kind = .symbol .rightParen)
    (steps : cursor.Steps (opening :: tokens ++ [closing]) rest) :
    Returns (Grammar.parameters cursor) parameters rest := by
  rw [List.cons_append] at steps
  obtain ⟨inside, openingStep, steps⟩ := steps.split_cons
  refine (openingStep.expect_returns opens).bind fun _ => ?_
  dsimp only
  cases tokens with
  | nil =>
    cases reads
    obtain ⟨_, accepted⟩ := Cursor.Steps.accept?_of_kind steps closes
    rw [accepted]
    exact ⟨_, rfl⟩
  | cons token tokens =>
    obtain ⟨nonempty, kind⟩ := head_of_parameters reads
    rw [Cursor.Steps.accept?_eq_none (by rw [steps.kind_eq]; exact kind)]
    obtain ⟨afterLast, steps, closingStep⟩ := steps.split
    have ends : afterLast.kind = .symbol .rightParen := closingStep.kind_eq.trans closes
    exact (parametersFrom_returns reads nonempty steps ends).bind fun _ =>
      (closingStep.expect_returns closes).bind fun _ => ⟨_, rfl⟩

/-! ### The first tokens of an expression -/

/-- An expression starts with a token of the kind. -/
def startsExpression : Token.Kind → Bool
  | .name | .number | .quotedString | .longString => true
  | .symbol .leftParen | .symbol .leftCurly | .symbol .minus | .symbol .hash
  | .symbol .dotDotDot => true
  | .keyword .notWord | .keyword .nilWord | .keyword .trueWord | .keyword .falseWord
  | .keyword .functionWord => true
  | _ => false

/-- An expression that members are selected from starts with a token of the kind. -/
def startsPrefix : Token.Kind → Bool
  | .name | .symbol .leftParen => true
  | _ => false

theorem kind_of_startsPrefix {kind : Token.Kind} (starts : startsPrefix kind) :
    kind = .name ∨ kind = .symbol .leftParen := by
  unfold startsPrefix at starts
  split at starts
  · exact .inl rfl
  · exact .inr rfl
  · cases starts

/-- The tokens start like an expression, perhaps one that members are selected from, and not like
an assignment to a name. -/
def StartExpression (isPrefix : Bool) (tokens : List Token) : Prop :=
  ∃ token rest, tokens = token :: rest ∧ startsExpression token.kind ∧
    (isPrefix → startsPrefix token.kind) ∧
    (token.kind = .name → ∀ second ∈ rest.head?, second.kind ≠ .symbol .equal)

theorem StartExpression.append {isPrefix wasPrefix : Bool} {tokens more : List Token}
    {mark : Token} (starts : StartExpression wasPrefix tokens)
    (different : mark.kind ≠ .symbol .equal) (weaker : isPrefix → wasPrefix) :
    StartExpression isPrefix (tokens ++ mark :: more) := by
  obtain ⟨token, rest, rfl, kind, first, second⟩ := starts
  refine ⟨token, rest ++ mark :: more, rfl, kind, fun is => first (weaker is), fun name => ?_⟩
  cases rest with
  | nil =>
    intro other same
    cases same
    exact different
  | cons next rest => exact second name

theorem StartExpression.of_kind {isPrefix : Bool} {token : Token} {tokens : List Token}
    (kind : startsExpression token.kind) (first : isPrefix → startsPrefix token.kind)
    (other : token.kind ≠ .name) : StartExpression isPrefix (token :: tokens) :=
  ⟨token, tokens, rfl, kind, first, fun name => absurd name other⟩

section

variable {strict : Bool}

theorem startExpression_of_reads : ∀ (expression : Expression) {tokens : List Token},
    expression.Reads strict tokens ∨ expression.ReadsCallee strict tokens →
      StartExpression (expression.isPrefix || expression.isMethod) tokens
  | .binary operator left right span, _, reads => by
    cases Expression.reads_of_or reads rfl with
    | binary leftReads kind =>
      exact (startExpression_of_reads left (.inl leftReads)).append
        (by rw [kind]; cases operator <;> exact nofun) nofun
  | .unary operator argument span, _, reads => by
    cases Expression.reads_of_or reads rfl with
    | unary kind =>
      exact .of_kind (by rw [kind]; cases operator <;> rfl) nofun
        (by rw [kind]; cases operator <;> exact nofun)
  | .call base arguments span, _, reads => by
    cases Expression.reads_of_or reads rfl with
    | call callee opens =>
      rw [List.append_assoc]
      exact (startExpression_of_reads base (.inr callee)).append (by rw [opens]; exact nofun)
        fun _ => callee.isCallee
  | .stringCall base argument span, _, reads => by
    cases Expression.reads_of_or reads rfl with
    | stringCall callee kind =>
      exact (startExpression_of_reads base (.inr callee)).append
        (by rcases kind with kind | kind <;> rw [kind] <;> exact nofun) fun _ => callee.isCallee
  | .tableCall base fields tableSpan span, _, reads => by
    cases Expression.reads_of_or reads rfl with
    | tableCall callee opens =>
      rw [List.append_assoc]
      exact (startExpression_of_reads base (.inr callee)).append (by rw [opens]; exact nofun)
        fun _ => callee.isCallee
  | .function head parameters body span, _, reads => by
    cases Expression.reads_of_or reads rfl with
    | function kind => exact .of_kind (by rw [kind]; rfl) nofun (by rw [kind]; exact nofun)
  | .group inner span, _, reads => by
    cases Expression.reads_of_or reads rfl with
    | group opens =>
      exact .of_kind (by rw [opens]; rfl) (fun _ => by rw [opens]; rfl) (by rw [opens]; exact nofun)
  | .name identifier, _, reads => by
    cases Expression.reads_of_or reads rfl with
    | name named => exact ⟨_, [], rfl, by rw [named.1]; rfl, fun _ => by rw [named.1]; rfl, nofun⟩
  | .index base key span, _, reads => by
    cases Expression.reads_of_or reads rfl with
    | index isPrefix baseReads opens =>
      rw [List.append_assoc]
      exact (startExpression_of_reads base (.inl baseReads)).append (by rw [opens]; exact nofun)
        fun _ => Bool.or_eq_true .. ▸ .inl isPrefix
  | .member base selector name span, _, reads => by
    rcases reads with reads | callee
    · cases reads with
      | member isPrefix baseReads kind =>
        exact (startExpression_of_reads base (.inl baseReads)).append (by rw [kind]; exact nofun)
          fun _ => Bool.or_eq_true .. ▸ .inl isPrefix
    · cases callee with
      | value _ reads =>
        cases reads with
        | member isPrefix baseReads kind =>
          exact (startExpression_of_reads base (.inl baseReads)).append (by rw [kind]; exact nofun)
            fun _ => Bool.or_eq_true .. ▸ .inl isPrefix
      | method isPrefix baseReads kind =>
        exact (startExpression_of_reads base (.inl baseReads)).append (by rw [kind]; exact nofun)
          fun _ => Bool.or_eq_true .. ▸ .inl isPrefix
  | .literal constant, _, reads => by
    cases Expression.reads_of_or reads rfl with
    | literal constantReads =>
      refine ⟨_, [], rfl, ?_, nofun, nofun⟩
      cases constantReads with
      | nil kind | true kind | false kind | vararg kind => rw [kind]; rfl
      | number kind => rw [kind]; rfl
      | string kind => rcases kind with kind | kind <;> rw [kind] <;> rfl
  | .table fields span, _, reads => by
    cases Expression.reads_of_or reads rfl with
    | table opens => exact .of_kind (by rw [opens]; rfl) nofun (by rw [opens]; exact nofun)

end

/-! ### What goes on an expression -/

/-- A token of the kind starts the arguments of a call. -/
def opensCall : Token.Kind → Bool
  | .symbol .leftParen | .symbol .leftCurly | .quotedString | .longString => true
  | _ => false

/-- A token of the kind goes on an expression that members are selected from. -/
def goesOn : Token.Kind → Bool
  | .symbol .dot | .symbol .colon | .symbol .leftSquare => true
  | kind => opensCall kind

/-- No expression goes on with a token of the kind. -/
def EndsExpression (kind : Token.Kind) : Prop :=
  goesOn kind = false ∧ BinaryOperator.ofToken? kind = none

theorem suffixes_returns (base : Expression) {cursor : Cursor} (ends : goesOn cursor.kind = false) :
    Returns (suffixes base cursor) base cursor := by
  rw [suffixes]
  split
  · exact ⟨_, rfl⟩
  next token afterToken within next =>
    rw [Cursor.kind_of_next? next] at ends
    split
    all_goals first
      | exact ⟨_, rfl⟩
      | rename_i same
        rw [same] at ends
        cases ends

theorem suffixes_resumes_call {base called : Expression} {cursor after : Cursor}
    (opens : opensCall cursor.kind) (found : Returns (call base cursor) called after) :
    Resumes (suffixes base cursor) (suffixes called after) := by
  intro whole rest more
  have result : Returns (do
      let called ← call base cursor
      let whole ← suffixes called.value called.rest
      have within := called.within
      have shorter := whole.within
      return (⟨whole.value, whole.rest, by omega⟩ : Parsed (cursor.size + 1) Expression))
      whole rest :=
    found.bind fun _ => more.bind fun _ => ⟨_, rfl⟩
  rw [suffixes]
  split
  next none =>
    rw [call, none] at found
    obtain ⟨_, impossible⟩ := found
    cases impossible
  next token afterToken within next =>
    rw [Cursor.kind_of_next? next] at opens
    split
    all_goals first
      | exact result
      | rename_i same
        rw [same] at opens
        cases opens
      | rename_i paren quoted long curly
        unfold opensCall at opens
        split at opens
        · exact absurd ‹_› paren
        · exact absurd ‹_› curly
        · exact absurd ‹_› quoted
        · exact absurd ‹_› long
        · cases opens

theorem operators_returns {limit : Nat} (left : Expression) {cursor : Cursor}
    (ends : ∀ operator, BinaryOperator.ofToken? cursor.kind = some operator →
      operator.leftPower ≤ limit) :
    Returns (operators limit left cursor) left cursor := by
  rw [operators]
  split
  · exact ⟨_, rfl⟩
  next token afterToken within next =>
    rw [Cursor.kind_of_next? next] at ends
    split
    · exact ⟨_, rfl⟩
    next operator found =>
      rw [if_pos (ends operator found)]
      exact ⟨_, rfl⟩

end Grammar

end LuaStyle
