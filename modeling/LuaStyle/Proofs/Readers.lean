/-
This file defines readers: what is left of a function of the grammar when one asks only whether it
goes on, and where.

A function of the grammar builds a tree and carries the bound that makes it end. Neither matters for
the question at which token a source is refused. A reader goes over tokens and answers as little as
its caller needs to know: nothing in most cases, and for an expression that a statement starts with,
whether it is a call or can be assigned to. Readers are a monad, so the rules of the grammar can be
written as sequences and choices of readers; the lemmas here take a function of the grammar apart
into such a sequence, one step after the other.
-/

import LuaStyle.Proofs.Steps

namespace LuaStyle

/-! ### What matters of an expression -/

/-- What a statement asks of the expression it starts with. -/
inductive Expression.Shape where
  /-- It is a call. -/
  | call
  /-- It can be assigned to. -/
  | target
  /-- It is neither. -/
  | other
deriving DecidableEq, Inhabited

/-- The shape of an expression. -/
def Expression.shape (expression : Expression) : Shape :=
  if expression.isCall then .call
  else if Grammar.isAssignable expression then .target
  else .other

/-- An expression of the shape. -/
def Expression.Shape.sample : Shape → Expression
  | call => .call (.name default) [] default
  | target => .name default
  | other => .group (.name default) default

theorem Expression.Shape.shape_sample (shape : Shape) : shape.sample.shape = shape := by
  cases shape <;> rfl

theorem Expression.isCall_eq (expression : Expression) :
    expression.isCall = (expression.shape == .call) := by
  unfold shape
  split
  next isCall => rw [isCall]; rfl
  next other =>
    rw [Bool.eq_false_iff.2 other]
    split <;> rfl

theorem Expression.isAssignable_eq (expression : Expression) :
    Grammar.isAssignable expression = (expression.shape == .target) := by
  unfold shape
  split
  next isCall =>
    cases expression <;> first | rfl | cases isCall
  · split
    next assignable => rw [assignable]; rfl
    next other => rw [Bool.eq_false_iff.2 other]; rfl

/-! ### Readers -/

/-- The error without the stretch of source that an assignment target takes up. -/
def ParseError.bare : ParseError → ParseError
  | invalidAssignmentTarget _ => .invalidAssignmentTarget default
  | error => error

/-- Goes over tokens and answers, or fails. -/
abbrev Reader (Answer : Type) := StateT Cursor (Except ParseError) Answer

/-- What is wrong with the token as a literal, if it is to be one. -/
def Token.fault? (token : Token) : Option ParseError :=
  match token.kind with
  | .number => errorOf? (Grammar.numberLiteral token)
  | .quotedString | .longString => errorOf? (Grammar.stringLiteral token)
  | _ => none
where
  errorOf? : Except ParseError Literal → Option ParseError
    | .ok _ => none
    | .error error => some error.bare

theorem Token.fault?_of_number {token : Token} (kind : token.kind = .number) :
    token.fault? = Token.fault?.errorOf? (Grammar.numberLiteral token) := by
  rw [Token.fault?, kind]

theorem Token.fault?_of_string {token : Token}
    (kind : token.kind = .quotedString ∨ token.kind = .longString) :
    token.fault? = Token.fault?.errorOf? (Grammar.stringLiteral token) := by
  rcases kind with kind | kind <;> rw [Token.fault?, kind]

namespace Reader

variable {Value Answer : Type}

/-- The result of a function of the grammar, reduced to an answer. -/
def erase {bound : Nat} (answer : Value → Answer) :
    Except ParseError (Parsed bound Value) → Except ParseError (Answer × Cursor)
  | .ok parsed => .ok (answer parsed.value, parsed.rest)
  | .error error => .error error.bare

/-- The reader that a function of the grammar is. -/
def of {bound : Cursor → Nat} (answer : Value → Answer)
    (run : (cursor : Cursor) → Except ParseError (Parsed (bound cursor) Value)) : Reader Answer :=
  fun cursor => erase answer (run cursor)

/-- The reader that a function of the grammar is when nothing is asked of its value. -/
def skip {bound : Cursor → Nat}
    (run : (cursor : Cursor) → Except ParseError (Parsed (bound cursor) Value)) : Reader Unit :=
  of (fun _ => ()) run

theorem skip_apply {bound : Cursor → Nat}
    (run : (cursor : Cursor) → Except ParseError (Parsed (bound cursor) Value)) (cursor : Cursor) :
    erase (fun _ => ()) (run cursor) = skip run cursor := rfl

theorem skip_eq {bound : Cursor → Nat}
    {run : (cursor : Cursor) → Except ParseError (Parsed (bound cursor) Value)}
    {reader : Reader Unit}
    (same : ∀ cursor, erase (fun _ => ()) (run cursor) = reader cursor) : skip run = reader :=
  funext same

/-- Fails at the token that follows. -/
def fail (cause : Token → ParseError) : Reader Answer :=
  fun cursor => .error (cursor.unexpected cause).bare

/-- Goes on as the kind of the token that follows says. -/
def look (next : Token.Kind → Reader Answer) : Reader Answer :=
  fun cursor => next cursor.kind cursor

/-- Reads a token of the kind. -/
def expect (kind : Token.Kind) : Reader Unit :=
  skip (·.expect kind)

/-- Reads a token of the kind, which has to be in order if it is a literal. -/
def literal (kind : Token.Kind) : Reader Unit :=
  fun cursor =>
    match cursor.current.fault? with
    | some error => .error error
    | none => expect kind cursor

/-- Goes on behind a token of the kind if such a token follows, and otherwise goes on here. -/
def ifNext (kind : Token.Kind) (behind here : Reader Answer) : Reader Answer :=
  look fun next => if next = kind then (do expect kind; behind) else here

/-- Reads a token of the kind and what belongs behind it, if such a token follows. -/
def optional (kind : Token.Kind) (behind : Reader Unit) : Reader Unit :=
  ifNext kind behind (pure ())

/-! ### Taking functions of the grammar apart -/

section

variable {bound later : Nat} {First Second Result : Type} {cursor : Cursor}

/-- A sequence of two steps is the sequence of their readers. -/
theorem erase_bind (answer : First → Answer) {result : Second → Result}
    {run : Except ParseError (Parsed bound First)}
    {next : Parsed bound First → Except ParseError (Parsed later Second)}
    {reader : Reader Answer} {further : Answer → Reader Result}
    (first : erase answer run = reader cursor)
    (second : ∀ parsed, erase result (next parsed) = further (answer parsed.value) parsed.rest) :
    erase result (run >>= next) = (reader >>= further) cursor := by
  change _ = reader cursor >>= fun read => further read.1 read.2
  rw [← first]
  cases run with
  | error error => rfl
  | ok parsed => exact second parsed

/-- The same where nothing is asked of the value of the first step. -/
theorem erase_then {result : Second → Result} {run : Except ParseError (Parsed bound First)}
    {next : Parsed bound First → Except ParseError (Parsed later Second)}
    {reader : Reader Unit} {further : Reader Result}
    (first : erase (fun _ => ()) run = reader cursor)
    (second : ∀ parsed, erase result (next parsed) = further parsed.rest) :
    erase result (run >>= next) = (do reader; further) cursor :=
  erase_bind _ first second

/-- A step that only makes something of a value answers what gave the value. -/
theorem erase_map {answer : First → Answer} {result : Second → Answer}
    {run : Except ParseError (Parsed bound First)}
    {next : Parsed bound First → Except ParseError (Parsed later Second)}
    (second : ∀ parsed, erase result (next parsed) = .ok (answer parsed.value, parsed.rest)) :
    erase result (run >>= next) = erase answer run := by
  cases run with
  | error error => rfl
  | ok parsed => exact second parsed

theorem erase_last {answer : First → Answer} {result : Second → Answer}
    {run : Except ParseError (Parsed bound First)}
    {next : Parsed bound First → Except ParseError (Parsed later Second)} {reader : Reader Answer}
    (first : erase answer run = reader cursor)
    (second : ∀ parsed, erase result (next parsed) = .ok (answer parsed.value, parsed.rest)) :
    erase result (run >>= next) = reader cursor :=
  (erase_map second).trans first

/-- Two sequences answer alike if their first steps do and what follows does. -/
theorem erase_congr (answer : First → Answer) {result : Second → Result}
    {run other : Except ParseError (Parsed bound First)}
    {next further : Parsed bound First → Except ParseError (Parsed later Second)}
    (first : erase answer run = erase answer other)
    (second : ∀ parsed found, run = .ok parsed → other = .ok found → parsed.rest = found.rest →
      answer parsed.value = answer found.value →
      erase result (next parsed) = erase result (further found)) :
    erase result (run >>= next) = erase result (other >>= further) := by
  cases run with
  | error error =>
    cases other with
    | error failure =>
      rw [erase, erase, Except.error.injEq] at first
      exact congrArg Except.error first
    | ok found => cases first
  | ok parsed =>
    cases other with
    | error error => cases first
    | ok found =>
      obtain ⟨value, rest⟩ := Prod.mk.inj (Except.ok.inj first)
      exact second parsed found rfl rfl rest value

theorem kind_of_accept? {kind : Token.Kind} {parsed : Parsed cursor.size Token}
    (accepted : cursor.accept? kind = some parsed) : cursor.kind = kind := by
  obtain ⟨step, same⟩ := Cursor.Steps.of_accept? accepted
  exact step.kind_eq.trans same

theorem kind_of_refused {kind : Token.Kind} (refused : cursor.accept? kind = none)
    (real : kind ≠ .endOfSource) : cursor.kind ≠ kind := by
  intro same
  rw [Cursor.accept?, Option.filter_eq_none_iff] at refused
  cases found : cursor.next? with
  | none => exact real (same.symm.trans (Cursor.kind_of_next?_eq_none found))
  | some parsed =>
    exact refused parsed found (beq_iff_eq.2 ((Cursor.kind_of_next? found).symm.trans same))

theorem expect_of_accept? {kind : Token.Kind} {parsed : Parsed cursor.size Token}
    (accepted : cursor.accept? kind = some parsed) :
    expect kind cursor = .ok ((), parsed.rest) := by
  rw [expect, ← skip_apply, Cursor.expect, accepted]
  rfl

theorem then_of_accept? {kind : Token.Kind} {parsed : Parsed cursor.size Token}
    (accepted : cursor.accept? kind = some parsed) (further : Reader Answer) :
    (do expect kind; further : Reader Answer) cursor = further parsed.rest := by
  change (expect kind cursor >>= fun read => further read.2) = _
  rw [expect_of_accept? accepted]
  rfl

theorem ifNext_of_accept? {kind : Token.Kind} {parsed : Parsed cursor.size Token}
    (accepted : cursor.accept? kind = some parsed) (behind here : Reader Answer) :
    ifNext kind behind here cursor = behind parsed.rest := by
  rw [ifNext, look, if_pos (kind_of_accept? accepted), then_of_accept? accepted]

theorem ifNext_of_refused {kind : Token.Kind} (refused : cursor.accept? kind = none)
    (real : kind ≠ .endOfSource) (behind here : Reader Answer) :
    ifNext kind behind here cursor = here cursor := by
  rw [ifNext, look, if_neg (kind_of_refused refused real)]

theorem look_of_next?_eq_none (ended : cursor.next? = none)
    (next : Token.Kind → Reader Answer) : look next cursor = next .endOfSource cursor := by
  rw [look, Cursor.kind_of_next?_eq_none ended]

theorem look_of_next? {parsed : Parsed cursor.size Token} (found : cursor.next? = some parsed)
    (next : Token.Kind → Reader Answer) : look next cursor = next parsed.value.kind cursor := by
  rw [look, Cursor.kind_of_next? found]

section

variable {token : Token} {rest : Cursor} {within : rest.size < cursor.size} {kind : Token.Kind}

theorem accept?_of_next? (found : cursor.next? = some ⟨token, rest, within⟩)
    (same : token.kind = kind) : cursor.accept? kind = some ⟨token, rest, within⟩ := by
  rw [Cursor.accept?, found, Option.filter_some, if_pos (beq_iff_eq.2 same)]

theorem expect_of_next? (found : cursor.next? = some ⟨token, rest, within⟩)
    (same : token.kind = kind) : expect kind cursor = .ok ((), rest) :=
  expect_of_accept? (accept?_of_next? found same)

theorem then_of_next? (found : cursor.next? = some ⟨token, rest, within⟩)
    (same : token.kind = kind) (further : Reader Answer) :
    (do expect kind; further : Reader Answer) cursor = further rest :=
  then_of_accept? (accept?_of_next? found same) further

/-- What is read behind the token that follows. -/
theorem erase_behind {result : Second → Result} {run : Except ParseError (Parsed later Second)}
    {further : Reader Result} (found : cursor.next? = some ⟨token, rest, within⟩)
    (same : token.kind = kind) (behind : erase result run = further rest) :
    erase result run = (do expect kind; further : Reader Result) cursor :=
  behind.trans (then_of_next? found same further).symm

end

/-- A step that only makes something of a literal reads a literal. -/
theorem erase_literal {token : Token} {rest : Cursor} {within : rest.size < cursor.size}
    {run : Except ParseError Literal} {kind : Token.Kind}
    (found : cursor.next? = some ⟨token, rest, within⟩) (kindSame : token.kind = kind)
    (same : token.fault? = Token.fault?.errorOf? run)
    (next : Literal → Except ParseError (Parsed later Second))
    (last : ∀ constant, erase (fun _ => ()) (next constant) = .ok ((), rest)) :
    erase (fun _ => ()) (run >>= next) = literal kind cursor := by
  have current : cursor.current = token := by
    rw [Cursor.current, (Cursor.Steps.of_next? found).remaining]
    rfl
  rw [literal, current, same]
  cases run with
  | error error => rfl
  | ok constant => exact (last constant).trans (expect_of_next? found kindSame).symm

theorem erase_expect (kind : Token.Kind) (cursor : Cursor) :
    erase (fun _ => ()) (cursor.expect kind) = expect kind cursor := rfl

theorem erase_name (cursor : Cursor) : erase (fun _ => ()) cursor.name = expect .name cursor := by
  rw [expect, skip, of, Cursor.name]
  cases cursor.expect .name <;> rfl

end

end Reader

end LuaStyle
