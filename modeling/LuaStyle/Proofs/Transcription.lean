/-
This file says what it is to write the same tokens elsewhere.

A source can be written anew with other spaces between its tokens, and with other texts for those
tokens of which only a value counts, strings and comments. Places then move, though they stay in
order, and a few texts change; the rest stays. So what the parser makes of the tokens is the same up
to spans and raw texts: here this is said of literals, of the cursor and of single steps, and of the
forms that hold neither statements nor expressions. The parser fails at the same token and for the
same cause, and only where that token stands is different.
-/

import LuaStyle.Proofs.ContentLines
import LuaStyle.Proofs.Recast
import LuaStyle.Proofs.Steps
import Mathlib.Data.List.Forall2
import Mathlib.Order.MinMax

namespace LuaStyle

/-- The error as it is apart from the place: what is wrong, and what kind of token is to blame. -/
def ParseError.unplaced : ParseError → ParseError
  | expected kind received => .expected kind ⟨received.kind, [], 0⟩
  | expectedExpression received => .expectedExpression ⟨received.kind, [], 0⟩
  | expectedStatement received => .expectedStatement ⟨received.kind, [], 0⟩
  | unknownCharacter token => .unknownCharacter ⟨token.kind, [], 0⟩
  | unterminatedString token => .unterminatedString ⟨token.kind, [], 0⟩
  | unterminatedComment token => .unterminatedComment ⟨token.kind, [], 0⟩
  | invalidNumber token => .invalidNumber ⟨token.kind, [], 0⟩
  | invalidEscape _ => .invalidEscape default
  | invalidAssignmentTarget _ => .invalidAssignmentTarget default

/-- A token of the kind is what its text is, and not what the text stands for. -/
def Token.Kind.isVerbatim : Token.Kind → Bool
  | keyword _ | symbol _ | name | number => true
  | _ => false

/-- A way to write the same tokens elsewhere, with other texts for strings and comments. -/
structure Transcription where
  /-- Where a place comes to lie. -/
  place : Nat → Nat
  /-- The text in place of a text of a string or a comment. -/
  text : List Char → List Char
  /-- Places stay in order. -/
  monotone : Monotone place
  /-- A comment keeps its lines. -/
  contentLines : ∀ comment, Comment.contentLines (text comment) = Comment.contentLines comment

namespace Transcription

variable (transcription : Transcription)

/-! ### What becomes of trees and tokens -/

/-- Where a span comes to lie. -/
def span (span : Span) : Span :=
  ⟨transcription.place span.start, transcription.place span.stop⟩

/-- The comment written elsewhere. A comment on one line keeps its text. -/
def comment (remark : Comment) : Comment :=
  ⟨if remark.style = .block then transcription.text remark.text else remark.text,
    transcription.text remark.raw, remark.style, transcription.span remark.span⟩

/-- The raw text of a literal that is written elsewhere. -/
def raw (constant : Literal) : List Char :=
  match constant.value with
  | .string _ => transcription.text constant.raw
  | _ => constant.raw

/-- What becomes of a tree. -/
def recasting : Recasting where
  span := transcription.span
  comment := fun remark => some (transcription.comment remark)
  raw := transcription.raw

/-- The second token is the first one written elsewhere. -/
structure Carries (token copy : Token) : Prop where
  kind : copy.kind = token.kind
  start : copy.start = transcription.place token.start
  stop : copy.stop = transcription.place token.stop
  text : token.kind.isVerbatim → copy.text = token.text
  string : token.kind = .quotedString ∨ token.kind = .longString →
    (Grammar.stringLiteral copy).toOption =
      (Grammar.stringLiteral token).toOption.map (Literal.recast transcription.recasting)
  comment : token.kind = .comment →
    Comment.ofToken copy = transcription.comment (Comment.ofToken token)

/-- The second cursor stands among the copies of the tokens that the first one stands among. -/
structure Moves (cursor copy : Cursor) : Prop where
  remaining : List.Forall₂ transcription.Carries cursor.remaining copy.remaining
  lastStop : copy.lastStop = transcription.place cursor.lastStop

variable {transcription}

theorem Carries.span {token copy : Token} (carries : transcription.Carries token copy) :
    copy.span = transcription.span token.span := by
  rw [Token.span, carries.start, carries.stop]
  rfl

theorem span_merge (first second : Span) :
    transcription.span (first.merge second) =
      (transcription.span first).merge (transcription.span second) := by
  rw [Span.merge, Span.merge, span, transcription.monotone.map_min, transcription.monotone.map_max]
  rfl

/-! ### Results that agree -/

/-- Two results agree if both are values, related as the first argument says, or both are the same
error apart from its place. -/
inductive Agree {Value Copy : Type} (related : Value → Copy → Prop) :
    Except ParseError Value → Except ParseError Copy → Prop
  | ok {value copy} : related value copy → Agree related (.ok value) (.ok copy)
  | error {error copy : ParseError} : copy.unplaced = error.unplaced →
    Agree related (.error error) (.error copy)

/-- Values that were read are related, and the cursors behind them stand at the same token. -/
structure Parses (transcription : Transcription) {bound copyBound : Nat} {Value Copy : Type}
    (related : Value → Copy → Prop) (parsed : Parsed bound Value)
    (copy : Parsed copyBound Copy) : Prop where
  value : related parsed.value copy.value
  rest : transcription.Moves parsed.rest copy.rest

/-- Two results of reading agree, and so do the cursors behind what was read. -/
abbrev Answer (transcription : Transcription) {bound copyBound : Nat} {Value Copy : Type}
    (related : Value → Copy → Prop) (result : Except ParseError (Parsed bound Value))
    (copy : Except ParseError (Parsed copyBound Copy)) : Prop :=
  Agree (transcription.Parses related) result copy

section

variable {Value Copy Next NextCopy : Type} {related : Value → Copy → Prop}
  {relatedNext : Next → NextCopy → Prop}

/-- Computations that agree, each followed by computations that agree on related values. -/
theorem Agree.bind {result : Except ParseError Value} {copy : Except ParseError Copy}
    {next : Value → Except ParseError Next} {nextCopy : Copy → Except ParseError NextCopy}
    (agree : Agree related result copy)
    (further : ∀ {value other}, related value other →
      Agree relatedNext (next value) (nextCopy other)) :
    Agree relatedNext (result >>= next) (copy >>= nextCopy) := by
  cases agree with
  | ok same => exact further same
  | error same => exact .error same

/-- What agrees with a value is a value. -/
theorem Agree.of_ok {value : Value} {copy : Except ParseError Copy}
    (agree : Agree related (.ok value) copy) : ∃ other, copy = .ok other ∧ related value other := by
  cases agree with
  | ok same => exact ⟨_, rfl, same⟩

variable {bound copyBound : Nat} {result : Except ParseError (Parsed bound Value)}
  {copy : Except ParseError (Parsed copyBound Copy)}

/-- The same for what is read one behind the other. -/
theorem Answer.andThen {next : Parsed bound Value → Except ParseError Next}
    {nextCopy : Parsed copyBound Copy → Except ParseError NextCopy}
    (answer : transcription.Answer related result copy)
    (further : ∀ {value other rest restCopy} (within : rest.size < bound)
      (withinCopy : restCopy.size < copyBound), related value other →
        transcription.Moves rest restCopy →
          Agree relatedNext (next ⟨value, rest, within⟩) (nextCopy ⟨other, restCopy, withinCopy⟩)) :
    Agree relatedNext (result >>= next) (copy >>= nextCopy) :=
  answer.bind fun {parsed other} same => by
    obtain ⟨value, rest, within⟩ := parsed
    obtain ⟨otherValue, restCopy, withinCopy⟩ := other
    exact further within withinCopy same.value same.rest

/-- What was read, and the cursors behind it. -/
theorem answer_ok {value : Value} {other : Copy} {rest restCopy : Cursor}
    {within : rest.size < bound} {withinCopy : restCopy.size < copyBound}
    (same : related value other) (moves : transcription.Moves rest restCopy) :
    transcription.Answer related (.ok ⟨value, rest, within⟩)
      (.ok ⟨other, restCopy, withinCopy⟩) :=
  .ok ⟨same, moves⟩

end

/-! ### Literals -/

theorem recast_verbatim {value : LiteralValue} (raw : List Char) (span : Span)
    (verbatim : ∀ bytes, value ≠ .string bytes) :
    Literal.recast transcription.recasting ⟨value, raw, span⟩ =
      ⟨value, raw, transcription.span span⟩ := by
  cases value with
  | string bytes => exact absurd rfl (verbatim bytes)
  | _ => rfl

section

variable {token copy : Token} (carries : transcription.Carries token copy)

include carries

/-- The copy of a word or a mark that stands for a value. -/
theorem Carries.literal {value : LiteralValue} (verbatim : ∀ bytes, value ≠ .string bytes)
    (kind : token.kind.isVerbatim) :
    Literal.mk value copy.text copy.span =
      Literal.recast transcription.recasting ⟨value, token.text, token.span⟩ := by
  rw [recast_verbatim _ _ verbatim, carries.text kind, carries.span]

theorem Carries.numberLiteral (kind : token.kind = .number) :
    Agree (fun constant other => other = Literal.recast transcription.recasting constant)
      (Grammar.numberLiteral token) (Grammar.numberLiteral copy) := by
  have verbatim : token.kind.isVerbatim := by rw [kind]; rfl
  rw [Grammar.numberLiteral, Grammar.numberLiteral, carries.text verbatim]
  split
  · refine .ok ?_
    rw [recast_verbatim _ _ fun bytes => LiteralValue.noConfusion, carries.span]
  · exact .error (by rw [ParseError.unplaced, ParseError.unplaced, carries.kind])

end

/-- A string that is refused has an escape that is not valid. -/
theorem unplaced_stringLiteral {token : Token} {error : ParseError}
    (refused : Grammar.stringLiteral token = .error error) :
    error.unplaced = .invalidEscape default := by
  unfold Grammar.stringLiteral at refused
  split at refused
  · cases refused
  · split at refused <;> cases refused
    rfl

theorem Carries.stringLiteral {token copy : Token} (carries : transcription.Carries token copy)
    (kind : token.kind = .quotedString ∨ token.kind = .longString) :
    Agree (fun constant other => other = Literal.recast transcription.recasting constant)
      (Grammar.stringLiteral token) (Grammar.stringLiteral copy) := by
  have same := carries.string kind
  cases read : Grammar.stringLiteral token with
  | ok constant =>
    cases readCopy : Grammar.stringLiteral copy with
    | ok other =>
      rw [read, readCopy] at same
      exact .ok (Option.some.inj same)
    | error error =>
      rw [read, readCopy] at same
      cases same
  | error error =>
    cases readCopy : Grammar.stringLiteral copy with
    | ok other =>
      rw [read, readCopy] at same
      cases same
    | error other =>
      exact .error ((unplaced_stringLiteral readCopy).trans (unplaced_stringLiteral read).symm)

/-! ### Cursors -/

section

variable {cursor copy : Cursor} (moves : transcription.Moves cursor copy)

include moves

theorem Moves.kind_eq : copy.kind = cursor.kind := by
  obtain ⟨remaining, stop, length⟩ := cursor
  obtain ⟨remainingCopy, stopCopy, lengthCopy⟩ := copy
  cases moves.remaining with
  | nil => rfl
  | cons carries => exact carries.kind

theorem Moves.kindAfter_eq : copy.kindAfter = cursor.kindAfter := by
  obtain ⟨remaining, stop, length⟩ := cursor
  obtain ⟨remainingCopy, stopCopy, lengthCopy⟩ := copy
  cases moves.remaining with
  | nil => rfl
  | cons _ others =>
    cases others with
    | nil => rfl
    | cons carries => exact carries.kind

theorem Moves.spanFrom (start : Nat) :
    copy.spanFrom (transcription.place start) = transcription.span (cursor.spanFrom start) := by
  rw [Cursor.spanFrom, moves.lastStop]
  rfl

/-- An error about the token that follows is the same error about its copy. -/
theorem Moves.unexpected {cause : Token → ParseError}
    (same : ∀ first second : Token, first.kind = second.kind →
      (cause first).unplaced = (cause second).unplaced) :
    (copy.unexpected cause).unplaced = (cursor.unexpected cause).unplaced := by
  have kind : copy.current.kind = cursor.current.kind := moves.kind_eq
  rw [Cursor.unexpected, Cursor.unexpected, moves.kind_eq]
  split
  · rw [ParseError.unplaced, ParseError.unplaced, kind]
  · rw [ParseError.unplaced, ParseError.unplaced, kind]
  · rw [ParseError.unplaced, ParseError.unplaced, kind]
  · exact same _ _ kind

theorem Moves.missing (kind : Token.Kind) :
    (copy.missing kind).unplaced = (cursor.missing kind).unplaced :=
  moves.unexpected fun _ _ same => by rw [ParseError.unplaced, ParseError.unplaced, same]

theorem Moves.next? :
    cursor.next? = none ∧ copy.next? = none ∨
      ∃ token other rest restCopy within withinCopy,
        cursor.next? = some ⟨token, rest, within⟩ ∧
          copy.next? = some ⟨other, restCopy, withinCopy⟩ ∧
            transcription.Carries token other ∧ transcription.Moves rest restCopy := by
  obtain ⟨remaining, stop, length⟩ := cursor
  obtain ⟨remainingCopy, stopCopy, lengthCopy⟩ := copy
  cases moves.remaining with
  | nil => exact .inl ⟨rfl, rfl⟩
  | cons carries others =>
    exact .inr ⟨_, _, _, _, _, _, rfl, rfl, carries, others, carries.stop⟩

theorem Moves.accept? (kind : Token.Kind) :
    cursor.accept? kind = none ∧ copy.accept? kind = none ∨
      ∃ token other rest restCopy within withinCopy,
        cursor.accept? kind = some ⟨token, rest, within⟩ ∧
          copy.accept? kind = some ⟨other, restCopy, withinCopy⟩ ∧
            transcription.Carries token other ∧ transcription.Moves rest restCopy ∧
              token.kind = kind := by
  rw [Cursor.accept?, Cursor.accept?]
  rcases moves.next? with ⟨none, noneCopy⟩ |
    ⟨token, other, rest, restCopy, within, withinCopy, found, foundCopy, carries, further⟩
  · rw [none, noneCopy]
    exact .inl ⟨rfl, rfl⟩
  · rw [found, foundCopy, Option.filter_some, Option.filter_some, carries.kind]
    split
    next same =>
      exact .inr ⟨_, _, _, _, within, withinCopy, rfl, rfl, carries, further, eq_of_beq same⟩
    · exact .inl ⟨rfl, rfl⟩

/-- The same for a token that is of one of two kinds. -/
theorem Moves.acceptEither (first second : Token.Kind) :
    (cursor.accept? first).or (cursor.accept? second) = none ∧
        (copy.accept? first).or (copy.accept? second) = none ∨
      ∃ token other rest restCopy within withinCopy,
        (cursor.accept? first).or (cursor.accept? second) = some ⟨token, rest, within⟩ ∧
          (copy.accept? first).or (copy.accept? second) = some ⟨other, restCopy, withinCopy⟩ ∧
            transcription.Moves rest restCopy := by
  rcases moves.accept? first with ⟨none, noneCopy⟩ |
    ⟨token, other, rest, restCopy, within, withinCopy, found, foundCopy, -, further, -⟩
  · rw [none, noneCopy, Option.none_or, Option.none_or]
    rcases moves.accept? second with missing |
      ⟨token, other, rest, restCopy, within, withinCopy, found, foundCopy, -, further, -⟩
    · exact .inl missing
    · exact .inr ⟨token, other, rest, restCopy, within, withinCopy, found, foundCopy, further⟩
  · rw [found, foundCopy]
    exact .inr ⟨token, other, rest, restCopy, within, withinCopy, rfl, rfl, further⟩

theorem Moves.expect (kind : Token.Kind) :
    transcription.Answer
      (fun token other => transcription.Carries token other ∧ token.kind = kind)
      (cursor.expect kind) (copy.expect kind) := by
  rw [Cursor.expect, Cursor.expect]
  rcases moves.accept? kind with ⟨none, noneCopy⟩ |
    ⟨token, other, rest, restCopy, within, withinCopy, found, foundCopy, carries, further, same⟩
  · rw [none, noneCopy]
    exact .error (moves.missing kind)
  · rw [found, foundCopy]
    exact answer_ok ⟨carries, same⟩ further

theorem Moves.name :
    transcription.Answer (fun name other => other = Name.recast transcription.recasting name)
      cursor.name copy.name := by
  have expected := moves.expect .name
  rw [Cursor.name, Cursor.name]
  revert expected
  generalize cursor.expect .name = result
  generalize copy.expect .name = resultCopy
  rintro (⟨⟨carries, kind⟩, further⟩ | same)
  · refine answer_ok ?_ further
    rw [carries.text (by rw [kind]; rfl), carries.span]
    rfl
  · exact .error same

end

end Transcription

/-! ### Forms without statements or expressions inside -/

namespace Grammar

open Transcription

variable {transcription : Transcription}

theorem answer_furtherNames (separator : Token.Kind) {cursor copy : Cursor}
    (moves : transcription.Moves cursor copy) :
    transcription.Answer
      (fun names other => other = names.map (Name.recast transcription.recasting))
      (furtherNames separator cursor) (furtherNames separator copy) := by
  rw [furtherNames, furtherNames]
  rcases moves.accept? separator with ⟨none, noneCopy⟩ |
    ⟨token, other, rest, restCopy, within, withinCopy, found, foundCopy, -, further, -⟩
  · rw [none, noneCopy]
    exact answer_ok rfl moves
  · rw [found, foundCopy]
    refine further.name.andThen fun shorter _ sameName afterName => ?_
    refine (answer_furtherNames separator afterName).andThen fun _ _ sameNames afterNames => ?_
    exact answer_ok (by rw [List.map_cons, sameName, sameNames]) afterNames
termination_by cursor.size

theorem answer_names {cursor copy : Cursor} (moves : transcription.Moves cursor copy) :
    transcription.Answer
      (fun names other => other = names.map (Name.recast transcription.recasting))
      (names cursor) (names copy) := by
  rw [names, names]
  refine moves.name.andThen fun _ _ sameName afterName => ?_
  refine (answer_furtherNames _ afterName).andThen fun _ _ sameNames afterNames => ?_
  exact answer_ok (by rw [List.map_cons, sameName, sameNames]) afterNames

theorem answer_functionName {cursor copy : Cursor} (moves : transcription.Moves cursor copy) :
    transcription.Answer
      (fun name other => other = FunctionName.recast transcription.recasting name)
      (functionName cursor) (functionName copy) := by
  rw [functionName, functionName]
  refine moves.name.andThen fun _ _ sameName afterName => ?_
  refine (answer_furtherNames _ afterName).andThen fun _ _ sameNames afterPath => ?_
  subst sameName sameNames
  dsimp only
  rcases afterPath.accept? (.symbol .colon) with ⟨none, noneCopy⟩ |
    ⟨token, other, rest, restCopy, within, withinCopy, found, foundCopy, -, afterColon, -⟩
  · rw [none, noneCopy]
    refine answer_ok ?_ afterPath
    rw [FunctionName.recast, List.map_cons]
    exact congrArg _ (afterPath.spanFrom _)
  · rw [found, foundCopy]
    refine afterColon.name.andThen fun _ _ sameMethod afterMethod => ?_
    subst sameMethod
    refine answer_ok ?_ afterMethod
    rw [FunctionName.recast, List.map_cons]
    exact congrArg _ (afterMethod.spanFrom _)

theorem answer_parametersFrom {cursor copy : Cursor} (moves : transcription.Moves cursor copy) :
    transcription.Answer
      (fun parameters other =>
        other = parameters.map (Parameter.recast transcription.recasting))
      (parametersFrom cursor) (parametersFrom copy) := by
  rw [parametersFrom, parametersFrom]
  rcases moves.accept? (.symbol .dotDotDot) with ⟨none, noneCopy⟩ |
    ⟨token, other, rest, restCopy, within, withinCopy, found, foundCopy, carries, further, -⟩
  · rw [none, noneCopy]
    refine moves.name.andThen fun shorter _ sameName afterName => ?_
    subst sameName
    dsimp only
    rcases afterName.accept? (.symbol .comma) with ⟨none, noneCopy⟩ |
      ⟨token, other, rest, restCopy, within, withinCopy, found, foundCopy, -, further, -⟩
    · rw [none, noneCopy]
      exact answer_ok rfl afterName
    · rw [found, foundCopy]
      refine (answer_parametersFrom further).andThen fun _ _ sameOthers afterOthers => ?_
      subst sameOthers
      exact answer_ok rfl afterOthers
  · rw [found, foundCopy]
    exact answer_ok (by rw [carries.span]; rfl) further
termination_by cursor.size

theorem answer_parameters {cursor copy : Cursor} (moves : transcription.Moves cursor copy) :
    transcription.Answer
      (fun parameters other =>
        other = parameters.map (Parameter.recast transcription.recasting))
      (parameters cursor) (parameters copy) := by
  rw [parameters, parameters]
  refine (moves.expect _).andThen fun _ _ _ inside => ?_
  dsimp only
  rcases inside.accept? (.symbol .rightParen) with ⟨none, noneCopy⟩ |
    ⟨token, other, rest, restCopy, within, withinCopy, found, foundCopy, -, further, -⟩
  · rw [none, noneCopy]
    refine (answer_parametersFrom inside).andThen fun _ _ same afterLast => ?_
    refine (afterLast.expect _).andThen fun _ _ _ further => ?_
    exact answer_ok same further
  · rw [found, foundCopy]
    exact answer_ok rfl further

end Grammar

end LuaStyle
