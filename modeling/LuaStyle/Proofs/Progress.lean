/-
This file proves that reading always gets further, and so ends.

A rule calls rules further on among the tokens, or at the same place and further down in the order
of the grammar, provided that the earlier calls have used as many tokens as their rules have to. By
induction along the calls each rule does, and its calls come to an end. Nothing is counted for this
from outside: that a course finishes is told by rules that follow its steps, and each proof of it is
a finite tree of calls.
-/

import LuaStyle.Parser.Program
import LuaStyle.Proofs.Advances
import LuaStyle.Proofs.Unfolding

namespace LuaStyle

namespace Grammar

variable {tokens : List Token} {sourceLength start rank goal position : Nat} {Value : Type}

/-! ### The run of a rule -/

/-- A call at the place goes further than the position, or further down than the rank. -/
def Rule.IsBelow (tokens : List Token) (sourceLength start rank : Nat) (rule : Rule)
    (place : Cursor) : Prop :=
  ∃ position, position ≤ tokens.length ∧ place = .behind tokens sourceLength position ∧
    (start < position ∨ start = position ∧ rule.rank < rank)

/-- The course comes to an end in finitely many steps, those of the rules it calls included, and
this is its result. -/
inductive Course.Finishes : {Value : Type} → Course Value → Except ParseError Value → Prop
  | fails {Value : Type} {error : ParseError} : Finishes (fails error : Course Value) (.error error)
  | ends {Value : Type} {value : Value} : Finishes (ends value) (.ok value)
  | refused {Value : Type} {rule : Rule} {place : Cursor}
    {next : rule.Value × Cursor → Course Value} {error : ParseError}
    (called : Finishes (rule.routine place) (.error error)) :
    Finishes (calls rule place next) (.error error)
  | answered {Value : Type} {rule : Rule} {place : Cursor}
    {next : rule.Value × Cursor → Course Value} {read : rule.Value × Cursor}
    {result : Except ParseError Value} (called : Finishes (rule.routine place) (.ok read))
    (further : Finishes (next read) result) : Finishes (calls rule place next) result

/-- A rule gets on at a position of the tokens. -/
structure Rule.GetsOn (tokens : List Token) (sourceLength position : Nat) (rule : Rule) : Prop where
  /-- The function of the rule does what the routine says, its calls answered by the functions. -/
  unfolds : rule.apply (.behind tokens sourceLength position) =
    (rule.routine (.behind tokens sourceLength position)).run Rule.apply
  /-- Where it succeeds, it has used as many tokens as it has to, and no more than there are. -/
  reaches : ∀ read, rule.apply (.behind tokens sourceLength position) = .ok read →
    read.2.IsBehind tokens sourceLength (position + rule.least)
  /-- Each call has fewer tokens in front of it, or is further down in the order of the grammar. -/
  descends : ∀ called place,
    (rule.routine (.behind tokens sourceLength position)).Makes Rule.apply called place →
      called.IsBelow tokens sourceLength position rule.rank place
  /-- The calls come to an end, those that they make themselves included, and the result is that of
  the function. -/
  finishes : ∀ result, (rule.routine (.behind tokens sourceLength position)).Finishes result ↔
    rule.apply (.behind tokens sourceLength position) = result

namespace Course

/-- A course that finishes has the result of its run. -/
theorem Finishes.run_eq {course : Course Value} {result : Except ParseError Value}
    (finishes : course.Finishes result) : course.run Rule.apply = result := by
  induction finishes with
  | fails => rfl
  | ends => rfl
  | @refused Value rule place next error called inductionHypothesis =>
    rw [run, rule.apply_eq_run, inductionHypothesis]
    rfl
  | @answered Value rule place next read result called further ruleHypothesis courseHypothesis =>
    rw [run, rule.apply_eq_run, ruleHypothesis]
    exact courseHypothesis

section

variable (known : ∀ (rule : Rule) (position : Nat), position ≤ tokens.length →
    (start < position ∨ start = position ∧ rule.rank < rank) →
    rule.GetsOn tokens sourceLength position)

include known

theorem Advances.called {rule : Rule} {place : Cursor}
    {next : rule.Value × Cursor → Course (Value × Cursor)}
    (advances : (calls rule place next).Advances tokens sourceLength start rank goal) :
    (rule.routine place).Finishes (rule.apply place) := by
  obtain ⟨position, inside, rfl, below, -⟩ := advances
  exact ((known rule position inside below).finishes _).2 rfl

/-- What follows a call goes on from where the call has come to. -/
theorem Advances.next {rule : Rule} {place : Cursor}
    {next : rule.Value × Cursor → Course (Value × Cursor)} {read : rule.Value × Cursor}
    (advances : (calls rule place next).Advances tokens sourceLength start rank goal)
    (called : rule.apply place = .ok read) :
    (next read).Advances tokens sourceLength start rank goal := by
  obtain ⟨position, inside, rfl, below, further⟩ := advances
  obtain ⟨value, rest⟩ := read
  obtain ⟨later, reached, within, same⟩ := (known rule position inside below).reaches _ called
  cases same
  exact further value later reached within

variable {course : Course (Value × Cursor)}
  (advances : course.Advances tokens sourceLength start rank goal)

include advances

theorem Advances.isBehind {read : Value × Cursor} (result : course.run Rule.apply = .ok read) :
    read.2.IsBehind tokens sourceLength goal := by
  induction course with
  | fails error => cases result
  | ends value =>
    cases result
    exact advances
  | calls rule place next inductionHypothesis =>
    obtain ⟨answer, called, result⟩ := bind_eq_ok.1 result
    exact inductionHypothesis answer (advances.next known called) result

theorem Advances.isBelow {rule : Rule} {place : Cursor}
    (makes : course.Makes Rule.apply rule place) :
    rule.IsBelow tokens sourceLength start rank place := by
  induction makes with
  | first =>
    obtain ⟨position, inside, same, below, -⟩ := advances
    exact ⟨position, inside, same, below⟩
  | later called makes inductionHypothesis =>
    exact inductionHypothesis (advances.next known called)

theorem Advances.finishes : course.Finishes (course.run Rule.apply) := by
  induction course with
  | fails error => exact .fails
  | ends value => exact .ends
  | calls rule place next inductionHypothesis =>
    have finishes := advances.called known
    rw [run]
    cases answer : rule.apply place with
    | error error =>
      rw [answer] at finishes
      exact .refused finishes
    | ok read =>
      rw [answer] at finishes
      exact .answered finishes (inductionHypothesis read (advances.next known answer))

end

end Course

/-- A rule gets on if the rules do that are further on or further down. -/
theorem Rule.getsOn_of_below {rule : Rule} (inside : position ≤ tokens.length)
    (known : ∀ (called : Rule) (later : Nat), later ≤ tokens.length →
      (position < later ∨ position = later ∧ called.rank < rule.rank) →
      called.GetsOn tokens sourceLength later) :
    rule.GetsOn tokens sourceLength position := by
  have advances := rule.routine_advances sourceLength inside
  have unfolds := rule.apply_eq_run (.behind tokens sourceLength position)
  refine ⟨unfolds, fun read result => ?_, fun called place makes => advances.isBelow known makes,
    fun result => ⟨fun finishes => unfolds.trans finishes.run_eq, ?_⟩⟩
  · rw [unfolds] at result
    exact advances.isBehind known result
  · rintro rfl
    rw [unfolds]
    exact advances.finishes known

/-- By induction on the tokens that remain and, among the calls at one position, on the order of the
grammar. -/
theorem Rule.getsOn (rule : Rule) (position : Nat) (inside : position ≤ tokens.length) :
    rule.GetsOn tokens sourceLength position := by
  refine getsOn_of_below inside ?_
  intro called later inside below
  exact called.getsOn later inside
termination_by (tokens.length - position, rule.rank)
decreasing_by
  rcases below with further | ⟨rfl, down⟩
  · exact Prod.Lex.left _ _ (by omega)
  · exact Prod.Lex.right _ down

end Grammar

/-! ### The whole source -/

/-- What is left to do behind the statements of a source. -/
def Program.close (source : List Char) (read : List Statement × Cursor) :
    Except ParseError Program :=
  if read.2.kind = .endOfSource then
    .ok ⟨⟨read.1, ⟨0, byteLength source⟩⟩, commentsOf source⟩
  else .error (read.2.missing .endOfSource)

open Grammar

theorem Program.parse_eq (source : List Char) :
    parse source = Rule.block.apply (start source) >>= close source := by
  rw [parse, Rule.apply, Rule.forget]
  cases Grammar.block (start source) with
  | error error => rfl
  | ok parsed =>
    change (if parsed.rest.kind = .endOfSource then _ else _) = close _ (parsed.value, parsed.rest)
    rw [close]
    rfl

/-- Reading always gets on. Each rule, wherever it is called among whatever tokens, uses as many of
them as it has to and no more than there are; each of its calls, the further rounds of its loops
among them, has fewer tokens in front of it or is further down in the order of the grammar; and so
the calls come to an end. In particular every source is read to an end, a program or an error. -/
theorem Program.reading_gets_on :
    (∀ (tokens : List Token) (sourceLength position : Nat), position ≤ tokens.length →
      ∀ rule : Rule, rule.GetsOn tokens sourceLength position) ∧
    ∀ source, ∃ result, (Rule.block.routine (start source)).Finishes result ∧
      parse source = result >>= close source := by
  refine ⟨fun tokens sourceLength position inside rule => rule.getsOn position inside, ?_⟩
  intro source
  refine ⟨_, ?_, parse_eq source⟩
  have getsOn : Rule.block.GetsOn (start source).remaining (byteLength source) 0 :=
    Rule.block.getsOn 0 (Nat.zero_le _)
  exact (getsOn.finishes _).2 rfl

theorem Program.reading_gets_on_of_open_call :
    (∀ rule : Rule, rule.GetsOn (start "f(1,".toList).remaining 4 3) ∧
    ∃ error, (Rule.block.routine (start "f(1,".toList)).Finishes (.error error) := by
  have inside : 3 ≤ (start "f(1,".toList).remaining.length := by decide +kernel
  have failed : (Rule.block.apply (start "f(1,".toList)).toOption.isNone = true := by
    decide +kernel
  have fromStart := reading_gets_on.1 (start "f(1,".toList).remaining 4 0 (Nat.zero_le _) .block
  refine ⟨reading_gets_on.1 _ _ _ inside, ?_⟩
  cases result : Rule.block.apply (start "f(1,".toList) with
  | error error => exact ⟨error, (fromStart.finishes _).2 result⟩
  | ok read =>
    rw [result] at failed
    cases failed

end LuaStyle
