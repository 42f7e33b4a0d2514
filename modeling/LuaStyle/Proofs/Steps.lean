/-
This file follows a cursor over the tokens it uses.

The parser's state says what remains and where the last used token ends, and every function of the
grammar goes from one state to a later one. `Cursor.Steps` names the tokens in between. It composes
and comes apart like the list of those tokens, so a statement about a function of the grammar can be
one about a stretch of tokens, and the two directions in which the grammar is read here, from a
result to the tokens it was read from and from tokens to the result, share these lemmas.
-/

import LuaStyle.Parser.Grammar

namespace LuaStyle

/-! ### Sequencing -/

/-- A sequence of two computations succeeds exactly when both do. -/
theorem bind_eq_ok {Error First Second : Type} {first : Except Error First}
    {next : First → Except Error Second} {result : Second} :
    (first >>= next) = .ok result ↔ ∃ value, first = .ok value ∧ next value = .ok result := by
  cases first with
  | error error =>
    constructor
    · intro impossible
      cases impossible
    · rintro ⟨value, impossible, run⟩
      cases impossible
  | ok value =>
    constructor
    · intro same
      exact ⟨value, rfl, same⟩
    · rintro ⟨_, same, run⟩
      cases same
      exact run

namespace Cursor

/-- Using the tokens leads from the cursor before them to the cursor after them. -/
structure Steps (before : Cursor) (tokens : List Token) (after : Cursor) : Prop where
  /-- The tokens are the first of those that remained. -/
  remaining : before.remaining = tokens ++ after.remaining
  /-- The last token used is the last of them. -/
  lastStop : after.lastStop = (tokens.getLast?.map Token.stop).getD before.lastStop
  /-- The source stays the same. -/
  sourceLength : after.sourceLength = before.sourceLength

namespace Steps

variable {first middle last : Cursor} {token : Token} {tokens more : List Token}

theorem refl (cursor : Cursor) : cursor.Steps [] cursor :=
  ⟨rfl, rfl, rfl⟩

/-- Without tokens the cursor stays. -/
theorem eq_of_nil (steps : first.Steps [] last) : last = first := by
  obtain ⟨remaining, lastStop, sourceLength⟩ := steps
  cases first
  cases last
  simp_all

theorem trans (steps : first.Steps tokens middle) (further : middle.Steps more last) :
    first.Steps (tokens ++ more) last := by
  refine ⟨?_, ?_, ?_⟩
  · rw [steps.remaining, further.remaining, List.append_assoc]
  · rw [further.lastStop, steps.lastStop, List.getLast?_append]
    cases more.getLast? <;> rfl
  · rw [further.sourceLength, steps.sourceLength]

/-- The way over two stretches of tokens passes a cursor between them. -/
theorem split (steps : first.Steps (tokens ++ more) last) :
    ∃ middle, first.Steps tokens middle ∧ middle.Steps more last := by
  refine ⟨⟨more ++ last.remaining, (tokens.getLast?.map Token.stop).getD first.lastStop,
    first.sourceLength⟩, ⟨?_, rfl, rfl⟩, ⟨rfl, ?_, steps.sourceLength⟩⟩
  · rw [steps.remaining, List.append_assoc]
  · rw [steps.lastStop, List.getLast?_append]
    cases more.getLast? <;> rfl

/-- The first token comes apart from the others. -/
theorem split_cons (steps : first.Steps (token :: tokens) last) :
    ∃ middle, first.Steps [token] middle ∧ middle.Steps tokens last := by
  rw [← List.singleton_append] at steps
  exact steps.split

theorem cons (steps : first.Steps [token] middle) (further : middle.Steps tokens last) :
    first.Steps (token :: tokens) last :=
  steps.trans further

/-- The stretch from the start of the first token to where the cursor stands. -/
theorem spanFrom_eq (steps : first.Steps (tokens ++ [token]) last) (start : Nat) :
    last.spanFrom start = ⟨start, token.stop⟩ := by
  rw [spanFrom, steps.lastStop, List.getLast?_concat]
  rfl

theorem size_lt (steps : first.Steps (token :: tokens) last) : last.size < first.size := by
  simp only [size, steps.remaining, List.cons_append, List.length_cons, List.length_append]
  omega

/-- The kind of the token that follows is that of the first token used. -/
theorem kind_eq (steps : first.Steps (token :: tokens) last) : first.kind = token.kind := by
  rw [kind, current, steps.remaining]
  rfl

/-! ### Elementary steps and the tokens they use -/

theorem of_next? {parsed : Parsed first.size Token} (found : first.next? = some parsed) :
    first.Steps [parsed.value] parsed.rest := by
  unfold next? at found
  split at found
  · cases found
  next token rest same =>
    cases found
    exact ⟨same, rfl, rfl⟩

theorem next?_eq (steps : first.Steps [token] last) :
    ∃ within, first.next? = some ⟨token, last, within⟩ := by
  refine ⟨steps.size_lt, ?_⟩
  obtain ⟨remaining, stop, length⟩ := first
  obtain ⟨remainingAfter, stopAfter, lengthAfter⟩ := last
  obtain ⟨same, stopSame, lengthSame⟩ := steps
  simp only [List.cons_append, List.nil_append, List.getLast?_singleton, Option.map_some,
    Option.getD_some] at same stopSame lengthSame
  subst same stopSame lengthSame
  rfl

theorem of_accept? {kind : Token.Kind} {parsed : Parsed first.size Token}
    (found : first.accept? kind = some parsed) :
    first.Steps [parsed.value] parsed.rest ∧ parsed.value.kind = kind := by
  obtain ⟨next, same⟩ := Option.filter_eq_some_iff.1 found
  exact ⟨of_next? next, eq_of_beq same⟩

theorem accept?_eq (steps : first.Steps [token] last) :
    ∃ within, first.accept? token.kind = some ⟨token, last, within⟩ := by
  obtain ⟨within, next⟩ := steps.next?_eq
  refine ⟨within, ?_⟩
  rw [accept?, next, Option.filter_some]
  simp

/-- A cursor does not accept a kind of token that does not follow. -/
theorem accept?_eq_none {kind : Token.Kind} (different : first.kind ≠ kind) :
    first.accept? kind = none := by
  rw [accept?, Option.filter_eq_none_iff]
  intro parsed next same
  exact different ((of_next? next).kind_eq.trans (eq_of_beq same))

theorem of_expect {kind : Token.Kind} {parsed : Parsed first.size Token}
    (found : first.expect kind = .ok parsed) :
    first.Steps [parsed.value] parsed.rest ∧ parsed.value.kind = kind := by
  unfold expect at found
  split at found
  next accepted =>
    cases found
    exact of_accept? accepted
  · cases found

theorem expect_eq (steps : first.Steps [token] last) :
    ∃ within, first.expect token.kind = .ok ⟨token, last, within⟩ := by
  obtain ⟨within, accepted⟩ := steps.accept?_eq
  exact ⟨within, by rw [expect, accepted]⟩

end Steps

/-! ### The kind of what follows -/

variable {cursor rest : Cursor} {token : Token} {within : rest.size < cursor.size}

theorem kind_of_next? (next : cursor.next? = some ⟨token, rest, within⟩) :
    cursor.kind = token.kind :=
  (Steps.of_next? next).kind_eq

theorem kind_of_next?_eq_none (ended : cursor.next? = none) : cursor.kind = .endOfSource := by
  unfold next? at ended
  split at ended
  next empty =>
    rw [kind, current, empty]
    rfl
  · cases ended

end Cursor

end LuaStyle
