/-
This file follows what each rule of the grammar does by itself over the positions of the tokens.

A place among the tokens is told by its position, which is the number of tokens before it. A token
that is used leads one position further, and never beyond the last token. A call leads on by as many
tokens as its rule has to use; no more is assumed of what it answers. That is enough to see that
each call of a rule happens further on than the rule has started, or at the same place and further
down in the order of the grammar, and that the rule itself uses as many tokens as it has to.
-/

import LuaStyle.Proofs.Routines
import LuaStyle.Proofs.Steps

namespace LuaStyle

/-! ### Positions -/

namespace Cursor

/-- The place behind so many of the tokens. -/
def behind (tokens : List Token) (sourceLength position : Nat) : Cursor :=
  ⟨tokens.drop position, ((tokens.take position).getLast?.map Token.stop).getD 0, sourceLength⟩

/-- The place is one among the tokens, behind at least so many of them. -/
def IsBehind (tokens : List Token) (sourceLength least : Nat) (place : Cursor) : Prop :=
  ∃ position, least ≤ position ∧ position ≤ tokens.length ∧
    place = behind tokens sourceLength position

variable {tokens : List Token} {sourceLength position : Nat} {token : Token} {rest : Cursor}

/-- The place behind a token that is used is one position further. -/
theorem Steps.eq_behind (steps : (behind tokens sourceLength position).Steps [token] rest) :
    position < tokens.length ∧ rest = behind tokens sourceLength (position + 1) := by
  obtain ⟨remaining, lastStop, length⟩ := steps
  have inside : position < tokens.length := by
    have some := congrArg List.length remaining
    simp only [behind, List.length_drop, List.length_append, List.length_singleton] at some
    omega
  refine ⟨inside, ?_⟩
  change tokens.drop position = token :: rest.remaining at remaining
  rw [List.drop_eq_getElem_cons inside, List.cons.injEq] at remaining
  obtain ⟨same, remaining⟩ := remaining
  obtain ⟨left, stop, total⟩ := rest
  simp only [List.getLast?_singleton, Option.map_some, Option.getD_some] at lastStop
  subst remaining lastStop length
  rw [behind, List.take_succ_eq_append_getElem inside, List.getLast?_concat, same]
  rfl

end Cursor

namespace Grammar

/-! ### What a rule does by itself -/

/-- Every call of the course goes further than the position or further down than the rank, and its
end is at the goal or further, provided that each call gets as far as its rule has to. -/
def Course.Advances {Value : Type} (tokens : List Token) (sourceLength start rank goal : Nat) :
    Course (Value × Cursor) → Prop
  | fails _ => True
  | ends read => read.2.IsBehind tokens sourceLength goal
  | calls rule place next => ∃ position, position ≤ tokens.length ∧
      place = .behind tokens sourceLength position ∧
      (start < position ∨ start = position ∧ rule.rank < rank) ∧
      ∀ value later, position + rule.least ≤ later → later ≤ tokens.length →
        (next (value, .behind tokens sourceLength later)).Advances tokens sourceLength start rank
          goal

variable {tokens : List Token} {sourceLength start rank goal position : Nat} {Value Found : Type}

namespace Routine

/-- The same of a routine that has come to the position. -/
abbrev Advances (tokens : List Token) (sourceLength start rank goal position : Nat)
    (routine : Routine Value) : Prop :=
  (routine (.behind tokens sourceLength position)).Advances tokens sourceLength start rank goal

/-- What reads nothing is where it was. -/
theorem advances_pure (reached : goal ≤ position) (inside : position ≤ tokens.length)
    (value : Value) : Advances tokens sourceLength start rank goal position (pure value) :=
  ⟨position, reached, inside, rfl⟩

/-- A failure needs no tokens. -/
theorem advances_fail (cause : Token → ParseError) :
    Advances tokens sourceLength start rank goal position (fail cause : Routine Value) :=
  trivial

/-- A rule may be asked for behind the start, or at the start if it is lower in the order. -/
theorem advances_ask {rule : Rule} (inside : position ≤ tokens.length)
    (below : start < position ∨ start = position ∧ rule.rank < rank)
    (reached : goal ≤ position + rule.least) :
    Advances tokens sourceLength start rank goal position (ask rule) := by
  refine ⟨position, inside, rfl, below, ?_⟩
  intro value later further within
  exact ⟨later, Nat.le_trans reached further, within, rfl⟩

/-- A call, and what follows it. -/
theorem advances_ask_bind {rule : Rule} {further : rule.Value → Routine Value}
    (inside : position ≤ tokens.length)
    (below : start < position ∨ start = position ∧ rule.rank < rank)
    (next : ∀ value later, position + rule.least ≤ later → later ≤ tokens.length →
      Advances tokens sourceLength start rank goal later (further value)) :
    Advances tokens sourceLength start rank goal position (ask rule >>= further) :=
  ⟨position, inside, rfl, below, next⟩

/-- A token that is used, and what follows it. -/
theorem advances_expect {kind : Token.Kind} {further : Token → Routine Value}
    (next : ∀ token, position + 1 ≤ tokens.length →
      Advances tokens sourceLength start rank goal (position + 1) (further token)) :
    Advances tokens sourceLength start rank goal position (expect kind >>= further) := by
  change ((expect kind (.behind tokens sourceLength position)).bind _).Advances _ _ _ _ _
  rw [expect]
  cases found : (Cursor.behind tokens sourceLength position).expect kind with
  | error error => trivial
  | ok parsed =>
    obtain ⟨value, rest, within⟩ := parsed
    obtain ⟨inside, same⟩ := (Cursor.Steps.of_expect found).1.eq_behind
    cases same
    exact next value inside

/-- A name takes one token. -/
theorem advances_name {further : Name → Routine Value}
    (next : ∀ name, position + 1 ≤ tokens.length →
      Advances tokens sourceLength start rank goal (position + 1) (further name)) :
    Advances tokens sourceLength start rank goal position (name >>= further) := by
  change (((expect .name (.behind tokens sourceLength position)).bind _).bind _).Advances _ _ _ _ _
  rw [expect]
  cases found : (Cursor.behind tokens sourceLength position).expect .name with
  | error error => trivial
  | ok parsed =>
    obtain ⟨value, rest, within⟩ := parsed
    obtain ⟨inside, same⟩ := (Cursor.Steps.of_expect found).1.eq_behind
    cases same
    exact next _ inside

/-- An optional part takes its token or nothing. -/
theorem advances_ifNext {kind : Token.Kind} {behind : Token → Routine Value}
    {here : Routine Value}
    (next : ∀ token, position + 1 ≤ tokens.length →
      Advances tokens sourceLength start rank goal (position + 1) (behind token))
    (otherwise : Advances tokens sourceLength start rank goal position here) :
    Advances tokens sourceLength start rank goal position (ifNext kind behind here) := by
  rw [Advances, ifNext]
  cases found : (Cursor.behind tokens sourceLength position).accept? kind with
  | none => exact otherwise
  | some parsed =>
    obtain ⟨value, rest, within⟩ := parsed
    obtain ⟨inside, same⟩ := (Cursor.Steps.of_accept? found).1.eq_behind
    cases same
    exact next value inside

/-- Looking takes nothing. -/
theorem advances_look {next : Token.Kind → Routine Value}
    (each : ∀ kind, Advances tokens sourceLength start rank goal position (next kind)) :
    Advances tokens sourceLength start rank goal position (look next) :=
  each _

/-- A computation on what was read takes no tokens. -/
theorem advances_lift {run : Except ParseError Found} {further : Found → Routine Value}
    (next : ∀ value, Advances tokens sourceLength start rank goal position (further value)) :
    Advances tokens sourceLength start rank goal position (lift run >>= further) := by
  cases run with
  | error error => trivial
  | ok value => exact next value

/-- Measuring what was read takes no tokens. -/
theorem advances_spanFrom {offset : Nat} {further : Span → Routine Value}
    (next : ∀ span, Advances tokens sourceLength start rank goal position (further span)) :
    Advances tokens sourceLength start rank goal position (spanFrom offset >>= further) :=
  next _

/-! ### Names and parameters

Each lemma gives the rank of its rule as a number, and the goal as the position where the rule has
started and the least number of tokens that it uses. -/

/-- Further names use two tokens each, and perhaps none. -/
theorem advances_furtherNames (inside : position ≤ tokens.length) (separator : Token.Kind) :
    Advances tokens sourceLength position 0 position position (furtherNames separator) := by
  refine advances_ifNext ?_ (advances_pure (Nat.le_refl _) inside _)
  intro token inside
  refine advances_name ?_
  intro first inside
  refine advances_ask_bind inside (.inl (by omega)) ?_
  intro others later further inside
  exact advances_pure (by omega) inside _

theorem advances_names : Advances tokens sourceLength position 0 (position + 1) position names := by
  refine advances_name ?_
  intro first inside
  refine advances_ask_bind inside (.inl (by omega)) ?_
  intro others later further inside
  exact advances_pure (by omega) inside _

theorem advances_functionName :
    Advances tokens sourceLength position 0 (position + 1) position functionName := by
  refine advances_name ?_
  intro first inside
  refine advances_ask_bind inside (.inl (by omega)) ?_
  intro others later further inside
  refine advances_ifNext ?_ (advances_spanFrom fun span => advances_pure (by omega) inside _)
  intro token inside
  refine advances_name ?_
  intro method inside
  exact advances_spanFrom fun span => advances_pure (by omega) inside _

theorem advances_parametersFrom :
    Advances tokens sourceLength position 0 (position + 1) position parametersFrom := by
  refine advances_ifNext (fun token inside => advances_pure (Nat.le_refl _) inside _) ?_
  refine advances_name ?_
  intro name inside
  refine advances_ifNext ?_ (advances_pure (Nat.le_refl _) inside _)
  intro comma inside
  refine advances_ask_bind inside (.inl (by omega)) ?_
  intro others later further inside
  exact advances_pure (by omega) inside _

theorem advances_parameters :
    Advances tokens sourceLength position 0 (position + 1) position parameters := by
  refine advances_expect ?_
  intro opening inside
  refine advances_ifNext (fun closing inside => advances_pure (by omega) inside _) ?_
  refine advances_ask_bind inside (.inl (by omega)) ?_
  intro parameters later further inside
  refine advances_expect ?_
  intro closing inside
  exact advances_pure (by omega) inside _

/-! ### Statements -/

/-- A block asks for statements only, and only while tokens are left. -/
theorem advances_block (inside : position ≤ tokens.length) :
    Advances tokens sourceLength position 7 position position block := by
  refine advances_look fun kind => ?_
  split
  · exact advances_pure (Nat.le_refl _) inside _
  refine advances_ifNext ?_ (advances_ifNext ?_ ?_)
  · intro semicolon inside
    exact advances_ask inside (.inl (by omega)) (by omega)
  · intro keyword inside
    refine advances_ask_bind inside (.inl (by omega)) ?_
    intro last later further inside
    refine advances_look fun kind => ?_
    split
    · exact advances_pure (by omega) inside _
    · exact advances_fail _
  · refine advances_ask_bind inside (.inr ⟨rfl, by decide⟩) ?_
    -- The statement has used a token, so the round that follows starts further on.
    intro first later (further : position + 1 ≤ later) inside
    refine advances_ask_bind inside (.inl (by omega)) ?_
    intro others last beyond inside
    exact advances_pure (by omega) inside _

/-- A block up to its last word. -/
theorem advances_block_expect {kind : Token.Kind}
    {further : List Statement → Token → Routine Value}
    (inside : position ≤ tokens.length) (later : start < position)
    (next : ∀ body token last, position + 1 ≤ last → last ≤ tokens.length →
      Advances tokens sourceLength start rank goal last (further body token)) :
    Advances tokens sourceLength start rank goal position
      (do let body ← ask .block; let token ← expect kind; further body token) := by
  refine advances_ask_bind inside (.inl later) ?_
  intro body behindBody (beyond : position ≤ behindBody) inside
  refine advances_expect ?_
  intro token inside
  exact next body token _ (by omega) inside

/-- A statement uses at least one token. -/
theorem advances_statement (inside : position ≤ tokens.length) :
    Advances tokens sourceLength position 6 (position + 1) position statement := by
  refine advances_look fun kind => ?_
  split
  · refine advances_expect ?_
    intro token inside
    refine advances_ask_bind inside (.inl (by omega)) ?_
    intro first later further inside
    refine advances_ask_bind inside (.inl (by omega)) ?_
    intro clauses last beyond inside
    refine advances_expect ?_
    intro word inside
    exact advances_spanFrom fun span => advances_pure (by omega) inside _
  · refine advances_expect ?_
    intro token inside
    refine advances_ask_bind inside (.inl (by omega)) ?_
    intro condition later further inside
    refine advances_expect ?_
    intro word inside
    refine advances_block_expect inside (by omega) ?_
    intro body ending last beyond inside
    exact advances_spanFrom fun span => advances_pure (by omega) inside _
  · refine advances_expect ?_
    intro token inside
    refine advances_block_expect inside (by omega) ?_
    intro body word later further inside
    refine advances_ask_bind inside (.inl (by omega)) ?_
    intro condition last beyond inside
    exact advances_spanFrom fun span => advances_pure (by omega) inside _
  · refine advances_expect ?_
    intro token inside
    exact advances_ask inside (.inl (by omega)) (by omega)
  · refine advances_expect ?_
    intro token inside
    refine advances_ask_bind inside (.inl (by omega)) ?_
    intro name later further inside
    refine advances_ask_bind inside (.inl (by omega)) ?_
    intro function last beyond inside
    exact advances_spanFrom fun span => advances_pure (by omega) inside _
  · refine advances_expect ?_
    intro token inside
    exact advances_ask inside (.inl (by omega)) (by omega)
  · refine advances_expect ?_
    intro token inside
    refine advances_block_expect inside (by omega) ?_
    intro body word later further inside
    exact advances_spanFrom fun span => advances_pure (by omega) inside _
  · refine advances_expect ?_
    intro token inside
    exact advances_pure (Nat.le_refl _) inside _
  · refine advances_expect ?_
    intro token inside
    refine advances_name ?_
    intro target inside
    exact advances_spanFrom fun span => advances_pure (by omega) inside _
  · refine advances_expect ?_
    intro token inside
    refine advances_name ?_
    intro name inside
    refine advances_expect ?_
    intro mark inside
    exact advances_spanFrom fun span => advances_pure (by omega) inside _
  · exact advances_ask inside (.inr ⟨rfl, by decide⟩) (Nat.le_refl _)
  · exact advances_ask inside (.inr ⟨rfl, by decide⟩) (Nat.le_refl _)
  · exact advances_fail _

/-- A statement that starts with an expression uses at least the tokens of that. -/
theorem advances_assignmentOrCall (inside : position ≤ tokens.length) :
    Advances tokens sourceLength position 5 (position + 1) position assignmentOrCall := by
  refine advances_ask_bind inside (.inr ⟨rfl, by decide⟩) ?_
  intro first later (further : position + 1 ≤ later) inside
  refine advances_look fun kind => ?_
  split
  · refine advances_ask_bind inside (.inl (by omega)) ?_
    intro targets behindTargets beyond inside
    refine advances_expect ?_
    intro mark inside
    refine advances_ask_bind inside (.inl (by omega)) ?_
    intro values last more inside
    exact advances_spanFrom fun span => advances_pure (by omega) inside _
  · split
    · exact advances_pure (by omega) inside _
    · exact advances_fail _

/-- Further targets ask for themselves behind a comma. -/
theorem advances_assignmentTargets (inside : position ≤ tokens.length) (first : Expression) :
    Advances tokens sourceLength position 0 position position (assignmentTargets first) := by
  rw [assignmentTargets]
  split
  · refine advances_ifNext ?_ (advances_pure (Nat.le_refl _) inside _)
    intro comma inside
    refine advances_ask_bind inside (.inl (by omega)) ?_
    intro second later further inside
    refine advances_ask_bind inside (.inl (by omega)) ?_
    intro others last beyond inside
    exact advances_pure (by omega) inside _
  · trivial

theorem advances_forLoop (keyword : Token) :
    Advances tokens sourceLength position 0 (position + 1) position (forLoop keyword) := by
  refine advances_name ?_
  intro first inside
  refine advances_ifNext ?_ ?_
  · intro equal inside
    refine advances_ask_bind inside (.inl (by omega)) ?_
    intro start behindStart further inside
    refine advances_expect ?_
    intro comma inside
    refine advances_ask_bind inside (.inl (by omega)) ?_
    intro last behindLast further inside
    refine advances_ask_bind inside (.inl (by omega)) ?_
    intro step behindStep further inside
    refine advances_expect ?_
    intro word inside
    refine advances_block_expect inside (by omega) ?_
    intro body ending behindEnd further inside
    exact advances_spanFrom fun span => advances_pure (by omega) inside _
  · refine advances_ask_bind inside (.inl (by omega)) ?_
    intro others behindNames further inside
    refine advances_expect ?_
    intro word inside
    refine advances_ask_bind inside (.inl (by omega)) ?_
    intro iterators behindIterators further inside
    refine advances_expect ?_
    intro word inside
    refine advances_block_expect inside (by omega) ?_
    intro body ending behindEnd further inside
    exact advances_spanFrom fun span => advances_pure (by omega) inside _

theorem advances_optionalStep (inside : position ≤ tokens.length) :
    Advances tokens sourceLength position 0 position position optionalStep := by
  refine advances_ifNext ?_ (advances_pure (Nat.le_refl _) inside _)
  intro comma inside
  refine advances_ask_bind inside (.inl (by omega)) ?_
  intro step later further inside
  exact advances_pure (by omega) inside _

theorem advances_functionBody (inside : position ≤ tokens.length) :
    Advances tokens sourceLength position 1 (position + 1) position functionBody := by
  refine advances_ask_bind inside (.inr ⟨rfl, by decide⟩) ?_
  intro parameters later (further : position + 1 ≤ later) inside
  refine advances_block_expect inside (by omega) ?_
  intro body ending last beyond inside
  exact advances_pure (by omega) inside _

theorem advances_guardedClause (inside : position ≤ tokens.length) (word : ClauseWord)
    (keyword : Token) :
    Advances tokens sourceLength position 5 (position + 1) position
      (guardedClause word keyword) := by
  refine advances_ask_bind inside (.inr ⟨rfl, by decide⟩) ?_
  intro condition later (further : position + 1 ≤ later) inside
  refine advances_expect ?_
  intro word inside
  refine advances_spanFrom fun header => ?_
  refine advances_ask_bind inside (.inl (by omega)) ?_
  intro body last beyond inside
  exact advances_pure (by omega) inside _

theorem advances_furtherClauses (inside : position ≤ tokens.length) :
    Advances tokens sourceLength position 0 position position furtherClauses := by
  refine advances_ifNext ?_ (advances_ifNext ?_ (advances_pure (Nat.le_refl _) inside _))
  · intro keyword inside
    refine advances_ask_bind inside (.inl (by omega)) ?_
    intro clause later further inside
    refine advances_ask_bind inside (.inl (by omega)) ?_
    intro clauses last beyond inside
    exact advances_pure (by omega) inside _
  · intro keyword inside
    refine advances_ask_bind inside (.inl (by omega)) ?_
    intro body later further inside
    exact advances_pure (by omega) inside _

theorem advances_localDeclaration (inside : position ≤ tokens.length) (keyword : Token) :
    Advances tokens sourceLength position 1 (position + 1) position
      (localDeclaration keyword) := by
  refine advances_ifNext ?_ ?_
  · intro word inside
    refine advances_name ?_
    intro name inside
    refine advances_ask_bind inside (.inl (by omega)) ?_
    intro function later further inside
    exact advances_spanFrom fun span => advances_pure (by omega) inside _
  · refine advances_ask_bind inside (.inr ⟨rfl, by decide⟩) ?_
    intro declared later (further : position + 1 ≤ later) inside
    refine advances_ifNext ?_ (advances_spanFrom fun span => advances_pure further inside _)
    intro equal inside
    refine advances_ask_bind inside (.inl (by omega)) ?_
    intro values last beyond inside
    exact advances_spanFrom fun span => advances_pure (by omega) inside _

theorem advances_returnValues (inside : position ≤ tokens.length) (keyword : Token) :
    Advances tokens sourceLength position 7 position position (returnValues keyword) := by
  refine advances_ask_bind inside (.inr ⟨rfl, by decide⟩) ?_
  intro values later (further : position ≤ later) inside
  refine advances_ifNext ?_ (advances_spanFrom fun span => advances_pure further inside _)
  intro semicolon inside
  exact advances_spanFrom fun span => advances_pure (by omega) inside _

/-! ### Expressions -/

theorem advances_optionalExpressions (inside : position ≤ tokens.length) :
    Advances tokens sourceLength position 6 position position optionalExpressions := by
  refine advances_look fun kind => ?_
  split
  · exact advances_pure (Nat.le_refl _) inside _
  · exact advances_ask inside (.inr ⟨rfl, by decide⟩) (by omega)

theorem advances_expressions (inside : position ≤ tokens.length) :
    Advances tokens sourceLength position 5 (position + 1) position expressions := by
  refine advances_ask_bind inside (.inr ⟨rfl, by decide⟩) ?_
  intro first later (further : position + 1 ≤ later) inside
  refine advances_ifNext ?_ (advances_pure further inside _)
  intro comma inside
  refine advances_ask_bind inside (.inl (by omega)) ?_
  intro others last beyond inside
  exact advances_pure (by omega) inside _

/-- An expression uses at least one token. -/
theorem advances_expression (inside : position ≤ tokens.length) (limit : Nat) :
    Advances tokens sourceLength position 4 (position + 1) position (expression limit) := by
  refine advances_ask_bind inside (.inr ⟨rfl, by decide⟩) ?_
  intro left later (further : position + 1 ≤ later) inside
  exact advances_ask inside (.inl (by omega)) (by omega)

/-- Operators ask for themselves behind an operator and its operand. -/
theorem advances_operators (inside : position ≤ tokens.length) (limit : Nat)
    (left : Expression) :
    Advances tokens sourceLength position 0 position position (operators limit left) := by
  refine advances_look fun kind => ?_
  split
  · split
    · exact advances_pure (Nat.le_refl _) inside _
    · refine advances_expect ?_
      intro token inside
      refine advances_ask_bind inside (.inl (by omega)) ?_
      intro right later further inside
      exact advances_ask inside (.inl (by omega)) (by omega)
  · exact advances_pure (Nat.le_refl _) inside _

/-- A literal of one fixed token uses that. -/
theorem advances_constant (kind : Token.Kind) (value : LiteralValue) :
    Advances tokens sourceLength position rank (position + 1) position (constant kind value) := by
  refine advances_expect ?_
  intro token inside
  exact advances_pure (Nat.le_refl _) inside _

/-- An operand uses at least one token, and asks for an operand behind its operator only. -/
theorem advances_operand (inside : position ≤ tokens.length) :
    Advances tokens sourceLength position 3 (position + 1) position operand := by
  refine advances_look fun kind => ?_
  split
  · split
    case h_1 | h_2 | h_3 =>
      refine advances_expect ?_
      intro token inside
      exact advances_lift fun literal => advances_pure (Nat.le_refl _) inside _
    case h_4 | h_5 | h_6 | h_7 => exact advances_constant _ _
    · refine advances_expect ?_
      intro opening inside
      refine advances_ask_bind inside (.inl (by omega)) ?_
      intro table later further inside
      exact advances_pure (by omega) inside _
    · refine advances_expect ?_
      intro token inside
      refine advances_ask_bind inside (.inl (by omega)) ?_
      intro function later further inside
      exact advances_spanFrom fun span => advances_pure (by omega) inside _
    · exact advances_ask inside (.inr ⟨rfl, by decide⟩) (Nat.le_refl _)
  · refine advances_expect ?_
    intro token inside
    refine advances_ask_bind inside (.inl (by omega)) ?_
    intro argument later further inside
    exact advances_pure (by omega) inside _

theorem advances_suffixed (inside : position ≤ tokens.length) :
    Advances tokens sourceLength position 2 (position + 1) position suffixed := by
  refine advances_ask_bind inside (.inr ⟨rfl, by decide⟩) ?_
  intro base later (further : position + 1 ≤ later) inside
  exact advances_ask inside (.inl (by omega)) (by omega)

theorem advances_primary :
    Advances tokens sourceLength position 1 (position + 1) position primary := by
  refine advances_look fun kind => ?_
  split
  · refine advances_expect ?_
    intro opening inside
    refine advances_ask_bind inside (.inl (by omega)) ?_
    intro inner later further inside
    refine advances_expect ?_
    intro closing inside
    exact advances_pure (by omega) inside _
  · refine advances_expect ?_
    intro token inside
    exact advances_pure (Nat.le_refl _) inside _
  · exact advances_fail _

/-- Selections and calls ask for themselves behind at least one token. -/
theorem advances_suffixes (inside : position ≤ tokens.length) (base : Expression) :
    Advances tokens sourceLength position 1 position position (suffixes base) := by
  refine advances_look fun kind => ?_
  split
  · refine advances_expect ?_
    intro opening inside
    refine advances_ask_bind inside (.inl (by omega)) ?_
    intro key later further inside
    refine advances_expect ?_
    intro closing inside
    exact advances_ask inside (.inl (by omega)) (by omega)
  · refine advances_expect ?_
    intro dot inside
    refine advances_name ?_
    intro name inside
    exact advances_ask inside (.inl (by omega)) (by omega)
  · refine advances_expect ?_
    intro colon inside
    refine advances_name ?_
    intro name inside
    refine advances_ask_bind inside (.inl (by omega)) ?_
    intro call later further inside
    exact advances_ask inside (.inl (by omega)) (by omega)
  case h_4 | h_5 | h_6 | h_7 =>
    refine advances_ask_bind inside (.inr ⟨rfl, Nat.zero_lt_one⟩) ?_
    -- The call starts here as well, but has used a token when the next round starts.
    intro call later (further : position + 1 ≤ later) inside
    exact advances_ask inside (.inl (by omega)) (by omega)
  · exact advances_pure (Nat.le_refl _) inside _

theorem advances_call (base : Expression) :
    Advances tokens sourceLength position 0 (position + 1) position (call base) := by
  refine advances_look fun kind => ?_
  split
  · refine advances_expect ?_
    intro opening inside
    refine advances_ask_bind inside (.inl (by omega)) ?_
    intro arguments later further inside
    exact advances_pure (by omega) inside _
  · refine advances_expect ?_
    intro opening inside
    refine advances_ask_bind inside (.inl (by omega)) ?_
    intro table later further inside
    exact advances_pure (by omega) inside _
  case h_3 | h_4 =>
    refine advances_expect ?_
    intro token inside
    exact advances_lift fun literal => advances_pure (Nat.le_refl _) inside _
  · exact advances_fail _

theorem advances_callArguments (inside : position ≤ tokens.length) :
    Advances tokens sourceLength position 6 (position + 1) position callArguments := by
  refine advances_ifNext (fun token inside => advances_pure (Nat.le_refl _) inside _) ?_
  refine advances_ask_bind inside (.inr ⟨rfl, by decide⟩) ?_
  intro arguments later (further : position + 1 ≤ later) inside
  refine advances_expect ?_
  intro closing inside
  exact advances_pure (by omega) inside _

theorem advances_tableBody (inside : position ≤ tokens.length) :
    Advances tokens sourceLength position 7 (position + 1) position tableBody := by
  refine advances_ask_bind inside (.inr ⟨rfl, by decide⟩) ?_
  intro fields later (further : position ≤ later) inside
  refine advances_expect ?_
  intro closing inside
  exact advances_pure (by omega) inside _

/-- Fields ask for themselves behind a field. -/
theorem advances_fields (inside : position ≤ tokens.length) :
    Advances tokens sourceLength position 6 position position fields := by
  refine advances_look fun kind => ?_
  split
  · exact advances_pure (Nat.le_refl _) inside _
  refine advances_ask_bind inside (.inr ⟨rfl, by decide⟩) ?_
  intro first later (further : position + 1 ≤ later) inside
  have another : ∀ separator : Token, later + 1 ≤ tokens.length →
      Advances tokens sourceLength position 6 position (later + 1)
        (do let others ← ask .fields; pure (first :: others)) := by
    intro separator inside
    refine advances_ask_bind inside (.inl (by omega)) ?_
    intro others last beyond inside
    exact advances_pure (by omega) inside _
  exact advances_ifNext another (advances_ifNext another (advances_pure (by omega) inside _))

theorem advances_field (inside : position ≤ tokens.length) :
    Advances tokens sourceLength position 5 (position + 1) position field := by
  refine advances_ifNext ?_ ?_
  · intro opening inside
    refine advances_ask_bind inside (.inl (by omega)) ?_
    intro key later further inside
    refine advances_expect ?_
    intro closing inside
    refine advances_expect ?_
    intro equal inside
    refine advances_ask_bind inside (.inl (by omega)) ?_
    intro value last beyond inside
    exact advances_spanFrom fun span => advances_pure (by omega) inside _
  · rw [Advances]
    split
    · refine advances_name ?_
      intro name inside
      refine advances_expect ?_
      intro equal inside
      refine advances_ask_bind inside (.inl (by omega)) ?_
      intro value later further inside
      exact advances_spanFrom fun span => advances_pure (by omega) inside _
    · refine advances_ask_bind inside (.inr ⟨rfl, by decide⟩) ?_
      intro value later (further : position + 1 ≤ later) inside
      exact advances_pure further inside _

end Routine

/-- What a rule does by itself gets as far as it has to, and only calls further on or further
down. -/
theorem Rule.routine_advances (rule : Rule) (sourceLength : Nat)
    (inside : position ≤ tokens.length) :
    Routine.Advances tokens sourceLength position rule.rank (position + rule.least) position
      rule.routine := by
  cases rule with
  | furtherNames separator => exact Routine.advances_furtherNames inside separator
  | names => exact Routine.advances_names
  | functionName => exact Routine.advances_functionName
  | parametersFrom => exact Routine.advances_parametersFrom
  | parameters => exact Routine.advances_parameters
  | block => exact Routine.advances_block inside
  | statement => exact Routine.advances_statement inside
  | assignmentOrCall => exact Routine.advances_assignmentOrCall inside
  | assignmentTargets first => exact Routine.advances_assignmentTargets inside first
  | forLoop keyword => exact Routine.advances_forLoop keyword
  | optionalStep => exact Routine.advances_optionalStep inside
  | functionBody => exact Routine.advances_functionBody inside
  | guardedClause word keyword => exact Routine.advances_guardedClause inside word keyword
  | furtherClauses => exact Routine.advances_furtherClauses inside
  | localDeclaration keyword => exact Routine.advances_localDeclaration inside keyword
  | returnValues keyword => exact Routine.advances_returnValues inside keyword
  | optionalExpressions => exact Routine.advances_optionalExpressions inside
  | expressions => exact Routine.advances_expressions inside
  | expression limit => exact Routine.advances_expression inside limit
  | operators limit left => exact Routine.advances_operators inside limit left
  | operand => exact Routine.advances_operand inside
  | suffixed => exact Routine.advances_suffixed inside
  | primary => exact Routine.advances_primary
  | suffixes base => exact Routine.advances_suffixes inside base
  | call base => exact Routine.advances_call base
  | callArguments => exact Routine.advances_callArguments inside
  | tableBody => exact Routine.advances_tableBody inside
  | fields => exact Routine.advances_fields inside
  | field => exact Routine.advances_field inside

end Grammar

end LuaStyle
