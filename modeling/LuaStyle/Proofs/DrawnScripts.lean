/-
This file says where the groups of a script stand among the tokens that its tree is read from.

A script is drawn in tokens if it names them one by one, commas, semicolons and comments apart, and
if each of its groups is a pair of parentheses that starts and stops where the group's span does.
Every tree draws its script in the tokens it is read from. Taking a group away from the script is
taking its two parentheses away from the tokens.
-/

import LuaStyle.Proofs.ScriptSpelling
import LuaStyle.Proofs.TreeScripts

namespace LuaStyle

/-! ### Glyphs of tokens -/

/-- What the word is in a script, if it takes part in one. -/
def Token.Word.glyph? (word : Token.Word) : Option Glyph :=
  match word.kind with
  | .symbol .leftParen => some .opening
  | .symbol .rightParen => some .closing
  | .symbol .comma | .symbol .semicolon | .comment => none
  | _ => some (.word word)

/-- The word stands for itself in a script. -/
def Token.Word.IsPlain (word : Token.Word) : Prop :=
  word.glyph? = some (.word word)

/-- What the tokens are in a script. -/
def Token.glyphs (tokens : List Token) : List Glyph :=
  (tokens.map Token.word).filterMap Token.Word.glyph?

namespace Token

theorem glyphs_cons (token : Token) (rest : List Token) :
    glyphs (token :: rest) = token.word.glyph?.toList ++ glyphs rest := by
  rw [glyphs, List.map_cons, List.filterMap_cons]
  cases token.word.glyph? <;> rfl

theorem glyphs_append (first second : List Token) :
    glyphs (first ++ second) = glyphs first ++ glyphs second := by
  rw [glyphs, List.map_append, List.filterMap_append]
  rfl

theorem glyph?_opening {token : Token} (kind : token.kind = .symbol .leftParen) :
    token.word.glyph? = some .opening := by
  rw [Word.glyph?, word, kind]

theorem glyph?_closing {token : Token} (kind : token.kind = .symbol .rightParen) :
    token.word.glyph? = some .closing := by
  rw [Word.glyph?, word, kind]

end Token

theorem Literal.isPlain_word (constant : Literal) : constant.word.IsPlain := by
  unfold Literal.word
  split
  case h_6 =>
    unfold Token.Word.ofString
    split <;> rfl
  all_goals rfl

theorem BinaryOperator.isPlain_token (operator : BinaryOperator) :
    operator.token.word.IsPlain := by
  cases operator <;> rfl

theorem UnaryOperator.isPlain_token (operator : UnaryOperator) : operator.token.word.IsPlain := by
  cases operator <;> rfl

theorem Token.isPlain_keyword (keyword : Token.Keyword) :
    (Token.Kind.keyword keyword).word.IsPlain := rfl

/-! ### Drawing -/

namespace Script

/-- The tokens are those of the script, and the groups stand where their spans say. -/
inductive Drawn : Script → List Token → Prop
  | done : Drawn .done []
  | pause {script token tokens} :
    token.word.glyph? = none → Drawn script tokens → Drawn script (token :: tokens)
  | word {only rest token tokens} :
    Token.KnownBy only token → only.IsPlain → Drawn rest tokens →
      Drawn (.word only rest) (token :: tokens)
  | enclosed {inside rest opening tokens closing more} :
    opening.kind = .symbol .leftParen → Drawn inside tokens →
      closing.kind = .symbol .rightParen → Drawn rest more →
      Drawn (.enclosed inside rest) (opening :: tokens ++ closing :: more)
  | expression {form inside rest tokens more} :
    Drawn inside tokens → Drawn rest more → Drawn (.expression [] form inside rest) (tokens ++ more)
  | group {groups form inside rest opening tokens closing more} :
    opening.kind = .symbol .leftParen → Drawn (.expression groups form inside .done) tokens →
      closing.kind = .symbol .rightParen → Drawn rest more →
      Drawn (.expression (⟨opening.start, closing.stop⟩ :: groups) form inside rest)
        (opening :: tokens ++ closing :: more)

namespace Drawn

variable {script first second rest inside : Script} {tokens before after marks : List Token}
  {token opening closing : Token} {kind : Token.Kind} {form : Expression.Form}

theorem append (drawn : Drawn first before) (further : Drawn second after) :
    Drawn (first ++ second) (before ++ after) := by
  induction drawn with
  | done => exact further
  | pause none _ inductionHypothesis => exact .pause none inductionHypothesis
  | word known plain _ inductionHypothesis => exact .word known plain inductionHypothesis
  | enclosed opens insideDrawn closes _ _ inductionHypothesis =>
    rw [List.append_assoc, List.cons_append, enclosed_append]
    exact .enclosed opens insideDrawn closes inductionHypothesis
  | expression insideDrawn _ _ inductionHypothesis =>
    rw [List.append_assoc, expression_append]
    exact .expression insideDrawn inductionHypothesis
  | group opens coreDrawn closes _ _ inductionHypothesis =>
    rw [List.append_assoc, List.cons_append, expression_append]
    exact .group opens coreDrawn closes inductionHypothesis

/-- A reserved word or a symbol stands in front. -/
theorem mark (is : token.kind = kind) (isMark : kind.isMark) (plain : kind.word.IsPlain)
    (drawn : Drawn rest tokens) : Drawn (.mark kind rest) (token :: tokens) :=
  .word (.of_kind is isMark) plain drawn

/-- A name stands in front. -/
theorem name {identifier : Name} (reads : identifier.Reads token) (drawn : Drawn rest tokens) :
    Drawn (.word identifier.word rest) (token :: tokens) :=
  .word (.of_name reads) rfl drawn

/-- A literal stands in front. -/
theorem literal {constant : Literal} (known : Token.KnownBy constant.word token)
    (drawn : Drawn rest tokens) : Drawn (.word constant.word rest) (token :: tokens) :=
  .word known constant.isPlain_word drawn

/-- A reserved word or a symbol stands behind. -/
theorem concat (drawn : Drawn script tokens) (is : token.kind = kind) (isMark : kind.isMark)
    (plain : kind.word.IsPlain) : Drawn (script ++ .mark kind .done) (tokens ++ [token]) :=
  drawn.append (.mark is isMark plain .done)

/-- A comma stands in front. -/
theorem comma (is : token.kind = .symbol .comma) (drawn : Drawn script tokens) :
    Drawn script (token :: tokens) :=
  .pause (by rw [Token.Word.glyph?, Token.word, is]) drawn

/-- A separator stands in front. -/
theorem separator (is : token.kind = .symbol .comma ∨ token.kind = .symbol .semicolon)
    (drawn : Drawn script tokens) : Drawn script (token :: tokens) := by
  refine .pause ?_ drawn
  rcases is with kind | kind <;> rw [Token.Word.glyph?, Token.word, kind]

/-- A comment stands in front. -/
theorem comment (is : token.kind = .comment) (drawn : Drawn script tokens) :
    Drawn script (token :: tokens) :=
  .pause (by rw [Token.Word.glyph?, Token.word, is]) drawn

/-- Semicolons stand in front. -/
theorem semicolons (drawn : Drawn script tokens)
    (are : ∀ mark ∈ marks, mark.kind = .symbol .semicolon) : Drawn script (marks ++ tokens) := by
  induction marks with
  | nil => exact drawn
  | cons mark marks inductionHypothesis =>
    obtain ⟨is, others⟩ := List.forall_mem_cons.1 are
    exact .separator (.inr is) (inductionHypothesis others)

/-- An expression without groups. -/
theorem single (drawn : Drawn inside tokens) :
    Drawn (.expression [] form inside .done) tokens :=
  List.append_nil tokens ▸ .expression drawn .done

/-- An expression in one more group. -/
theorem grouped {groups : List Span} (opens : opening.kind = .symbol .leftParen)
    (drawn : Drawn (.expression groups form inside .done) tokens)
    (closes : closing.kind = .symbol .rightParen) :
    Drawn (.expression (⟨opening.start, closing.stop⟩ :: groups) form inside .done)
      (opening :: tokens ++ [closing]) :=
  .group opens drawn closes .done

theorem replicate_append_cons {Item : Type} (item : Item) (count : Nat) (rest : List Item) :
    List.replicate count item ++ item :: rest = item :: (List.replicate count item ++ rest) := by
  rw [← List.singleton_append, ← List.append_assoc, ← List.replicate_succ', List.replicate_succ,
    List.cons_append]

/-- The tokens of a script are what it spells. -/
theorem glyphs_eq (drawn : Drawn script tokens) (spelled : Token.AllSpelled tokens) :
    Token.glyphs tokens = script.spell := by
  induction drawn with
  | done => rfl
  | pause none _ inductionHypothesis =>
    rw [Token.glyphs_cons, none]
    exact inductionHypothesis (Token.allSpelled_cons.1 spelled).2
  | word known plain _ inductionHypothesis =>
    obtain ⟨first, others⟩ := Token.allSpelled_cons.1 spelled
    rw [Token.glyphs_cons, ← known.eq_word first, plain, inductionHypothesis others]
    rfl
  | enclosed opens _ closes _ insideHypothesis restHypothesis =>
    obtain ⟨front, behind⟩ := Token.allSpelled_append.1 spelled
    rw [Token.glyphs_append, Token.glyphs_cons, Token.glyphs_cons, Token.glyph?_opening opens,
      Token.glyph?_closing closes, insideHypothesis (Token.allSpelled_cons.1 front).2,
      restHypothesis (Token.allSpelled_cons.1 behind).2]
    rfl
  | expression _ _ insideHypothesis restHypothesis =>
    obtain ⟨front, behind⟩ := Token.allSpelled_append.1 spelled
    rw [Token.glyphs_append, insideHypothesis front, restHypothesis behind]
    rfl
  | group opens _ closes _ coreHypothesis restHypothesis =>
    obtain ⟨front, behind⟩ := Token.allSpelled_append.1 spelled
    rw [Token.glyphs_append, Token.glyphs_cons, Token.glyphs_cons, Token.glyph?_opening opens,
      Token.glyph?_closing closes, coreHypothesis (Token.allSpelled_cons.1 front).2,
      restHypothesis (Token.allSpelled_cons.1 behind).2]
    simp [spell, List.replicate_succ, replicate_append_cons]

end Drawn

/-! ### Taking parentheses away -/

/-- The tokens draw the script once the two parentheses at the span are taken away from them. -/
def DrawnWithout (span : Span) (script : Script) (tokens : List Token) : Prop :=
  ∃ front opening middle closing back,
    tokens = front ++ opening :: (middle ++ closing :: back) ∧
      opening.kind = .symbol .leftParen ∧ closing.kind = .symbol .rightParen ∧
      span = ⟨opening.start, closing.stop⟩ ∧ Drawn script (front ++ (middle ++ back))

/-- What stands around the tokens may be drawn as well. -/
theorem DrawnWithout.within {span : Span} {script larger : Script} {tokens : List Token}
    (without : DrawnWithout span script tokens) (before after : List Token)
    (around : ∀ {inner}, Drawn script inner → Drawn larger (before ++ (inner ++ after))) :
    DrawnWithout span larger (before ++ (tokens ++ after)) := by
  obtain ⟨front, opening, middle, closing, back, rfl, opens, closes, place, drawn⟩ := without
  refine ⟨before ++ front, opening, middle, closing, back ++ after, ?_, opens, closes, place, ?_⟩
  · simp only [List.append_assoc, List.cons_append]
  · have larger := around drawn
    simp only [List.append_assoc] at larger ⊢
    exact larger

/-- What stands in front of the tokens may be drawn as well. -/
theorem DrawnWithout.behind {span : Span} {script larger : Script} {tokens : List Token}
    (without : DrawnWithout span script tokens) (before : List Token)
    (around : ∀ {inner}, Drawn script inner → Drawn larger (before ++ inner)) :
    DrawnWithout span larger (before ++ tokens) := by
  have whole := without.within before [] fun drawn => by
    rw [List.append_nil]
    exact around drawn
  rwa [List.append_nil] at whole

/-- A group is taken away from a script by taking its parentheses away from the tokens. -/
theorem Drawn.without {span : Span} {script freed : Script} {tokens : List Token}
    (drawn : Drawn script tokens) (frees : Frees span script freed) :
    DrawnWithout span freed tokens := by
  induction drawn generalizing freed with
  | done => cases frees
  | pause none _ inductionHypothesis =>
    exact (inductionHypothesis frees).behind [_] (.pause none)
  | word known plain _ inductionHypothesis =>
    cases frees with
    | behindWord restFrees =>
      exact (inductionHypothesis restFrees).behind [_] (.word known plain)
  | @enclosed _ _ opening tokens closing more opens insideDrawn closes restDrawn insideHypothesis
      restHypothesis =>
    cases frees with
    | enclosed insideFrees =>
      exact (insideHypothesis insideFrees).within [opening] (closing :: more)
        fun drawn => .enclosed opens drawn closes restDrawn
    | behindEnclosed restFrees =>
      have whole := (restHypothesis restFrees).behind (opening :: tokens ++ [closing])
        fun drawn => by
          rw [List.append_assoc]
          exact .enclosed opens insideDrawn closes drawn
      rwa [List.append_assoc] at whole
  | @expression _ _ _ tokens more insideDrawn restDrawn insideHypothesis restHypothesis =>
    cases frees with
    | inExpression insideFrees =>
      exact (insideHypothesis insideFrees).within [] more fun drawn => by
        rw [List.nil_append]
        exact .expression drawn restDrawn
    | behindExpression restFrees =>
      exact (restHypothesis restFrees).behind tokens (.expression insideDrawn)
  | @group _ _ _ _ opening tokens closing more opens coreDrawn closes restDrawn coreHypothesis
      restHypothesis =>
    cases frees with
    | here => exact ⟨[], opening, tokens, closing, more, rfl, opens, closes, rfl,
        coreDrawn.append restDrawn⟩
    | inExpression insideFrees =>
      exact (coreHypothesis (.inExpression insideFrees)).within [opening] (closing :: more)
        fun drawn => .group opens drawn closes restDrawn
    | behindExpression restFrees =>
      have whole := (restHypothesis restFrees).behind (opening :: tokens ++ [closing])
        fun drawn => by
          rw [List.append_assoc]
          exact .group opens coreDrawn closes drawn
      rwa [List.append_assoc] at whole

end Script

end LuaStyle
