/-
This file proves that a script can be told from what it spells and from its words.

Spelled out, a script no longer shows which parentheses are groups, how far they reach, and which
belong to calls. But if two scripts are the same without their groups and spell the same, their
groups are the same. Going through both from the front, the parentheses in front of an expression
have to be counted on both sides before the expression is reached, and a parenthesis there could
also be that of an expression further inside. Where the two come apart is told behind the innermost
one: no expression consists of another expression and nothing more, so what follows that one is
either the end of its own groups or something else than a closing parenthesis.
-/

import LuaStyle.Proofs.Script

namespace LuaStyle

/-- What a script spells, one word or one parenthesis at a time. -/
inductive Glyph where
  | opening
  | closing
  | word (word : Token.Word)
deriving DecidableEq

/-- The word, unless it is a parenthesis. -/
def Glyph.word? : Glyph → Option Token.Word
  | opening | closing => none
  | word only => some only

/-- Items that are repeated in front of others can be counted. -/
theorem replicate_append_inj {Item : Type} {item : Item} {first second : List Item}
    (firstStarts : ∀ next ∈ first.head?, next ≠ item)
    (secondStarts : ∀ next ∈ second.head?, next ≠ item) :
    ∀ {count others : Nat},
      List.replicate count item ++ first = List.replicate others item ++ second →
        count = others ∧ first = second
  | 0, 0, same => ⟨rfl, same⟩
  | 0, others + 1, same => by
    have starts : first.head? = some item := congrArg List.head? same
    exact absurd rfl (firstStarts item starts)
  | count + 1, 0, same => by
    have starts : second.head? = some item := (congrArg List.head? same).symm
    exact absurd rfl (secondStarts item starts)
  | count + 1, others + 1, same => by
    obtain ⟨counts, rests⟩ :=
      replicate_append_inj firstStarts secondStarts (List.cons.inj same).2
    exact ⟨congrArg Nat.succ counts, rests⟩

namespace Script

/-- What the script spells. -/
def spell : Script → List Glyph
  | done => []
  | word only rest => .word only :: rest.spell
  | enclosed inside rest => .opening :: (inside.spell ++ .closing :: rest.spell)
  | expression groups _ inside rest =>
    List.replicate groups.length .opening ++
      (inside.spell ++ (List.replicate groups.length .closing ++ rest.spell))

/-- The words of the script. -/
def words (script : Script) : List Token.Word :=
  script.spell.filterMap Glyph.word?

/-- Parentheses of groups are no words. -/
theorem words_mapGroups (change : List Span → List Span) (script : Script) :
    (script.mapGroups change).words = script.words := by
  unfold words
  induction script with
  | done => rfl
  | word only rest inductionHypothesis => simp [spell, Glyph.word?, inductionHypothesis]
  | enclosed inside rest insideHypothesis restHypothesis =>
    simp [spell, List.filterMap_cons, Glyph.word?, insideHypothesis, restHypothesis]
  | expression groups form inside rest insideHypothesis restHypothesis =>
    simp [spell, List.filterMap_replicate, Glyph.word?, insideHypothesis, restHypothesis]

/-! ### Beginnings of expressions -/

/-- The script starts with a word, or with an expression behind which the script goes on, and not
with the end of something. -/
def Opens : Script → Prop
  | word .. | expression _ _ _ (word ..) | expression _ _ _ (enclosed ..) => True
  | _ => False

/-- No expression consists of another expression and nothing more. -/
def IsSound (script : Script) : Prop :=
  ∀ part ∈ script.parts, part.2.Opens

section

variable {only : Token.Word} {inside rest : Script} {groups : List Span} {form : Expression.Form}

theorem isSound_word : (word only rest).IsSound ↔ rest.IsSound := Iff.rfl

theorem isSound_enclosed : (enclosed inside rest).IsSound ↔ inside.IsSound ∧ rest.IsSound :=
  List.forall_mem_append

theorem isSound_expression : (expression groups form inside rest).IsSound ↔
    inside.Opens ∧ inside.IsSound ∧ rest.IsSound := by
  rw [IsSound, parts_expression, List.forall_mem_cons]
  exact and_congr_right fun _ => List.forall_mem_append

end

theorem opens_mapGroups (change : List Span → List Span) (script : Script) :
    (script.mapGroups change).Opens ↔ script.Opens := by
  cases script with
  | expression groups form inside rest => cases rest <;> exact Iff.rfl
  | _ => exact Iff.rfl

theorem isSound_mapGroups (change : List Span → List Span) (script : Script) :
    (script.mapGroups change).IsSound ↔ script.IsSound := by
  rw [IsSound, parts_mapGroups, List.forall_mem_map]
  exact forall₂_congr fun part _ => opens_mapGroups change part.2

theorem isSound_of_ungrouped_eq {first second : Script} (sound : first.IsSound)
    (same : first.ungrouped = second.ungrouped) : second.IsSound := by
  have without : first.ungrouped.IsSound := (isSound_mapGroups _ first).2 sound
  rw [same] at without
  exact (isSound_mapGroups _ second).1 without

/-! ### Counting groups -/

/-- The two scripts spell different things, even with others behind, unless their groups are the
same. -/
def SpellsAlone (first second : Script) : Prop :=
  ∀ before after, first.spell ++ before = second.spell ++ after →
    first.unplaced = second.unplaced ∧ before = after

/-- Parentheses that stand in front of the two scripts can be told from those that belong to
them. -/
def OpensAlone (first second : Script) : Prop :=
  ∀ count others before after,
    List.replicate count .opening ++ (first.spell ++ before) =
      List.replicate others .opening ++ (second.spell ++ after) → count = others

theorem replicate_add_append {Item : Type} (item : Item) (count more : Nat) (rest : List Item) :
    List.replicate count item ++ (List.replicate more item ++ rest) =
      List.replicate (count + more) item ++ rest := by
  rw [← List.append_assoc, List.replicate_append_replicate]

/-- Behind an expression that something opens with, there is no closing parenthesis. -/
theorem ne_closing_of_opens {groups : List Span} {form : Expression.Form} {inside rest : Script}
    (opens : (expression groups form inside rest).Opens) (behind : List Glyph) :
    ∀ next ∈ (rest.spell ++ behind).head?, next ≠ .closing := by
  cases rest with
  | word only rest =>
    rintro _ ⟨⟩
    exact Glyph.noConfusion
  | enclosed inside rest =>
    rintro _ ⟨⟩
    exact Glyph.noConfusion
  | done | expression => exact opens.elim

section

variable {inside within rest more : Script} {groups others : List Span} {form : Expression.Form}

theorem SpellsAlone.word (only : Token.Word) (restAlone : SpellsAlone rest more) :
    SpellsAlone (word only rest) (word only more) := by
  intro before after spelled
  obtain ⟨sameGroups, behind⟩ := restAlone _ _ (List.cons.inj spelled).2
  exact ⟨congrArg (Script.word only) sameGroups, behind⟩

theorem OpensAlone.word (only : Token.Word) (rest more : Script) :
    OpensAlone (word only rest) (word only more) := by
  intro count others before after spelled
  refine (replicate_append_inj ?_ ?_ spelled).1
  · rintro _ ⟨⟩
    exact Glyph.noConfusion
  · rintro _ ⟨⟩
    exact Glyph.noConfusion

theorem SpellsAlone.enclosed (insideAlone : SpellsAlone inside within)
    (restAlone : SpellsAlone rest more) :
    SpellsAlone (enclosed inside rest) (enclosed within more) := by
  intro before after spelled
  rw [spell, spell, List.cons_append, List.cons_append, List.append_assoc, List.append_assoc]
    at spelled
  obtain ⟨insideGroups, behind⟩ := insideAlone _ _ (List.cons.inj spelled).2
  obtain ⟨restGroups, ends⟩ := restAlone _ _ (List.cons.inj behind).2
  exact ⟨congrArg₂ Script.enclosed insideGroups restGroups, ends⟩

theorem SpellsAlone.expression (counted : OpensAlone inside within)
    (insideAlone : SpellsAlone inside within) (restAlone : SpellsAlone rest more) :
    SpellsAlone (expression groups form inside rest) (expression others form within more) := by
  intro before after spelled
  simp only [spell, List.append_assoc] at spelled
  have count : groups.length = others.length := counted _ _ _ _ spelled
  rw [count] at spelled
  obtain ⟨insideGroups, behind⟩ := insideAlone _ _ (List.append_cancel_left spelled)
  obtain ⟨restGroups, ends⟩ := restAlone _ _ (List.append_cancel_left behind)
  have sameGroups : groups.map (fun _ => (default : Span)) = others.map fun _ => default := by
    rw [List.map_const', List.map_const', count]
  refine ⟨?_, ends⟩
  show Script.expression _ form inside.unplaced rest.unplaced = Script.expression _ form _ _
  rw [sameGroups, insideGroups, restGroups]

/-- The groups of an expression that something opens with end together with it, so they can be
counted there. -/
theorem OpensAlone.expression (counted : OpensAlone inside within)
    (insideAlone : SpellsAlone inside within)
    (opens : (expression groups form inside rest).Opens)
    (otherOpens : (expression others form within more).Opens) :
    OpensAlone (expression groups form inside rest) (expression others form within more) := by
  intro count many before after spelled
  simp only [spell, List.append_assoc, replicate_add_append] at spelled
  have total := counted _ _ _ _ spelled
  rw [total] at spelled
  obtain ⟨-, behind⟩ := insideAlone _ _ (List.append_cancel_left spelled)
  obtain ⟨ends, -⟩ := replicate_append_inj (ne_closing_of_opens opens before)
    (ne_closing_of_opens otherOpens after) behind
  omega

end

/-- Scripts that are the same without their groups can be told from what they spell. -/
theorem alone_of_ungrouped_eq {first : Script} (firstSound : first.IsSound) :
    ∀ {second : Script}, second.IsSound → first.ungrouped = second.ungrouped →
      SpellsAlone first second ∧ (first.Opens → OpensAlone first second) := by
  induction first with
  | done =>
    intro second secondSound same
    cases second with
    | done => exact ⟨fun _ _ spelled => ⟨rfl, spelled⟩, False.elim⟩
    | _ => cases same
  | word only rest inductionHypothesis =>
    intro second secondSound same
    cases second with
    | word other more =>
      obtain ⟨rfl, sameRest⟩ := Script.word.inj same
      obtain ⟨restAlone, -⟩ :=
        inductionHypothesis (isSound_word.1 firstSound) (isSound_word.1 secondSound) sameRest
      exact ⟨restAlone.word only, fun _ => .word only rest more⟩
    | _ => cases same
  | enclosed inside rest insideHypothesis restHypothesis =>
    intro second secondSound same
    cases second with
    | enclosed within more =>
      obtain ⟨sameInside, sameRest⟩ := Script.enclosed.inj same
      obtain ⟨insideSound, restSound⟩ := isSound_enclosed.1 firstSound
      obtain ⟨withinSound, moreSound⟩ := isSound_enclosed.1 secondSound
      obtain ⟨insideAlone, -⟩ := insideHypothesis insideSound withinSound sameInside
      obtain ⟨restAlone, -⟩ := restHypothesis restSound moreSound sameRest
      exact ⟨insideAlone.enclosed restAlone, False.elim⟩
    | _ => cases same
  | expression groups form inside rest insideHypothesis restHypothesis =>
    intro second secondSound same
    cases second with
    | expression others otherForm within more =>
      have otherOpens : (expression groups form inside rest).Opens →
          (expression others otherForm within more).Opens := fun opens =>
        (opens_mapGroups _ _).1 (Eq.subst same ((opens_mapGroups _ _).2 opens))
      obtain ⟨-, rfl, sameInside, sameRest⟩ := Script.expression.inj same
      obtain ⟨insideOpens, insideSound, restSound⟩ := isSound_expression.1 firstSound
      obtain ⟨-, withinSound, moreSound⟩ := isSound_expression.1 secondSound
      obtain ⟨insideAlone, counted⟩ := insideHypothesis insideSound withinSound sameInside
      obtain ⟨restAlone, -⟩ := restHypothesis restSound moreSound sameRest
      exact ⟨.expression (counted insideOpens) insideAlone restAlone, fun opens =>
        .expression (counted insideOpens) insideAlone opens (otherOpens opens)⟩
    | _ => cases same

/-- Scripts that spell the same and differ in nothing but groups are the same. -/
theorem unplaced_eq_of_spell_eq {first second : Script} (sound : first.IsSound)
    (same : first.ungrouped = second.ungrouped) (spelled : first.spell = second.spell) :
    first.unplaced = second.unplaced := by
  obtain ⟨alone, -⟩ := alone_of_ungrouped_eq sound (isSound_of_ungrouped_eq sound same) same
  exact (alone [] [] (congrArg (· ++ []) spelled)).1

end Script

end LuaStyle
