/-
This file proves that a layout has no superfluous parentheses.

Deleting a pair of parentheses takes a group away from the script of the tree. If what is left were
read as a tree that is the same apart from groups, that tree would have all other groups where they
were, since a script is told by what it spells, and so it would have an operand or a base where the
deleted group was needed. But the parser leaves an operand whole only where its operators bind as
they have to, and it goes on to a call or a selection only behind certain forms.

Groups of a layout are needed, except for two kinds. Parentheses around a call or `...` cut several
values down to one and say nothing about grouping. And a left operand of equal rank is put in
parentheses even where its operator groups to the left anyhow.
-/

import LuaStyle.Proofs.Climbing
import LuaStyle.Proofs.DeletedParentheses
import LuaStyle.Proofs.ReadBack
import LuaStyle.Proofs.TreesDrawn

namespace LuaStyle

/-! ### Parts of trees that are read -/

namespace Script

/-- If the script starts with an expression without groups, the form of the expression fits. -/
def StartsWith (fits : Expression.Form → Prop) : Script → Prop
  | expression [] form _ _ => fits form
  | _ => True

/-- The script behind what it starts with. -/
def tail : Script → Script
  | done => done
  | word _ rest | enclosed _ rest | expression _ _ _ rest => rest

/-- The operands and bases of an expression of the form stand as the parser would read them. -/
def Stands (form : Expression.Form) (inside : Script) : Prop :=
  match form with
  | .binary operator =>
    inside.StartsWith (·.Closes operator.leftPower) ∧
      inside.tail.tail.StartsWith (·.Opens operator.rightPower)
  | .unary => inside.tail.StartsWith (·.Opens UnaryOperator.bindingPower)
  | .base => inside.StartsWith (· = .base)
  | _ => True

theorem startsWith_unplaced (fits : Expression.Form → Prop) (script : Script) :
    script.unplaced.StartsWith fits ↔ script.StartsWith fits := by
  cases script with
  | expression groups form inside rest => cases groups <;> exact Iff.rfl
  | _ => exact Iff.rfl

theorem tail_mapGroups (change : List Span → List Span) (script : Script) :
    (script.mapGroups change).tail = script.tail.mapGroups change := by
  cases script <;> rfl

/-- Whether operands stand as they should does not depend on the places of groups. -/
theorem stands_unplaced (form : Expression.Form) (inside : Script) :
    Stands form inside.unplaced ↔ Stands form inside := by
  cases form with
  | binary operator =>
    rw [Stands, Stands, tail_mapGroups, tail_mapGroups, startsWith_unplaced, startsWith_unplaced]
  | unary => rw [Stands, Stands, tail_mapGroups, startsWith_unplaced]
  | base => exact startsWith_unplaced _ inside
  | _ => exact Iff.rfl

theorem stands_of_unplaced_eq {first second : Script} (same : first.unplaced = second.unplaced)
    (stand : ∀ part ∈ first.parts, Stands part.1 part.2) :
    ∀ part ∈ second.parts, Stands part.1 part.2 := by
  intro part member
  have image : (part.1, part.2.unplaced) ∈ first.unplaced.parts := by
    rw [same, parts_mapGroups]
    exact List.mem_map_of_mem member
  rw [parts_mapGroups] at image
  obtain ⟨⟨form, inside⟩, isPart, alike⟩ := List.mem_map.1 image
  obtain ⟨forms, insides⟩ := Prod.mk.inj alike
  have stands : Stands form inside.unplaced := (stands_unplaced form inside).2 (stand _ isPart)
  rw [show form = part.1 from forms, show inside.unplaced = part.2.unplaced from insides] at stands
  exact (stands_unplaced part.1 part.2).1 stands

end Script

namespace Expression

variable {expression : Expression}

/-- An expression that is no group starts its script with its form, and so does no group. -/
theorem startsWith_script {fits : Form → Prop} (fitting : fits expression.form) (rest : Script) :
    (expression.script ++ rest).StartsWith fits := by
  cases expression with
  | group inner span =>
    obtain ⟨groups, form, inside, same⟩ := inner.script_eq
    rw [script, same]
    trivial
  | _ => exact fitting

theorem tail_script_append (expression : Expression) (rest : Script) :
    (expression.script ++ rest).tail = rest := by
  obtain ⟨groups, form, inside, same⟩ := expression.script_eq
  rw [same]
  rfl

theorem closes_of_closesAt {power : Nat} (closes : expression.ClosesAt power) :
    expression.form.Closes power := by
  cases expression with
  | binary | unary => exact closes.1
  | literal constant =>
    obtain ⟨value, raw, span⟩ := constant
    cases value <;> trivial
  | _ => trivial

theorem opens_of_opensAbove {limit : Nat} (opens : expression.OpensAbove limit) :
    expression.form.Opens limit := by
  cases expression with
  | binary => exact opens.1
  | literal constant =>
    obtain ⟨value, raw, span⟩ := constant
    cases value <;> trivial
  | _ => trivial

theorem form_of_isPrefix (isPrefix : expression.isPrefix) : expression.form = .base := by
  cases expression with
  | name | group | index | member | call | stringCall | tableCall => rfl
  | _ => cases isPrefix

theorem form_of_isCallee (callee : expression.isPrefix || expression.isMethod) :
    expression.form = .base := by
  cases expression with
  | name | group | index | member | call | stringCall | tableCall => rfl
  | _ => cases callee

end Expression

/-- In a tree that the parser returns, operands and bases stand as the parser would read them. -/
theorem Node.stands_of_part? {node : Node} {form : Expression.Form} {inside : Script}
    (grouped : node.IsGrouped) (grammatical : node.IsGrammatical)
    (part : node.part? = some (form, inside)) : Script.Stands form inside := by
  cases node with
  | expression value =>
    cases value with
    | binary operator left right span =>
      cases part
      refine ⟨Expression.startsWith_script (Expression.closes_of_closesAt grouped.1) _, ?_⟩
      have behind : (left.script ++ .mark operator.token right.script).tail.tail =
          right.script ++ .done := by
        rw [left.tail_script_append, Script.append_done]
        rfl
      show Script.StartsWith _ (left.script ++ .mark operator.token right.script).tail.tail
      rw [behind]
      exact Expression.startsWith_script (Expression.opens_of_opensAbove grouped.2) _
    | unary operator argument span =>
      cases part
      show Script.StartsWith _ argument.script
      rw [← Script.append_done argument.script]
      exact Expression.startsWith_script (Expression.opens_of_opensAbove grouped) _
    | call | stringCall =>
      cases part
      exact Expression.startsWith_script (Expression.form_of_isCallee grammatical.1) _
    | tableCall =>
      cases part
      exact Expression.startsWith_script (Expression.form_of_isCallee grammatical) _
    | index | member =>
      cases part
      exact Expression.startsWith_script (Expression.form_of_isPrefix grammatical.1) _
    | literal constant =>
      cases part
      obtain ⟨value, raw, span⟩ := constant
      cases value <;> trivial
    | function | name | table =>
      cases part
      trivial
    | group => cases part
  | field | clause | statement => cases part

/-- No expression of a tree consists of another expression and nothing more. -/
theorem Node.opens_of_part? {node : Node} {form : Expression.Form} {inside : Script}
    (part : node.part? = some (form, inside)) : inside.Opens := by
  have starts (expression : Expression) (only : Token.Word) (rest : Script) :
      (expression.script ++ .word only rest).Opens := by
    obtain ⟨groups, form, inside, same⟩ := expression.script_eq
    rw [same]
    trivial
  cases node with
  | expression value =>
    cases value with
    | binary | stringCall | tableCall | index | member =>
      cases part
      exact starts ..
    | call base arguments span =>
      cases part
      obtain ⟨groups, form, inside, same⟩ := base.script_eq
      show (base.script ++ Script.enclosed _ _).Opens
      rw [same]
      trivial
    | function head parameters body span =>
      cases part
      obtain ⟨name, isLocal⟩ := head
      cases isLocal <;> trivial
    | unary | name | literal | table =>
      cases part
      trivial
    | group => cases part
  | field | clause | statement => cases part

theorem Statement.isSound_scriptOfAll (body : List Statement) :
    (Statement.scriptOfAll body).IsSound := by
  intro part member
  rw [Statement.parts_scriptOfAll] at member
  obtain ⟨node, -, isPart⟩ := List.mem_filterMap.1 member
  exact node.opens_of_part? isPart

/-! ### Deleting a group -/

/-- Comments are nothing in a script. -/
theorem Token.glyphs_filter (tokens : List Token) :
    Token.glyphs (tokens.filter (·.kind != .comment)) = Token.glyphs tokens := by
  induction tokens with
  | nil => rfl
  | cons token rest inductionHypothesis =>
    rw [List.filter_cons]
    split
    next => rw [Token.glyphs_cons, Token.glyphs_cons, inductionHypothesis]
    next comment =>
      have silent : token.word.glyph? = none := by
        have kind : token.kind = .comment := by simpa using comment
        rw [Token.Word.glyph?, Token.word, kind]
      rw [Token.glyphs_cons, silent, inductionHypothesis]
      rfl

namespace Program

variable {source : List Char} {program : Program}

/-- The tokens of a source draw the script of its tree. -/
theorem drawn_of_parse (parsed : parse source = .ok program) :
    Script.Drawn (Statement.scriptOfAll program.chunk.body)
      ((Token.ofText source).filter (·.kind != .comment)) :=
  Statement.ReadsBody.drawn program.chunk.body (parse_reads parsed).1

/-- The operators of a tree that the parser returns stand as their powers ask for. -/
theorem areGrouped_of_parse (parsed : parse source = .ok program) :
    Node.AreGrouped (Statement.nodesOfAll program.chunk.body) := by
  unfold parse at parsed
  obtain ⟨⟨body, rest, within⟩, found, parsed⟩ := bind_eq_ok.1 parsed
  have grouped := (Grammar.climbing (start source)).block _ found
  dsimp only at parsed
  split at parsed
  · cases parsed
    exact grouped
  · cases parsed

/-- What the tokens of a source are in a script is what the script of its tree spells. -/
theorem glyphs_of_parse (parsed : parse source = .ok program) :
    Token.glyphs (Token.ofText source) = (Statement.scriptOfAll program.chunk.body).spell := by
  rw [← Token.glyphs_filter]
  refine (drawn_of_parse parsed).glyphs_eq fun token member => ?_
  exact allSpelled_ofText source token (List.mem_filter.1 member).1

/-- In a tree that the parser returns, all operands and bases stand as they have to. -/
theorem stands_of_parse (parsed : parse source = .ok program) :
    ∀ part ∈ (Statement.scriptOfAll program.chunk.body).parts, Script.Stands part.1 part.2 := by
  intro part member
  rw [Statement.parts_scriptOfAll] at member
  obtain ⟨node, isNode, isPart⟩ := List.mem_filterMap.1 member
  exact node.stands_of_part? (areGrouped_of_parse parsed node isNode)
    ((grammatical_of_parse parsed).1 node isNode) isPart

/-- Trees that are the same without groups are read from the same words. -/
theorem plainWords_eq_of_ungroupedAll_eq {text : List Char} {other : Program}
    (parsed : parse source = .ok program) (parsedOther : parse text = .ok other)
    (same : Statement.ungroupedAll other.chunk.body =
      Statement.ungroupedAll program.chunk.body) :
    Token.plainWords (Token.wordsFrom source) = Token.plainWords (Token.wordsFrom text) := by
  have words {text : List Char} {program : Program} (parsed : parse text = .ok program) :
      Token.plainWords (Token.wordsFrom text) =
        (Statement.scriptOfAll (Statement.ungroupedAll program.chunk.body)).words := by
    rw [← Statement.ungrouped_scriptOfAll, Script.words_mapGroups, Script.words,
      ← glyphs_of_parse parsed]
    rfl
  rw [words parsed, words parsedOther, same]

theorem noComment_of_comments_eq_nil (parsed : parse source = .ok program)
    (noComments : program.comments = []) :
    ∀ token ∈ Token.ofText source, token.kind ≠ .comment := by
  have none : (Token.ofText source).filter (·.kind == .comment) = [] :=
    List.map_eq_nil_iff.1 ((parse_reads parsed).2.symm.trans noComments)
  exact fun token member comment =>
    List.filter_eq_nil_iff.1 none token member (beq_iff_eq.2 comment)

/-- If the text without a pair of parentheses is read as a tree that is the same apart from groups,
that tree has the groups that are left. -/
theorem unplaced_eq_of_deleted (parsed : parse source = .ok program)
    (noComments : program.comments = []) {span : Span} {freed : Script}
    (frees : Script.Frees span (Statement.scriptOfAll program.chunk.body) freed) :
    ∃ before within after, source = before ++ '(' :: (within ++ ')' :: after) ∧
      span = ⟨byteLength before, byteLength before + byteLength within + 2⟩ ∧
      ∀ other, parse (before ++ (within ++ after)) = .ok other →
        Statement.ungroupedAll other.chunk.body = Statement.ungroupedAll program.chunk.body →
          (Statement.scriptOfAll other.chunk.body).unplaced = freed.unplaced := by
  have noComment := noComment_of_comments_eq_nil parsed noComments
  have drawn := drawn_of_parse parsed
  rw [List.filter_eq_self.2 fun token member => bne_iff_ne.2 (noComment token member)] at drawn
  obtain ⟨front, opening, middle, closing, back, tokens, opens, closes, place, freedDrawn⟩ :=
    drawn.without frees
  obtain ⟨before, within, after, rfl, start, stop, passes, passesWithin, behind⟩ :=
    Token.exists_parentheses tokens opens closes
  refine ⟨before, within, after, rfl, by rw [place, start, stop], fun other parsedOther same => ?_⟩
  have words : Token.wordsFrom (before ++ (within ++ after)) =
      (front ++ (middle ++ back)).map Token.word := by
    rw [Token.wordsFrom_deleted passes passesWithin ?_
      (plainWords_eq_of_ungroupedAll_eq parsed parsedOther same), ← behind, List.map_append,
      List.map_append]
    exact List.forall_mem_map.2 noComment
  have spelled : Token.AllSpelled (front ++ (middle ++ back)) := by
    have all := allSpelled_ofText (before ++ '(' :: (within ++ ')' :: after))
    rw [tokens, Token.allSpelled_append, Token.allSpelled_cons, Token.allSpelled_append,
      Token.allSpelled_cons] at all
    exact Token.allSpelled_append.2 ⟨all.1, Token.allSpelled_append.2 ⟨all.2.2.1, all.2.2.2.2⟩⟩
  refine Script.unplaced_eq_of_spell_eq (Statement.isSound_scriptOfAll other.chunk.body) ?_ ?_
  · rw [frees.ungrouped_eq, Statement.ungrouped_scriptOfAll, Statement.ungrouped_scriptOfAll, same]
  · rw [← glyphs_of_parse parsedOther, ← freedDrawn.glyphs_eq spelled, Token.glyphs, Token.glyphs,
      ← words]
    rfl

end Program

/-! ### Groups that are needed -/

/-- The group at the span is an operand or a base of the node. It is not around several values, nor
around a left operand of equal rank where operators of the rank are grouped to the left. -/
inductive Node.Encloses (span : Span) : Node → Prop
  | left {operator inner right whole} :
    inner.isMultipleValue = false → ¬inner.form.Chains operator →
      Encloses span (.expression (.binary operator (.group inner span) right whole))
  | right {operator left inner whole} :
    inner.isMultipleValue = false →
      Encloses span (.expression (.binary operator left (.group inner span) whole))
  | argument {operator inner whole} :
    inner.isMultipleValue = false →
      Encloses span (.expression (.unary operator (.group inner span) whole))
  | called {inner arguments whole} :
    inner.isMultipleValue = false →
      Encloses span (.expression (.call (.group inner span) arguments whole))
  | calledWithString {inner argument whole} :
    inner.isMultipleValue = false →
      Encloses span (.expression (.stringCall (.group inner span) argument whole))
  | calledWithTable {inner fields table whole} :
    inner.isMultipleValue = false →
      Encloses span (.expression (.tableCall (.group inner span) fields table whole))
  | indexed {inner key whole} :
    inner.isMultipleValue = false →
      Encloses span (.expression (.index (.group inner span) key whole))
  | selected {inner selector name whole} :
    inner.isMultipleValue = false →
      Encloses span (.expression (.member (.group inner span) selector name whole))

instance (operator : BinaryOperator) : (form : Expression.Form) → Decidable (form.Chains operator)
  | .binary inner =>
    inferInstanceAs (Decidable (inner.rank = operator.rank ∧ operator.associativity = .left))
  | .unary | .base | .bareArgument | .other => instDecidableFalse

/-- The span of the expression, if it is a group around a single value of a form that counts. -/
def Expression.groupSpans (counts : Form → Bool) : Expression → List Span
  | group inner span => if !inner.isMultipleValue && counts inner.form then [span] else []
  | _ => []

/-- The spans of the groups that the node encloses. -/
def Node.enclosed : Node → List Span
  | .expression (.binary operator left right _) =>
    left.groupSpans (fun form => !decide (form.Chains operator)) ++ right.groupSpans fun _ => true
  | .expression (.unary _ argument _) => argument.groupSpans fun _ => true
  | .expression (.call base _ _) | .expression (.stringCall base _ _)
  | .expression (.tableCall base _ _ _) | .expression (.index base _ _)
  | .expression (.member base _ _ _) => base.groupSpans fun _ => true
  | _ => []

theorem Expression.mem_groupSpans {counts : Form → Bool} {span : Span} {expression : Expression} :
    span ∈ expression.groupSpans counts ↔ ∃ inner, expression = .group inner span ∧
      inner.isMultipleValue = false ∧ counts inner.form := by
  cases expression with
  | group inner whole =>
    rw [groupSpans]
    constructor
    · intro member
      split at member
      · next single =>
        rw [Bool.and_eq_true, Bool.not_eq_true'] at single
        cases List.mem_singleton.1 member
        exact ⟨inner, rfl, single⟩
      · cases member
    · rintro ⟨inner, ⟨⟩, single⟩
      rw [if_pos (by rw [Bool.and_eq_true, Bool.not_eq_true']; exact single)]
      exact List.mem_singleton_self span
  | _ =>
    refine iff_of_false List.not_mem_nil ?_
    rintro ⟨inner, ⟨⟩, -⟩

theorem Node.mem_enclosed {span : Span} {node : Node} :
    span ∈ node.enclosed ↔ node.Encloses span := by
  cases node with
  | expression value =>
    cases value with
    | binary operator left right whole =>
      rw [enclosed, List.mem_append, Expression.mem_groupSpans, Expression.mem_groupSpans]
      simp only [Bool.not_eq_true', decide_eq_false_iff_not]
      constructor
      · rintro (⟨inner, rfl, single, noChain⟩ | ⟨inner, rfl, single, -⟩)
        · exact .left single noChain
        · exact .right single
      · intro encloses
        cases encloses with
        | left single noChain => exact .inl ⟨_, rfl, single, noChain⟩
        | right single => exact .inr ⟨_, rfl, single, trivial⟩
    | unary | call | stringCall | tableCall | index | member =>
      rw [enclosed, Expression.mem_groupSpans]
      constructor
      · rintro ⟨inner, rfl, single, -⟩
        constructor
        exact single
      · intro encloses
        cases encloses with
        | _ single => exact ⟨_, rfl, single, rfl⟩
    | _ => exact iff_of_false List.not_mem_nil fun encloses => by cases encloses
  | _ => exact iff_of_false List.not_mem_nil fun encloses => by cases encloses

theorem Expression.Form.ne_base_of_not_closes {form : Expression.Form} {power : Nat}
    (unfit : ¬form.Closes power) : form ≠ .base := by
  rintro rfl
  exact unfit trivial

theorem Expression.Form.ne_base_of_not_opens {form : Expression.Form} {limit : Nat}
    (unfit : ¬form.Opens limit) : form ≠ .base := by
  rintro rfl
  exact unfit trivial

/-- An expression that is no base is no group either. -/
theorem Expression.script_eq_of_form (expression : Expression)
    (noBase : expression.form ≠ .base) :
    ∃ inside, expression.script = .expression [] expression.form inside .done := by
  cases expression with
  | group => exact absurd rfl noBase
  | _ => exact ⟨_, rfl⟩

/-- Around what is enclosed in a tight node, the group can be taken away, but then the part does not
stand as the parser would read it. -/
theorem Node.Encloses.exists_frees {span : Span} {node : Node} (encloses : node.Encloses span)
    (tight : node.IsTight) : ∃ form inside freed, node.part? = some (form, inside) ∧
      Script.Frees span inside freed ∧ ¬Script.Stands form freed := by
  have base {inner : Expression} (single : inner.isMultipleValue = false)
      (needs : (Expression.group inner span).NeedsGroup (· = .base)) (rest : Script) :
      ∃ freed, Script.Frees span ((Expression.group inner span).script ++ rest) freed ∧
        ¬Script.Stands .base freed := by
    have unfit : inner.form ≠ .base := needs.resolve_left (Bool.eq_false_iff.1 single)
    obtain ⟨inside, same⟩ := inner.script_eq_of_form unfit
    rw [Expression.script, same]
    exact ⟨_, .here, unfit⟩
  cases encloses with
  | @left operator inner right whole single noChain =>
    have unfit : ¬inner.form.Closes operator.leftPower := fun closes =>
      tight.1.resolve_left (Bool.eq_false_iff.1 single) ⟨closes, noChain⟩
    obtain ⟨inside, same⟩ := inner.script_eq_of_form (Expression.Form.ne_base_of_not_closes unfit)
    refine ⟨_, _, .expression [] inner.form inside (.mark operator.token right.script), rfl, ?_,
      fun stands => unfit stands.1⟩
    show Script.Frees span ((Expression.group inner span).script ++ _) _
    rw [Expression.script, same]
    exact .here
  | @right operator left inner whole single =>
    have unfit : ¬inner.form.Opens operator.rightPower :=
      tight.2.resolve_left (Bool.eq_false_iff.1 single)
    obtain ⟨inside, same⟩ := inner.script_eq_of_form (Expression.Form.ne_base_of_not_opens unfit)
    obtain ⟨groups, form, front, sameLeft⟩ := left.script_eq
    refine ⟨_, _, .expression groups form front
      (.mark operator.token (.expression [] inner.form inside .done)), rfl, ?_,
      fun stands => unfit stands.2⟩
    show Script.Frees span (left.script ++ .mark _ (Expression.group inner span).script) _
    rw [Expression.script, same, sameLeft]
    exact .behindExpression (.behindWord .here)
  | @argument operator inner whole single =>
    have unfit : ¬inner.form.Opens UnaryOperator.bindingPower :=
      tight.resolve_left (Bool.eq_false_iff.1 single)
    obtain ⟨inside, same⟩ := inner.script_eq_of_form (Expression.Form.ne_base_of_not_opens unfit)
    refine ⟨_, _, .mark operator.token (.expression [] inner.form inside .done), rfl, ?_,
      fun stands => unfit stands⟩
    show Script.Frees span (.mark _ (Expression.group inner span).script) _
    rw [Expression.script, same]
    exact .behindWord .here
  | called single | calledWithString single | calledWithTable single | indexed single
  | selected single =>
    obtain ⟨freed, frees, falls⟩ := base single tight _
    exact ⟨_, _, freed, rfl, frees, falls⟩

section

variable (recasting : Recasting)

theorem Expression.needsGroup_recast (fits : Form → Prop) (expression : Expression) :
    (expression.recast recasting).NeedsGroup fits ↔ expression.NeedsGroup fits := by
  cases expression with
  | group inner span =>
    rw [Expression.recast, NeedsGroup, NeedsGroup, inner.isMultipleValue_recast, inner.form_recast]
  | _ => exact Iff.rfl

/-- Recasting does not make groups superfluous. -/
theorem Node.isTight_recast (node : Node) :
    (∀ image ∈ node.recast recasting, image.IsTight) ↔ node.IsTight := by
  cases node with
  | expression value =>
    rw [Node.recast, List.forall_mem_singleton]
    cases value with
    | binary operator left right span =>
      exact and_congr (left.needsGroup_recast recasting _) (right.needsGroup_recast recasting _)
    | unary operator argument span => exact argument.needsGroup_recast recasting _
    | call base | stringCall base | tableCall base | index base | member base =>
      exact base.needsGroup_recast recasting (· = .base)
    | _ => exact Iff.rfl
  | field entry => exact iff_of_true (by simp [Node.recast, Node.IsTight]) trivial
  | clause branch => exact iff_of_true (by simp [Node.recast, Node.IsTight]) trivial
  | statement step => exact iff_of_true (by simp [Node.recast, Node.IsTight]) trivial

end

/-- The groups of what is read from a layout are needed. -/
theorem Program.areTight_format {program : Program} {read : List Statement}
    (same : Statement.recastAll .shown read =
      Statement.recastAll .shown (Statement.surfaces program.arrange.body)) :
    ∀ node ∈ Statement.nodesOfAll (Statement.recastAll .uncommented read), node.IsTight := by
  rw [Statement.forall_nodes_recastAll (Node.isTight_recast .uncommented),
    ← Statement.forall_nodes_recastAll (Node.isTight_recast .shown), same,
    Statement.forall_nodes_recastAll (Node.isTight_recast .shown)]
  exact fun node member => (Statement.settled_surfaces _ node member).2.2

/-- A layout of a program without comments is a text without comments. -/
theorem Program.commentsOf_format {source text : List Char} {program : Program}
    (parsed : parse source = .ok program) (noComments : program.comments = [])
    {read : List Statement} (reads : Statement.ReadsBody true read (Token.ofText text))
    (same : Statement.recastAll .shown read =
      Statement.recastAll .shown (Statement.surfaces program.arrange.body)) :
    commentsOf text = [] := by
  have none : Node.commentsAmong (Statement.nodesOfAll program.arrange.body) = [] :=
    List.Perm.eq_nil (noComments ▸ Program.perm_commentsAmong_arrange parsed)
  have shown := Program.shown_commentsOf reads same
  rw [none, List.map_nil, List.map_eq_nil_iff] at shown
  exact shown

/-- A layout has no superfluous parentheses: without the two around an operand or a base it is not
read, or it is read as a tree that differs by more than groups. -/
theorem parentheses_are_needed (config : Config) {source : List Char} {program : Program}
    (parsed : Program.parse source = .ok program) (noComments : program.comments = []) :
    ∃ text again, formatText config source = .ok text ∧ Program.parse text = .ok again ∧
      ∀ node ∈ Statement.nodesOfAll again.chunk.body, ∀ span, node.Encloses span →
        ∃ before inside after, text = before ++ '(' :: (inside ++ ')' :: after) ∧
          span = ⟨byteLength before, byteLength before + byteLength inside + 2⟩ ∧
          ∀ other, Program.parse (before ++ (inside ++ after)) = .ok other →
            Statement.ungroupedAll other.chunk.body ≠
              Statement.ungroupedAll again.chunk.body := by
  obtain ⟨text, read, laid, reads, same⟩ := Program.format_reads config parsed
  have readAgain := Program.parse_format reads same
  refine ⟨text, _, laid, readAgain, fun node member span encloses => ?_⟩
  obtain ⟨form, inside, without, part, frees, falls⟩ :=
    encloses.exists_frees (Program.areTight_format same node member)
  have isPart : (form, inside) ∈
      (Statement.scriptOfAll (Statement.recastAll .uncommented read)).parts := by
    rw [Statement.parts_scriptOfAll]
    exact List.mem_filterMap.2 ⟨node, member, part⟩
  obtain ⟨whole, wholeFrees, stays⟩ := Script.Frees.exists_of_mem_parts isPart frees
  obtain ⟨before, within, after, rfl, place, deleted⟩ := Program.unplaced_eq_of_deleted readAgain
    (Program.commentsOf_format parsed noComments reads same) wholeFrees
  refine ⟨before, within, after, rfl, place, fun other parsedOther sameTree => falls ?_⟩
  exact Script.stands_of_unplaced_eq (deleted other parsedOther sameTree)
    (Program.stands_of_parse parsedOther) (form, without) stays

theorem parentheses_are_needed_of_product :
    ∃ program text again, Program.parse "_=((a+b))*(-c)^('s'):len()".toList = .ok program ∧
      program.comments = [] ∧
      formatText {} "_=((a+b))*(-c)^('s'):len()".toList = .ok text ∧
      Program.parse text = .ok again ∧
      ∀ span ∈ ([⟨4, 11⟩, ⟨14, 18⟩, ⟨21, 26⟩] : List Span),
        ∃ before inside after, text = before ++ '(' :: (inside ++ ')' :: after) ∧
          span = ⟨byteLength before, byteLength before + byteLength inside + 2⟩ ∧
          ∀ other, Program.parse (before ++ (inside ++ after)) = .ok other →
            Statement.ungroupedAll other.chunk.body ≠
              Statement.ungroupedAll again.chunk.body := by
  obtain ⟨program, parsed⟩ := Program.exists_of_isOk
    (show (Program.parse "_=((a+b))*(-c)^('s'):len()".toList).isOk by decide +kernel)
  have noComments : program.comments = [] :=
    (Program.parse_reads parsed).2.trans (by decide +kernel)
  obtain ⟨text, again, laid, read, needed⟩ := parentheses_are_needed {} parsed noComments
  have enclosed : ((formatText {} "_=((a+b))*(-c)^('s'):len()".toList).toOption.bind
      fun text => (Program.parse text).toOption).map
        (fun again : Program => (Statement.nodesOfAll again.chunk.body).flatMap Node.enclosed) =
      some [⟨4, 11⟩, ⟨14, 18⟩, ⟨21, 26⟩] := by
    decide +kernel
  rw [laid, Except.toOption, Option.bind_some, read, Except.toOption, Option.map_some,
    Option.some_inj] at enclosed
  refine ⟨program, text, again, parsed, noComments, laid, read, fun span member => ?_⟩
  rw [← enclosed] at member
  obtain ⟨node, isNode, encloses⟩ := List.mem_flatMap.1 member
  exact needed node isNode span (Node.mem_enclosed.1 encloses)

end LuaStyle
