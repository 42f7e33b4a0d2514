/-
This file proves that a laid-out comment is read as a comment that says the same.

A comment on one line ends with the line, so a line break has to follow it. A comment over several
lines ends at the first closing bracket of its level, wherever that stands. The level is one whose
closing bracket is in none of the lines, and since the bracket has no blank characters in it, it can
neither start in one line and end in another, nor in the indentation.

What a comment says, as far as the layout is concerned, is told by a comment that stands for all
comments laid out alike: `Comment.shown` is what remains when it is forgotten where the comment
stood, how its lines were indented, and which brackets were around them.
-/

import LuaStyle.Proofs.ContentLines
import LuaStyle.Proofs.Writing

namespace LuaStyle

/-! ### Finding a bracket -/

section

variable {pattern first rest : List Char} {c : Char}

/-- What is found around a character that it does not hold is found on one of its two sides. -/
theorem infix_append_cons (absent : c ∉ pattern) (found : pattern <:+: first ++ c :: rest) :
    pattern <:+: first ∨ pattern <:+: rest := by
  induction first with
  | nil =>
    rcases List.infix_cons_iff.1 found with start | inside
    · cases pattern with
      | nil => exact .inl (List.nil_infix)
      | cons d pattern =>
        obtain ⟨rfl, -⟩ := List.cons_prefix_cons.1 start
        exact absurd List.mem_cons_self absent
    · exact .inr inside
  | cons d first inductionHypothesis =>
    rcases List.infix_cons_iff.1 found with start | inside
    · have whole : d :: first <+: d :: (first ++ c :: rest) := List.prefix_append (d :: first) _
      rcases Nat.lt_or_ge (d :: first).length pattern.length with long | short
      · have cut : (d :: first) ++ [c] <+: pattern := by
          have early : (d :: first) ++ [c] <+: d :: (first ++ c :: rest) :=
            ⟨rest, by rw [List.append_assoc]; rfl⟩
          refine List.prefix_of_prefix_length_le early start ?_
          rw [List.length_append]
          exact long
        exact absurd (cut.subset (List.mem_append_right _ List.mem_cons_self)) absent
      · exact .inl (List.prefix_of_prefix_length_le start whole short).isInfix
    · rcases inductionHypothesis inside with within | behind
      · exact .inl (List.infix_cons within)
      · exact .inr behind

theorem infix_blank_append {blank : List Char} (isBlank : ∀ d ∈ blank, isBlank d)
    (solid : ∀ d ∈ pattern, LuaStyle.isBlank d = false) (nonempty : pattern ≠ [])
    (found : pattern <:+: blank ++ rest) : pattern <:+: rest := by
  induction blank with
  | nil => exact found
  | cons d blank inductionHypothesis =>
    obtain ⟨first, others⟩ := List.forall_mem_cons.1 isBlank
    refine inductionHypothesis others ?_
    have absent : d ∉ pattern := fun member => by
      rw [solid d member] at first
      cases first
    rcases infix_append_cons absent (show pattern <:+: [] ++ d :: (blank ++ rest) from found) with
      none | inside
    · exact absurd (List.infix_nil.1 none) nonempty
    · exact inside

/-- What is found in lines that are set apart by blank characters is found in one of them. -/
theorem exists_infix_of_written {lines : List (List Char)} {before after : List Char}
    (blankBefore : ∀ d ∈ before, isBlank d) (blankAfter : ∀ d ∈ after, isBlank d)
    (solid : ∀ d ∈ pattern, isBlank d = false) (nonempty : pattern ≠ []) {d : Char}
    (blankFirst : isBlank c) (blankLast : isBlank d)
    (found : pattern <:+: lines.flatMap (fun line => c :: before ++ line) ++ d :: after) :
    ∃ line ∈ lines, pattern <:+: line := by
  have absent (e : Char) (blank : isBlank e) : e ∉ pattern := fun member => by
    rw [solid e member] at blank
    cases blank
  induction lines with
  | nil =>
    rw [List.flatMap_nil, List.nil_append, ← List.append_nil (d :: after)] at found
    have empty := infix_blank_append (List.forall_mem_cons.2 ⟨blankLast, blankAfter⟩) solid nonempty
      found
    exact absurd (List.infix_nil.1 empty) nonempty
  | cons line others inductionHypothesis =>
    rw [List.flatMap_cons, List.append_assoc, List.append_assoc] at found
    have found := infix_blank_append (List.forall_mem_cons.2 ⟨blankFirst, blankBefore⟩) solid
      nonempty found
    suffices parts : pattern <:+: line ∨
        pattern <:+: others.flatMap (fun line => c :: before ++ line) ++ d :: after by
      rcases parts with within | behind
      · exact ⟨line, List.mem_cons_self, within⟩
      · obtain ⟨other, member, within⟩ := inductionHypothesis behind
        exact ⟨other, List.mem_cons_of_mem _ member, within⟩
    cases others with
    | nil =>
      rcases infix_append_cons (absent d blankLast) found with within | behind
      · exact .inl within
      · exact .inr (List.infix_cons behind)
    | cons second others =>
      rw [List.flatMap_cons, List.cons_append, List.cons_append, List.cons_append] at found ⊢
      rcases infix_append_cons (absent c blankFirst) found with within | behind
      · exact .inl within
      · exact .inr (List.infix_cons behind)

end

namespace LongBracket

theorem closing_ne_nil (level : Nat) : closing level ≠ [] :=
  List.cons_ne_nil _ _

theorem eq_of_mem_closing {level : Nat} {c : Char} (member : c ∈ closing level) :
    c = ']' ∨ c = '=' := by
  rw [closing, List.cons_append, List.mem_cons, List.mem_append, List.mem_singleton] at member
  rcases member with same | member | same
  · exact .inl same
  · exact .inr (List.eq_of_mem_replicate member)
  · exact .inl same

theorem isBlank_of_mem_closing (level : Nat) : ∀ c ∈ closing level, isBlank c = false := by
  intro c member
  rcases eq_of_mem_closing member with rfl | rfl <;> rfl

theorem lengthToClose?_eq_none_iff {level : Nat} {text : List Char} :
    lengthToClose? level text = none ↔ ¬ closing level <:+: text := by
  induction text with
  | nil =>
    exact iff_of_true rfl fun found => closing_ne_nil level (List.infix_nil.1 found)
  | cons c rest inductionHypothesis =>
    rw [lengthToClose?, List.infix_cons_iff, not_or, ← inductionHypothesis]
    split
    next start => exact iff_of_false nofun fun both => both.1 start
    next start =>
      rw [Option.map_eq_none_iff]
      exact (and_iff_right start).symm

/-- A text that does not hold the closing bracket, not even with the first character of it behind,
is closed by the bracket behind it. -/
theorem lengthToClose?_append {level : Nat} {text : List Char} (rest : List Char)
    (free : ¬ closing level <:+: text ++ [']']) :
    lengthToClose? level (text ++ (closing level ++ rest)) = some (text.length + (level + 2)) := by
  induction text with
  | nil =>
    have here : closing level <+: closing level ++ rest := List.prefix_append _ _
    rw [List.nil_append, List.length_nil, Nat.zero_add]
    cases same : closing level ++ rest with
    | nil => exact absurd (List.append_eq_nil_iff.1 same).1 (closing_ne_nil level)
    | cons c more =>
      rw [same] at here
      rw [lengthToClose?, if_pos here]
  | cons c text inductionHypothesis =>
    have late : ¬ closing level <+: c :: (text ++ (closing level ++ rest)) := by
      intro start
      have front : c :: (text ++ [']']) <+: c :: (text ++ (closing level ++ rest)) :=
        ⟨List.replicate level '=' ++ [']'] ++ rest, by simp [closing]⟩
      rcases Nat.lt_or_ge (c :: (text ++ [']'])).length (closing level).length with long | short
      · -- the bracket behind the text would start among the equals signs
        have within := List.prefix_of_prefix_length_le front start (Nat.le_of_lt long)
        have signs := (List.cons_prefix_cons.1 within).2
        have room : (text ++ [']']).length ≤ (List.replicate level '=').length := by
          rw [length_closing, List.length_cons] at long
          rw [List.length_replicate]
          exact Nat.le_of_lt_succ (Nat.lt_of_succ_lt_succ long)
        have sign := (List.prefix_of_prefix_length_le signs (List.prefix_append _ _) room).subset
          (List.mem_append_right text (List.mem_singleton_self ']'))
        exact absurd (List.eq_of_mem_replicate sign) (by decide)
      · exact free (List.prefix_of_prefix_length_le start front short).isInfix
    have later : ¬ closing level <:+: text ++ [']'] := fun found => free (List.infix_cons found)
    rw [List.cons_append, lengthToClose?, if_neg late, inductionHypothesis later, Option.map_some,
      List.length_cons]
    exact congrArg some (Nat.add_right_comm ..)

/-- What is closed is closed by the first bracket of its level. -/
theorem exists_closed {level count : Nat} {text : List Char}
    (closes : lengthToClose? level text = some count) :
    ∃ inside after, text = inside ++ (closing level ++ after) ∧
      count = inside.length + (level + 2) ∧ ¬ closing level <:+: inside ++ [']'] := by
  induction text generalizing count with
  | nil => cases closes
  | cons c text inductionHypothesis =>
    rw [lengthToClose?] at closes
    split at closes
    next start =>
      cases closes
      obtain ⟨after, same⟩ := start
      refine ⟨[], after, same.symm, (Nat.zero_add _).symm, fun found => ?_⟩
      have short := found.length_le
      rw [length_closing, List.nil_append, List.length_singleton] at short
      omega
    next noStart =>
      obtain ⟨further, found, rfl⟩ := Option.map_eq_some_iff.1 closes
      obtain ⟨inside, after, rfl, rfl, free⟩ := inductionHypothesis found
      refine ⟨c :: inside, after, rfl, Nat.add_right_comm .., fun early => ?_⟩
      rcases List.infix_cons_iff.1 early with start | inner
      · -- the bracket would start where none does
        have front : inside ++ [']'] <+: inside ++ (closing level ++ after) :=
          (List.prefix_append_right_inj inside).2
            ((List.prefix_cons_inj ']').2 List.nil_prefix)
        exact noStart (start.trans ((List.prefix_cons_inj c).2 front))
      · exact free inner

theorem take_closed (level : Nat) (inside after : List Char) :
    (inside ++ (closing level ++ after)).take (inside.length + (level + 2)) =
      inside ++ closing level := by
  rw [List.take_length_add_append, ← length_closing level, List.take_left]

/-- A text that does not end with a part of the closing bracket does not hold it with the first
character of it behind, either. -/
theorem not_infix_concat {level : Nat} {text : List Char} (free : ¬ closing level <:+: text)
    (ends : ∀ c ∈ text.getLast?, c ∉ closing level) : ¬ closing level <:+: text ++ [']'] := by
  intro found
  rcases List.infix_concat_iff.1 found with ⟨before, same⟩ | inside
  · rw [closing, ← List.append_assoc] at same
    obtain ⟨rfl, -⟩ := List.append_inj' same rfl
    have last : (before ++ ']' :: List.replicate level '=').getLast? =
        some ((List.replicate level '=').getLast?.getD ']') := by
      rw [List.getLast?_append, List.getLast?_cons, Option.some_or]
    refine ends _ last (List.mem_append_left _ ?_)
    exact List.mem_of_getLast? (List.getLast?_cons ..)
  · exact free inside

theorem closesEarly_eq_false_iff {level : Nat} {text : List Char} :
    closesEarly level text = false ↔ ¬ closing level <:+: text ++ [']'] := by
  rw [closesEarly, Option.isSome_eq_false_iff, Option.isNone_iff_eq_none,
    lengthToClose?_eq_none_iff]

/-- The search for a level ends, since a text has no room for a bracket longer than itself. -/
theorem find?_lowestLevel (text : List Char) :
    (List.range (text.length + 1)).find? (fun level => !closesEarly level text) =
      some (lowestLevel text) := by
  have enough : closesEarly text.length text = false := by
    rw [closesEarly_eq_false_iff]
    intro found
    have short := found.length_le
    rw [length_closing, List.length_append] at short
    exact absurd short (Nat.not_succ_le_self _)
  obtain ⟨level, found⟩ : ∃ level, (List.range (text.length + 1)).find?
      (fun level => !closesEarly level text) = some level := by
    rw [← Option.isSome_iff_exists, List.find?_isSome]
    exact ⟨text.length, List.mem_range.2 (Nat.lt_succ_self _), by rw [enough]; rfl⟩
  rw [lowestLevel, found]
  rfl

/-- The lowest level is one at which the text is not closed early. -/
theorem not_infix_lowestLevel (text : List Char) :
    ¬ closing (lowestLevel text) <:+: text ++ [']'] := by
  have free := List.find?_some (find?_lowestLevel text)
  rwa [Bool.not_eq_true', closesEarly_eq_false_iff] at free

end LongBracket

/-! ### What a comment says -/

/-- Only blank characters remain besides the content lines. -/
theorem Comment.isBlank_of_contentLines_eq_nil {text : List Char} (none : contentLines text = []) :
    ∀ c ∈ text, isBlank c := by
  induction length : text.length using Nat.strongRecOn generalizing text with
  | ind bound inductionHypothesis =>
    rcases line_or_cut text with single | ⟨line, c, rest, rfl, single, cut⟩
    · rw [contentLines_of_noLineBreak single] at none
      split at none
      next empty => exact isBlank_of_trim_eq_nil empty
      · cases none
    · rw [contentLines_append line rest cut, List.append_eq_nil_iff,
        contentLines_of_noLineBreak single] at none
      obtain ⟨first, others⟩ := none
      rw [List.length_append, List.length_cons] at length
      refine List.forall_mem_append.2 ⟨?_, List.forall_mem_cons.2
        ⟨isBlank_of_isLineBreak cut, inductionHypothesis rest.length (by omega) others rfl⟩⟩
      split at first
      next empty => exact isBlank_of_trim_eq_nil empty
      · cases first

namespace Comment

/-- The comment is laid out over several lines. -/
def isMulti (comment : Comment) : Bool :=
  comment.style == .block && (trim comment.text).any Token.isLineBreak

/-- What the comment says, as a comment that stands for all those laid out alike. -/
def shown (comment : Comment) : Comment :=
  if comment.isMulti then
    ⟨(contentLines comment.text).flatMap ('\n' :: ·), [], .block, default⟩
  else
    ⟨trim comment.text, [], .line, default⟩

/-- A text has a line break between its blank ends exactly when it has two content lines. -/
theorem any_isLineBreak_trim (text : List Char) :
    (trim text).any Token.isLineBreak = decide (2 ≤ (contentLines text).length) := by
  rw [← contentLines_trim]
  have head := head?_trim text
  have last := getLast?_trim text
  generalize trim text = content at head last
  rcases line_or_cut content with single | ⟨line, c, rest, rfl, -, cut⟩
  · rw [contentLines_of_noLineBreak single]
    have few : ¬ 2 ≤ (if trim content = [] then [] else [trim content]).length := by
      split
      · exact Nat.not_succ_le_zero 1
      · exact Nat.not_succ_le_self 1
    rw [decide_eq_false few, List.any_eq_false]
    exact fun c member => Bool.eq_false_iff.1 (single c member)
  · have blank := isBlank_of_isLineBreak cut
    have first : contentLines line ≠ [] := by
      intro none
      cases line with
      | nil => rw [head c rfl] at blank; cases blank
      | cons d line =>
        have blankHead := isBlank_of_contentLines_eq_nil none d List.mem_cons_self
        rw [head d rfl] at blankHead
        cases blankHead
    have second : contentLines rest ≠ [] := by
      intro none
      rw [List.getLast?_append, List.getLast?_cons, Option.some_or] at last
      have blankLast : isBlank (rest.getLast?.getD c) := by
        cases end? : rest.getLast? with
        | none => exact blank
        | some d => exact isBlank_of_contentLines_eq_nil none d (List.mem_of_getLast? end?)
      rw [last _ rfl] at blankLast
      cases blankLast
    have many : 2 ≤ (contentLines (line ++ c :: rest)).length := by
      rw [contentLines_append line rest cut, List.length_append]
      have := List.length_pos_iff.2 first
      have := List.length_pos_iff.2 second
      omega
    rw [decide_eq_true many]
    exact List.any_eq_true.2 ⟨c, List.mem_append_right _ List.mem_cons_self, cut⟩

theorem isMulti_eq (comment : Comment) : comment.isMulti =
    (comment.style == .block && decide (2 ≤ (contentLines comment.text).length)) := by
  rw [isMulti, any_isLineBreak_trim]

theorem contentLines_shown (comment : Comment) :
    contentLines comment.shown.text = contentLines comment.text := by
  rw [shown]
  split
  · have areLines : ∀ line ∈ contentLines comment.text, IsLine line :=
      fun _ member => isLine_of_mem_contentLines member
    have none : ∀ c ∈ ([] : List Char), isBlank c := fun _ member => nomatch member
    have lineFeed : Token.isLineBreak '\n' := rfl
    have written := contentLines_written areLines lineFeed lineFeed none none
    rwa [contentLines_concat_of_isBlank rfl] at written
  · exact contentLines_trim comment.text

theorem isMulti_shown (comment : Comment) : comment.shown.isMulti = comment.isMulti := by
  rw [isMulti_eq comment.shown, contentLines_shown]
  rw [shown]
  split
  next multi =>
    rw [multi]
    rw [isMulti_eq, Bool.and_eq_true] at multi
    exact multi.2
  next single =>
    rw [Bool.not_eq_true] at single
    rw [single]
    rfl

/-- Lines between long brackets. -/
def blockDoc (depth : Nat) (lines : List (List Char)) : Doc :=
  let level := LongBracket.lowestLevel (lines.flatMap ('\n' :: ·) ++ ['\n'])
  Doc.ofText ['-', '-'] ++ Doc.ofText (LongBracket.opening level)
    ++ lines.flatMap (fun line => .lineBreak (depth + 1) :: Doc.ofText line)
    ++ .lineBreak depth :: Doc.ofText (LongBracket.closing level)

/-- What stands behind the dashes of a comment on one line. -/
def lineContent (text : List Char) : List Char :=
  if trim text = [] then [] else ' ' :: trim text

theorem doc_of_isMulti {comment : Comment} (multi : comment.isMulti) (depth : Nat) :
    comment.doc depth = blockDoc depth (contentLines comment.text) := by
  rw [isMulti, Bool.and_eq_true, beq_iff_eq] at multi
  unfold doc
  dsimp only
  rw [if_pos multi, contentLines_trim]
  rfl

theorem doc_of_isSingle {comment : Comment} (single : comment.isMulti = false) (depth : Nat) :
    comment.doc depth = Doc.ofText ('-' :: '-' :: lineContent comment.text) := by
  rw [isMulti, ← Bool.not_eq_true, Bool.and_eq_true, beq_iff_eq] at single
  unfold doc lineContent
  dsimp only
  rw [if_neg single]
  split <;> rfl

/-- The layout depends on what a comment says only. -/
theorem doc_shown (comment : Comment) (depth : Nat) :
    comment.shown.doc depth = comment.doc depth := by
  have same := comment.isMulti_shown
  cases multi : comment.isMulti with
  | true =>
    rw [multi] at same
    rw [doc_of_isMulti same, doc_of_isMulti multi, contentLines_shown]
  | false =>
    rw [multi] at same
    have text : trim comment.shown.text = trim comment.text := by
      rw [shown, multi, if_neg Bool.false_ne_true]
      exact trim_trim comment.text
    rw [doc_of_isSingle same, doc_of_isSingle multi, lineContent, lineContent, text]

/-! ### Reading a comment -/

/-- The comment can be written: one that goes to the end of the line is on one line. -/
def IsSpelled (comment : Comment) : Prop :=
  comment.style = .line → ∀ c ∈ comment.text, Token.isLineBreak c = false

theorem IsSpelled.noLineBreak_trim {comment : Comment} (spelled : comment.IsSpelled)
    (single : comment.isMulti = false) :
    ∀ c ∈ trim comment.text, Token.isLineBreak c = false := by
  intro c member
  cases style : comment.style with
  | line => exact spelled style c (mem_of_mem_trim member)
  | block =>
    rw [isMulti, style] at single
    exact Bool.eq_false_iff.2 (List.any_eq_false.1 single c member)

/-- A comment on one line is written as a line. -/
theorem IsSpelled.isLine_of_isSingle {comment : Comment} (spelled : comment.IsSpelled)
    (single : comment.isMulti = false) : IsLine ('-' :: '-' :: lineContent comment.text) := by
  rw [lineContent]
  split
  · decide
  next some =>
    have isLine : IsLine (trim comment.text) :=
      ⟨some, trim_trim comment.text, spelled.noLineBreak_trim single⟩
    exact isLine.prepend (show Opens ['-', '-', ' '] by decide)

theorem isSpelled_ofToken {token : Token} (kind : token.kind = .comment)
    (spelled : Token.Spelled token.kind token.text) : (ofToken token).IsSpelled := by
  rw [kind] at spelled
  generalize written : token.text = text at spelled
  cases spelled with
  | comment single =>
    rw [ofToken, written]
    split
    · exact nofun
    next none => exact fun _ => single none

variable {config : Config} {depth : Nat} {rest : List Char}

/-- One comment token, which says what the comment says. -/
def OneToken (comment : Comment) (tokens : List Token) : Prop :=
  ∃ token, tokens = [token] ∧ token.kind = .comment ∧ (ofToken token).shown = comment.shown

/-- A comment to the end of the line. -/
theorem cuts_line {content : List Char} (noBracket : content.head? ≠ some '[')
    (single : ∀ c ∈ content, Token.isLineBreak c = false) (ends : LineEnds rest) :
    Token.Cuts ('-' :: '-' :: content) rest fun tokens => ∃ token, tokens = [token] ∧
      token.kind = .comment ∧ token.text = '-' :: '-' :: content := by
  have unopened : LongBracket.level? (content ++ rest) = none := by
    unfold LongBracket.level?
    split
    next same =>
      cases content with
      | nil =>
        rw [List.nil_append] at same
        rw [same] at ends
        cases ends '[' rfl
      | cons c content =>
        cases same
        exact absurd rfl noBracket
    · rfl
  have stops : ∀ c ∈ rest.head?, (!Token.isLineBreak c) = false := fun c first => by
    rw [ends c first]
    rfl
  have goesOn : ∀ c ∈ content, (!Token.isLineBreak c) = true := fun c member => by
    rw [single c member]
    rfl
  refine .of_shape rfl ?_
  rw [List.cons_append, Token.shape, if_pos ⟨rfl, rfl⟩]
  show ((Token.commentShape (content ++ rest)).map id (· + 1)) = _
  rw [Token.commentShape, unopened]
  dsimp only
  rw [takeWhile_append_eq goesOn stops]
  rfl

/-- Behind two dashes, the lexer goes up to the end of the closing bracket. -/
theorem shape_block {level : Nat} {inside : List Char}
    (free : ¬ LongBracket.closing level <:+: inside ++ [']']) (rest : List Char) :
    Token.shape '-'
        ('-' :: (LongBracket.opening level ++ (inside ++ LongBracket.closing level)) ++ rest) =
      (.comment,
        ('-' :: (LongBracket.opening level ++ (inside ++ LongBracket.closing level))).length) := by
  rw [List.cons_append, Token.shape, if_pos ⟨rfl, rfl⟩]
  show ((Token.commentShape (_ ++ rest)).map id (· + 1)) = _
  rw [Token.commentShape, List.append_assoc, LongBracket.level?_opening_append]
  dsimp only
  rw [List.drop_left' (LongBracket.length_opening level), List.append_assoc,
    LongBracket.lengthToClose?_append rest free]
  dsimp only [Prod.map]
  simp only [List.length_cons, List.length_append, LongBracket.length_opening,
    LongBracket.length_closing, id]

/-- A comment between long brackets. -/
theorem cuts_block {level : Nat} {inside : List Char}
    (free : ¬ LongBracket.closing level <:+: inside)
    (last : ∀ c ∈ inside.getLast?, c ∉ LongBracket.closing level) :
    Token.Cuts
      ('-' :: '-' :: (LongBracket.opening level ++ (inside ++ LongBracket.closing level))) rest
      fun tokens => ∃ token, tokens = [token] ∧ token.kind = .comment ∧
        token.text =
          '-' :: '-' :: (LongBracket.opening level ++ (inside ++ LongBracket.closing level)) := by
  exact .of_shape rfl (shape_block (LongBracket.not_infix_concat free last) rest)

theorem inside_append (level : Nat) (inside : List Char) :
    LongBracket.inside level
      (LongBracket.opening level ++ (inside ++ LongBracket.closing level)) = inside := by
  have length : (LongBracket.opening level ++ (inside ++ LongBracket.closing level)).length -
      2 * (level + 2) = inside.length := by
    simp only [List.length_append, LongBracket.length_opening, LongBracket.length_closing]
    omega
  rw [LongBracket.inside, length, List.drop_left' (LongBracket.length_opening level),
    List.take_left]

theorem isBlank_of_isSpace {c : Char} (space : Token.isSpace c) : isBlank c := by
  simp only [Token.isSpace, Bool.or_eq_true, beq_iff_eq] at space
  rcases space with ((((rfl | rfl) | rfl) | rfl) | rfl) | rfl <;> rfl

/-- Each line is written behind its own line break. -/
theorem written_lines {c : Char} {before : List Char} {lines : List (List Char)}
    (indented : ∀ doc, Doc.written config (.lineBreak depth :: doc) =
      c :: before ++ Doc.written config doc) (areLines : ∀ line ∈ lines, IsLine line) :
    Doc.written config (lines.flatMap fun line => .lineBreak depth :: Doc.ofText line) =
      lines.flatMap (fun line => c :: before ++ line) := by
  induction lines with
  | nil => rfl
  | cons line others inductionHypothesis =>
    obtain ⟨isLine, areLines⟩ := List.forall_mem_cons.1 areLines
    rw [List.flatMap_cons, Doc.written_append, indented,
      Doc.written_ofText config isLine.noLineFeed, inductionHypothesis areLines,
      List.flatMap_cons]

/-- What ends with a line break and blank characters ends with a blank one. -/
theorem isBlank_of_getLast? {c d : Char} {text blanks : List Char} (first : isBlank c)
    (blank : ∀ e ∈ blanks, isBlank e) (last : d ∈ (text ++ c :: blanks).getLast?) : isBlank d := by
  have allBlank : ∀ e ∈ c :: blanks, isBlank e := List.forall_mem_cons.2 ⟨first, blank⟩
  rw [List.getLast?_append, List.getLast?_cons, Option.some_or] at last
  cases last
  refine allBlank _ ?_
  cases ends : blanks.getLast? with
  | none => exact List.mem_cons_self
  | some e => exact List.mem_cons_of_mem _ (List.mem_of_getLast? ends)

/-- The text of lines between long brackets, whatever the indentation is. -/
theorem written_blockDoc (config : Config) (depth : Nat) {lines : List (List Char)}
    (areLines : ∀ line ∈ lines, IsLine line) : ∃ level inside,
      (blockDoc depth lines).written config =
        '-' :: '-' :: (LongBracket.opening level ++ (inside ++ LongBracket.closing level)) ∧
      contentLines inside = lines ∧ ¬ LongBracket.closing level <:+: inside ∧
      ∀ c ∈ inside.getLast?, c ∉ LongBracket.closing level := by
  obtain ⟨c, before, firstBreak, blankBefore, indented⟩ :=
    Doc.written_lineBreak config (depth + 1)
  obtain ⟨d, after, lastBreak, blankAfter, closed⟩ := Doc.written_lineBreak config depth
  have blankBefore := fun e member => isBlank_of_isSpace (blankBefore e member)
  have blankAfter := fun e member => isBlank_of_isSpace (blankAfter e member)
  have brackets (level : Nat) : '\n' ∉ LongBracket.opening level ∧
      '\n' ∉ LongBracket.closing level := by
    simp [LongBracket.opening, LongBracket.closing]
  refine ⟨LongBracket.lowestLevel (lines.flatMap ('\n' :: ·) ++ ['\n']),
    lines.flatMap (fun line => c :: before ++ line) ++ d :: after, ?_,
    contentLines_written areLines firstBreak lastBreak blankBefore blankAfter, ?_, ?_⟩
  · unfold blockDoc
    rw [Doc.written_append, Doc.written_append, Doc.written_append,
      written_lines indented areLines, closed, Doc.written_ofText config (brackets _).1,
      Doc.written_ofText config (brackets _).2]
    simp only [List.append_assoc, List.cons_append]
    rfl
  · intro found
    obtain ⟨line, member, inside⟩ := exists_infix_of_written blankBefore blankAfter
      (LongBracket.isBlank_of_mem_closing _) (LongBracket.closing_ne_nil _)
      (isBlank_of_isLineBreak firstBreak) (isBlank_of_isLineBreak lastBreak) found
    refine LongBracket.not_infix_lowestLevel _ (inside.trans ?_)
    obtain ⟨earlier, later, rfl⟩ := List.append_of_mem member
    rw [List.flatMap_append, List.flatMap_cons]
    exact ⟨earlier.flatMap ('\n' :: ·) ++ ['\n'], later.flatMap ('\n' :: ·) ++ ['\n', ']'],
      by simp only [List.append_assoc, List.cons_append, List.nil_append]⟩
  · intro e last member
    have blank := isBlank_of_getLast? (isBlank_of_isLineBreak lastBreak) blankAfter last
    rw [LongBracket.isBlank_of_mem_closing _ e member] at blank
    cases blank

/-- A laid-out comment is read as a comment that says the same. One that is on one line has to be
the last on its line. -/
theorem cuts_doc {comment : Comment} (spelled : comment.IsSpelled) (depth : Nat)
    (ends : LineEnds rest) : (comment.doc depth).Cuts config rest comment.OneToken := by
  cases multi : comment.isMulti with
  | true =>
    obtain ⟨level, inside, written, lines, free, last⟩ := written_blockDoc config depth
      fun (line : List Char) (member : line ∈ contentLines comment.text) =>
        isLine_of_mem_contentLines member
    rw [doc_of_isMulti multi, Doc.Cuts, written]
    refine (cuts_block free last).mono ?_
    rintro _ ⟨token, rfl, kind, text⟩
    refine ⟨token, rfl, kind, ?_⟩
    have again : ofToken token = ⟨inside, token.text, .block, token.span⟩ := by
      have enclosed : token.text.drop 2 =
          LongBracket.opening level ++ (inside ++ LongBracket.closing level) := by
        rw [text, List.drop_succ_cons, List.drop_succ_cons, List.drop_zero]
      rw [ofToken, enclosed, LongBracket.level?_opening_append]
      dsimp only
      rw [inside_append]
    have multiAgain : (ofToken token).isMulti := by
      rw [isMulti_eq, Bool.and_eq_true] at multi
      rw [again, isMulti_eq, lines, multi.2]
      rfl
    rw [shown, if_pos multiAgain, shown, if_pos multi, again, lines]
  | false =>
    have single := spelled.noLineBreak_trim multi
    have content : ∀ c ∈ lineContent comment.text, Token.isLineBreak c = false := by
      rw [lineContent]
      split
      · exact List.forall_mem_nil _
      · exact List.forall_mem_cons.2 ⟨rfl, single⟩
    have noBracket : (lineContent comment.text).head? ≠ some '[' := by
      rw [lineContent]
      split <;> rintro ⟨⟩
    have trimmed : trim (lineContent comment.text) = trim comment.text := by
      rw [lineContent]
      split
      next empty => rw [empty]; rfl
      · rw [trim_cons_of_isBlank rfl, trim_trim]
    rw [doc_of_isSingle multi, Doc.Cuts,
      Doc.written_ofText config (spelled.isLine_of_isSingle multi).noLineFeed]
    refine (cuts_line noBracket content ends).mono ?_
    rintro _ ⟨token, rfl, kind, text⟩
    refine ⟨token, rfl, kind, ?_⟩
    have unopened : LongBracket.level? (lineContent comment.text) = none := by
      rw [lineContent]
      split <;> rfl
    have again : ofToken token =
        ⟨lineContent comment.text, token.text, .line, token.span⟩ := by
      have behind : token.text.drop 2 = lineContent comment.text := by
        rw [text, List.drop_succ_cons, List.drop_succ_cons, List.drop_zero]
      rw [ofToken, behind, unopened]
    rw [shown, again, shown, multi, if_neg Bool.false_ne_true, if_neg, trimmed]
    exact Bool.false_ne_true

end Comment

end LuaStyle
