/-
This file proves that a text from which two parentheses are deleted has the tokens that are left,
provided that no other word is lost or changed.

What stood on either side of a parenthesis may become one token when the parenthesis goes, and two
dashes may become a comment that swallows what follows. A comment cannot appear unnoticed: the words
that are no comments have all the dashes of the text, and deleting parentheses deletes no dash. As
to the rest, the lexer is followed through both texts from the front. It starts each token at the
same place, so if the token is a parenthesis, a comma or a semicolon in one of them it is the same
in the other, and if it is a word it is the next one of the words that both texts have.
-/

import LuaStyle.Proofs.DrawnScripts
import LuaStyle.Proofs.Tiling

namespace LuaStyle

namespace Token

/-! ### The words of a text -/

/-- The words of a text, comments included. -/
def wordsFrom (text : List Char) : List Word :=
  (ofText text).map word

/-- Words do not tell where they stand. -/
theorem map_word_tokensFrom (text : List Char) (offset other : Nat) :
    (tokensFrom offset text).map word = (tokensFrom other text).map word := by
  fun_induction tokensFrom offset text generalizing other with
  | case1 => rw [tokensFrom_nil]
  | case2 offset c rest space inductionHypothesis =>
    rw [tokensFrom_space space]
    exact inductionHypothesis _
  | case3 offset c rest solid kind count shaped token inductionHypothesis =>
    rw [tokensFrom_cons (by simpa using solid), shaped, List.map_cons, List.map_cons,
      inductionHypothesis]
    rfl

theorem map_word_eq_wordsFrom (offset : Nat) (text : List Char) :
    (tokensFrom offset text).map word = wordsFrom text :=
  map_word_tokensFrom text offset 0

theorem wordsFrom_space {c : Char} (space : isSpace c) (rest : List Char) :
    wordsFrom (c :: rest) = wordsFrom rest := by
  rw [wordsFrom, ofText, tokensFrom_space space, map_word_eq_wordsFrom]

theorem wordsFrom_cons {c : Char} (solid : isSpace c = false) (rest : List Char) :
    wordsFrom (c :: rest) =
      ⟨(shape c rest).1, c :: rest.take (shape c rest).2⟩ ::
        wordsFrom (rest.drop (shape c rest).2) := by
  rw [wordsFrom, ofText, tokensFrom_cons solid, List.map_cons, map_word_eq_wordsFrom]
  rfl

/-- The words of a text are spelled as their kinds ask for. -/
theorem spelled_wordsFrom (text : List Char) :
    ∀ only ∈ wordsFrom text, Spelled only.kind only.text := by
  intro only member
  obtain ⟨token, isToken, rfl⟩ := List.mem_map.1 member
  exact (fits_of_mem_tokensFrom token isToken).spelled

/-! ### Words that stand for themselves -/

/-- The words among the words that stand for themselves in a script. -/
def plainWords (words : List Word) : List Word :=
  (words.filterMap Word.glyph?).filterMap Glyph.word?

theorem plainWords_append (first second : List Word) :
    plainWords (first ++ second) = plainWords first ++ plainWords second := by
  rw [plainWords, List.filterMap_append, List.filterMap_append]
  rfl

theorem plainWords_cons_inj {only : Word} {first second : List Word}
    (same : plainWords (only :: first) = plainWords (only :: second)) :
    plainWords first = plainWords second := by
  have apart (words : List Word) :
      plainWords (only :: words) = plainWords [only] ++ plainWords words :=
    plainWords_append [only] words
  rw [apart first, apart second] at same
  exact List.append_cancel_left same

theorem plainWords_cons_of_isPlain {only : Word} (plain : only.IsPlain) (rest : List Word) :
    plainWords (only :: rest) = only :: plainWords rest := by
  rw [plainWords, List.filterMap_cons_some plain]
  rfl

/-- A parenthesis, a comma or a semicolon. -/
def isPunctuation (c : Char) : Bool :=
  c == '(' || c == ')' || c == ',' || c == ';'

/-- The lexer cuts off punctuation whatever stands behind it. -/
theorem shape_of_isPunctuation {c : Char} (punctuation : isPunctuation c) :
    ∃ mark, (∀ rest, shape c rest = (.symbol mark, 0)) ∧
      ∀ words, plainWords (⟨.symbol mark, [c]⟩ :: words) = plainWords words := by
  simp only [isPunctuation, Bool.or_eq_true, beq_iff_eq] at punctuation
  rcases punctuation with ((rfl | rfl) | rfl) | rfl
  · exact ⟨.leftParen, fun _ => rfl, fun _ => rfl⟩
  · exact ⟨.rightParen, fun _ => rfl, fun _ => rfl⟩
  · exact ⟨.comma, fun _ => rfl, fun _ => rfl⟩
  · exact ⟨.semicolon, fun _ => rfl, fun _ => rfl⟩

/-- A word that is no comment is punctuation or stands for itself. -/
theorem isPlain_or_isPunctuation {only : Word} (spelled : Spelled only.kind only.text)
    (noComment : only.kind ≠ .comment) : only.IsPlain ∨
      ∃ c, only.text = [c] ∧ isPunctuation c ∧
        ∀ words, plainWords (only :: words) = plainWords words := by
  obtain ⟨kind, text⟩ := only
  cases spelled with
  | symbol mark =>
    cases mark with
    | leftParen | rightParen | comma | semicolon => exact .inr ⟨_, rfl, rfl, fun _ => rfl⟩
    | _ => exact .inl rfl
  | comment => exact absurd rfl noComment
  | _ => exact .inl rfl

/-! ### Dashes -/

/-- The number of dashes in the words. -/
def dashes (words : List Word) : Nat :=
  (words.flatMap Word.text).count '-'

theorem dashes_cons (only : Word) (rest : List Word) :
    dashes (only :: rest) = only.text.count '-' + dashes rest := by
  rw [dashes, List.flatMap_cons, List.count_append]
  rfl

/-- No dash is outside of all words. -/
theorem dashes_wordsFrom (text : List Char) : dashes (wordsFrom text) = text.count '-' := by
  rw [wordsFrom, ofText]
  fun_induction tokensFrom 0 text with
  | case1 => rfl
  | case2 offset c rest space inductionHypothesis =>
    have other : c ≠ '-' := by
      rintro rfl
      cases space
    rw [inductionHypothesis, List.count_cons_of_ne other]
  | case3 offset c rest solid kind count shaped token inductionHypothesis =>
    rw [List.map_cons, dashes_cons, inductionHypothesis, ← List.count_append]
    exact congrArg (List.count '-') (congrArg (c :: ·) (List.take_append_drop count rest))

/-- Dashes are in comments and in words that stand for themselves. -/
theorem dashes_eq {words : List Word} (spelled : ∀ only ∈ words, Spelled only.kind only.text) :
    dashes words = dashes (plainWords words) + dashes (words.filter (·.kind == .comment)) := by
  induction words with
  | nil => rfl
  | cons only rest inductionHypothesis =>
    obtain ⟨first, others⟩ := List.forall_mem_cons.1 spelled
    have behind := inductionHypothesis others
    by_cases comment : only.kind = .comment
    · have silent : only.glyph? = none := by rw [Word.glyph?, comment]
      have kept : (only :: rest).filter (·.kind == .comment) =
          only :: rest.filter (·.kind == .comment) :=
        List.filter_cons_of_pos (beq_iff_eq.2 comment)
      rw [kept, plainWords, List.filterMap_cons_none silent, dashes_cons, dashes_cons, behind,
        plainWords]
      omega
    · have dropped : (only :: rest).filter (·.kind == .comment) =
          rest.filter (·.kind == .comment) :=
        List.filter_cons_of_neg (mt beq_iff_eq.1 comment)
      rw [dropped, dashes_cons, behind]
      rcases isPlain_or_isPunctuation first comment with plain | ⟨c, same, punctuation, silent⟩
      · rw [plainWords_cons_of_isPlain plain, dashes_cons]
        omega
      · have noDash : only.text.count '-' = 0 := by
          rw [same, List.count_cons_of_ne, List.count_nil]
          rintro rfl
          cases punctuation
        rw [silent, noDash]
        omega

/-- A text whose words that stand for themselves have all its dashes has no comments. -/
theorem noComment_of_dashes {text : List Char}
    (all : text.count '-' = dashes (plainWords (wordsFrom text))) :
    ∀ only ∈ wordsFrom text, only.kind ≠ .comment := by
  have parts := dashes_eq (spelled_wordsFrom text)
  rw [dashes_wordsFrom, all] at parts
  have none : dashes ((wordsFrom text).filter (·.kind == .comment)) = 0 := by omega
  intro only member comment
  have isComment : only ∈ (wordsFrom text).filter (·.kind == .comment) :=
    List.mem_filter.2 ⟨member, beq_iff_eq.2 comment⟩
  have spelled := spelled_wordsFrom text only member
  obtain ⟨kind, content⟩ := only
  cases comment
  cases spelled with
  | comment =>
    exact List.count_eq_zero.1 none (List.mem_flatMap.2 ⟨_, isComment, List.mem_cons_self⟩)

/-! ### Following the lexer -/

/-- The lexer cuts the words off the first text when the second one stands behind it, and goes on at
the start of that. -/
inductive Passes : List Char → List Char → List Word → Prop
  | nil {rest} : Passes [] rest []
  | space {c text rest words} : isSpace c → Passes text rest words → Passes (c :: text) rest words
  | word {c more text rest kind words} :
    isSpace c = false → (shape c (more ++ (text ++ rest))).1 = kind →
      (more ++ (text ++ rest)).take (shape c (more ++ (text ++ rest))).2 = more →
      Passes text rest words → Passes (c :: (more ++ text)) rest (⟨kind, c :: more⟩ :: words)

/-- Behind what is taken from the front of a text is the rest of it. -/
theorem drop_of_take {Item : Type} {first rest : List Item} {count : Nat}
    (taken : (first ++ rest).take count = first) : (first ++ rest).drop count = rest := by
  have whole := List.take_append_drop count (first ++ rest)
  rw [taken] at whole
  exact List.append_cancel_left whole

theorem Passes.wordsFrom_append {text rest : List Char} {words : List Word}
    (passes : Passes text rest words) : wordsFrom (text ++ rest) = words ++ wordsFrom rest := by
  induction passes with
  | nil => rfl
  | space space _ inductionHypothesis =>
    rw [List.cons_append, wordsFrom_space space, inductionHypothesis]
  | word solid kind taken _ inductionHypothesis =>
    rw [List.cons_append, List.append_assoc, wordsFrom_cons solid, kind, taken,
      drop_of_take taken, inductionHypothesis, List.cons_append]

/-- In front of a token, the lexer passes through the text up to there. -/
theorem exists_passes {offset : Nat} {text : List Char} {front back : List Token} {token : Token}
    (same : tokensFrom offset text = front ++ token :: back) :
    ∃ before rest, text = before ++ (token.text ++ rest) ∧
      Passes before (token.text ++ rest) (front.map word) ∧
      token.start = offset + byteLength before ∧ back = tokensFrom token.stop rest := by
  fun_induction tokensFrom offset text generalizing front
  case case1 => exact absurd same.symm (List.append_ne_nil_of_right_ne_nil _ (List.cons_ne_nil _ _))
  case case2 offset c rest space inductionHypothesis =>
    obtain ⟨before, behind, rfl, passes, start, others⟩ := inductionHypothesis same
    exact ⟨c :: before, behind, rfl, .space space passes, by rw [start, byteLength, Nat.add_assoc],
      others⟩
  case case3 offset c rest solid kind count shaped first inductionHypothesis =>
    cases front with
    | nil =>
      obtain ⟨rfl, rfl⟩ := List.cons.inj same
      exact ⟨[], rest.drop count,
        (congrArg (c :: ·) (List.take_append_drop count rest)).symm, .nil, rfl, rfl⟩
    | cons other front =>
      obtain ⟨rfl, further⟩ := List.cons.inj same
      obtain ⟨before, behind, parts, passes, start, others⟩ := inductionHypothesis further
      have whole : rest = rest.take count ++ (before ++ (token.text ++ behind)) := by
        rw [← parts, List.take_append_drop]
      refine ⟨c :: (rest.take count ++ before), behind, ?_, ?_, ?_, others⟩
      · rw [List.cons_append, List.append_assoc, ← whole]
      · refine .word (by simpa using solid) ?_ ?_ passes
        · rw [← whole, shaped]
        · rw [← whole, shaped]
      · rw [start, stop, length, Nat.add_assoc, ← byteLength_append]
        rfl

/-- A word that starts with anything but punctuation stands for itself. -/
theorem isPlain_of_starts {kind : Kind} {c : Char} {more : List Char}
    (spelled : Spelled kind (c :: more)) (noComment : kind ≠ .comment)
    (noPunctuation : isPunctuation c = false) : Word.IsPlain ⟨kind, c :: more⟩ := by
  have either := @isPlain_or_isPunctuation ⟨kind, c :: more⟩ spelled noComment
  rcases either with plain | ⟨d, same, punctuation, -⟩
  · exact plain
  · obtain rfl : c = d := (List.cons.inj same).1
    rw [noPunctuation] at punctuation
    cases punctuation

/-- The lexer passes through a text in the same way when something else stands behind it, if there
are no comments and the words that stand for themselves stay the same. -/
theorem Passes.transfer {text rest other : List Char} {words : List Word}
    (passes : Passes text rest words)
    (noComment : ∀ only ∈ wordsFrom (text ++ rest), only.kind ≠ .comment)
    (noOther : ∀ only ∈ wordsFrom (text ++ other), only.kind ≠ .comment)
    (same : plainWords (wordsFrom (text ++ rest)) = plainWords (wordsFrom (text ++ other))) :
    Passes text other words ∧ plainWords (wordsFrom rest) = plainWords (wordsFrom other) := by
  induction passes with
  | nil => exact ⟨.nil, same⟩
  | space space _ inductionHypothesis =>
    simp only [List.cons_append, wordsFrom_space space] at noComment noOther same
    obtain ⟨passes, behind⟩ := inductionHypothesis noComment noOther same
    exact ⟨.space space passes, behind⟩
  | @word c more text rest kind words solid isKind taken _ inductionHypothesis =>
    have spelled := shape_spelled c (more ++ (text ++ rest))
    simp only [List.cons_append, List.append_assoc, wordsFrom_cons solid, isKind, taken,
      drop_of_take taken, List.forall_mem_cons] at noComment noOther same spelled
    -- What is cut off here is the same in both texts: punctuation by its first character, and
    -- anything else because it is the first of the words.
    have cut : (shape c (more ++ (text ++ other))).1 = kind ∧
        (more ++ (text ++ other)).take (shape c (more ++ (text ++ other))).2 = more := by
      cases punctuation : isPunctuation c with
      | true =>
        obtain ⟨mark, fixed, -⟩ := shape_of_isPunctuation punctuation
        rw [fixed] at isKind taken ⊢
        exact ⟨isKind, taken⟩
      | false =>
        have plain := isPlain_of_starts spelled noComment.1 punctuation
        have otherPlain := isPlain_of_starts (shape_spelled c _) noOther.1 punctuation
        rw [plainWords_cons_of_isPlain plain, plainWords_cons_of_isPlain otherPlain] at same
        obtain ⟨kinds, texts⟩ := Word.mk.inj (List.cons.inj same).1
        exact ⟨kinds.symm, (List.cons.inj texts).2.symm⟩
    rw [cut.1, cut.2, drop_of_take cut.2] at same
    rw [drop_of_take cut.2] at noOther
    obtain ⟨passes, behind⟩ :=
      inductionHypothesis noComment.2 noOther.2 (plainWords_cons_inj same)
    exact ⟨.word solid cut.1 cut.2 passes, behind⟩

/-! ### Deleting two parentheses -/

/-- In a text without comments, all dashes are in words that stand for themselves. -/
theorem count_dash_eq {text : List Char}
    (noComment : ∀ only ∈ wordsFrom text, only.kind ≠ .comment) :
    text.count '-' = dashes (plainWords (wordsFrom text)) := by
  have none : (wordsFrom text).filter (·.kind == .comment) = [] := by
    rw [List.filter_eq_nil_iff]
    exact fun only member isComment => noComment only member (beq_iff_eq.1 isComment)
  rw [← dashes_wordsFrom, dashes_eq (spelled_wordsFrom text), none]
  rfl

/-- A text without comments has the words that are left when two of its parentheses are deleted,
unless another one of its words is lost with them. -/
theorem wordsFrom_deleted {before inside after : List Char} {words within : List Word}
    (passes : Passes before ('(' :: (inside ++ ')' :: after)) words)
    (passesWithin : Passes inside (')' :: after) within)
    (noComment : ∀ only ∈ wordsFrom (before ++ '(' :: (inside ++ ')' :: after)),
      only.kind ≠ .comment)
    (same : plainWords (wordsFrom (before ++ '(' :: (inside ++ ')' :: after))) =
      plainWords (wordsFrom (before ++ (inside ++ after)))) :
    wordsFrom (before ++ (inside ++ after)) = words ++ (within ++ wordsFrom after) := by
  have opening (rest : List Char) : wordsFrom ('(' :: rest) = ⟨.symbol .leftParen, ['(']⟩ ::
      wordsFrom rest := wordsFrom_cons rfl rest
  have noDash : (before ++ '(' :: (inside ++ ')' :: after)).count '-' =
      (before ++ (inside ++ after)).count '-' := by
    simp [List.count_append]
  have noOther : ∀ only ∈ wordsFrom (before ++ (inside ++ after)), only.kind ≠ .comment :=
    noComment_of_dashes (by rw [← noDash, count_dash_eq noComment, same])
  obtain ⟨passesBefore, behind⟩ := passes.transfer noComment noOther same
  rw [passes.wordsFrom_append, opening] at noComment
  rw [passesBefore.wordsFrom_append] at noOther ⊢
  rw [opening] at behind
  obtain ⟨passesInside, -⟩ := passesWithin.transfer
    (List.forall_mem_cons.1 (List.forall_mem_append.1 noComment).2).2
    (List.forall_mem_append.1 noOther).2 behind
  rw [passesInside.wordsFrom_append]

/-- Two parentheses among the tokens of a text stand in the text. -/
theorem exists_parentheses {text : List Char} {front middle back : List Token}
    {opening closing : Token}
    (tokens : ofText text = front ++ opening :: (middle ++ closing :: back))
    (opens : opening.kind = .symbol .leftParen) (closes : closing.kind = .symbol .rightParen) :
    ∃ before within after, text = before ++ '(' :: (within ++ ')' :: after) ∧
      opening.start = byteLength before ∧
      closing.stop = byteLength before + byteLength within + 2 ∧
      Passes before ('(' :: (within ++ ')' :: after)) (front.map word) ∧
      Passes within (')' :: after) (middle.map word) ∧ back.map word = wordsFrom after := by
  have spelled : ∀ token ∈ ofText text, Spelled token.kind token.text := fun token member =>
    (fits_of_mem_tokensFrom token member).spelled
  have openingText : opening.text = ['('] := by
    have member : opening ∈ ofText text := by
      rw [tokens]
      exact List.mem_append_right _ List.mem_cons_self
    have fixed := (spelled opening member).text_eq_label
    rw [opens] at fixed
    exact fixed rfl
  have closingText : closing.text = [')'] := by
    have member : closing ∈ ofText text := by
      rw [tokens]
      exact List.mem_append_right _
        (List.mem_cons_of_mem _ (List.mem_append_right _ List.mem_cons_self))
    have fixed := (spelled closing member).text_eq_label
    rw [closes] at fixed
    exact fixed rfl
  obtain ⟨before, rest, rfl, passes, start, behind⟩ := exists_passes tokens
  obtain ⟨within, after, rfl, passesWithin, further, others⟩ := exists_passes behind.symm
  rw [openingText, closingText] at passes
  rw [closingText] at passesWithin
  refine ⟨before, within, after, by rw [openingText, closingText]; rfl, ?_, ?_, passes,
    passesWithin, ?_⟩
  · rw [start, Nat.zero_add]
  · rw [stop, further, stop, start, length, length, openingText, closingText]
    show 0 + byteLength before + 1 + byteLength within + 1 = _
    omega
  · rw [others, map_word_eq_wordsFrom]

end Token

end LuaStyle
