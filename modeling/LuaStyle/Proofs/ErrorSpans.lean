/-
This file proves that errors of the parser point into the source.

A token is a stretch of the source, and so is an expression, from its first token to its last. What
is to blame in a string is counted in bytes from a backslash: two, or as many as a longer escape
would have taken, but not past the end of the content. Where the characters behind the backslash
take up several bytes, such a stretch may end within one of them. In every other error, and in every
source whose characters take up one byte each, the stretch can be cut out of the source.
-/

import LuaStyle.Proofs.Extents
import LuaStyle.Proofs.Refusals
import LuaStyle.Proofs.StringEnds

namespace LuaStyle

/-! ### Boundaries -/

/-- The offset lies between two characters of the source, or at one of its ends. -/
def IsBoundary (source : List Char) (offset : Nat) : Prop :=
  ∃ before after, source = before ++ after ∧ byteLength before = offset

theorem isBoundary_byteLength (source : List Char) : IsBoundary source (byteLength source) :=
  ⟨source, [], (List.append_nil source).symm, rfl⟩

theorem IsBoundary.le {source : List Char} {offset : Nat} (boundary : IsBoundary source offset) :
    offset ≤ byteLength source := by
  obtain ⟨before, after, rfl, rfl⟩ := boundary
  rw [byteLength_append]
  exact Nat.le_add_right ..

theorem byteLength_eq_zero {text : List Char} (empty : byteLength text = 0) : text = [] := by
  cases text with
  | nil => rfl
  | cons c rest => exact absurd empty (Nat.ne_of_gt (Token.byteLength_pos c rest))

/-- A span covers a stretch of the source exactly if its ends are boundaries and in order. -/
theorem Span.isSome_text?_iff {source : List Char} {span : Span} :
    (span.text? source).isSome ↔
      span.start ≤ span.stop ∧ IsBoundary source span.start ∧ IsBoundary source span.stop := by
  constructor
  · intro covers
    unfold Span.text? at covers
    split at covers
    next ordered =>
      obtain ⟨text, found⟩ := Option.isSome_iff_exists.1 covers
      obtain ⟨⟨before, after⟩, first, found⟩ := Option.bind_eq_some_iff.1 found
      obtain ⟨⟨inside, behind⟩, second, rfl⟩ := Option.map_eq_some_iff.1 found
      obtain ⟨rfl, start⟩ := eq_append_of_splitAtByte? first
      obtain ⟨rfl, width⟩ := eq_append_of_splitAtByte? second
      refine ⟨ordered, ⟨before, inside ++ behind, rfl, start⟩, before ++ inside, behind,
        (List.append_assoc ..).symm, ?_⟩
      rw [byteLength_append, start, width]
      omega
    · cases covers
  · rintro ⟨ordered, ⟨before, after, rfl, start⟩, front, back, same, stop⟩
    -- the text up to the start is part of the text up to the stop
    obtain ⟨inside, rfl⟩ : ∃ inside, front = before ++ inside := by
      rcases List.append_eq_append_iff.1 same with ⟨inside, rfl, -⟩ | ⟨excess, rfl, -⟩
      · exact ⟨inside, rfl⟩
      · rw [byteLength_append] at start
        have empty : excess = [] := byteLength_eq_zero (by omega)
        exact ⟨[], by rw [empty, List.append_nil, List.append_nil]⟩
    rw [List.append_assoc] at same
    obtain rfl := List.append_cancel_left same
    rw [byteLength_append, start] at stop
    have width : span.stop - span.start = byteLength inside := by omega
    rw [Span.text?, if_pos ordered, ← start, splitAtByte?_byteLength, Option.bind_some, start,
      width]
    show (Option.map Prod.fst (splitAtByte? (byteLength inside) (inside ++ back))).isSome
    rw [splitAtByte?_byteLength]
    rfl

/-- In a text of characters of one byte, every offset is a boundary. -/
theorem isBoundary_of_narrow {source : List Char} (narrow : ∀ c ∈ source, c.utf8Size = 1)
    {offset : Nat} (within : offset ≤ byteLength source) : IsBoundary source offset := by
  have length {text : List Char} (plain : ∀ c ∈ text, c.utf8Size = 1) :
      byteLength text = text.length := by
    induction text with
    | nil => rfl
    | cons c rest inductionHypothesis =>
      obtain ⟨first, others⟩ := List.forall_mem_cons.1 plain
      rw [byteLength, first, inductionHypothesis others, List.length_cons, Nat.add_comm]
  rw [length narrow] at within
  refine ⟨source.take offset, source.drop offset, (List.take_append_drop ..).symm, ?_⟩
  rw [length fun c member => narrow c (List.mem_of_mem_take member), List.length_take,
    Nat.min_eq_left within]

/-! ### Escapes -/

namespace Escape

/-- An escape that is not valid has at least its backslash to blame. -/
theorem pos_of_read {c : Char} {rest : List Char} {length : Nat}
    (failed : read c rest = .error length) : 0 < length := by
  unfold read at failed
  split at failed
  · cases failed
  dsimp only at failed
  split_ifs at failed <;> first
    | cases failed
      exact Nat.succ_pos _
    | split at failed <;> cases failed
      exact Nat.succ_pos _

theorem error_of_map {Error First Second : Type} {run : Except Error First} {map : First → Second}
    {error : Error} (failed : run.map map = .error error) : run = .error error := by
  cases run with
  | ok value => cases failed
  | error failure =>
    cases failed
    rfl

/-- An escape that is not valid starts at a backslash. -/
theorem exists_of_decodeFrom {offset place length : Nat} {content : List Char}
    (failed : decodeFrom offset content = .error (place, length)) :
    0 < length ∧ ∃ before rest,
      content = before ++ '\\' :: rest ∧ place = offset + byteLength before := by
  fun_induction decodeFrom offset content with
  | case1 => cases failed
  | case2 offset =>
    cases failed
    exact ⟨Nat.zero_lt_one, [], [], rfl, rfl⟩
  | case3 offset c rest width refused =>
    cases failed
    exact ⟨pos_of_read refused, [], c :: rest, rfl, rfl⟩
  | case4 offset c rest bytes count _ inductionHypothesis =>
    have failed := error_of_map failed
    obtain ⟨positive, before, after, same, rfl⟩ := inductionHypothesis failed
    refine ⟨positive, '\\' :: c :: (rest.take count ++ before), after, ?_, ?_⟩
    · rw [List.cons_append, List.cons_append, List.append_assoc, ← same, List.take_append_drop]
    · rw [byteLength, byteLength, byteLength_append, show '\\'.utf8Size = 1 from rfl]
      omega
  | case5 offset c rest noEscape noEnd inductionHypothesis =>
    have failed := error_of_map failed
    obtain ⟨positive, before, after, rfl, rfl⟩ := inductionHypothesis failed
    refine ⟨positive, c :: before, after, rfl, ?_⟩
    rw [byteLength, Nat.add_assoc]

/-- What is to blame in a content lies in it and starts at a backslash. -/
theorem exists_of_decode {content : List Char} {span : Span}
    (failed : decode content = .error span) :
    span.start < span.stop ∧ span.stop ≤ byteLength content ∧ ∃ before rest,
      content = before ++ '\\' :: rest ∧ byteLength before = span.start := by
  unfold decode at failed
  cases result : decodeFrom 0 content with
  | ok bytes =>
    rw [result] at failed
    cases failed
  | error blame =>
    obtain ⟨place, length⟩ := blame
    rw [result] at failed
    cases failed
    obtain ⟨positive, before, rest, rfl, rfl⟩ := exists_of_decodeFrom result
    refine ⟨?_, Nat.min_le_right .., before, rest, rfl, (Nat.zero_add _).symm⟩
    have backslash := Token.byteLength_pos '\\' rest
    rw [byteLength_append]
    dsimp only
    omega

end Escape

/-! ### Where errors point -/

/-- The span lies in the source and starts between characters. -/
structure Span.LiesIn (source : List Char) (span : Span) : Prop where
  ordered : span.start ≤ span.stop
  within : span.stop ≤ byteLength source
  starts : IsBoundary source span.start

theorem Span.liesIn_of_covers {source : List Char} {span : Span}
    (covers : (span.text? source).isSome) : span.LiesIn source := by
  obtain ⟨ordered, start, stop⟩ := Span.isSome_text?_iff.1 covers
  exact ⟨ordered, stop.le, start⟩

variable {source : List Char} {token : Token}

theorem Token.covers_of_mem (member : token ∈ ofText source) :
    (token.span.text? source).isSome := by
  rw [(tiles_ofText source).text token member]
  rfl

/-- The token that follows, or the end of the source, is a stretch of the source. -/
theorem Program.covers_current {tokens : List Token} {rest : Cursor}
    (steps : (start source).Steps tokens rest) : (rest.current.span.text? source).isSome := by
  unfold Cursor.current
  cases remaining : rest.remaining with
  | nil =>
    have ended : rest.sourceLength = byteLength source := steps.sourceLength
    rw [List.headD_nil, ended]
    exact Span.isSome_text?_iff.2 ⟨Nat.le_refl _, isBoundary_byteLength source,
      isBoundary_byteLength source⟩
  | cons token more =>
    have member : token ∈ (start source).remaining := by
      rw [steps.remaining, remaining]
      exact List.mem_append_right _ List.mem_cons_self
    exact Token.covers_of_mem (List.mem_filter.1 member).1

theorem Cursor.span_unexpected {cause : Token → ParseError}
    (about : ∀ token, (cause token).span = token.span) (cursor : Cursor) :
    (cursor.unexpected cause).span = cursor.current.span := by
  unfold Cursor.unexpected
  split
  · rfl
  · rfl
  · rfl
  · exact about _

/-- An expression is a stretch of the source. -/
theorem Program.covers_expression {tokens : List Token} {expression : Expression}
    (part : tokens <:+: (start source).remaining) (reads : expression.Reads false tokens) :
    (expression.span.text? source).isSome := by
  have sublist : tokens.Sublist (Token.ofText source) :=
    part.sublist.trans List.filter_sublist
  have ordered := (Token.ordered_ofText source).sublist sublist
  have spans := Expression.Reads.spans expression (.inl reads) ordered
  have inOrder := spans.start_lt_stop ordered
  obtain ⟨⟨first, more, rfl, -, start⟩, before, last, same, -, stop⟩ := spans
  have lastMember : last ∈ first :: more := same ▸ List.mem_concat_self
  have firstCovers := Token.covers_of_mem (sublist.subset List.mem_cons_self)
  have lastCovers := Token.covers_of_mem (sublist.subset lastMember)
  refine Span.isSome_text?_iff.2 ⟨Nat.le_of_lt inOrder, ?_, ?_⟩
  · rw [← start]
    exact (Span.isSome_text?_iff.1 firstCovers).2.1
  · rw [← stop]
    exact (Span.isSome_text?_iff.1 lastCovers).2.2

/-- What is to blame in a string is part of an escape of the string, and lies in the source. -/
theorem Program.exists_of_stringLiteral {error : ParseError} (member : token ∈ Token.ofText source)
    (kind : token.kind = .quotedString ∨ token.kind = .longString)
    (failed : Grammar.stringLiteral token = .error error) :
    ∃ span, error = .invalidEscape span ∧ span.LiesIn source := by
  obtain ⟨front, c, rest, same, -, rfl⟩ := Token.exists_shape_of_mem token member
  have isString : (Token.shape c rest).1.isString := by
    rcases kind with kind | kind <;> exact congrArg Token.Kind.isString kind
  unfold Grammar.stringLiteral at failed
  split at failed
  · cases failed
  next notLong =>
  rcases Token.shape_of_isString isString with ⟨isQuote, -⟩ | ⟨level, -, -, long⟩
  · split at failed
    · cases failed
    next blame refused =>
    cases failed
    have quote : c.utf8Size = 1 := by rcases isQuote with rfl | rfl <;> rfl
    have decoded : Escape.decode (rest.take (Token.shape c rest).2).dropLast = .error blame :=
      refused
    obtain ⟨ordered, within, before, after, content, start⟩ := Escape.exists_of_decode decoded
    obtain ⟨tail, behind⟩ : (rest.take (Token.shape c rest).2).dropLast <+: rest :=
      (List.dropLast_prefix _).trans (List.take_prefix _ _)
    rw [content] at behind within
    have length : byteLength source =
        byteLength front + (1 + (byteLength (before ++ '\\' :: after) + byteLength tail)) := by
      rw [same, byteLength_append, byteLength, quote, ← behind, byteLength_append]
    refine ⟨_, rfl, ?_, ?_, front ++ c :: before, '\\' :: (after ++ tail), ?_, ?_⟩
    · dsimp only
      omega
    · dsimp only
      omega
    · rw [same, ← behind, List.append_assoc, List.append_assoc]
      rfl
    · rw [byteLength_append, byteLength, quote, start]
      dsimp only
      omega
  · rcases kind with quoted | isLong
    · rcases Token.longStringShape_kind level rest with closed | stuck
      · exact absurd ((congrArg Prod.fst long).trans closed) notLong
      · cases quoted.symm.trans ((congrArg Prod.fst long).trans stuck)
    · exact absurd isLong notLong

/-- Every error of the parser points into the source, and starts between two characters. It points
at a stretch of the source, unless it is about an escape, of which the last character may be cut in
half. -/
theorem parse_error_span {error : ParseError} (failed : Program.parse source = .error error) :
    error.span.LiesIn source ∧
      ((∀ span, error ≠ .invalidEscape span) ∨ (∀ c ∈ source, c.utf8Size = 1) →
        (error.span.text? source).isSome) := by
  have covered (covers : (error.span.text? source).isSome) : error.span.LiesIn source ∧
      ((∀ span, error ≠ .invalidEscape span) ∨ (∀ c ∈ source, c.utf8Size = 1) →
        (error.span.text? source).isSome) :=
    ⟨Span.liesIn_of_covers covers, fun _ => covers⟩
  cases Program.refuses_of_parse failed with
  | unexpected steps about =>
    refine covered ?_
    rw [Cursor.span_unexpected about]
    exact Program.covers_current steps
  | number member => exact covered (Token.covers_of_mem (List.mem_filter.1 member).1)
  | target part reads => exact covered (Program.covers_expression part reads)
  | string member kind failed =>
    obtain ⟨span, rfl, lies⟩ :=
      Program.exists_of_stringLiteral (List.mem_filter.1 member).1 kind failed
    refine ⟨lies, fun plain => ?_⟩
    rcases plain with noEscape | narrow
    · exact absurd rfl (noEscape span)
    · exact Span.isSome_text?_iff.2
        ⟨lies.ordered, lies.starts, isBoundary_of_narrow narrow lies.within⟩

example : ((Program.parse "x = '\\é'".toList).map fun _ => ()) = .error (.invalidEscape ⟨5, 7⟩) ∧
    Span.text? "x = '\\é'".toList ⟨5, 7⟩ = none := by decide +kernel

end LuaStyle
