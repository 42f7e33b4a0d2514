/-
This file proves that the tokens of a source and the spaces between them make up the source.

A token is known by where it starts: it is what the lexer cuts off there, whatever was cut off
before. So a token covers a stretch of the source between two characters, and its text is that
stretch; and since the lexer passes over nothing but spaces on its way to the next token, each byte
of the source is part of a token or is one of the six bytes that separate tokens.
-/

import LuaStyle.Proofs.Spelled
import LuaStyle.Text.Utf8

namespace LuaStyle

/-! ### Bytes of texts -/

namespace Utf8

theorem encode_cons (c : Char) (rest : List Char) :
    encode (c :: rest) = String.utf8EncodeChar c ++ encode rest :=
  List.flatMap_cons ..

theorem encode_append (first second : List Char) :
    encode (first ++ second) = encode first ++ encode second :=
  List.flatMap_append ..

theorem length_encode (text : List Char) : (encode text).length = byteLength text := by
  induction text with
  | nil => rfl
  | cons c rest inductionHypothesis =>
    rw [encode_cons, List.length_append, String.length_utf8EncodeChar, inductionHypothesis,
      byteLength]

/-- Behind the bytes of some characters of a text are those of the others. -/
theorem drop_encode (count : Nat) (text : List Char) :
    (encode text).drop (byteLength (text.take count)) = encode (text.drop count) := by
  have parts : encode text = encode (text.take count) ++ encode (text.drop count) := by
    rw [← encode_append, List.take_append_drop]
  rw [parts, ← length_encode, List.drop_left]

end Utf8

theorem byteLength_take_le (count : Nat) (text : List Char) :
    byteLength (text.take count) ≤ byteLength text := by
  have parts := byteLength_append (text.take count) (text.drop count)
  rw [List.take_append_drop] at parts
  exact Nat.le.intro parts.symm

/-- Two ways to cut a text at the same offset are the same. -/
theorem append_inj_of_byteLength {before rest front back : List Char}
    (same : before ++ rest = front ++ back) (offset : byteLength before = byteLength front) :
    before = front ∧ rest = back := by
  have cut := splitAtByte?_byteLength before rest
  rw [same, offset, splitAtByte?_byteLength] at cut
  cases cut
  exact ⟨rfl, rfl⟩

/-- The stretch between two texts is what stands there. -/
theorem Span.text?_between (before inside behind : List Char) :
    Span.text? (before ++ (inside ++ behind)) ⟨byteLength before, byteLength (before ++ inside)⟩ =
      some inside := by
  rw [byteLength_append, Span.text?, if_pos (Nat.le_add_right ..), splitAtByte?_byteLength,
    Option.bind_some, Nat.add_sub_cancel_left]
  exact congrArg (Option.map Prod.fst) (splitAtByte?_byteLength inside behind)

namespace Token

/-! ### Where a token stands -/

/-- A token is what the lexer cuts off where the token starts. -/
theorem exists_shape_of_mem {offset : Nat} {text : List Char} :
    ∀ token ∈ tokensFrom offset text, ∃ before c rest,
      text = before ++ c :: rest ∧ isSpace c = false ∧
        token =
          ⟨(shape c rest).1, c :: rest.take (shape c rest).2, offset + byteLength before⟩ := by
  fun_induction tokensFrom offset text with
  | case1 => exact List.forall_mem_nil _
  | case2 offset c rest space inductionHypothesis =>
    intro token member
    obtain ⟨before, d, more, rfl, solid, same⟩ := inductionHypothesis token member
    refine ⟨c :: before, d, more, rfl, solid, ?_⟩
    rw [same, byteLength, Nat.add_assoc]
  | case3 offset c rest solid kind count shaped token inductionHypothesis =>
    refine List.forall_mem_cons.2 ⟨⟨[], c, rest, rfl, by simpa using solid, ?_⟩,
      fun other member => ?_⟩
    · rw [shaped]
      rfl
    · obtain ⟨before, d, more, behind, solid, same⟩ := inductionHypothesis other member
      refine ⟨c :: rest.take count ++ before, d, more, ?_, solid, ?_⟩
      · rw [List.append_assoc, ← behind, List.cons_append, List.take_append_drop]
      · rw [same, byteLength_append, ← Nat.add_assoc]
        rfl

/-- A token that starts where a text stands is what the lexer cuts off that text. -/
theorem eq_of_start {before rest : List Char} {c : Char} {token : Token}
    (member : token ∈ ofText (before ++ c :: rest)) (start : token.start = byteLength before) :
    token = ⟨(shape c rest).1, c :: rest.take (shape c rest).2, byteLength before⟩ := by
  obtain ⟨front, d, more, same, -, rfl⟩ := exists_shape_of_mem token member
  rw [Nat.zero_add] at start ⊢
  obtain ⟨rfl, behind⟩ := append_inj_of_byteLength same start.symm
  cases behind
  rfl

/-! ### Tilings -/

/-- The bytes that separate tokens. -/
def spaceBytes : List UInt8 :=
  [0x20, 0x09, 0x0D, 0x0A, 0x0B, 0x0C]

/-- The tokens and the spaces between them make up the source. -/
structure Tiles (source : List Char) (tokens : List Token) : Prop where
  /-- No token is empty. -/
  nonempty : ∀ token ∈ tokens, token.start < token.stop
  /-- The tokens lie one behind the other. -/
  inOrder : tokens.Pairwise fun first second => first.stop ≤ second.start
  /-- The tokens lie within the source. -/
  within : ∀ token ∈ tokens, token.stop ≤ byteLength source
  /-- A token starts and stops between characters, and its text is what stands there. -/
  text : ∀ token ∈ tokens, token.span.text? source = some token.text
  /-- No token starts with a space. -/
  solid : ∀ token ∈ tokens, ∀ c ∈ token.text.head?, isSpace c = false
  /-- A byte that belongs to no token is a space. -/
  covers : ∀ offset < byteLength source,
    (∃ token ∈ tokens, token.start ≤ offset ∧ offset < token.stop) ∨
      ∃ byte ∈ spaceBytes, (Utf8.encode source)[offset]? = some byte
  /-- A token of a kind with one text has that text. -/
  fixed : ∀ token ∈ tokens, token.kind.hasFixedLength → token.text = token.kind.label

theorem encode_space {c : Char} (space : isSpace c) (rest : List Char) :
    c.utf8Size = 1 ∧ ∃ byte ∈ spaceBytes, Utf8.encode (c :: rest) = byte :: Utf8.encode rest := by
  simp only [isSpace, Bool.or_eq_true, beq_iff_eq] at space
  rcases space with ((((rfl | rfl) | rfl) | rfl) | rfl) | rfl <;>
    exact ⟨rfl, _, by decide, rfl⟩

/-- Each byte of a text is in a token or is a space. -/
theorem covers_tokensFrom {offset : Nat} {text : List Char} : ∀ index < byteLength text,
    (∃ token ∈ tokensFrom offset text, token.start ≤ offset + index ∧ offset + index < token.stop) ∨
      ∃ byte ∈ spaceBytes, (Utf8.encode text)[index]? = some byte := by
  fun_induction tokensFrom offset text with
  | case1 => exact fun index within => absurd within (Nat.not_lt_zero index)
  | case2 offset c rest space inductionHypothesis =>
    intro index within
    obtain ⟨size, byte, isSpace, bytes⟩ := encode_space space rest
    rw [bytes]
    cases index with
    | zero => exact .inr ⟨byte, isSpace, rfl⟩
    | succ index =>
      rw [byteLength] at within
      have place : offset + c.utf8Size + index = offset + (index + 1) := by omega
      have further := inductionHypothesis index (by omega)
      rw [place] at further
      exact further
  | case3 offset c rest solid kind count shaped token inductionHypothesis =>
    intro index within
    have parts : byteLength (c :: rest) = token.length + byteLength (rest.drop count) := by
      rw [length, ← byteLength_append, List.cons_append, List.take_append_drop]
    have stop : token.stop = offset + token.length := rfl
    by_cases inside : index < token.length
    · exact .inl ⟨token, List.mem_cons_self, Nat.le_add_right ..,
        Nat.lt_of_lt_of_eq (Nat.add_lt_add_left inside offset) stop.symm⟩
    · have behind : index - token.length < byteLength (rest.drop count) := by omega
      have place : token.stop + (index - token.length) = offset + index := by omega
      have bytes : Utf8.encode (c :: rest) =
          Utf8.encode token.text ++ Utf8.encode (rest.drop count) := by
        rw [← Utf8.encode_append, List.cons_append, List.take_append_drop]
      rcases inductionHypothesis _ behind with ⟨other, member, around⟩ | ⟨byte, isSpace, found⟩
      · rw [place] at around
        exact .inl ⟨other, List.mem_cons_of_mem _ member, around⟩
      · refine .inr ⟨byte, isSpace, ?_⟩
        rw [bytes, List.getElem?_append_right, Utf8.length_encode]
        · exact found
        · rw [Utf8.length_encode]
          exact Nat.le_of_not_lt inside

theorem Spelled.text_eq_label {kind : Kind} {text : List Char} (spelled : Spelled kind text)
    (fixed : kind.hasFixedLength) : text = kind.label := by
  cases spelled with
  | keyword word => rfl
  | symbol mark => rfl
  | _ => cases fixed

/-- The tokens of a source and the spaces between them make it up. -/
theorem tiles_ofText (source : List Char) : Tiles source (ofText source) := by
  have fits : ∀ token ∈ ofText source, Fits 0 token := fits_of_mem_tokensFrom
  have placed : ∀ token ∈ ofText source, ∃ before c more rest,
      source = before ++ (token.text ++ rest) ∧ token.start = byteLength before ∧
        token.text = c :: more ∧ isSpace c = false := by
    intro token member
    obtain ⟨before, c, rest, same, solid, rfl⟩ := exists_shape_of_mem token member
    refine ⟨before, c, _, rest.drop (shape c rest).2, ?_, Nat.zero_add _, rfl, solid⟩
    rw [List.cons_append, List.take_append_drop, same]
  refine ⟨fun token member => (fits token member).start_lt, pairwise_tokensFrom, ?_, ?_, ?_, ?_,
    fun token member => (fits token member).spelled.text_eq_label⟩
  · intro token member
    obtain ⟨before, -, -, rest, rfl, start, -⟩ := placed token member
    rw [stop, start, length, byteLength_append, byteLength_append]
    omega
  · intro token member
    obtain ⟨before, -, -, rest, rfl, start, -⟩ := placed token member
    have ordered : token.span.start ≤ token.span.stop := Nat.le_of_lt (fits token member).start_lt
    have width : token.stop - token.start = byteLength token.text := Nat.add_sub_cancel_left ..
    rw [Span.text?, if_pos ordered, span, width, start, splitAtByte?_byteLength, Option.bind_some]
    exact congrArg (Option.map Prod.fst) (splitAtByte?_byteLength ..)
  · intro token member
    obtain ⟨-, c, more, -, -, -, same, solid⟩ := placed token member
    rw [same]
    rintro _ ⟨⟩
    exact solid
  · intro offset within
    have covered := @covers_tokensFrom 0 source offset within
    rwa [Nat.zero_add] at covered

end Token

end LuaStyle
