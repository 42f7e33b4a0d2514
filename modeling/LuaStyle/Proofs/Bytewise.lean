/-
This file proves that the lexer cuts a source at the same places when it reads bytes.

A byte can be taken for the character of its number, so the lexer can be run on the bytes of a
source as it is run on its characters. Only one thing it cannot tell by itself then: how far a
character goes that no token starts with. This is told by the high bits of the first byte. What the
lexer asks for are characters of one byte, and the bytes of longer characters are none of these; so
it stops at such bytes or passes over them as it does with the character that they make up. Behind a
backslash it takes one byte of a longer character blindly, and goes through the others one by one.
So a token that is cut off the bytes never ends within a character, and is the one that is cut off
the characters.
-/

import LuaStyle.Proofs.Lengthening
import LuaStyle.Proofs.QuotedBodies

namespace LuaStyle

/-! ### Texts as bytes -/

/-- The character takes up more than one byte. -/
def IsWide (c : Char) : Prop :=
  0x80 ≤ c.toNat

instance (c : Char) : Decidable (IsWide c) :=
  inferInstanceAs (Decidable (_ ≤ _))

/-- The bytes of a text, each as the character of its number. -/
def spread (text : List Char) : List Char :=
  (Utf8.encode text).map Char.ofUInt8

section

variable {c d : Char} {text front : List Char}

theorem spread_append (first second : List Char) :
    spread (first ++ second) = spread first ++ spread second := by
  rw [spread, Utf8.encode_append, List.map_append]
  rfl

theorem spread_cons (c : Char) (text : List Char) :
    spread (c :: text) = spread [c] ++ spread text :=
  spread_append [c] text

/-- Spread text has a character for each byte. -/
theorem length_spread (text : List Char) : (spread text).length = byteLength text := by
  rw [spread, List.length_map, Utf8.length_encode]

/-- A character of one byte stays as it is. -/
theorem spread_narrow (narrow : ¬IsWide c) : spread [c] = [c] := by
  have low : c.val.toNat ≤ 127 := Nat.le_of_lt_succ (Nat.lt_of_not_le narrow)
  have single : String.utf8EncodeChar c = [UInt8.ofNat c.val.toNat] := if_pos low
  have value : (UInt8.ofNat c.val.toNat).toNat = c.val.toNat :=
    UInt8.toNat_ofNat_of_lt (Nat.lt_of_le_of_lt low (by decide))
  have same : Char.ofUInt8 (UInt8.ofNat c.val.toNat) = c := Char.ext (UInt32.toNat_inj.1 value)
  rw [spread, Utf8.encode_cons, single]
  exact congrArg (fun d => [d]) same

theorem spread_cons_narrow (narrow : ¬IsWide c) (text : List Char) :
    spread (c :: text) = c :: spread text := by
  rw [spread_cons, spread_narrow narrow, List.singleton_append]

theorem utf8Size_narrow (narrow : ¬IsWide c) : c.utf8Size = 1 := by
  have length := length_spread [c]
  rw [spread_narrow narrow] at length
  exact length.symm

/-- The bytes of a wide character are wide themselves. -/
theorem wide_spread (wide : IsWide c) : ∀ d ∈ spread [c], IsWide d := by
  have same : c.val.toNat = c.toNat := rfl
  have high : 0x80 ≤ c.toNat := wide
  have written : ∀ byte ∈ String.utf8EncodeChar c, 0x80 ≤ byte.toNat := by
    unfold String.utf8EncodeChar
    simp only [same]
    split
    · omega
    · split
      · simp; omega
      · split <;> (simp; omega)
  intro d member
  obtain ⟨byte, within, rfl⟩ := List.mem_map.1 member
  rw [Utf8.encode_cons] at within
  exact written byte ((List.append_nil _ : String.utf8EncodeChar c ++ [] = _) ▸ within)

theorem spread_ne_nil (c : Char) : spread [c] ≠ [] := by
  have length := length_spread [c]
  intro empty
  rw [empty] at length
  exact absurd length (Nat.ne_of_lt (Nat.add_pos_left (Char.utf8Size_pos c) 0))

/-! ### What the lexer asks for -/

/-- A wide character is none of those the grammar has a use for. -/
theorem IsWide.ne (wide : IsWide c) (narrow : ¬IsWide d) : c ≠ d := by
  rintro rfl
  exact narrow wide

theorem IsWide.isAlphanum_eq (wide : IsWide c) : c.isAlphanum = false := by
  rw [Bool.eq_false_iff]
  intro alphanumeric
  rcases Bool.or_eq_true .. ▸ alphanumeric with letter | digit
  · rcases Token.isAlpha_iff.1 letter with upper | lower
    · exact absurd (Nat.le_trans wide upper.2) (by decide)
    · exact absurd (Nat.le_trans wide lower.2) (by decide)
  · exact absurd (Nat.le_trans wide (Char.isDigit_iff_toNat.1 digit).2) (by decide)

theorem IsWide.isDigit_eq (wide : IsWide c) : c.isDigit = false :=
  (Bool.or_eq_false_iff.1 wide.isAlphanum_eq).2

theorem IsWide.isNamePart_eq (wide : IsWide c) : Token.isNamePart c = false := by
  rw [Token.isNamePart, wide.isAlphanum_eq, beq_eq_false_iff_ne.2 (wide.ne (by decide))]
  rfl

theorem IsWide.isNameStart_eq (wide : IsWide c) : Token.isNameStart c = false := by
  rw [Token.isNameStart, (Bool.or_eq_false_iff.1 wide.isAlphanum_eq).1,
    beq_eq_false_iff_ne.2 (wide.ne (by decide))]
  rfl

theorem IsWide.isLineBreak_eq (wide : IsWide c) : Token.isLineBreak c = false := by
  rw [Token.isLineBreak, Bool.or_eq_false_iff, beq_eq_false_iff_ne, beq_eq_false_iff_ne]
  exact ⟨wide.ne (by decide), wide.ne (by decide)⟩

theorem IsWide.isSpace_eq (wide : IsWide c) : Token.isSpace c = false := by
  rw [Bool.eq_false_iff, Token.isSpace]
  intro space
  simp only [Bool.or_eq_true, beq_iff_eq] at space
  rcases space with ((((rfl | rfl) | rfl) | rfl) | rfl) | rfl <;> exact absurd wide (by decide)

/-- A wide character stands for itself in a quoted string. -/
theorem IsWide.isPlain {quote : Char} (isQuote : quote = '\x22' ∨ quote = '\x27')
    (wide : IsWide c) : Quoted.IsPlain quote c where
  noBackslash := wide.ne (by decide)
  noQuote := wide.ne (by rcases isQuote with rfl | rfl <;> decide)
  noLineBreak := wide.isLineBreak_eq

/-- The symbols are made of characters of one byte. -/
theorem Token.Symbol.narrow_text (mark : Token.Symbol) : ∀ c ∈ mark.text, ¬IsWide c := by
  have narrow : mark.text.all fun c => !decide (IsWide c) := by cases mark <;> rfl
  intro c member
  simpa using List.all_eq_true.1 narrow c member

end

/-- Each character of more than one byte is written as its bytes. -/
def spreading : Lengthening where
  IsLong := IsWide
  run c := spread [c]
  run_short _ := spread_narrow
  run_long c wide := ⟨spread_ne_nil c, wide_spread wide⟩
  isNamePart_eq _ := IsWide.isNamePart_eq
  notMem_text _ wide mark member := mark.narrow_text _ member wide
  isLineBreak_eq _ _ first second := first.isLineBreak_eq.trans second.isLineBreak_eq.symm

/-- Spreading lengthens text as `spread` does. -/
theorem write_spreading (text : List Char) : spreading.write text = spread text := by
  induction text with
  | nil => rfl
  | cons c text inductionHypothesis =>
    rw [Lengthening.write_cons, inductionHypothesis, spread_cons c text]
    rfl

namespace Token

/-! ### The extent of each kind of token -/

/-- The kind of a token and how much of a text belongs to it, counted in bytes. -/
def inBytes (text : List Char) (cut : Kind × Nat) : Kind × Nat :=
  (cut.1, byteLength (text.take cut.2))

section

variable {c quote : Char} {text front : List Char} {kind : Kind} {count : Nat}

/-- The length of what is cut off spread text is that in bytes. -/
theorem extent_spreading (text : List Char) (cut : Kind × Nat) :
    spreading.extent text cut = inBytes text cut := by
  rw [Lengthening.extent, write_spreading, length_spread, inBytes]

theorem inBytes_append (front text : List Char) (cut : Kind × Nat) :
    inBytes (front ++ text) (cut.map id (· + front.length)) =
      (inBytes text cut).map id (· + byteLength front) := by
  rw [← extent_spreading, ← extent_spreading, Lengthening.extent_append, write_spreading,
    length_spread]

/-- The lexer passes over the bytes of a character that stands for itself. -/
theorem quotedShape_plain (isQuote : quote = '\x22' ∨ quote = '\x27')
    (plain : Quoted.IsPlain quote c) (text : List Char) :
    quotedShape quote (spread [c] ++ spread text) =
      (quotedShape quote (spread text)).map id (· + byteLength [c]) := by
  have allPlain : ∀ d ∈ spread [c], Quoted.IsPlain quote d := by
    by_cases wide : IsWide c
    · exact fun d member => (wide_spread wide d member).isPlain isQuote
    · rw [spread_narrow wide]
      exact List.forall_mem_singleton.2 plain
  rw [Quoted.shape_run allPlain, length_spread]
  rfl

/-- Behind a backslash, the lexer passes over all bytes of a character. -/
theorem quotedShape_escape (isQuote : quote = '\x22' ∨ quote = '\x27')
    (single : ∀ rest, c = '\r' → text = '\n' :: rest → False) :
    quotedShape quote (spread ['\\', c] ++ spread text) =
      (quotedShape quote (spread text)).map id (· + byteLength ['\\', c]) := by
  have backslash : ¬IsWide '\\' := by decide
  by_cases isReturn : c = '\r'
  · subst isReturn
    show quotedShape quote ('\\' :: '\r' :: spread text) = _
    rw [quotedShape]
    · rfl
    · rintro rest - same
      have feed : (spread text).head? = some '\n' := by rw [same]; rfl
      have narrow : ¬IsWide '\n' := by decide
      rw [← write_spreading, Lengthening.head?_write narrow] at feed
      obtain ⟨others, split⟩ := List.head?_eq_some_iff.1 feed
      exact single others rfl split
  · obtain ⟨lead, more, same, noReturn, plain⟩ : ∃ lead more, spread [c] = lead :: more ∧
        lead ≠ '\r' ∧ ∀ d ∈ more, Quoted.IsPlain quote d := by
      by_cases wide : IsWide c
      · obtain ⟨lead, more, same⟩ := List.exists_cons_of_ne_nil (spread_ne_nil c)
        obtain ⟨first, others⟩ := List.forall_mem_cons.1 (same ▸ wide_spread wide)
        exact ⟨lead, more, same, first.ne (by decide),
          fun d member => (others d member).isPlain isQuote⟩
      · exact ⟨c, [], spread_narrow wide, isReturn, List.forall_mem_nil _⟩
    have bytes : spread ['\\', c] = '\\' :: lead :: more := by
      rw [spread_cons_narrow backslash, same]
    rw [← length_spread, bytes, Quoted.shape_escape noReturn plain]
    rfl

/-- A string ends at the same place among the bytes of a text. -/
theorem quotedShape_spread (isQuote : quote = '\x22' ∨ quote = '\x27') (text : List Char) :
    quotedShape quote (spread text) = inBytes text (quotedShape quote text) := by
  -- Wherever the lexer passes over some characters, it passes over their bytes.
  have further (front rest : List Char)
      (passes : quotedShape quote (spread front ++ spread rest) =
        (quotedShape quote (spread rest)).map id (· + byteLength front))
      (behind : quotedShape quote (spread rest) = inBytes rest (quotedShape quote rest)) :
      quotedShape quote (spread (front ++ rest)) =
        inBytes (front ++ rest) ((quotedShape quote rest).map id (· + front.length)) := by
    rw [spread_append, passes, behind, inBytes_append]
  fun_induction quotedShape quote text with
  | case1 => rfl
  | case2 rest inductionHypothesis =>
    exact further ['\\', '\r', '\n'] rest rfl inductionHypothesis
  | case3 c rest single inductionHypothesis =>
    exact further ['\\', c] rest (quotedShape_escape isQuote single) inductionHypothesis
  | case4 => rfl
  | case5 c rest _ _ _ ends =>
    rw [isLineBreak, Bool.or_eq_true, beq_iff_eq, beq_iff_eq] at ends
    rcases ends with rfl | rfl <;> rfl
  | case6 rest => rcases isQuote with rfl | rfl <;> rfl
  | case7 c rest _ noEscape atEnd inLine other inductionHypothesis =>
    have plain : Quoted.IsPlain quote c := .of_passed atEnd noEscape inLine other
    exact further [c] rest (quotedShape_plain isQuote plain rest) inductionHypothesis

/-! ### Any token -/

/-- What starts with a character of one byte is cut off at the same place among the bytes. -/
theorem shape_spread (narrow : ¬IsWide c) (text : List Char) :
    shape c (spread text) = inBytes text (shape c text) := by
  rw [← write_spreading, ← extent_spreading]
  refine Lengthening.shape_write narrow fun isQuote => ?_
  rw [write_spreading, extent_spreading, quotedShape_spread isQuote]

/-- No token starts with a character of more than one byte. -/
theorem shape_wide (wide : IsWide c) (text : List Char) : shape c text = (.unknown, 0) := by
  have noDash : c ≠ '-' := wide.ne (by decide)
  have noQuote : ¬(c = '\x22' ∨ c = '\x27') :=
    not_or.2 ⟨wide.ne (by decide), wide.ne (by decide)⟩
  have noPoint : (c == '.') = false := beq_eq_false_iff_ne.2 (wide.ne (by decide))
  have noNumber : startsNumber c text = false := by
    rw [startsNumber, wide.isDigit_eq, noPoint]
    rfl
  have noBracket : LongBracket.level? (c :: text) = none := by
    refine Option.eq_none_iff_forall_ne_some.2 fun level opens => ?_
    exact wide.ne (by decide) (LongBracket.eq_bracket_of_level? opens)
  have noMark : Symbol.first? (c :: text) = none := by
    refine Option.eq_none_iff_forall_ne_some.2 fun mark found => ?_
    obtain ⟨first, others, form⟩ := mark.text_eq_cons
    have narrow := mark.narrow_text
    have starts := Symbol.isPrefix_of_first? found
    rw [form] at narrow starts
    exact wide.ne (narrow first List.mem_cons_self) (List.cons_prefix_cons.1 starts).1.symm
  rw [shape, if_neg (fun both => noDash both.1), if_neg noQuote, noNumber,
    if_neg Bool.false_ne_true, wide.isNameStart_eq, if_neg Bool.false_ne_true, noBracket, noMark]

/-- Two dashes always start a comment, closed or not. -/
theorem commentShape_kind (text : List Char) : (commentShape text).1 ≠ .unknown := by
  unfold commentShape
  split
  · split <;> exact nofun
  · exact nofun

/-- A token of no known kind is a single character. -/
theorem shape_unknown : (shape c text).1 = .unknown → (shape c text).2 = 0 := by
  unfold shape
  split
  · exact fun unknown => absurd unknown (commentShape_kind _)
  split
  · intro unknown
    rcases quotedShape_kind c text with kind | kind <;> cases kind.symm.trans unknown
  split
  · exact nofun
  split
  · dsimp only
    unfold wordKind
    split <;> exact nofun
  split
  next level _ =>
    intro unknown
    rcases longStringShape_kind level text with kind | kind <;> cases kind.symm.trans unknown
  split
  · exact nofun
  · exact fun _ => rfl

end

/-! ### Cutting bytes -/

/-- How many bytes a character takes up, told by the high bits of the first of them. -/
def sizeByLead (lead : UInt8) : Nat :=
  if lead &&& 0xF0 = 0xF0 then 4
  else if lead &&& 0xE0 = 0xE0 then 3
  else if lead &&& 0xC0 = 0xC0 then 2
  else 1

/-- The kind of the token that starts with a byte, and how many of the bytes that follow belong to
the token as well. -/
def shapeOfBytes (lead : UInt8) (rest : List UInt8) : Kind × Nat :=
  let cut := shape (Char.ofUInt8 lead) (rest.map Char.ofUInt8)
  (cut.1, if cut.1 = .unknown then sizeByLead lead - 1 else cut.2)

/-- The kinds of the tokens in bytes that start at an offset, and where they lie. A token does not
go on behind the last byte. -/
def spansFrom (offset : Nat) (bytes : List UInt8) : List (Kind × Span) :=
  match bytes with
  | [] => []
  | lead :: rest =>
    if isSpace (Char.ofUInt8 lead) then spansFrom (offset + 1) rest
    else
      let (kind, count) := shapeOfBytes lead rest
      let stop := offset + min (count + 1) (rest.length + 1)
      (kind, ⟨offset, stop⟩) :: spansFrom stop (rest.drop count)
termination_by bytes.length
decreasing_by
  all_goals simp only [List.length_drop, List.length_cons]; omega

section

variable {c : Char} {lead : UInt8} {more : List UInt8}

/-- The first byte of a character tells how many bytes it takes up. -/
theorem sizeByLead_utf8EncodeChar (written : String.utf8EncodeChar c = lead :: more) :
    sizeByLead lead = c.utf8Size := by
  have length := String.length_utf8EncodeChar c
  have one : ∀ low : Fin 128, sizeByLead (UInt8.ofNat low) = 1 := by decide +kernel
  have two : ∀ low : Fin 32, sizeByLead (UInt8.ofNat (low + 192)) = 2 := by decide +kernel
  have three : ∀ low : Fin 16, sizeByLead (UInt8.ofNat (low + 224)) = 3 := by decide +kernel
  have four : ∀ low : Fin 8, sizeByLead (UInt8.ofNat (low + 240)) = 4 := by decide +kernel
  rw [← length, written]
  unfold String.utf8EncodeChar at written
  dsimp only at written
  split at written
  next low =>
    cases written
    exact one ⟨_, Nat.lt_succ_of_le low⟩
  split at written
  · cases written
    exact two ⟨_, Nat.mod_lt _ (by decide)⟩
  split at written
  · cases written
    exact three ⟨_, Nat.mod_lt _ (by decide)⟩
  · cases written
    exact four ⟨_, Nat.mod_lt _ (by decide)⟩

theorem spread_of_written (written : String.utf8EncodeChar c = lead :: more) :
    spread [c] = Char.ofUInt8 lead :: more.map Char.ofUInt8 := by
  have bytes : Utf8.encode [c] = lead :: more := by
    rw [← written, Utf8.encode_cons]
    exact List.append_nil _
  rw [spread, bytes]
  rfl

/-- A character that is not wide is its only byte. -/
theorem eq_of_narrow (narrow : ¬IsWide c) (written : String.utf8EncodeChar c = lead :: more) :
    Char.ofUInt8 lead = c ∧ more = [] := by
  have bytes := spread_of_written written
  rw [spread_narrow narrow] at bytes
  obtain ⟨same, none⟩ := List.cons.inj bytes
  exact ⟨same.symm, List.map_eq_nil_iff.1 none.symm⟩

/-- The first byte of a character tells if it is a space. -/
theorem isSpace_lead (written : String.utf8EncodeChar c = lead :: more) :
    isSpace (Char.ofUInt8 lead) = isSpace c := by
  by_cases wide : IsWide c
  · have leadWide : IsWide (Char.ofUInt8 lead) :=
      wide_spread wide _ (spread_of_written written ▸ List.mem_cons_self)
    rw [leadWide.isSpace_eq, wide.isSpace_eq]
  · rw [(eq_of_narrow wide written).1]

/-- The bytes of a text are cut off like its characters. -/
theorem shapeOfBytes_encode (written : String.utf8EncodeChar c = lead :: more)
    (text : List Char) :
    shapeOfBytes lead (more ++ Utf8.encode text) =
      ((shape c text).1, more.length + byteLength (text.take (shape c text).2)) := by
  have size := sizeByLead_utf8EncodeChar written
  have length := String.length_utf8EncodeChar c
  rw [written, List.length_cons] at length
  by_cases wide : IsWide c
  · have leadWide : IsWide (Char.ofUInt8 lead) :=
      wide_spread wide _ (spread_of_written written ▸ List.mem_cons_self)
    rw [shapeOfBytes, shape_wide leadWide, shape_wide wide]
    dsimp only
    rw [if_pos rfl, size, ← length]
    rfl
  · obtain ⟨same, rfl⟩ := eq_of_narrow wide written
    have shaped : shape c ((Utf8.encode text).map Char.ofUInt8) = inBytes text (shape c text) :=
      shape_spread wide text
    rw [shapeOfBytes, same, List.nil_append, shaped]
    by_cases unknown : (inBytes text (shape c text)).1 = .unknown
    · rw [if_pos unknown, shape_unknown unknown, size, ← length]
      rfl
    · rw [if_neg unknown]
      exact congrArg (Prod.mk _) (Nat.zero_add _).symm

theorem exists_written (c : Char) : ∃ lead more, String.utf8EncodeChar c = lead :: more :=
  List.exists_cons_of_length_pos (String.length_utf8EncodeChar c ▸ Char.utf8Size_pos c)

/-- The bytes of a text are cut at the same places as its characters. -/
theorem spansFrom_encode (offset : Nat) (text : List Char) :
    spansFrom offset (Utf8.encode text) =
      (tokensFrom offset text).map fun token => (token.kind, token.span) := by
  fun_induction tokensFrom offset text with
  | case1 => rw [Utf8.encode, List.flatMap_nil, spansFrom, List.map_nil]
  | case2 offset c rest space inductionHypothesis =>
    obtain ⟨lead, more, written⟩ := exists_written c
    have narrow : ¬IsWide c := by
      intro wide
      cases wide.isSpace_eq.symm.trans space
    obtain ⟨-, rfl⟩ := eq_of_narrow narrow written
    rw [Utf8.encode_cons, written, List.cons_append, spansFrom, isSpace_lead written,
      if_pos space, List.nil_append, ← utf8Size_narrow narrow, inductionHypothesis]
  | case3 offset c rest solid kind count shaped token inductionHypothesis =>
    obtain ⟨lead, more, written⟩ := exists_written c
    have length := String.length_utf8EncodeChar c
    rw [written, List.length_cons] at length
    have cut := shapeOfBytes_encode written rest
    rw [shaped] at cut
    have behind : (more ++ Utf8.encode rest).drop (more.length + byteLength (rest.take count)) =
        Utf8.encode (rest.drop count) := by
      rw [List.drop_length_add_append, Utf8.drop_encode]
    have stop : token.stop = offset + min (more.length + byteLength (rest.take count) + 1)
        ((more ++ Utf8.encode rest).length + 1) := by
      have within := byteLength_take_le count rest
      show offset + (c.utf8Size + byteLength (rest.take count)) = _
      rw [List.length_append, Utf8.length_encode]
      omega
    rw [Utf8.encode_cons, written, List.cons_append, spansFrom, isSpace_lead written, if_neg solid,
      cut]
    dsimp only
    rw [behind, ← stop, inductionHypothesis]
    rfl

end

/-- The tokens of a source and the spaces between them make it up, and they are the tokens that its
bytes are cut into. -/
theorem tiles_bytewise (source : List Char) :
    Tiles source (ofText source) ∧
      spansFrom 0 (Utf8.encode source) =
        (ofText source).map fun token => (token.kind, token.span) :=
  ⟨tiles_ofText source, spansFrom_encode 0 source⟩

end Token

end LuaStyle
