/-
This file proves that a quoted string is read as the bytes it was written from.

The text between the quotes is made of chunks: a character that stands for itself, a letter behind a
backslash, or three digits behind one. Each chunk is passed over by the lexer in one piece, and it
is decoded to its own bytes without a look at what follows. So both hold of the text as a whole, and
since no chunk holds the quote by itself or a line break, the string ends at its closing quote.
-/

import LuaStyle.Literal.Escape
import LuaStyle.Literal.Quoted
import LuaStyle.Proofs.Cutting
import LuaStyle.Proofs.Tiling

namespace LuaStyle

namespace Quoted

/-- A piece of a quoted string that stands for the bytes. -/
structure Chunk (quote : Char) (chunk : List Char) (bytes : List UInt8) : Prop where
  /-- The lexer passes over it. -/
  shape_append (text : List Char) : Token.quotedShape quote (chunk ++ text) =
    ((Token.quotedShape quote text).1, (Token.quotedShape quote text).2 + chunk.length)
  /-- It is decoded to the bytes. -/
  decode_append (offset : Nat) (text : List Char) : Escape.decodeFrom offset (chunk ++ text) =
    (Escape.decodeFrom (offset + byteLength chunk) text).map (bytes ++ ·)
  /-- It stays within a line. -/
  noLineBreak : ∀ c ∈ chunk, Token.isLineBreak c = false

variable {quote : Char}

theorem Chunk.nil : Chunk quote [] [] where
  shape_append _ := rfl
  decode_append offset text := by
    show Escape.decodeFrom offset text = (Escape.decodeFrom offset text).map id
    cases Escape.decodeFrom offset text <;> rfl
  noLineBreak := nofun

theorem Chunk.append {first second : List Char} {bytes more : List UInt8}
    (chunk : Chunk quote first bytes) (further : Chunk quote second more) :
    Chunk quote (first ++ second) (bytes ++ more) where
  shape_append text := by
    rw [List.append_assoc, chunk.shape_append, further.shape_append, List.length_append]
    dsimp only
    rw [Nat.add_assoc, Nat.add_comm second.length]
  decode_append offset text := by
    rw [List.append_assoc, chunk.decode_append, further.decode_append, byteLength_append,
      Nat.add_assoc]
    cases Escape.decodeFrom (offset + (byteLength first + byteLength second)) text with
    | error => rfl
    | ok rest => exact congrArg Except.ok (List.append_assoc ..).symm
  noLineBreak := List.forall_mem_append.2 ⟨chunk.noLineBreak, further.noLineBreak⟩

/-! ### Plain characters and escapes -/

/-- The character may stand between the quotes as it is. -/
structure IsPlain (quote c : Char) : Prop where
  noBackslash : c ≠ '\\'
  noQuote : c ≠ quote
  noLineBreak : Token.isLineBreak c = false

section

variable {c : Char} {run : List Char}

theorem shape_plain (plain : IsPlain quote c) (text : List Char) :
    Token.quotedShape quote (c :: text) =
      ((Token.quotedShape quote text).1, (Token.quotedShape quote text).2 + 1) := by
  rw [Token.quotedShape]
  · rw [plain.noLineBreak, if_neg Bool.false_ne_true, if_neg plain.noQuote]
    rfl
  · exact fun _ same => absurd same plain.noBackslash
  · exact fun _ _ same => absurd same plain.noBackslash
  · exact fun same => absurd same plain.noBackslash

/-- The lexer passes over plain characters one by one. -/
theorem shape_run (plain : ∀ c ∈ run, IsPlain quote c) (text : List Char) :
    Token.quotedShape quote (run ++ text) =
      ((Token.quotedShape quote text).1, (Token.quotedShape quote text).2 + run.length) := by
  induction run with
  | nil => rfl
  | cons c run inductionHypothesis =>
    obtain ⟨first, others⟩ := List.forall_mem_cons.1 plain
    rw [List.cons_append, shape_plain first, inductionHypothesis others]
    rfl

/-- The lexer passes over a backslash, the character behind it, and the plain characters that go on
the escape. -/
theorem shape_escape (noReturn : c ≠ '\r') (plain : ∀ d ∈ run, IsPlain quote d)
    (text : List Char) :
    Token.quotedShape quote ('\\' :: c :: run ++ text) =
      ((Token.quotedShape quote text).1,
        (Token.quotedShape quote text).2 + ('\\' :: c :: run).length) := by
  rw [List.cons_append, List.cons_append, Token.quotedShape]
  · rw [shape_run plain]
    rfl
  · exact fun _ same => absurd same noReturn

/-- An escape is decoded to the bytes that it is read as. -/
theorem decodeFrom_escape {text : List Char} {bytes : List UInt8}
    (read : Escape.read c (run ++ text) = .ok (bytes, run.length)) (offset : Nat) :
    Escape.decodeFrom offset ('\\' :: c :: run ++ text) =
      (Escape.decodeFrom (offset + byteLength ('\\' :: c :: run)) text).map (bytes ++ ·) := by
  have place : offset + 1 + c.utf8Size + byteLength run =
      offset + byteLength ('\\' :: c :: run) := by
    rw [Nat.add_assoc, Nat.add_assoc]
    rfl
  rw [List.cons_append, List.cons_append, Escape.decodeFrom, read]
  dsimp only
  rw [List.take_left, List.drop_left, place]

/-- A letter or mark behind a backslash. -/
theorem chunk_named {byte : UInt8} (named : Escape.named? c = some byte) :
    Chunk quote ['\\', c] [byte] where
  shape_append text := by
    have noReturn : c ≠ '\r' := by
      rintro rfl
      cases named
    exact shape_escape noReturn (List.forall_mem_nil _) text
  decode_append offset text := by
    have read : Escape.read c ([] ++ text) = .ok ([byte], 0) := by
      rw [Escape.read, named]
    exact decodeFrom_escape read offset
  noLineBreak := by
    refine List.forall_mem_cons.2 ⟨rfl, List.forall_mem_singleton.2 ?_⟩
    rw [Token.isLineBreak, Bool.or_eq_false_iff, beq_eq_false_iff_ne, beq_eq_false_iff_ne]
    constructor <;> rintro rfl <;> cases named

/-- Characters other than backslashes are decoded to what they are encoded as. -/
theorem decodeFrom_plain (noBackslash : c ≠ '\\') (offset : Nat) (text : List Char) :
    Escape.decodeFrom offset (c :: text) =
      (Escape.decodeFrom (offset + c.utf8Size) text).map (String.utf8EncodeChar c ++ ·) := by
  rw [Escape.decodeFrom]
  · exact fun same => absurd same noBackslash
  · exact fun _ _ same => absurd same noBackslash

/-- A character that stands for itself. -/
theorem chunk_plain (plain : IsPlain quote c) : Chunk quote [c] (String.utf8EncodeChar c) where
  shape_append := shape_plain plain
  decode_append offset text := decodeFrom_plain plain.noBackslash offset text
  noLineBreak := List.forall_mem_singleton.2 plain.noLineBreak

end

/-! ### Decimal escapes -/

/-- Three digits are those of the number they are written for. -/
theorem decimal_digits (number : Fin 256) :
    let digits := [Nat.digitChar (number / 100), Nat.digitChar (number / 10 % 10),
      Nat.digitChar (number % 10)]
    Nat.ofDigitChars 10 digits 0 = number ∧ digits.all Char.isDigit := by
  revert number
  decide +kernel

/-- A digit behind a backslash is read together with up to two more. -/
theorem read_digit {first : Char} (digit : first.isDigit) (text : List Char) :
    Escape.read first text =
      if Nat.ofDigitChars 10 (first :: (text.take 2).takeWhile Char.isDigit) 0 < 256 then
        .ok ([UInt8.ofNat (Nat.ofDigitChars 10 (first :: (text.take 2).takeWhile Char.isDigit) 0)],
          ((text.take 2).takeWhile Char.isDigit).length)
      else .error ((first :: (text.take 2).takeWhile Char.isDigit).length + 1) := by
  have noName : Escape.named? first = none := by
    unfold Escape.named?
    split <;> first | rfl | cases digit
  have noLineBreak : ¬(first = '\n' ∨ first = '\r') := by
    rintro (rfl | rfl) <;> cases digit
  have noHexadecimal : first ≠ 'x' := by
    rintro rfl
    cases digit
  have noSkip : first ≠ 'z' := by
    rintro rfl
    cases digit
  rw [Escape.read, noName]
  dsimp only
  rw [if_neg noLineBreak, if_neg noHexadecimal, if_neg noSkip, if_pos digit]
  rfl

/-- An escape of up to three digits stands for the byte of their number. With fewer than three, no
digit may follow. -/
theorem read_decimal {first : Char} {others text : List Char}
    (digits : ∀ digit ∈ first :: others, digit.isDigit) (short : others.length ≤ 2)
    (ends : others.length = 2 ∨ ∀ c ∈ text.head?, c.isDigit = false)
    (small : Nat.ofDigitChars 10 (first :: others) 0 < 256) :
    Escape.read first (others ++ text) =
      .ok ([UInt8.ofNat (Nat.ofDigitChars 10 (first :: others) 0)], others.length) := by
  obtain ⟨firstDigit, otherDigits⟩ := List.forall_mem_cons.1 digits
  have taken : ((others ++ text).take 2).takeWhile Char.isDigit = others := by
    rw [List.take_append, List.take_of_length_le short]
    refine takeWhile_append_eq otherDigits fun c next => ?_
    rcases ends with full | ends
    · rw [full] at next
      cases next
    · cases text with
      | nil => simp at next
      | cons d text =>
        refine ends c ?_
        cases room : 2 - others.length with
        | zero =>
          rw [room] at next
          cases next
        | succ room' =>
          rw [room] at next
          exact next
  rw [read_digit firstDigit, taken, if_pos small]

/-- A class of characters without the backslash, the quotes and the line breaks is plain. -/
theorem IsPlain.of_class (inClass : Char → Bool) {c : Char}
    (isQuote : quote = '\x22' ∨ quote = '\x27')
    (free : ['\\', '\x22', '\x27', '\n', '\r'].all fun mark => !inClass mark)
    (member : inClass c) : IsPlain quote c := by
  have other : ∀ mark ∈ ['\\', '\x22', '\x27', '\n', '\r'], c ≠ mark := by
    rintro mark listed rfl
    have outside := List.all_eq_true.1 free c listed
    rw [member] at outside
    cases outside
  refine ⟨other _ (by simp), ?_, ?_⟩
  · rcases isQuote with rfl | rfl <;> exact other _ (by simp)
  · rw [Token.isLineBreak, Bool.or_eq_false_iff, beq_eq_false_iff_ne, beq_eq_false_iff_ne]
    exact ⟨other _ (by simp), other _ (by simp)⟩

theorem isPlain_of_isDigit (isQuote : quote = '\x22' ∨ quote = '\x27') {c : Char}
    (digit : c.isDigit) : IsPlain quote c :=
  .of_class Char.isDigit isQuote rfl digit

theorem chunk_digits (isQuote : quote = '\x22' ∨ quote = '\x27') {first second third : Char}
    (digits : ∀ digit ∈ [first, second, third], digit.isDigit)
    (small : Nat.ofDigitChars 10 [first, second, third] 0 < 256) :
    Chunk quote ['\\', first, second, third]
      [UInt8.ofNat (Nat.ofDigitChars 10 [first, second, third] 0)] := by
  have plain : ∀ digit ∈ [first, second, third], IsPlain quote digit :=
    fun digit member => isPlain_of_isDigit isQuote (digits digit member)
  obtain ⟨firstPlain, othersPlain⟩ := List.forall_mem_cons.1 plain
  refine ⟨fun text => ?_, fun offset text => ?_, ?_⟩
  · have noReturn : first ≠ '\r' := by
      rintro rfl
      cases firstPlain.noLineBreak
    exact shape_escape noReturn othersPlain text
  · exact decodeFrom_escape (read_decimal digits (Nat.le_refl 2) (.inl rfl) small) offset
  · exact List.forall_mem_cons.2 ⟨rfl, fun digit member => (plain digit member).noLineBreak⟩

/-- A byte as three digits. -/
theorem chunk_decimalEscape (isQuote : quote = '\x22' ∨ quote = '\x27') (byte : UInt8) :
    Chunk quote (decimalEscape byte) [byte] := by
  obtain ⟨number, digits⟩ := decimal_digits ⟨byte.toNat, byte.toNat_lt⟩
  have small : Nat.ofDigitChars 10 [Nat.digitChar (byte.toNat / 100),
      Nat.digitChar (byte.toNat / 10 % 10), Nat.digitChar (byte.toNat % 10)] 0 < 256 := by
    rw [number]
    exact byte.toNat_lt
  have chunk := chunk_digits isQuote (List.all_eq_true.1 digits) small
  rw [number, UInt8.ofNat_toNat] at chunk
  exact chunk

/-- A character between two quotes. -/
theorem chunk_escapeChar (isQuote : quote = '\x22' ∨ quote = '\x27') (c : Char) :
    Chunk quote (escapeChar quote c) (String.utf8EncodeChar c) := by
  unfold escapeChar
  split
  case h_9 noBackslash _ _ _ noLineFeed noReturn _ _ =>
    split
    next same =>
      subst same
      rcases isQuote with rfl | rfl <;> exact chunk_named rfl
    next noQuote =>
      split
      next control =>
        have small : c.val ≤ 0x7F := by
          rw [UInt32.le_iff_toNat_le]
          exact control.elim (fun low => Nat.le_trans (Nat.le_of_lt low) (by decide)) Nat.le_of_eq
        have single : String.utf8EncodeChar c = [c.toUInt8] := by
          rw [String.utf8EncodeChar]
          exact if_pos small
        rw [single]
        exact chunk_decimalEscape isQuote _
      · refine chunk_plain ⟨noBackslash, noQuote, ?_⟩
        rw [Token.isLineBreak, Bool.or_eq_false_iff, beq_eq_false_iff_ne, beq_eq_false_iff_ne]
        exact ⟨noLineFeed, noReturn⟩
  all_goals exact chunk_named rfl

/-- Where bytes start with a written character, its bytes come apart from the others. -/
theorem eq_append_of_first? {byte : UInt8} {rest : List UInt8} {c : Char}
    (found : Utf8.first? (byte :: rest) = some c) :
    byte :: rest = String.utf8EncodeChar c ++ rest.drop (c.utf8Size - 1) := by
  unfold Utf8.first? at found
  dsimp only at found
  split at found
  next written =>
    rw [Option.some.inj found] at written
    obtain ⟨more, same⟩ := written
    have length := String.length_utf8EncodeChar c
    have positive := Char.utf8Size_pos c
    have dropped : (byte :: rest).drop c.utf8Size = more := by
      rw [← same, ← length, List.drop_left]
    rw [← Nat.sub_add_cancel positive, List.drop_succ_cons] at dropped
    rw [dropped, same]
  · cases found

/-- The text between the quotes. -/
theorem chunk_escapeBytes (isQuote : quote = '\x22' ∨ quote = '\x27') (bytes : List UInt8) :
    Chunk quote (escapeBytes quote bytes) bytes := by
  fun_induction escapeBytes quote bytes with
  | case1 => exact .nil
  | case2 byte rest c found inductionHypothesis =>
    rw [eq_append_of_first? found]
    exact (chunk_escapeChar isQuote c).append inductionHypothesis
  | case3 byte rest none inductionHypothesis =>
    exact (chunk_decimalEscape isQuote byte).append inductionHypothesis

end Quoted

/-! ### Whole strings -/

theorem QuoteStyle.quoteFor_eq (style : QuoteStyle) (bytes : List UInt8) :
    style.quoteFor bytes = '\x22' ∨ style.quoteFor bytes = '\x27' := by
  unfold QuoteStyle.quoteFor
  cases style <;> dsimp only [QuoteStyle.quotes] <;> split <;> simp

/-- A text that begins with a quote is cut as a quoted string. -/
theorem Token.shape_quote {quote : Char} (isQuote : quote = '\x22' ∨ quote = '\x27')
    (rest : List Char) : Token.shape quote rest = Token.quotedShape quote rest := by
  have noDash : quote ≠ '-' := by
    rintro rfl
    rcases isQuote with same | same <;> cases same
  rw [Token.shape, if_neg (fun both => noDash both.1), if_pos isQuote]

namespace Quoted

variable {quote : Char} {chunk : List Char} {bytes : List UInt8}

/-- A string ends at its closing quote, whatever follows. -/
theorem Chunk.shape_closed (chunked : Chunk quote chunk bytes)
    (isQuote : quote = '\x22' ∨ quote = '\x27') (rest : List Char) :
    Token.shape quote (chunk ++ [quote] ++ rest) = (.quotedString, (chunk ++ [quote]).length) := by
  have closes : Token.quotedShape quote ([quote] ++ rest) = (.quotedString, 1) := by
    rcases isQuote with rfl | rfl <;> rfl
  rw [Token.shape_quote isQuote, List.append_assoc, chunked.shape_append, closes,
    List.length_append, Nat.add_comm]
  rfl

/-- The text between two quotes is decoded to its bytes. -/
theorem Chunk.decode_eq (chunked : Chunk quote chunk bytes) :
    Escape.decode chunk = .ok bytes := by
  have decoded := chunked.decode_append 0 []
  rw [List.append_nil] at decoded
  rw [Escape.decode, decoded, Escape.decodeFrom]
  show Except.ok (bytes ++ []) = _
  rw [List.append_nil]

/-- A string is written on one line. -/
theorem noLineBreak_encode (bytes : List UInt8) (style : QuoteStyle) :
    ∀ c ∈ encode bytes style, Token.isLineBreak c = false := by
  have isQuote := style.quoteFor_eq bytes
  have inside := (chunk_escapeBytes isQuote bytes).noLineBreak
  unfold encode
  dsimp only
  generalize style.quoteFor bytes = quote at isQuote inside
  have quoteInLine : Token.isLineBreak quote = false := by
    rcases isQuote with rfl | rfl <;> rfl
  exact List.forall_mem_append.2
    ⟨List.forall_mem_cons.2 ⟨quoteInLine, inside⟩, List.forall_mem_singleton.2 quoteInLine⟩

theorem noLineFeed_encode (bytes : List UInt8) (style : QuoteStyle) :
    '\n' ∉ encode bytes style :=
  fun member => nomatch noLineBreak_encode bytes style '\n' member

/-- A string starts with its quote, and from there on it is cut off as one token. -/
theorem exists_shape_encode (bytes : List UInt8) (style : QuoteStyle) (rest : List Char) :
    ∃ quote more, encode bytes style = quote :: more ∧ Token.isSpace quote = false ∧
      Token.shape quote (more ++ rest) = (.quotedString, more.length) := by
  have isQuote := style.quoteFor_eq bytes
  have solid : Token.isSpace (style.quoteFor bytes) = false := by
    rcases isQuote with same | same <;> rw [same] <;> rfl
  exact ⟨_, _, rfl, solid, (chunk_escapeBytes isQuote bytes).shape_closed isQuote rest⟩

/-- What is written between the quotes of a string is decoded to its bytes. -/
theorem decode_encode (bytes : List UInt8) (style : QuoteStyle) :
    Escape.decode ((encode bytes style).drop 1).dropLast = .ok bytes := by
  have chunked := chunk_escapeBytes (style.quoteFor_eq bytes) bytes
  unfold encode
  dsimp only
  rw [List.cons_append, List.drop_succ_cons, List.drop_zero, List.dropLast_concat]
  exact chunked.decode_eq

end Quoted

/-- A string is cut off as one token, and read as the bytes it was written from. -/
theorem Token.cuts_quoted (bytes : List UInt8) (style : QuoteStyle) (rest : List Char) :
    Token.Cuts (Quoted.encode bytes style) rest fun tokens => ∃ token, tokens = [token] ∧
      token.kind = .quotedString ∧ Escape.decode (token.text.drop 1).dropLast = .ok bytes := by
  obtain ⟨quote, more, same, solid, shaped⟩ := Quoted.exists_shape_encode bytes style rest
  have decoded := Quoted.decode_encode bytes style
  rw [same] at decoded ⊢
  refine (Token.Cuts.of_shape solid shaped).mono ?_
  rintro _ ⟨token, rfl, kind, text⟩
  exact ⟨token, rfl, kind, text ▸ decoded⟩

namespace Quoted

/-- A string is written on one line, and wherever its text stands at the start of a token, whatever
follows it, the token is a string with just that text, which is read as the bytes it was written
from. -/
theorem encode_reads_back (bytes : List UInt8) (style : QuoteStyle) :
    (∀ c ∈ encode bytes style, c ≠ '\n' ∧ c ≠ '\r') ∧
    ∀ (before rest : List Char) (token : Token),
      token ∈ Token.ofText (before ++ encode bytes style ++ rest) →
      token.start = byteLength before →
        token.kind = .quotedString ∧ token.text = encode bytes style ∧
        Grammar.stringLiteral token =
          .ok ⟨.string bytes, encode bytes style, token.span⟩ := by
  refine ⟨fun c member => ?_, fun before rest token member start => ?_⟩
  · have inLine := noLineBreak_encode bytes style c member
    rwa [Token.isLineBreak, Bool.or_eq_false_iff, beq_eq_false_iff_ne, beq_eq_false_iff_ne]
      at inLine
  · obtain ⟨quote, more, same, -, shaped⟩ := exists_shape_encode bytes style rest
    have decoded := decode_encode bytes style
    rw [same] at member decoded ⊢
    rw [List.append_assoc, List.cons_append] at member
    have cut := Token.eq_of_start member start
    rw [shaped, List.take_left] at cut
    subst cut
    refine ⟨rfl, rfl, ?_⟩
    have notLong : Token.Kind.quotedString ≠ .longString := by decide
    rw [Grammar.stringLiteral, if_neg notLong, decoded]

theorem encode_reads_back_of_mixed_bytes :
    ∃ token ∈ Token.ofText ("x = ".toList ++
        encode [0x22, 0x0A, 0x07, 0xC3, 0xA9, 0xFF, 0x31, 0x5C] .double ++ "1".toList),
      token.start = byteLength "x = ".toList ∧ token.kind = .quotedString ∧
        Grammar.stringLiteral token =
          .ok ⟨.string [0x22, 0x0A, 0x07, 0xC3, 0xA9, 0xFF, 0x31, 0x5C],
            encode [0x22, 0x0A, 0x07, 0xC3, 0xA9, 0xFF, 0x31, 0x5C] .double, token.span⟩ := by
  obtain ⟨token, member, start⟩ : ∃ token ∈ Token.ofText ("x = ".toList ++
      encode [0x22, 0x0A, 0x07, 0xC3, 0xA9, 0xFF, 0x31, 0x5C] .double ++ "1".toList),
      token.start = byteLength "x = ".toList := by decide +kernel
  obtain ⟨kind, -, literal⟩ := (encode_reads_back _ _).2 _ _ token member start
  exact ⟨token, member, start, kind, literal⟩

end Quoted

end LuaStyle
