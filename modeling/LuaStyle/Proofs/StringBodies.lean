/-
This file says which texts between quotes have a value, and which of them are cut off as strings.

Where a string ends is decided by the lexer, which takes a backslash and one character behind it
together, or a backslash and the pair of a carriage return and a line feed. What an escape means is
decided later, by a decoder that knows longer ones: a line feed with a carriage return behind it is
one line break to it, and behind `\z` it skips blank characters over any number of lines. The lexer
has ended the string by then. So the text between two quotes is taken as pieces, the value of the
text is the values of the pieces, and the string is whole exactly if none of its pieces is one of
these two.
-/

import LuaStyle.Proofs.QuotedText

namespace LuaStyle.Quoted

/-! ### Pieces -/

/-- The forms of a line break. -/
inductive LineBreak where
  | lineFeed
  | carriageReturn
  | returnFeed
  | feedReturn
deriving DecidableEq, Inhabited, Repr

/-- The text of a line break. -/
def LineBreak.text : LineBreak → List Char
  | lineFeed => ['\n']
  | carriageReturn => ['\r']
  | returnFeed => ['\r', '\n']
  | feedReturn => ['\n', '\r']

/-- A piece of what stands between two quotes. -/
inductive Piece where
  /-- A character that stands for itself. -/
  | plain (c : Char)
  /-- A letter or mark behind a backslash. -/
  | named (mark : Char)
  /-- Decimal digits behind a backslash. -/
  | decimal (first : Char) (others : List Char)
  /-- Two hexadecimal digits behind `\x`. -/
  | hexadecimal (high low : Char)
  /-- A line break behind a backslash. -/
  | lineBreak (form : LineBreak)
  /-- Blank characters behind `\z`. -/
  | skip (blanks : List Char)
deriving DecidableEq, Inhabited, Repr

namespace Piece

/-- How the piece is written. -/
def text : Piece → List Char
  | plain c => [c]
  | named mark => ['\\', mark]
  | decimal first others => '\\' :: first :: others
  | hexadecimal high low => ['\\', 'x', high, low]
  | lineBreak form => '\\' :: form.text
  | skip blanks => '\\' :: 'z' :: blanks

/-- The bytes that the piece stands for. -/
def bytes : Piece → List UInt8
  | plain c => String.utf8EncodeChar c
  | named mark => (Escape.named? mark).toList
  | decimal first others => [UInt8.ofNat (Nat.ofDigitChars 10 (first :: others) 0)]
  | hexadecimal high low =>
    [UInt8.ofNat (16 * (hexDigitValue? high).getD 0 + (hexDigitValue? low).getD 0)]
  | lineBreak _ => [0x0A]
  | skip _ => []

/-- The piece may stand between two of the quotes, with other pieces behind it. A decimal escape of
fewer than three digits may not have a digit behind it, nor `\z` and its blanks another blank. -/
def FitsBefore (quote : Char) (after : List Char) : Piece → Prop
  | plain c => IsPlain quote c
  | named mark => (Escape.named? mark).isSome
  | decimal first others => (∀ digit ∈ first :: others, digit.isDigit) ∧ others.length ≤ 2 ∧
      (others.length = 2 ∨ ∀ c ∈ after.head?, c.isDigit = false) ∧
      Nat.ofDigitChars 10 (first :: others) 0 < 256
  | hexadecimal high low => (hexDigitValue? high).isSome ∧ (hexDigitValue? low).isSome
  | lineBreak _ => True
  | skip blanks => (∀ c ∈ blanks, Escape.isSkipped c) ∧
      ∀ c ∈ after.head?, Escape.isSkipped c = false

/-- The lexer passes over the piece. -/
def isPassed : Piece → Bool
  | lineBreak .feedReturn => false
  | skip blanks => !blanks.any Token.isLineBreak
  | _ => true

end Piece

/-- How pieces are written. -/
def textOf (pieces : List Piece) : List Char :=
  pieces.flatMap Piece.text

/-- The bytes that pieces stand for. -/
def bytesOf (pieces : List Piece) : List UInt8 :=
  pieces.flatMap Piece.bytes

/-- The pieces may stand between two of the quotes, in this order. -/
def Fit (quote : Char) : List Piece → Prop
  | [] => True
  | piece :: rest => piece.FitsBefore quote (textOf rest) ∧ Fit quote rest

/-! ### What the decoder makes of a piece -/

section

variable {quote : Char} {text : List Char}

theorem read_hexadecimal {high low : Char} (isHigh : (hexDigitValue? high).isSome)
    (isLow : (hexDigitValue? low).isSome) :
    Escape.read 'x' ([high, low] ++ text) = .ok ((Piece.hexadecimal high low).bytes, 2) := by
  obtain ⟨first, isFirst⟩ := Option.isSome_iff_exists.1 isHigh
  obtain ⟨second, isSecond⟩ := Option.isSome_iff_exists.1 isLow
  have digits : (([high, low] ++ text).take 2).mapM hexDigitValue? = some [first, second] := by
    simp [isFirst, isSecond]
  have noName : Escape.named? 'x' = none := rfl
  have noLineBreak : ¬('x' = '\n' ∨ 'x' = '\r') := by decide
  rw [Piece.bytes, isFirst, isSecond, Escape.read, noName]
  dsimp only
  rw [if_neg noLineBreak, if_pos rfl, digits]
  rfl

theorem read_lineBreak (form : LineBreak) (inLine : ∀ c ∈ text.head?, Token.isLineBreak c = false) :
    ∃ c more, form.text = c :: more ∧ Escape.read c (more ++ text) = .ok ([0x0A], more.length) := by
  cases form with
  | returnFeed | feedReturn => exact ⟨_, _, rfl, rfl⟩
  | lineFeed | carriageReturn =>
    refine ⟨_, _, rfl, ?_⟩
    cases text with
    | nil => rfl
    | cons c text =>
      have next := inLine c rfl
      rw [Token.isLineBreak, Bool.or_eq_false_iff, beq_eq_false_iff_ne, beq_eq_false_iff_ne] at next
      simp [Escape.read, Escape.named?, Escape.lineBreakGoesOn, next]

theorem read_skip {blanks : List Char} (skipped : ∀ c ∈ blanks, Escape.isSkipped c)
    (ends : ∀ c ∈ text.head?, Escape.isSkipped c = false) :
    Escape.read 'z' (blanks ++ text) = .ok ([], blanks.length) := by
  have taken := takeWhile_append_eq skipped ends
  show Except.ok ([], ((blanks ++ text).takeWhile Escape.isSkipped).length) = _
  rw [taken]

/-- A piece is decoded to the bytes it stands for. -/
theorem Piece.decode_append {piece : Piece} (fits : piece.FitsBefore quote text)
    (inLine : ∀ c ∈ text.head?, Token.isLineBreak c = false) (offset : Nat) :
    Escape.decodeFrom offset (piece.text ++ text) =
      (Escape.decodeFrom (offset + byteLength piece.text) text).map (piece.bytes ++ ·) := by
  cases piece with
  | plain c => exact (chunk_plain fits).decode_append offset text
  | named mark =>
    obtain ⟨byte, named⟩ := Option.isSome_iff_exists.1 fits
    rw [bytes, named]
    have chunked : Chunk quote ['\\', mark] [byte] := chunk_named named
    exact chunked.decode_append offset text
  | decimal first others =>
    obtain ⟨digits, short, ends, small⟩ := fits
    exact decodeFrom_escape (read_decimal digits short ends small) offset
  | hexadecimal high low => exact decodeFrom_escape (read_hexadecimal fits.1 fits.2) offset
  | lineBreak form =>
    obtain ⟨c, more, same, read⟩ := read_lineBreak form inLine
    rw [Piece.text, same]
    exact decodeFrom_escape read offset
  | skip blanks => exact decodeFrom_escape (read_skip fits.1 fits.2) offset

/-! ### What the lexer makes of a piece -/

theorem isPlain_of_hexDigit (isQuote : quote = '\x22' ∨ quote = '\x27') {c : Char}
    (digit : (hexDigitValue? c).isSome) : IsPlain quote c :=
  .of_class (fun c => (hexDigitValue? c).isSome) isQuote rfl digit

theorem isPlain_of_isSkipped (isQuote : quote = '\x22' ∨ quote = '\x27') {c : Char}
    (skipped : Escape.isSkipped c) (noLineBreak : Token.isLineBreak c = false) :
    IsPlain quote c := by
  refine .of_class (fun c => Escape.isSkipped c && !Token.isLineBreak c) isQuote rfl ?_
  rw [skipped, noLineBreak]
  rfl

/-- The lexer passes over a piece that it passes over, whatever follows in the line. -/
theorem Piece.shape_append (isQuote : quote = '\x22' ∨ quote = '\x27') {piece : Piece}
    {after : List Char} (fits : piece.FitsBefore quote after) (passed : piece.isPassed)
    (inLine : ∀ c ∈ text.head?, Token.isLineBreak c = false) :
    Token.quotedShape quote (piece.text ++ text) =
      ((Token.quotedShape quote text).1,
        (Token.quotedShape quote text).2 + piece.text.length) := by
  cases piece with
  | plain c => exact shape_plain fits text
  | named mark =>
    obtain ⟨byte, named⟩ := Option.isSome_iff_exists.1 fits
    exact (chunk_named named).shape_append text
  | decimal first others =>
    obtain ⟨firstDigit, otherDigits⟩ := List.forall_mem_cons.1 fits.1
    have noReturn : first ≠ '\r' := by
      rintro rfl
      cases firstDigit
    exact shape_escape noReturn
      (fun digit member => isPlain_of_isDigit isQuote (otherDigits digit member)) text
  | hexadecimal high low =>
    obtain ⟨isHigh, isLow⟩ := fits
    exact shape_escape (by decide) (List.forall_mem_cons.2 ⟨isPlain_of_hexDigit isQuote isHigh,
      List.forall_mem_singleton.2 (isPlain_of_hexDigit isQuote isLow)⟩) text
  | lineBreak form =>
    cases form with
    | lineFeed => exact shape_escape (by decide) (List.forall_mem_nil _) text
    | returnFeed =>
      show Token.quotedShape quote ('\\' :: '\r' :: '\n' :: text) = _
      rw [Token.quotedShape]
      rfl
    | carriageReturn =>
      show Token.quotedShape quote ('\\' :: '\r' :: text) = _
      rw [Token.quotedShape]
      · rfl
      · rintro rest - rfl
        cases inLine '\n' rfl
    | feedReturn => cases passed
  | skip blanks =>
    have noLineBreak : ∀ c ∈ blanks, Token.isLineBreak c = false := by
      rw [isPassed, Bool.not_eq_true', List.any_eq_false] at passed
      exact fun c member => Bool.eq_false_iff.2 (passed c member)
    exact shape_escape (by decide) (fun c member =>
      isPlain_of_isSkipped isQuote (fits.1 c member) (noLineBreak c member)) text

/-- A string ends too soon at the first line break without a backslash. -/
theorem shape_lineBreak {run : List Char} (blank : ∀ c ∈ run, Escape.isSkipped c)
    (isQuote : quote = '\x22' ∨ quote = '\x27') (breaks : run.any Token.isLineBreak) :
    (Token.quotedShape quote (run ++ text)).1 = .unterminatedString := by
  induction run with
  | nil => cases breaks
  | cons c run inductionHypothesis =>
    obtain ⟨first, others⟩ := List.forall_mem_cons.1 blank
    rw [List.cons_append]
    cases ends : Token.isLineBreak c with
    | true =>
      rw [Token.isLineBreak, Bool.or_eq_true, beq_iff_eq, beq_iff_eq] at ends
      rcases ends with rfl | rfl <;> rfl
    | false =>
      rw [List.any_cons, ends, Bool.false_or] at breaks
      rw [shape_plain (isPlain_of_isSkipped isQuote first ends)]
      exact inductionHypothesis others breaks

/-- Within a piece that the lexer does not pass over, the string ends too soon. -/
theorem Piece.shape_of_not_passed (isQuote : quote = '\x22' ∨ quote = '\x27') {piece : Piece}
    {after : List Char} (fits : piece.FitsBefore quote after) (stuck : piece.isPassed = false) :
    (Token.quotedShape quote (piece.text ++ text)).1 = .unterminatedString := by
  cases piece with
  | lineBreak form =>
    cases form with
    | feedReturn => rfl
    | _ => cases stuck
  | skip blanks =>
    rw [isPassed, Bool.not_eq_false'] at stuck
    have noReturn : 'z' ≠ '\r' := by decide
    have past := shape_escape noReturn (List.forall_mem_nil (IsPlain quote)) (blanks ++ text)
    exact (congrArg Prod.fst past).trans (shape_lineBreak fits.1 isQuote stuck)
  | _ => cases stuck

/-! ### Whole bodies -/

variable {pieces : List Piece}

/-- Pieces do not start with a line break. -/
theorem Fit.inLine (fit : Fit quote pieces) :
    ∀ c ∈ (textOf pieces).head?, Token.isLineBreak c = false := by
  cases pieces with
  | nil => exact nofun
  | cons piece rest =>
    cases piece with
    | plain c =>
      rintro _ ⟨⟩
      exact fit.1.noLineBreak
    | _ =>
      rintro _ ⟨⟩
      rfl

theorem Fit.inLine_closed (isQuote : quote = '\x22' ∨ quote = '\x27') (fit : Fit quote pieces)
    (rest : List Char) :
    ∀ c ∈ (textOf pieces ++ quote :: rest).head?, Token.isLineBreak c = false := by
  have inLine := fit.inLine
  cases same : textOf pieces with
  | nil =>
    rintro _ ⟨⟩
    rcases isQuote with rfl | rfl <;> rfl
  | cons c more =>
    rw [same] at inLine
    exact inLine

/-- Pieces are decoded to the bytes they stand for. -/
theorem decode_textOf (fit : Fit quote pieces) :
    Escape.decode (textOf pieces) = .ok (bytesOf pieces) := by
  have decoded (offset : Nat) :
      Escape.decodeFrom offset (textOf pieces) = .ok (bytesOf pieces) := by
    induction pieces generalizing offset with
    | nil =>
      show Escape.decodeFrom offset [] = _
      rw [Escape.decodeFrom]
      rfl
    | cons piece rest inductionHypothesis =>
      obtain ⟨fits, fit⟩ := fit
      show Escape.decodeFrom offset (piece.text ++ textOf rest) = _
      rw [piece.decode_append fits fit.inLine, inductionHypothesis fit]
      rfl
  rw [Escape.decode, decoded]
  rfl

/-- What a quote makes of pieces and a closing quote behind them: one string, if the lexer passes
over every piece, and otherwise a string that ends too soon. -/
theorem shape_textOf (isQuote : quote = '\x22' ∨ quote = '\x27') (fit : Fit quote pieces)
    (rest : List Char) :
    if pieces.all Piece.isPassed then
      Token.quotedShape quote (textOf pieces ++ quote :: rest) =
        (.quotedString, (textOf pieces).length + 1)
    else (Token.quotedShape quote (textOf pieces ++ quote :: rest)).1 = .unterminatedString := by
  induction pieces with
  | nil => rcases isQuote with rfl | rfl <;> rfl
  | cons piece pieces inductionHypothesis =>
    obtain ⟨fits, fit⟩ := fit
    have text : textOf (piece :: pieces) ++ quote :: rest =
        piece.text ++ (textOf pieces ++ quote :: rest) := List.append_assoc ..
    have further := inductionHypothesis fit
    rw [text, List.all_cons]
    cases passed : piece.isPassed with
    | false =>
      exact Piece.shape_of_not_passed isQuote fits passed
    | true =>
      rw [Bool.true_and, Piece.shape_append isQuote fits passed (fit.inLine_closed isQuote rest)]
      split
      next all =>
        rw [if_pos all] at further
        have length : (textOf (piece :: pieces)).length =
            piece.text.length + (textOf pieces).length := List.length_append
        rw [further, length, Nat.add_right_comm, Nat.add_comm piece.text.length]
      next notAll =>
        rw [if_neg notAll] at further
        exact further

/-- Where pieces between two quotes stand at the start of a token, they have a value, and the token
is the string of that value exactly if the lexer passes over every piece. If not, the token is a
string that ends too soon. -/
theorem token_of_pieces (isQuote : quote = '\x22' ∨ quote = '\x27') (fit : Fit quote pieces)
    {before rest : List Char} {token : Token}
    (member : token ∈ Token.ofText (before ++ quote :: (textOf pieces ++ quote :: rest)))
    (start : token.start = byteLength before) :
    Escape.decode (textOf pieces) = .ok (bytesOf pieces) ∧
    if pieces.all Piece.isPassed then
      token.text = quote :: (textOf pieces ++ [quote]) ∧
        Grammar.stringLiteral token = .ok ⟨.string (bytesOf pieces), token.text, token.span⟩
    else token.kind = .unterminatedString := by
  have cut := Token.eq_of_start member start
  have shaped := shape_textOf isQuote fit rest
  have decoded := decode_textOf fit
  rw [Token.shape_quote isQuote] at cut
  refine ⟨decoded, ?_⟩
  split
  next all =>
    rw [if_pos all] at shaped
    have width : (textOf pieces).length + 1 = (textOf pieces ++ [quote]).length := by
      rw [List.length_append, List.length_singleton]
    have body : textOf pieces ++ quote :: rest = textOf pieces ++ [quote] ++ rest :=
      List.append_cons ..
    rw [shaped, width, body, List.take_left] at cut
    subst cut
    refine ⟨rfl, ?_⟩
    rw [Grammar.stringLiteral, if_neg (by rintro ⟨⟩), List.drop_succ_cons, List.drop_zero,
      List.dropLast_concat, decoded]
  next notAll =>
    rw [if_neg notAll] at shaped
    rw [cut]
    exact shaped

example : (Escape.decode "a\\z\n b".toList).toOption = some [0x61, 0x62] ∧
    Token.shape '\x27' "a\\z\n b'".toList = (.unterminatedString, 3) := by decide +kernel

example : (Escape.decode "a\\\n\rb".toList).toOption = some [0x61, 0x0A, 0x62] ∧
    Token.shape '\x27' "a\\\n\rb'".toList = (.unterminatedString, 3) := by decide +kernel

end

end LuaStyle.Quoted
