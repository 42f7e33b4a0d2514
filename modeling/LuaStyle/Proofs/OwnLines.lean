/-
This file writes lexemes down, each on a line of its own, and proves that the lexer cuts them off
again.

A lexeme is a kind of token and a text. What stands on the line below it does not matter: a line
break goes on no word, symbol or number, it ends a comment that has no brackets, and whatever is
closed is closed by its own last characters. Only malformed text that waits for a quote or a bracket
would go on. So any lexemes of a source but these, put together in any order, are the lexemes of
some source, and those of a source are again cut off when everything that stood between them is
replaced by line breaks.
-/

import LuaStyle.Proofs.Bytewise
import LuaStyle.Proofs.Foresight
import LuaStyle.Proofs.StringEnds
import LuaStyle.Proofs.Writing

namespace LuaStyle

theorem lineEnds_nil : LineEnds [] := by
  rintro _ ⟨⟩

theorem lineEnds_cons {c : Char} (lineBreak : Token.isLineBreak c) (rest : List Char) :
    LineEnds (c :: rest) := by
  rintro _ ⟨⟩
  exact lineBreak

/-- What has no line break in it and starts a text, starts it where the line ends. -/
theorem LineEnds.prefix_of_append {front text rest : List Char} (ends : LineEnds rest)
    (inLine : ∀ c ∈ front, Token.isLineBreak c = false) (start : front <+: text ++ rest) :
    front <+: text := by
  have either := List.prefix_or_prefix_of_prefix start (List.prefix_append text rest)
  rcases either with short | ⟨more, rfl⟩
  · exact short
  · rw [List.prefix_append_right_inj] at start
    cases more with
    | nil => exact (List.append_nil text).symm ▸ List.prefix_rfl
    | cons c more =>
      obtain ⟨behind, rfl⟩ := start
      cases (inLine c (List.mem_append_right _ List.mem_cons_self)).symm.trans (ends c rfl)

namespace LongBracket

theorem isLineBreak_of_mem_opening {level : Nat} :
    ∀ c ∈ opening level, Token.isLineBreak c = false := by
  intro c member
  rw [opening, List.cons_append, List.mem_cons, List.mem_append, List.mem_singleton] at member
  rcases member with rfl | member | rfl
  · rfl
  · cases List.eq_of_mem_replicate member
    rfl
  · rfl

/-- A long bracket does not open over the end of a line. -/
theorem level?_append {text rest : List Char} (ends : LineEnds rest) :
    level? (text ++ rest) = level? text := by
  refine Option.ext fun level => ?_
  rw [level?_eq_some_iff, level?_eq_some_iff]
  exact ⟨ends.prefix_of_append isLineBreak_of_mem_opening,
    fun start => start.trans (List.prefix_append text rest)⟩

theorem level?_singleton (c : Char) : level? [c] = none := by
  unfold level?
  split <;> simp_all

end LongBracket

namespace Token

section

variable {c : Char} {text rest : List Char} {count : Nat}

/-! ### Comments -/

/-- What is cut off as the rest of a comment is cut off again at the end of a line. -/
theorem commentShape_take (closes : commentShape text = (.comment, count)) (ends : LineEnds rest) :
    count ≤ text.length ∧ commentShape (text.take count ++ rest) = (.comment, count) := by
  unfold commentShape at closes
  split at closes
  next level opens =>
    split at closes
    next length closed =>
      cases closes
      obtain ⟨behind, rfl⟩ := LongBracket.eq_opening_append_of_level? opens
      have width := LongBracket.length_opening level
      rw [← width, List.drop_left] at closed
      obtain ⟨within, again⟩ := LongBracket.lengthToClose?_take closed rest
      rw [← width, List.take_length_add_append, List.append_assoc, List.length_append]
      refine ⟨Nat.add_le_add_left within _, ?_⟩
      rw [commentShape, LongBracket.level?_opening_append]
      dsimp only
      rw [← width, List.drop_left, again]
    · cases closes
  next noBracket =>
    cases closes
    refine ⟨(List.takeWhile_sublist _).length_le, ?_⟩
    rw [take_takeWhile]
    have whole := List.takeWhile_append_dropWhile (p := fun c => !isLineBreak c) (l := text)
    have rests : LineEnds (text.dropWhile (!isLineBreak ·)) := by
      intro d first
      have stops := List.head?_dropWhile_not (fun c => !isLineBreak c) text
      rw [first] at stops
      exact Bool.not_eq_false' .. ▸ stops
    have unopened : LongBracket.level? (text.takeWhile (!isLineBreak ·) ++ rest) = none := by
      rw [LongBracket.level?_append ends, ← LongBracket.level?_append rests, whole, noBracket]
    rw [commentShape, unopened]
    dsimp only
    rw [takeWhile_append_eq (List.all_eq_true.1 List.all_takeWhile) fun d first => ?_]
    rw [ends d first]
    rfl

/-- Behind two dashes, a comment is cut off. -/
theorem shape_dashes (text : List Char) :
    shape '-' ('-' :: text) = (commentShape text).map id (· + 1) := by
  rw [shape, if_pos ⟨rfl, rfl⟩, List.drop_one, List.tail_cons]

theorem quotedShape_ne_comment (quote : Char) (text : List Char) :
    (quotedShape quote text).1 ≠ .comment := by
  rcases quotedShape_kind quote text with kind | kind <;> rw [kind] <;> exact nofun

/-- A comment is cut off behind two dashes. -/
theorem dashes_of_shape (shaped : (shape c text).1 = .comment) :
    c = '-' ∧ ∃ behind, text = '-' :: behind := by
  unfold shape at shaped
  split at shaped
  next dashes =>
    obtain ⟨rfl, second⟩ := dashes
    exact ⟨rfl, List.head?_eq_some_iff.1 second⟩
  split at shaped
  · exact absurd shaped (quotedShape_ne_comment _ _)
  split at shaped
  · cases shaped
  split at shaped
  · dsimp only at shaped
    unfold wordKind at shaped
    split at shaped <;> cases shaped
  split at shaped
  next level _ =>
    rcases longStringShape_kind level text with kind | kind <;> cases kind.symm.trans shaped
  split at shaped <;> cases shaped

/-- A comment. -/
theorem cuts_comment (shaped : (shape c text).1 = .comment) (ends : LineEnds rest) :
    Cuts (c :: text.take (shape c text).2) rest fun tokens => ∃ token, tokens = [token] ∧
      token.kind = .comment ∧ token.text = c :: text.take (shape c text).2 := by
  obtain ⟨rfl, behind, rfl⟩ := dashes_of_shape shaped
  rw [shape_dashes] at shaped ⊢
  cases cut : commentShape behind with
  | mk kind count =>
    rw [cut] at shaped
    obtain rfl : kind = .comment := shaped
    obtain ⟨within, again⟩ := commentShape_take cut ends
    refine .of_shape rfl ?_
    show shape '-' ('-' :: (behind.take count ++ rest)) = _
    rw [shape_dashes, again, Prod.map_apply, List.length_take, List.length_cons,
      Nat.min_eq_left (Nat.succ_le_succ within)]
    rfl

/-! ### Characters that no token starts with -/

/-- Nothing that the lexer knows starts with the character in front of the text. -/
structure StartsNothing (c : Char) (text : List Char) : Prop where
  noComment : ¬(c = '-' ∧ text.head? = some '-')
  noQuote : ¬(c = '\x22' ∨ c = '\x27')
  noNumber : startsNumber c text = false
  noName : isNameStart c = false
  noBracket : LongBracket.level? (c :: text) = none
  noSymbol : Symbol.first? (c :: text) = none

theorem StartsNothing.shape_eq (nothing : StartsNothing c text) : shape c text = (.unknown, 0) := by
  obtain ⟨noComment, noQuote, noNumber, noName, noBracket, noSymbol⟩ := nothing
  rw [shape, if_neg noComment, if_neg noQuote, noNumber, if_neg Bool.false_ne_true, noName,
    if_neg Bool.false_ne_true, noBracket, noSymbol]

theorem startsNothing_of_shape (unknown : (shape c text).1 = .unknown) : StartsNothing c text := by
  unfold shape at unknown
  split at unknown
  · exact absurd unknown (commentShape_kind _)
  next noComment =>
  split at unknown
  · rcases quotedShape_kind c text with kind | kind <;> cases kind.symm.trans unknown
  next noQuote =>
  split at unknown
  · cases unknown
  next noNumber =>
  split at unknown
  · dsimp only at unknown
    unfold wordKind at unknown
    split at unknown <;> cases unknown
  next noName =>
  split at unknown
  next level _ =>
    rcases longStringShape_kind level text with kind | kind <;> cases kind.symm.trans unknown
  next noBracket =>
  split at unknown
  · cases unknown
  next noSymbol =>
  exact ⟨noComment, noQuote, Bool.eq_false_iff.2 noNumber, Bool.eq_false_iff.2 noName, noBracket,
    noSymbol⟩

/-- What starts nothing in front of some text starts nothing at the end of a line. -/
theorem StartsNothing.of_lineEnds (nothing : StartsNothing c text) (ends : LineEnds rest) :
    StartsNothing c rest where
  noComment := by
    rintro ⟨-, dash⟩
    cases ends '-' dash
  noQuote := nothing.noQuote
  noNumber := by
    have noDigit : c.isDigit = false := by
      have none := nothing.noNumber
      rw [startsNumber, Bool.or_eq_false_iff] at none
      exact none.1
    have noFraction : rest.head?.any Char.isDigit = false := by
      cases rest with
      | nil => rfl
      | cons d rest =>
        refine Bool.eq_false_iff.2 fun digit => ?_
        have part : isNamePart d := by rw [isNamePart, isAlphanum_of_isDigit digit, Bool.true_or]
        cases (isNamePart_of_isLineBreak (ends d rfl)).symm.trans part
    rw [startsNumber, noDigit, noFraction, Bool.and_false, Bool.or_false]
  noName := nothing.noName
  noBracket := by
    have single : LongBracket.level? ([c] ++ rest) = LongBracket.level? [c] :=
      LongBracket.level?_append ends
    exact single.trans (LongBracket.level?_singleton c)
  noSymbol := by
    refine Option.eq_none_iff_forall_ne_some.2 fun mark found => ?_
    have alone : mark.text <+: [c] :=
      ends.prefix_of_append mark.isLineBreak_eq (Symbol.isPrefix_of_first? found)
    refine List.find?_eq_none.1 nothing.noSymbol mark (List.mem_of_find?_eq_some found) ?_
    exact List.isPrefixOf_iff_prefix.2 (alone.trans (List.prefix_append [c] text))

/-- A character that no token starts with. -/
theorem cuts_unknown (solid : isSpace c = false) (shaped : (shape c text).1 = .unknown)
    (ends : LineEnds rest) :
    Cuts (c :: text.take (shape c text).2) rest fun tokens => ∃ token, tokens = [token] ∧
      token.kind = .unknown ∧ token.text = c :: text.take (shape c text).2 := by
  have nothing := startsNothing_of_shape shaped
  rw [nothing.shape_eq]
  exact .of_shape solid (nothing.of_lineEnds ends).shape_eq

end

/-! ### Lexemes on lines of their own -/

/-- What a token is, and its text. -/
def lexeme (token : Token) : Kind × List Char :=
  (token.kind, token.text)

/-- At the end of a line, the lexer cuts the text off as one token of the kind. -/
def EndsLine (lexeme : Kind × List Char) : Prop :=
  ∀ rest, LineEnds rest → Cuts lexeme.2 rest fun tokens =>
    ∃ token, tokens = [token] ∧ token.kind = lexeme.1 ∧ token.text = lexeme.2

theorem endsLine_word (word : Keyword) : EndsLine (.keyword word, word.text) :=
  fun _ ends => cuts_word word ends.stops.endsName

theorem endsLine_symbol (mark : Symbol) : EndsLine (.symbol mark, mark.text) := by
  refine fun rest ends => cuts_symbol mark fun c next => ?_
  have lineBreak := ends c next
  rw [isLineBreak, Bool.or_eq_true, beq_iff_eq, beq_iff_eq] at lineBreak
  rcases lineBreak with rfl | rfl <;> cases mark <;> rfl

theorem endsLine_name {text : List Char} (isName : IsName text) : EndsLine (.name, text) :=
  fun _ ends => cuts_name isName ends.stops.endsName

theorem endsLine_number {text : List Char} (isNumber : IsNumber text) :
    EndsLine (.number, text) :=
  fun _ ends => cuts_number isNumber (ends.stops.endsNumber text)

/-- The kind is not one of text that waits for a quote or a bracket to close it. -/
def Kind.isClosed : Kind → Bool
  | .unterminatedComment | .unterminatedString => false
  | _ => true

theorem Kind.isClosed_of_ne {kind : Kind} (noString : kind ≠ .unterminatedString)
    (noComment : kind ≠ .unterminatedComment) : kind.isClosed := by
  cases kind <;> first | rfl | contradiction

theorem Kind.isClosed_of_isUsable {kind : Kind} (usable : kind.isUsable) : kind.isClosed := by
  cases kind <;> first | rfl | cases usable

/-- The lexer cuts off again, at the end of a line, what it has cut off, if nothing is missing that
would close it. -/
theorem endsLine_of_mem {source : List Char} {token : Token} (member : token ∈ ofText source)
    (closed : token.kind.isClosed) : EndsLine token.lexeme := by
  have spelled := (fits_of_mem_tokensFrom token member).spelled
  obtain ⟨before, c, rest, -, solid, same⟩ := exists_shape_of_mem token member
  obtain ⟨kind, text, start⟩ := token
  obtain ⟨shaped, written, -⟩ := Token.mk.inj same
  have string (isString : kind.isString) : EndsLine (kind, text) := by
    rw [shaped] at isString
    rw [shaped, written]
    exact fun _ _ => cuts_string solid isString
  cases spelled with
  | keyword word => exact endsLine_word word
  | symbol mark => exact endsLine_symbol mark
  | name isName => exact endsLine_name isName
  | number isNumber => exact endsLine_number isNumber
  | quotedString => exact string rfl
  | longString => exact string rfl
  | comment =>
    rw [written]
    exact fun _ ends => cuts_comment shaped.symm ends
  | unterminatedComment => cases closed
  | unterminatedString => cases closed
  | unknown =>
    rw [written]
    exact fun _ ends => cuts_unknown solid shaped.symm ends

/-- Lexemes written down one below the other. -/
def onLines (lexemes : List (Kind × List Char)) : List Char :=
  ['\n'].intercalate (lexemes.map Prod.snd)

theorem cuts_onLines {lexemes : List (Kind × List Char)}
    (endLines : ∀ lexeme ∈ lexemes, EndsLine lexeme) :
    Cuts (onLines lexemes) [] fun tokens => tokens.map Token.lexeme = lexemes := by
  induction lexemes with
  | nil => exact Cuts.nil.mono fun tokens none => none ▸ rfl
  | cons lexeme lexemes inductionHypothesis =>
    obtain ⟨first, others⟩ := List.forall_mem_cons.1 endLines
    cases lexemes with
    | nil =>
      rw [onLines, List.map_singleton, List.intercalate_singleton]
      refine (first [] lineEnds_nil).mono ?_
      rintro _ ⟨token, rfl, kind, text⟩
      rw [List.map_singleton, Token.lexeme, kind, text]
    | cons second lexemes =>
      have further := (inductionHypothesis others).space (c := '\n') rfl
      have line := first _ (lineEnds_cons (c := '\n') rfl (onLines (second :: lexemes) ++ []))
      rw [onLines, List.map_cons, List.map_cons, List.intercalate_cons_cons, List.append_assoc]
      refine (line.append further).mono ?_
      rintro _ ⟨_, tokens, rfl, ⟨token, rfl, kind, text⟩, rest⟩
      rw [List.map_append, rest, List.map_singleton, Token.lexeme, kind, text]
      rfl

/-- Lexemes on lines of their own are cut off again. -/
theorem lexemes_onLines {lexemes : List (Kind × List Char)}
    (endLines : ∀ lexeme ∈ lexemes, EndsLine lexeme) :
    (ofText (onLines lexemes)).map Token.lexeme = lexemes := by
  obtain ⟨tokens, same, all⟩ := cuts_onLines endLines 0
  rw [List.append_nil, tokensFrom_nil, List.append_nil] at all
  rw [ofText, all, same]

/-- Tokens do not depend on what stands around them: the texts of the tokens of a source, each on a
line of its own, are cut into the same tokens again. -/
theorem lexemes_of_texts (source : List Char)
    (closed : ∀ token ∈ ofText source,
      token.kind ≠ .unterminatedString ∧ token.kind ≠ .unterminatedComment) :
    (ofText (['\n'].intercalate ((ofText source).map Token.text))).map Token.lexeme =
      (ofText source).map Token.lexeme := by
  have endLines : ∀ lexeme ∈ (ofText source).map Token.lexeme, EndsLine lexeme := by
    refine List.forall_mem_map.2 fun token member => endsLine_of_mem member ?_
    exact Kind.isClosed_of_ne (closed token member).1 (closed token member).2
  have cut := lexemes_onLines endLines
  rwa [onLines, List.map_map] at cut

/-- Brackets, points, dashes and signs that would go on a token on the same line, a comment of
either form, and a character that no token starts with. -/
theorem lexemes_of_texts_of_mixture :
    let source := "a[[[x\n]]]=0xe+1e+5...5--[=[\n]]]=]~\u00e9 [=\"\\\"\"::-- [[".toList
    (∀ token ∈ ofText source,
      token.kind ≠ .unterminatedString ∧ token.kind ≠ .unterminatedComment) ∧
      (ofText (['\n'].intercalate ((ofText source).map Token.text))).map Token.lexeme =
        (ofText source).map Token.lexeme := by
  have closed : ∀ token ∈ ofText
      "a[[[x\n]]]=0xe+1e+5...5--[=[\n]]]=]~\u00e9 [=\"\\\"\"::-- [[".toList,
      token.kind ≠ .unterminatedString ∧ token.kind ≠ .unterminatedComment := by decide +kernel
  exact ⟨closed, lexemes_of_texts _ closed⟩

end Token

end LuaStyle
