/-
This file proves that the parser finds the delimiters of a token where the lexer has put them.

The lexer decides on the text that remains of the source where a comment or a string ends. The
parser has only the token, and takes its delimiters off again: it looks for the long bracket once
more, in what was cut off, and it takes the quotes for granted. A token that was cut off at a
closing bracket begins with the opening bracket that the lexer saw and ends with the closing one,
and a comment that was cut off at a line break shows no bracket that was not in the source. So the
parts that the parser cuts out of a token are there, and between characters.

What stands between quotes goes through the lexer in units: a character, or a backslash with the
character behind it. The decoder knows longer escapes, but whatever it takes more than the lexer are
plain characters to the lexer. So wherever the decoder starts to read, a unit starts, and a
backslash that would take the closing quote with it is never met.
-/

import LuaStyle.Proofs.LongBrackets
import LuaStyle.Proofs.OwnLines

namespace LuaStyle

/-! ### Long brackets -/

namespace LongBracket

/-- The lexer takes this many characters from the start of the text, because a long bracket of the
level opens there and is closed at their end. -/
def Takes (level : Nat) (text : List Char) (count : Nat) : Prop :=
  level? text = some level ∧ ∃ further,
    lengthToClose? level (text.drop (level + 2)) = some further ∧ count = level + 2 + further

/-- The text stands between long brackets of the level, and so do the bytes that are left when as
many as the brackets take up are cut off on both sides. -/
structure Encloses (level : Nat) (inside text : List Char) : Prop where
  /-- An opening bracket stands in front and the matching closing bracket behind. -/
  brackets : text = opening level ++ (inside ++ closing level)
  /-- No closing bracket of the level ends before that. -/
  first : ¬ closing level <:+: inside ++ [']']
  /-- The two brackets do not overlap. -/
  room : 2 * (level + 2) ≤ byteLength text
  /-- What is cut off on both sides ends between characters. -/
  cut : Span.text? text ⟨level + 2, byteLength text - level - 2⟩ = some inside

section

variable {level count : Nat} {text inside : List Char}

theorem byteLength_opening (level : Nat) : byteLength (opening level) = level + 2 := by
  have signs : byteLength (List.replicate level '=') = level := by
    induction level with
    | zero => rfl
    | succ level inductionHypothesis =>
      rw [List.replicate_succ, byteLength, inductionHypothesis]
      exact Nat.add_comm 1 level
  rw [opening, byteLength_append, byteLength, signs]
  show 1 + level + 1 = level + 2
  omega

theorem byteLength_closing (level : Nat) : byteLength (closing level) = level + 2 := by
  have signs := byteLength_opening level
  rw [opening, byteLength_append, byteLength] at signs
  rw [closing, byteLength_append, byteLength]
  exact signs

theorem encloses_of_free (free : ¬ closing level <:+: inside ++ [']']) :
    Encloses level inside (opening level ++ (inside ++ closing level)) := by
  have length : byteLength (opening level ++ (inside ++ closing level)) =
      level + 2 + (byteLength inside + (level + 2)) := by
    rw [byteLength_append, byteLength_append, byteLength_opening, byteLength_closing]
  refine ⟨rfl, free, by omega, ?_⟩
  have between := Span.text?_between (opening level) inside (closing level)
  rw [byteLength_append, byteLength_opening] at between
  rw [length, show level + 2 + (byteLength inside + (level + 2)) - level - 2 =
    level + 2 + byteLength inside by omega]
  exact between

/-- What the lexer takes between long brackets is enclosed in them. -/
theorem Takes.exists_encloses (takes : Takes level text count) :
    level? (text.take count) = some level ∧ ∃ inside, Encloses level inside (text.take count) := by
  obtain ⟨opens, further, closes, rfl⟩ := takes
  refine ⟨level?_take opens (Nat.le_add_right ..), ?_⟩
  obtain ⟨rest, rfl⟩ := eq_opening_append_of_level? opens
  have width := length_opening level
  rw [← width, List.drop_left] at closes
  obtain ⟨inside, after, rfl, counted, free⟩ := exists_closed closes
  rw [← width, List.take_length_add_append, counted, take_closed]
  exact ⟨inside, encloses_of_free free⟩

/-- What stands between brackets in characters is what does in bytes. -/
theorem Encloses.inside_eq (encloses : Encloses level inside text) :
    LongBracket.inside level text = inside := by
  rw [encloses.brackets]
  exact Comment.inside_append level inside

end

end LongBracket

/-! ### Comments -/

/-- How the parser takes the delimiters off a comment with this content behind its dashes, in front
of the text that follows it in the source. -/
structure Comment.Uncovers (token : Token) (content after : List Char) : Prop where
  /-- The content stands behind two dashes. -/
  text : token.text = '-' :: '-' :: content
  /-- The dashes can be cut off. -/
  cut : Span.text? token.text ⟨2, token.length⟩ = some content
  /-- This is where the lexer, looking at all that follows in the source, ends the comment. -/
  lexed : Token.commentShape (content ++ after) = (.comment, content.length)
  /-- A long bracket is found in the content exactly if the lexer has taken the content between
  brackets of that level. -/
  agrees : ∀ level, LongBracket.level? content = some level ↔
    LongBracket.Takes level (content ++ after) content.length
  /-- Then the brackets can be cut off, and what is left is the text of a block. -/
  block : ∀ level, LongBracket.level? content = some level →
    ∃ inside, LongBracket.Encloses level inside content ∧
      ofToken token = ⟨inside, token.text, .block, token.span⟩
  /-- Otherwise the content is the text of a line. -/
  line : LongBracket.level? content = none →
    ofToken token = ⟨content, token.text, .line, token.span⟩

section

variable {text : List Char} {count : Nat}

/-- A comment shows a long bracket exactly if the lexer has found it, and its end. -/
theorem Token.level?_of_commentShape {level : Nat}
    (closes : commentShape text = (.comment, count)) :
    LongBracket.level? (text.take count) = some level ↔ LongBracket.Takes level text count := by
  refine ⟨fun shows => ?_, fun takes => takes.exists_encloses.1⟩
  have opens : LongBracket.level? text = some level :=
    LongBracket.level?_eq_some_iff.2
      ((LongBracket.level?_eq_some_iff.1 shows).trans (List.take_prefix ..))
  rw [commentShape, opens] at closes
  dsimp only at closes
  split at closes
  next further closed =>
    cases closes
    exact ⟨opens, further, closed, rfl⟩
  · cases closes

theorem Comment.uncovers_of_commentShape {offset : Nat}
    (closes : Token.commentShape text = (.comment, count)) :
    Uncovers ⟨.comment, '-' :: '-' :: text.take count, offset⟩ (text.take count)
      (text.drop count) := by
  have within : (text.take count).length = count := by
    have taken := (Token.commentShape_take closes lineEnds_nil).1
    rw [List.length_take, Nat.min_eq_left taken]
  have agrees (level : Nat) : LongBracket.level? (text.take count) = some level ↔
      LongBracket.Takes level text count := Token.level?_of_commentShape closes
  have content : ('-' :: '-' :: text.take count).drop 2 = text.take count := rfl
  refine ⟨rfl, ?_, ?_, fun level => ?_, fun level shows => ?_, fun none => ?_⟩
  · have between := Span.text?_between ['-', '-'] (text.take count) []
    rwa [List.append_nil] at between
  · rw [List.take_append_drop, within, closes]
  · rw [List.take_append_drop, within]
    exact agrees level
  · obtain ⟨inside, encloses⟩ := ((agrees level).1 shows).exists_encloses.2
    refine ⟨inside, encloses, ?_⟩
    unfold ofToken
    rw [content]
    dsimp only
    rw [shows]
    dsimp only
    rw [encloses.inside_eq]
  · unfold ofToken
    rw [content]
    dsimp only
    rw [none]

end

/-! ### Strings between long brackets -/

/-- How the parser takes the brackets off a long string in front of the text that follows it in the
source. -/
structure LongBracket.Uncovers (text after : List Char) : Prop where
  /-- A long bracket is found in front exactly if the lexer has taken the text between brackets of
  that level. -/
  agrees : ∀ level, level? text = some level ↔ Takes level (text ++ after) text.length
  /-- One is found, the brackets can be cut off, and what is left has the value of the string. -/
  enclosed : ∃ level inside, level? text = some level ∧ Encloses level inside text ∧
    value text = readLineBreaks (dropLineBreak inside)

/-- What is cut off as a long string is taken between long brackets. -/
theorem Token.takes_of_longStringShape {level count : Nat} {text : List Char}
    (closes : longStringShape level text = (.longString, count))
    (opens : LongBracket.level? ('[' :: text) = some level) :
    LongBracket.Takes level ('[' :: text) (count + 1) := by
  rw [longStringShape] at closes
  split at closes
  next further closed =>
    cases closes
    exact ⟨opens, further, closed, Nat.add_right_comm ..⟩
  · cases closes

theorem LongBracket.uncovers_of_takes {level count : Nat} {text : List Char}
    (takes : Takes level text count) (within : count ≤ text.length) :
    Uncovers (text.take count) (text.drop count) := by
  obtain ⟨opens, inside, encloses⟩ := takes.exists_encloses
  refine ⟨fun other => ?_, level, inside, opens, encloses, ?_⟩
  · rw [List.take_append_drop, List.length_take, Nat.min_eq_left within]
    constructor
    · intro shows
      obtain rfl : level = other := Option.some.inj (opens.symm.trans shows)
      exact takes
    · exact fun taken => taken.exists_encloses.1
  · rw [value, opens, Option.getD_some, encloses.inside_eq]

/-! ### Strings between quotes -/

namespace Quoted

variable {quote : Char} {text content front rest : List Char}

/-- How many backslashes stand one behind the other at the end of a text. -/
def backslashesAtEnd (text : List Char) : Nat :=
  (text.reverse.takeWhile (· == '\\')).length

theorem backslashesAtEnd_append (first : backslashesAtEnd front % 2 = 0)
    (second : backslashesAtEnd rest % 2 = 0) : backslashesAtEnd (front ++ rest) % 2 = 0 := by
  unfold backslashesAtEnd at *
  rw [List.reverse_append, List.takeWhile_append]
  split
  next all =>
    rw [List.length_append, ← all]
    omega
  · exact second

/-- The quote behind a body is not escaped. -/
theorem IsBody.unescaped (isBody : IsBody quote content) : backslashesAtEnd content % 2 = 0 := by
  induction isBody with
  | nil => rfl
  | @plain c rest plain _ inductionHypothesis =>
    have even : backslashesAtEnd [c] % 2 = 0 := by
      show (List.takeWhile (· == '\\') [c]).length % 2 = 0
      rw [List.takeWhile_cons, beq_eq_false_iff_ne.2 plain.noBackslash]
      rfl
    exact backslashesAtEnd_append even inductionHypothesis
  | @escape c rest _ inductionHypothesis =>
    have even : backslashesAtEnd ['\\', c] % 2 = 0 := by
      show (List.takeWhile (· == '\\') [c, '\\']).length % 2 = 0
      by_cases same : c = '\\'
      · rw [same]
        rfl
      · rw [List.takeWhile_cons, beq_eq_false_iff_ne.2 same]
        rfl
    exact backslashesAtEnd_append even inductionHypothesis
  | returnFeed _ inductionHypothesis =>
    have even : backslashesAtEnd ['\\', '\r', '\n'] % 2 = 0 := rfl
    exact backslashesAtEnd_append even inductionHypothesis

end Quoted

namespace Escape

/-- Reading the content, the decoder comes to where this text remains of it. -/
inductive ComesTo : List Char → List Char → Prop
  | here (content) : ComesTo content content
  | plain {c rest place} : c ≠ '\\' → ComesTo rest place → ComesTo (c :: rest) place
  | escape {c rest bytes count place} :
    read c rest = .ok (bytes, count) → ComesTo (rest.drop count) place →
      ComesTo ('\\' :: c :: rest) place

/-- What the decoder answers: it has come to the end, or to a backslash behind which nothing that it
knows stands. -/
inductive Answers (offset : Nat) (content : List Char) :
    Except (Nat × Nat) (List UInt8) → Prop
  | ended {bytes} : ComesTo content [] → Answers offset content (.ok bytes)
  | cutOff {before} : content = before ++ ['\\'] → ComesTo content ['\\'] →
    Answers offset content (.error (offset + byteLength before, 1))
  | refused {before c rest length} : content = before ++ '\\' :: c :: rest →
    ComesTo content ('\\' :: c :: rest) → read c rest = .error length →
      Answers offset content (.error (offset + byteLength before, length))

variable {quote c : Char} {content place text : List Char}

/-- A step of the decoder over some characters leads to where the rest of the content is read. -/
theorem Answers.after {offset : Nat} {front rest : List Char} {bytes : List UInt8}
    {run : Except (Nat × Nat) (List UInt8)}
    (behind : Answers (offset + byteLength front) rest run)
    (step : ∀ place, ComesTo rest place → ComesTo (front ++ rest) place) :
    Answers offset (front ++ rest) (run.map (bytes ++ ·)) := by
  have place (before : List Char) :
      offset + byteLength front + byteLength before = offset + byteLength (front ++ before) := by
    rw [byteLength_append, Nat.add_assoc]
  cases behind with
  | ended comes => exact .ended (step _ comes)
  | cutOff same comes =>
    rw [place]
    exact .cutOff (by rw [same, List.append_assoc]) (step _ comes)
  | refused same comes failed =>
    rw [place]
    exact .refused (by rw [same, List.append_assoc]) (step _ comes) failed

theorem answers_decodeFrom (offset : Nat) (content : List Char) :
    Answers offset content (decodeFrom offset content) := by
  fun_induction decodeFrom offset content with
  | case1 => exact .ended (.here [])
  | case2 offset =>
    show Answers offset ['\\'] (.error (offset + byteLength [], 1))
    exact .cutOff rfl (.here _)
  | case3 offset c rest width failed =>
    show Answers offset ('\\' :: c :: rest) (.error (offset + byteLength [], width))
    exact .refused rfl (.here _) failed
  | case4 offset c rest bytes count done inductionHypothesis =>
    have whole : '\\' :: c :: rest = '\\' :: c :: rest.take count ++ rest.drop count := by
      rw [List.cons_append, List.cons_append, List.take_append_drop]
    have passed : offset + 1 + c.utf8Size + byteLength (rest.take count) =
        offset + byteLength ('\\' :: c :: rest.take count) := by
      rw [Nat.add_assoc, Nat.add_assoc]
      rfl
    rw [passed] at inductionHypothesis
    rw [passed, whole]
    exact inductionHypothesis.after fun place comes => whole ▸ .escape done comes
  | case5 offset c rest noEscape noEnd inductionHypothesis =>
    have noBackslash : c ≠ '\\' := by
      rintro rfl
      cases rest with
      | nil => exact noEscape rfl rfl
      | cons d rest => exact noEnd d rest rfl rfl
    show Answers offset ([c] ++ rest) _
    exact inductionHypothesis.after fun place comes => .plain noBackslash comes

/-- An escape takes characters of the content, and none of them is a backslash. -/
theorem exists_passed {bytes : List UInt8} {count : Nat}
    (done : read c text = .ok (bytes, count)) :
    ∃ front rest, text = front ++ rest ∧ front.length = count ∧ '\\' ∉ front := by
  cases lineBreak : Token.isLineBreak c with
  | false =>
    rcases readsAlike lineBreak text with
      ⟨length, failed, -⟩ | ⟨_, front, rest, same, passed, read, -⟩
    · cases failed.symm.trans done
    · cases read.symm.trans done
      exact ⟨front, rest, same, rfl, passed⟩
  | true =>
    have read : read c text = .ok ([0x0A], if lineBreakGoesOn c text then 1 else 0) := by
      rcases LongBracket.eq_or_eq_of_isLineBreak lineBreak with rfl | rfl <;> rfl
    cases read.symm.trans done
    split
    next goesOn =>
      cases text with
      | nil => simp [lineBreakGoesOn] at goesOn
      | cons d rest =>
        refine ⟨[d], rest, rfl, rfl, fun member => ?_⟩
        obtain rfl := List.mem_singleton.1 member
        simp [lineBreakGoesOn] at goesOn
    · exact ⟨[], text, rfl, rfl, List.not_mem_nil⟩

/-- Where the decoder starts to read within a body, a unit of the lexer starts. -/
theorem ComesTo.isBody (comes : ComesTo content place) (isBody : Quoted.IsBody quote content) :
    Quoted.IsBody quote place := by
  induction comes with
  | here => exact isBody
  | plain noBackslash _ inductionHypothesis =>
    cases isBody with
    | plain _ isBody => exact inductionHypothesis isBody
    | escape _ => exact absurd rfl noBackslash
    | returnFeed _ => exact absurd rfl noBackslash
  | escape done _ inductionHypothesis =>
    refine inductionHypothesis ?_
    cases isBody with
    | plain plain _ => exact absurd rfl plain.noBackslash
    | escape isBody =>
      obtain ⟨front, rest, rfl, rfl, passed⟩ := exists_passed done
      rw [List.drop_left]
      exact isBody.of_append passed
    | returnFeed isBody =>
      cases done
      exact isBody

end Escape

namespace Quoted

/-- How the parser takes the quotes off a string with this content, in front of the text that
follows it in the source, and reads the content. -/
structure Uncovers (text : List Char) (quote : Char) (content after : List Char) : Prop where
  isQuote : quote = '\x22' ∨ quote = '\x27'
  /-- The content stands between two quotes. -/
  quotes : text = quote :: (content ++ [quote])
  /-- The first byte and the last one are quotes, and the bytes between them are the content. -/
  bytes : Utf8.encode text = quote.toUInt8 :: (Utf8.encode content ++ [quote.toUInt8])
  /-- The closing quote is not escaped. -/
  unescaped : backslashesAtEnd content % 2 = 0
  /-- From every place that the decoder comes to, the lexer would go to the same closing quote. -/
  inStep : ∀ place, Escape.ComesTo content place →
    Token.quotedShape quote (place ++ quote :: after) = (.quotedString, place.length + 1)
  /-- The decoder never comes to a backslash that is the last of the content. -/
  notLast : ∀ place, Escape.ComesTo content place → place ≠ ['\\']
  /-- An escape that it reads does not go on behind the content. -/
  within : ∀ c rest bytes count, Escape.ComesTo content ('\\' :: c :: rest) →
    Escape.read c rest = .ok (bytes, count) → count ≤ rest.length
  /-- So it comes to the end of the content, or to an escape that is not valid; and of that, it
  blames only what is in the content. -/
  decoded :
    (∃ bytes, Escape.ComesTo content [] ∧ Escape.decode content = .ok bytes) ∨
      ∃ before c rest length, content = before ++ '\\' :: c :: rest ∧
        Escape.ComesTo content ('\\' :: c :: rest) ∧ Escape.read c rest = .error length ∧
          Escape.decode content = .error ⟨byteLength before,
            min (byteLength before + length) (byteLength content)⟩

variable {quote : Char} {content : List Char}

theorem not_isBody_backslash : ¬IsBody quote ['\\'] := by
  intro isBody
  cases isBody with
  | plain plain _ => exact plain.noBackslash rfl

theorem IsBody.decoded (isBody : IsBody quote content) :
    (∃ bytes, Escape.ComesTo content [] ∧ Escape.decode content = .ok bytes) ∨
      ∃ before c rest length, content = before ++ '\\' :: c :: rest ∧
        Escape.ComesTo content ('\\' :: c :: rest) ∧ Escape.read c rest = .error length ∧
          Escape.decode content = .error ⟨byteLength before,
            min (byteLength before + length) (byteLength content)⟩ := by
  have answers := Escape.answers_decodeFrom 0 content
  rw [Escape.decode]
  generalize Escape.decodeFrom 0 content = answer at answers
  cases answers with
  | @ended bytes comes => exact .inl ⟨bytes, comes, rfl⟩
  | cutOff _ comes => exact absurd (comes.isBody isBody) not_isBody_backslash
  | @refused before c rest length same comes failed =>
    refine .inr ⟨before, c, rest, length, same, comes, failed, ?_⟩
    rw [Nat.zero_add]
    rfl

theorem IsBody.uncovers (isBody : IsBody quote content)
    (isQuote : quote = '\x22' ∨ quote = '\x27') (after : List Char) :
    Uncovers (quote :: (content ++ [quote])) quote content after where
  isQuote := isQuote
  quotes := rfl
  bytes := by
    rw [Utf8.encode_cons, Utf8.encode_append]
    rcases isQuote with rfl | rfl <;> rfl
  unescaped := isBody.unescaped
  inStep _ comes := (comes.isBody isBody).shape_closed isQuote after
  notLast := by
    rintro _ comes rfl
    exact not_isBody_backslash (comes.isBody isBody)
  within c rest bytes count _ done := by
    obtain ⟨front, more, rfl, rfl, -⟩ := Escape.exists_passed done
    rw [List.length_append]
    exact Nat.le_add_right ..
  decoded := isBody.decoded

end Quoted

/-! ### Tokens of a source -/

namespace Token

/-- The parser finds the delimiters of the token, in front of the text that follows it in the
source, where the lexer has put them. -/
structure Uncovers (token : Token) (after : List Char) : Prop where
  comment : token.kind = .comment → ∃ content, Comment.Uncovers token content after
  longString : token.kind = .longString → LongBracket.Uncovers token.text after
  quotedString : token.kind = .quotedString →
    ∃ quote content, Quoted.Uncovers token.text quote content after

variable {c : Char} {text : List Char}

theorem exists_uncovers_comment (offset : Nat) (kind : (shape c text).1 = .comment) :
    ∃ content, Comment.Uncovers ⟨(shape c text).1, c :: text.take (shape c text).2, offset⟩ content
      (text.drop (shape c text).2) := by
  obtain ⟨rfl, behind, rfl⟩ := dashes_of_shape kind
  rw [shape_dashes] at kind ⊢
  have closes : commentShape behind = (.comment, (commentShape behind).2) := Prod.ext kind rfl
  rw [closes]
  exact ⟨_, Comment.uncovers_of_commentShape closes⟩

theorem uncovers_longString (kind : (shape c text).1 = .longString) :
    LongBracket.Uncovers (c :: text.take (shape c text).2) (text.drop (shape c text).2) := by
  rcases shape_of_isString (congrArg Kind.isString kind) with
    ⟨isQuote, same⟩ | ⟨level, rfl, opens, same⟩
  · rcases quotedShape_kind c text with closed | stuck
    · cases closed.symm.trans ((congrArg Prod.fst same).symm.trans kind)
    · cases stuck.symm.trans ((congrArg Prod.fst same).symm.trans kind)
  · rw [same] at kind ⊢
    have closes : longStringShape level text = (.longString, (longStringShape level text).2) :=
      Prod.ext kind rfl
    have within := (longStringShape_take closes opens []).1
    exact LongBracket.uncovers_of_takes (takes_of_longStringShape closes opens)
      (Nat.succ_le_succ within)

theorem exists_uncovers_quotedString (kind : (shape c text).1 = .quotedString) :
    ∃ quote content, Quoted.Uncovers (c :: text.take (shape c text).2) quote content
      (text.drop (shape c text).2) := by
  rcases shape_of_isString (congrArg Kind.isString kind) with
    ⟨isQuote, same⟩ | ⟨level, rfl, opens, same⟩
  · rw [same] at kind ⊢
    have closes : quotedShape c text = (.quotedString, (quotedShape c text).2) := Prod.ext kind rfl
    obtain ⟨content, after, rfl, counted, isBody⟩ := Quoted.exists_body closes
    rw [counted, List.take_length_add_append 1]
    exact ⟨c, content, isBody.uncovers isQuote _⟩
  · rcases longStringShape_kind level text with closed | stuck
    · cases closed.symm.trans ((congrArg Prod.fst same).symm.trans kind)
    · cases stuck.symm.trans ((congrArg Prod.fst same).symm.trans kind)

/-- The parser takes off the tokens of a source the delimiters that the lexer has seen: it finds the
long brackets of comments and strings at the same level, with room for both of them, and the quotes
of the other strings, whose content it decodes in step with the lexer. -/
theorem delimiters_agree {source : List Char} {token : Token} (member : token ∈ ofText source) :
    ∃ before after, source = before ++ (token.text ++ after) ∧
      token.start = byteLength before ∧ token.Uncovers after := by
  obtain ⟨before, c, text, rfl, -, rfl⟩ := exists_shape_of_mem token member
  refine ⟨before, text.drop (shape c text).2, ?_, Nat.zero_add _, exists_uncovers_comment _,
    uncovers_longString, exists_uncovers_quotedString⟩
  rw [List.cons_append, List.take_append_drop]

theorem delimiters_agree_of_nested_marks :
    (∃ token ∈ ofText "--[==[ ]=] ]==] x = [=[ ]] ]=]".toList, token.kind = .comment ∧
      ∃ before after, "--[==[ ]=] ]==] x = [=[ ]] ]=]".toList = before ++ (token.text ++ after) ∧
        token.start = byteLength before ∧ token.Uncovers after) ∧
    ∃ token ∈ ofText "x = [[]] .. 'a\\\\\\'\\x27'".toList, token.kind = .quotedString ∧
      ∃ before after, "x = [[]] .. 'a\\\\\\'\\x27'".toList = before ++ (token.text ++ after) ∧
        token.start = byteLength before ∧ token.Uncovers after := by
  constructor
  · have found : ∃ token ∈ ofText "--[==[ ]=] ]==] x = [=[ ]] ]=]".toList,
        token.kind = .comment := by decide +kernel
    obtain ⟨token, member, isComment⟩ := found
    exact ⟨token, member, isComment, delimiters_agree member⟩
  · have found : ∃ token ∈ ofText "x = [[]] .. 'a\\\\\\'\\x27'".toList,
        token.kind = .quotedString := by decide +kernel
    obtain ⟨token, member, isString⟩ := found
    exact ⟨token, member, isString, delimiters_agree member⟩

end Token

end LuaStyle
