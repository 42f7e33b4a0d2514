/-
This file proves that it does not matter whether the lines of a source end in line feeds alone or in
carriage returns and line feeds.

Between tokens, both characters are white space, so the tokens are cut at the same places. Within
tokens, line breaks occur in strings and comments only, and the texts of these change. A string
keeps its bytes: a line break between quotes stands behind a backslash, which takes both characters
with it as one line feed, and a long string reads both characters as one. A comment between long
brackets keeps its content lines, since the line that comes in between the two characters is empty.
-/

import LuaStyle.Proofs.Lengthening
import LuaStyle.Proofs.QuotedBodies
import LuaStyle.Proofs.Spacing

namespace LuaStyle

open Token

/-! ### Carriage returns in front of line feeds -/

theorem isNamePart_of_isLineBreak {c : Char} (lineBreak : isLineBreak c) :
    isNamePart c = false := by
  rw [isLineBreak, Bool.or_eq_true, beq_iff_eq, beq_iff_eq] at lineBreak
  rcases lineBreak with rfl | rfl <;> rfl

theorem Token.Symbol.isLineBreak_eq (mark : Symbol) : ∀ c ∈ mark.text, isLineBreak c = false := by
  have none : mark.text.all fun c => !isLineBreak c := by cases mark <;> rfl
  intro c member
  exact Bool.not_eq_true' _ ▸ List.all_eq_true.1 none c member

/-- What is written for a character if lines end in two characters. -/
def returned (c : Char) : List Char :=
  if c = '\n' then ['\r', '\n'] else [c]

theorem returned_of_not_isLineBreak {c : Char} (inLine : ¬isLineBreak c) : returned c = [c] := by
  refine if_neg ?_
  rintro rfl
  exact inLine rfl

theorem returned_of_isLineBreak {c : Char} (lineBreak : isLineBreak c) :
    returned c ≠ [] ∧ ∀ d ∈ returned c, isLineBreak d := by
  unfold returned
  split
  · exact ⟨List.cons_ne_nil _ _, List.forall_mem_cons.2 ⟨rfl, List.forall_mem_singleton.2 rfl⟩⟩
  · exact ⟨List.cons_ne_nil _ _, List.forall_mem_singleton.2 lineBreak⟩

/-- Each line feed is written as a carriage return and a line feed. -/
def returning : Lengthening where
  IsLong c := isLineBreak c
  run := returned
  run_short _ := returned_of_not_isLineBreak
  run_long _ := returned_of_isLineBreak
  isNamePart_eq _ := isNamePart_of_isLineBreak
  notMem_text c lineBreak mark member := by
    cases lineBreak.symm.trans (mark.isLineBreak_eq c member)
  isLineBreak_eq _ _ first second := first.trans second.symm

/-- The text with a carriage return in front of each line feed. -/
def withReturns (text : List Char) : List Char :=
  text.flatMap returned

theorem write_returning (text : List Char) : returning.write text = withReturns text := rfl

section

variable {c : Char} {text rest : List Char}

theorem withReturns_append (first second : List Char) :
    withReturns (first ++ second) = withReturns first ++ withReturns second :=
  List.flatMap_append

theorem withReturns_cons_lineFeed (rest : List Char) :
    withReturns ('\n' :: rest) = '\r' :: '\n' :: withReturns rest := rfl

theorem withReturns_cons (other : c ≠ '\n') (rest : List Char) :
    withReturns (c :: rest) = c :: withReturns rest := by
  rw [withReturns, List.flatMap_cons, returned, if_neg other, List.singleton_append]
  rfl

theorem withReturns_eq_self (inLine : ∀ c ∈ text, isLineBreak c = false) :
    withReturns text = text := by
  have short : ∀ c ∈ text, ¬returning.IsLong c := fun c member =>
    Bool.eq_false_iff.1 (inLine c member)
  rw [← write_returning, Lengthening.write_eq_self short]

theorem isLineBreak_of_ne (noReturn : c ≠ '\r') (noFeed : c ≠ '\n') : isLineBreak c = false := by
  rw [isLineBreak, Bool.or_eq_false_iff, beq_eq_false_iff_ne, beq_eq_false_iff_ne]
  exact ⟨noFeed, noReturn⟩

/-- The lines that come in have nothing on them. -/
theorem contentLines_withReturns (text : List Char) :
    Comment.contentLines (withReturns text) = Comment.contentLines text := by
  induction length : text.length using Nat.strongRecOn generalizing text with
  | ind bound inductionHypothesis =>
    rcases Comment.line_or_cut text with none | ⟨line, c, rest, rfl, none, cut⟩
    · rw [withReturns_eq_self none]
    · have shorter : rest.length < bound := by
        rw [← length, List.length_append, List.length_cons]
        omega
      obtain ⟨nonempty, breaks⟩ := returned_of_isLineBreak cut
      obtain ⟨lead, more, same⟩ := List.exists_cons_of_ne_nil nonempty
      rw [same] at breaks
      obtain ⟨first, others⟩ := List.forall_mem_cons.1 breaks
      have blank : ∀ d ∈ more, isBlank d := fun d member =>
        isBlank_of_isLineBreak (others d member)
      have written : withReturns (line ++ c :: rest) =
          line ++ lead :: (more ++ withReturns rest) := by
        rw [withReturns_append, withReturns_eq_self none]
        show line ++ (returned c ++ withReturns rest) = _
        rw [same, List.cons_append]
      rw [written, Comment.contentLines_append line _ first, Comment.contentLines_append line _ cut,
        Comment.contentLines_append_of_isBlank blank, inductionHypothesis _ shorter rest rfl]

end

/-! ### Line breaks between quotes -/

/-- What may stand between quotes: line breaks stand behind backslashes only. A backslash takes one
character with it. -/
inductive Quoted.IsContent : List Char → Prop
  | nil : IsContent []
  | escape {c rest} : IsContent rest → IsContent ('\\' :: c :: rest)
  | plain {c rest} : c ≠ '\\' → isLineBreak c = false → IsContent rest → IsContent (c :: rest)

namespace Quoted

variable {quote c : Char} {text content front rest : List Char}

/-- What an escape has passed of the content is content no more, and the rest still is. -/
theorem IsContent.of_append (isContent : IsContent (front ++ rest)) (passed : '\\' ∉ front) :
    IsContent rest := by
  induction front with
  | nil => exact isContent
  | cons c front inductionHypothesis =>
    rw [List.mem_cons, not_or] at passed
    refine inductionHypothesis ?_ passed.2
    rw [List.cons_append] at isContent
    generalize front ++ rest = behind at isContent ⊢
    cases isContent with
    | escape _ => exact absurd rfl passed.1
    | plain _ _ goesOn => exact goesOn

/-- Without carriage returns, what the lexer passes over is content. -/
theorem IsBody.isContent (isBody : IsBody quote content) (noReturn : '\r' ∉ content) :
    IsContent content := by
  induction isBody with
  | nil => exact .nil
  | plain plain _ inductionHypothesis =>
    rw [List.mem_cons, not_or] at noReturn
    exact .plain plain.noBackslash plain.noLineBreak (inductionHypothesis noReturn.2)
  | escape _ inductionHypothesis =>
    rw [List.mem_cons, List.mem_cons, not_or, not_or] at noReturn
    exact .escape (inductionHypothesis noReturn.2.2)
  | returnFeed _ _ => simp at noReturn

/-- A string that the lexer cuts off consists of content and the closing quote. -/
theorem exists_content (noReturn : '\r' ∉ text) {count : Nat}
    (cut : quotedShape quote text = (.quotedString, count)) :
    ∃ content, text.take count = content ++ [quote] ∧ IsContent content := by
  obtain ⟨content, after, rfl, rfl, isBody⟩ := exists_body cut
  exact ⟨content, List.take_length_add_append 1,
    isBody.isContent fun member => noReturn (List.mem_append_left _ member)⟩

/-- A string ends at the same place if carriage returns are put in. -/
theorem quotedShape_returning (noReturn : '\r' ∉ text) (isQuote : quote = '\x22' ∨ quote = '\x27') :
    quotedShape quote (withReturns text) = returning.extent text (quotedShape quote text) := by
  have further (front rest : List Char)
      (passes : quotedShape quote (withReturns front ++ withReturns rest) =
        (quotedShape quote (withReturns rest)).map id (· + (withReturns front).length))
      (behind : quotedShape quote (withReturns rest) =
        returning.extent rest (quotedShape quote rest)) :
      quotedShape quote (withReturns (front ++ rest)) =
        returning.extent (front ++ rest) ((quotedShape quote rest).map id (· + front.length)) := by
    rw [withReturns_append, passes, behind, Lengthening.extent_append]
    rfl
  fun_induction quotedShape quote text with
  | case1 => rfl
  | case2 rest _ => simp at noReturn
  | case3 c rest _ inductionHypothesis =>
    rw [List.mem_cons, List.mem_cons, not_or, not_or] at noReturn
    refine further ['\\', c] rest ?_ (inductionHypothesis noReturn.2.2)
    by_cases isFeed : c = '\n'
    · rw [isFeed]
      rfl
    · have written : withReturns ['\\', c] = ['\\', c] := by
        rw [withReturns_cons (by decide), withReturns_cons isFeed]
        rfl
      rw [written]
      exact shape_escape (Ne.symm noReturn.2.1) (List.forall_mem_nil _) _
  | case4 => rfl
  | case5 c rest _ _ _ ends =>
    rw [isLineBreak, Bool.or_eq_true, beq_iff_eq, beq_iff_eq] at ends
    rcases ends with rfl | rfl
    · rfl
    · simp at noReturn
  | case6 rest => rcases isQuote with rfl | rfl <;> rfl
  | case7 c rest _ noEscape atEnd inLine other inductionHypothesis =>
    have plain : IsPlain quote c := .of_passed atEnd noEscape inLine other
    rw [List.mem_cons, not_or] at noReturn
    have written : withReturns [c] = [c] :=
      withReturns_eq_self (List.forall_mem_singleton.2 plain.noLineBreak)
    refine further [c] rest ?_ (inductionHypothesis noReturn.2)
    rw [written]
    exact shape_plain plain _

end Quoted

namespace Escape

variable {c : Char} {content : List Char}

theorem isSkipped_of_isLineBreak (lineBreak : isLineBreak c) : isSkipped c = true := by
  rw [isLineBreak, Bool.or_eq_true, beq_iff_eq, beq_iff_eq] at lineBreak
  rcases lineBreak with rfl | rfl <;> rfl

/-- What fails at line breaks goes as far in the first characters if carriage returns are put in. -/
theorem takeWhile_take_withReturns {test : Char → Bool}
    (fails : ∀ c, isLineBreak c → test c = false) (count : Nat) (text : List Char) :
    ((withReturns text).take count).takeWhile test = (text.take count).takeWhile test := by
  induction text generalizing count with
  | nil => rfl
  | cons c text inductionHypothesis =>
    cases count with
    | zero => rfl
    | succ count =>
      by_cases isFeed : c = '\n'
      · rw [isFeed, withReturns_cons_lineFeed, List.take_succ_cons, List.take_succ_cons,
          List.takeWhile_cons, List.takeWhile_cons, fails _ rfl, fails _ rfl]
        rfl
      · rw [withReturns_cons isFeed, List.take_succ_cons, List.take_succ_cons,
          List.takeWhile_cons, List.takeWhile_cons, inductionHypothesis]

/-- Two hexadecimal digits are the same if carriage returns are put in. -/
theorem mapM_take_withReturns (count : Nat) (text : List Char) :
    ((withReturns text).take count).mapM hexDigitValue? =
      (text.take count).mapM hexDigitValue? := by
  induction text generalizing count with
  | nil => rfl
  | cons c text inductionHypothesis =>
    cases count with
    | zero => rfl
    | succ count =>
      by_cases isFeed : c = '\n'
      · rw [isFeed, withReturns_cons_lineFeed, List.take_succ_cons, List.take_succ_cons,
          List.mapM_cons, List.mapM_cons]
        rfl
      · rw [withReturns_cons isFeed, List.take_succ_cons, List.take_succ_cons,
          List.mapM_cons, List.mapM_cons, inductionHypothesis]

theorem length_of_mapM {digits : List Char} {values : List Nat}
    (found : digits.mapM hexDigitValue? = some values) : digits.length = values.length := by
  induction digits generalizing values with
  | nil =>
    cases found
    rfl
  | cons c digits inductionHypothesis =>
    rw [List.mapM_cons] at found
    obtain ⟨value, -, found⟩ := Option.bind_eq_some_iff.1 found
    obtain ⟨further, others, found⟩ := Option.bind_eq_some_iff.1 found
    cases found
    exact congrArg Nat.succ (inductionHypothesis others)

/-- What an escape is read as if carriage returns are put in behind it: the same fault, or the same
bytes, and then it passes the same part of the text, in which there is no backslash. -/
def ReadsAlike (c : Char) (text : List Char) : Prop :=
  (∃ length, read c text = .error length ∧ read c (withReturns text) = .error length) ∨
    ∃ bytes front rest, text = front ++ rest ∧ '\\' ∉ front ∧
      read c text = .ok (bytes, front.length) ∧
        read c (withReturns text) = .ok (bytes, (withReturns front).length)

theorem readsAlike_hexadecimal (text : List Char) : ReadsAlike 'x' text := by
  have noName : named? 'x' = none := rfl
  have noBreak : ¬('x' = '\n' ∨ 'x' = '\r') := by decide
  rw [ReadsAlike, read, read, noName]
  dsimp only
  rw [if_neg noBreak, if_neg noBreak, if_pos rfl, if_pos rfl, mapM_take_withReturns]
  cases found : (text.take 2).mapM hexDigitValue? with
  | none => exact .inl ⟨4, rfl, rfl⟩
  | some values =>
    have length := length_of_mapM found
    have areDigits := Numeral.isSome_mapM_iff.1 (Option.isSome_of_eq_some found)
    rcases values with _ | ⟨high, _ | ⟨low, _ | ⟨_, _⟩⟩⟩
    · exact .inl ⟨4, rfl, rfl⟩
    · exact .inl ⟨4, rfl, rfl⟩
    · have passed : '\\' ∉ text.take 2 := fun member => by cases areDigits _ member
      have kept : withReturns (text.take 2) = text.take 2 := by
        refine withReturns_eq_self fun d member => isLineBreak_of_ne ?_ ?_ <;>
        · rintro rfl
          cases areDigits _ member
      refine .inr ⟨[UInt8.ofNat (16 * high + low)], text.take 2, text.drop 2,
        (List.take_append_drop ..).symm, passed, ?_, ?_⟩
      · rw [length]
        rfl
      · rw [kept, length]
        rfl
    · exact .inl ⟨4, rfl, rfl⟩

theorem readsAlike_skip (text : List Char) : ReadsAlike 'z' text := by
  have uniform : ∀ c d, returning.IsLong c → returning.IsLong d → isSkipped c = isSkipped d :=
    fun c d first second => (isSkipped_of_isLineBreak first).trans
      (isSkipped_of_isLineBreak second).symm
  refine .inr ⟨[], text.takeWhile isSkipped, text.dropWhile isSkipped,
    List.takeWhile_append_dropWhile.symm, fun member => ?_, rfl, ?_⟩
  · cases List.all_eq_true.1 List.all_takeWhile _ member
  · show Except.ok ([], ((withReturns text).takeWhile isSkipped).length) = _
    rw [← write_returning, Lengthening.takeWhile_write uniform, write_returning]

theorem readsAlike_decimal (digit : c.isDigit) (text : List Char) : ReadsAlike c text := by
  have fails : ∀ c, isLineBreak c → c.isDigit = false := fun c lineBreak =>
    (Bool.or_eq_false_iff.1
      (Bool.or_eq_false_iff.1 (isNamePart_of_isLineBreak lineBreak)).1).2
  rw [ReadsAlike, Quoted.read_digit digit, Quoted.read_digit digit,
    takeWhile_take_withReturns fails]
  have front : (text.take 2).takeWhile Char.isDigit <+: text :=
    (List.takeWhile_prefix _).trans (List.take_prefix ..)
  have areDigits : ∀ d ∈ (text.take 2).takeWhile Char.isDigit, d.isDigit :=
    List.all_eq_true.1 List.all_takeWhile
  obtain ⟨rest, same⟩ := front
  split
  · refine .inr ⟨_, (text.take 2).takeWhile Char.isDigit, rest, same.symm,
      fun member => ?_, rfl, ?_⟩
    · cases areDigits _ member
    · rw [withReturns_eq_self fun d member => ?_]
      refine Bool.eq_false_iff.2 fun lineBreak => ?_
      cases (fails d lineBreak).symm.trans (areDigits d member)
  · exact .inl ⟨_, rfl, rfl⟩

/-- An escape behind which no line break is passed over is read alike. -/
theorem readsAlike (inLine : isLineBreak c = false) (text : List Char) : ReadsAlike c text := by
  have noBreak : ¬(c = '\n' ∨ c = '\r') := by
    rintro (rfl | rfl) <;> cases inLine
  cases named : named? c with
  | some byte =>
    refine .inr ⟨[byte], [], text, rfl, List.not_mem_nil, ?_, ?_⟩ <;>
    · rw [read, named]
      rfl
  | none =>
    by_cases isHexadecimal : c = 'x'
    · exact isHexadecimal ▸ readsAlike_hexadecimal text
    by_cases skips : c = 'z'
    · exact skips ▸ readsAlike_skip text
    by_cases digit : c.isDigit
    · exact readsAlike_decimal digit text
    · refine .inl ⟨2, ?_, ?_⟩ <;>
      · rw [read, named]
        dsimp only
        rw [if_neg noBreak, if_neg isHexadecimal, if_neg skips, if_neg digit]

theorem toOption_decode (content : List Char) :
    (decode content).toOption = (decodeFrom 0 content).toOption := by
  rw [decode]
  cases decodeFrom 0 content <;> rfl

/-- Content is decoded to the same bytes if carriage returns are put in. -/
theorem toOption_decodeFrom_withReturns (isContent : Quoted.IsContent content)
    (noReturn : '\r' ∉ content) (offset other : Nat) :
    (decodeFrom other (withReturns content)).toOption = (decodeFrom offset content).toOption := by
  induction length : content.length using Nat.strongRecOn generalizing content offset other with
  | ind bound inductionHypothesis =>
    cases isContent with
    | nil =>
      show (decodeFrom other []).toOption = _
      rw [decodeFrom, decodeFrom]
    | @escape c text isContent =>
      rw [List.mem_cons, List.mem_cons, not_or, not_or] at noReturn
      have shorter : text.length + 2 = bound := length
      by_cases isFeed : c = '\n'
      · have next : text.head? ≠ some '\r' := fun same =>
          noReturn.2.2 (List.mem_of_head? same)
        have feed : read '\n' ([] ++ text) = .ok ([0x0A], 0) := by
          simp [read, named?, lineBreakGoesOn, next]
        have both : read '\r' (['\n'] ++ withReturns text) = .ok ([0x0A], 1) := rfl
        have written : withReturns ('\\' :: '\n' :: text) =
            '\\' :: '\r' :: ['\n'] ++ withReturns text := rfl
        have plain : '\\' :: '\n' :: text = '\\' :: '\n' :: [] ++ text := rfl
        rw [isFeed, written, plain, Quoted.decodeFrom_escape both, Quoted.decodeFrom_escape feed,
          toOption_map, toOption_map]
        exact congrArg _ (inductionHypothesis _ (by omega) isContent noReturn.2.2 _ _ rfl)
      · have inLine := isLineBreak_of_ne (Ne.symm noReturn.2.1) isFeed
        have written : withReturns ('\\' :: c :: text) = '\\' :: c :: withReturns text := by
          rw [withReturns_cons (by decide), withReturns_cons isFeed]
        rw [written]
        rcases readsAlike inLine text with ⟨fault, first, second⟩ |
          ⟨bytes, front, rest, rfl, passed, first, second⟩
        · rw [decodeFrom, second, decodeFrom, first]
          rfl
        · have fewer : rest.length < bound := by
            rw [List.length_append] at shorter
            omega
          rw [withReturns_append] at second ⊢
          rw [← List.cons_append, ← List.cons_append, ← List.cons_append, ← List.cons_append,
            Quoted.decodeFrom_escape first, Quoted.decodeFrom_escape second, toOption_map,
            toOption_map]
          exact congrArg _ (inductionHypothesis _ fewer (isContent.of_append passed)
            (fun member => noReturn.2.2 (List.mem_append_right _ member)) _ _ rfl)
    | @plain c text noBackslash inLine isContent =>
      have noFeed : c ≠ '\n' := by
        rintro rfl
        cases inLine
      have shorter : text.length < bound := length ▸ Nat.lt_succ_self _
      have rest : '\r' ∉ text := fun member => noReturn (List.mem_cons_of_mem _ member)
      rw [withReturns_cons noFeed, Quoted.decodeFrom_plain noBackslash,
        Quoted.decodeFrom_plain noBackslash, toOption_map, toOption_map,
        inductionHypothesis _ shorter isContent rest]
      rfl

end Escape

/-! ### Line breaks between long brackets -/

namespace LongBracket

variable {level : Nat} {text : List Char}

theorem readLineBreaks_cons {c : Char} (noReturn : c ≠ '\r')
    (single : c = '\n' → '\r' ∉ text) : readLineBreaks (c :: text) = c :: readLineBreaks text := by
  rw [readLineBreaks]
  · exact fun _ same => absurd same noReturn
  · rintro rest isFeed rfl
    exact single isFeed List.mem_cons_self
  · exact noReturn

/-- Both characters of a line break are read as one. -/
theorem readLineBreaks_withReturns (noReturn : '\r' ∉ text) :
    readLineBreaks (withReturns text) = readLineBreaks text := by
  induction text with
  | nil => rfl
  | cons c text inductionHypothesis =>
    rw [List.mem_cons, not_or] at noReturn
    rw [readLineBreaks_cons (Ne.symm noReturn.1) fun _ => noReturn.2,
      ← inductionHypothesis noReturn.2]
    by_cases isFeed : c = '\n'
    · rw [isFeed]
      rfl
    · rw [withReturns_cons isFeed,
        readLineBreaks_cons (Ne.symm noReturn.1) fun same => absurd same isFeed]

/-- Both characters of a line break at the start of a text are dropped. -/
theorem dropLineBreak_withReturns (noReturn : '\r' ∉ text) :
    dropLineBreak (withReturns text) = withReturns (dropLineBreak text) ∧
      '\r' ∉ dropLineBreak text := by
  cases text with
  | nil => exact ⟨rfl, noReturn⟩
  | cons c text =>
    rw [List.mem_cons, not_or] at noReturn
    by_cases isFeed : c = '\n'
    · have drops : dropLineBreak (c :: text) = text := by
        rw [isFeed, dropLineBreak]
        rintro rest rfl
        exact noReturn.2 List.mem_cons_self
      rw [drops, isFeed]
      exact ⟨rfl, noReturn.2⟩
    · have keeps (text : List Char) : dropLineBreak (c :: text) = c :: text := by
        unfold dropLineBreak
        split
        next same => exact absurd (List.cons.inj same).1.symm noReturn.1
        next same => exact absurd (List.cons.inj same).1 isFeed
        next same => exact absurd (List.cons.inj same).1 isFeed
        next same => exact absurd (List.cons.inj same).1.symm noReturn.1
        · rfl
      rw [keeps, withReturns_cons isFeed, keeps, List.mem_cons, not_or]
      exact ⟨rfl, noReturn⟩

/-- A long string has the same value if carriage returns are put in. -/
theorem value_withReturns (level : Nat) {content : List Char} (noReturn : '\r' ∉ content) :
    value (opening level ++ (withReturns content ++ closing level)) =
      value (opening level ++ (content ++ closing level)) := by
  obtain ⟨drops, rest⟩ := dropLineBreak_withReturns noReturn
  rw [value, value, level?_opening_append, level?_opening_append]
  dsimp only [Option.getD_some]
  rw [Comment.inside_append, Comment.inside_append, drops, readLineBreaks_withReturns rest]

end LongBracket

/-! ### Tokens with line breaks -/

namespace Token

/-- Tokens of the kind are enclosed by marks and may hold line breaks. -/
def Kind.isEnclosed : Kind → Bool
  | quotedString | longString | comment => true
  | _ => false

/-- How strings and comments are delimited. Nothing is said of other tokens. -/
inductive Delimited : Kind → List Char → Prop
  | quoted {quote content} : quote = '\x22' ∨ quote = '\x27' → Quoted.IsContent content →
      Delimited .quotedString (quote :: (content ++ [quote]))
  | long (level content) : Delimited .longString
      (LongBracket.opening level ++ (content ++ LongBracket.closing level))
  | line {content} : LongBracket.level? content = none →
      (∀ c ∈ content, isLineBreak c = false) → Delimited .comment ('-' :: '-' :: content)
  | block (level content) : Delimited .comment
      ('-' :: '-' :: (LongBracket.opening level ++ (content ++ LongBracket.closing level)))
  | other {kind text} : kind.isEnclosed = false → Delimited kind text

theorem commentShape_delimited (text : List Char) :
    Delimited (commentShape text).1 ('-' :: '-' :: text.take (commentShape text).2) := by
  unfold commentShape
  split
  next level opens =>
    obtain ⟨rest, rfl⟩ := LongBracket.eq_opening_append_of_level? opens
    rw [← LongBracket.length_opening level, List.drop_left]
    split
    next count closes =>
      obtain ⟨content, after, rfl, rfl, -⟩ := LongBracket.exists_closed closes
      dsimp only
      rw [List.take_length_add_append, LongBracket.take_closed]
      exact .block level content
    · exact .other rfl
  next none =>
    dsimp only
    rw [take_takeWhile]
    refine .line ?_ fun c member => ?_
    · refine Option.eq_none_iff_forall_ne_some.2 fun level opens => ?_
      have starts := (LongBracket.level?_eq_some_iff.1 opens).trans (List.takeWhile_prefix _)
      cases none.symm.trans (LongBracket.level?_eq_some_iff.2 starts)
    · exact Bool.not_eq_true' _ ▸ List.all_eq_true.1 List.all_takeWhile c member

theorem longStringShape_delimited {level : Nat} {text : List Char}
    (opens : LongBracket.level? ('[' :: text) = some level) :
    Delimited (longStringShape level text).1 ('[' :: text.take (longStringShape level text).2) := by
  obtain ⟨front, rest, form, length, rfl⟩ := LongBracket.exists_opening_tail opens
  rw [longStringShape, ← length, List.drop_left]
  split
  next count closes =>
    obtain ⟨content, after, rfl, rfl, -⟩ := LongBracket.exists_closed closes
    dsimp only
    rw [List.take_length_add_append, LongBracket.take_closed, ← List.cons_append, ← form]
    exact .long level content
  · exact .other rfl

/-- What the lexer cuts off is delimited, if it is a string or a comment. -/
theorem shape_delimited {c : Char} {rest : List Char} (noReturn : '\r' ∉ rest) :
    Delimited (shape c rest).1 (c :: rest.take (shape c rest).2) := by
  unfold shape
  split
  next dashes =>
    obtain ⟨rfl, second⟩ := dashes
    obtain ⟨more, rfl⟩ := List.head?_eq_some_iff.1 second
    exact commentShape_delimited more
  split
  next isQuote =>
    rcases quotedShape_kind c rest with kind | kind
    · obtain ⟨content, same, isContent⟩ := Quoted.exists_content noReturn (Prod.ext kind rfl)
      rw [kind, same]
      exact .quoted isQuote isContent
    · rw [kind]
      exact .other rfl
  split
  · exact .other rfl
  split
  · dsimp only
    unfold wordKind
    split <;> exact .other rfl
  split
  next level opens =>
    obtain rfl := LongBracket.eq_bracket_of_level? opens
    exact longStringShape_delimited opens
  split <;> exact .other rfl

/-- Words, marks, names and numbers have no line breaks in them. -/
theorem isLineBreak_of_verbatim {kind : Kind} {text : List Char} (spelled : Spelled kind text)
    (verbatim : kind.isVerbatim) : ∀ c ∈ text, isLineBreak c = false := by
  have parts {c : Char} (solid : isBlank c = false) : isLineBreak c = false := by
    refine Bool.eq_false_iff.2 fun lineBreak => ?_
    cases (isBlank_of_isLineBreak lineBreak).symm.trans solid
  cases spelled with
  | keyword word =>
    obtain ⟨c, rest, form, starts, goOn⟩ := word.text_eq_cons
    rw [form]
    exact List.forall_mem_cons.2
      ⟨parts (isBlank_of_isNamePart (isNamePart_of_isNameStart starts)),
        fun d member => parts (isBlank_of_isNamePart (goOn d member))⟩
  | symbol mark => exact mark.isLineBreak_eq
  | name isName => exact fun c member => parts (isName.isBlank_eq c member)
  | number isNumber => exact fun c member => parts (isNumber.isBlank_eq c member)
  | comment => cases verbatim
  | quotedString => cases verbatim
  | longString => cases verbatim
  | unterminatedComment => cases verbatim
  | unterminatedString => cases verbatim
  | unknown => cases verbatim

/-- A quoted string has the same bytes with carriage returns put in. -/
theorem stringValue?_quoted {quote : Char} {content : List Char}
    (isQuote : quote = '\x22' ∨ quote = '\x27') (isContent : Quoted.IsContent content)
    (noReturn : '\r' ∉ content) (start other : Nat) :
    stringValue? ⟨.quotedString, withReturns (quote :: (content ++ [quote])), other⟩ =
      stringValue? ⟨.quotedString, quote :: (content ++ [quote]), start⟩ := by
  have written : withReturns (quote :: (content ++ [quote])) =
      quote :: (withReturns content ++ [quote]) := by
    have noFeed : quote ≠ '\n' := by rcases isQuote with rfl | rfl <;> decide
    rw [withReturns_cons noFeed, withReturns_append, withReturns_cons noFeed]
    rfl
  rw [written]
  show (Escape.decode (withReturns content ++ [quote]).dropLast).toOption =
    (Escape.decode (content ++ [quote]).dropLast).toOption
  rw [List.dropLast_concat, List.dropLast_concat, Escape.toOption_decode, Escape.toOption_decode,
    Escape.toOption_decodeFrom_withReturns isContent noReturn 0 0]

theorem withReturns_enclosed (level : Nat) (content : List Char) :
    withReturns (LongBracket.opening level ++ (content ++ LongBracket.closing level)) =
      LongBracket.opening level ++ (withReturns content ++ LongBracket.closing level) := by
  have opening : withReturns (LongBracket.opening level) = LongBracket.opening level :=
    Lengthening.write_eq_self (Lengthening.not_isLong_opening returning level)
  have closing : withReturns (LongBracket.closing level) = LongBracket.closing level :=
    Lengthening.write_eq_self (Lengthening.not_isLong_closing returning level)
  rw [withReturns_append, withReturns_append, opening, closing]

theorem ofToken_line {content : List Char} (noBracket : LongBracket.level? content = none)
    (start : Nat) :
    (Comment.ofToken ⟨.comment, '-' :: '-' :: content, start⟩).style = .line ∧
      (Comment.ofToken ⟨.comment, '-' :: '-' :: content, start⟩).text = content := by
  have behind : (Token.mk .comment ('-' :: '-' :: content) start).text.drop 2 = content := rfl
  rw [Comment.ofToken, behind, noBracket]
  exact ⟨rfl, rfl⟩

theorem ofToken_block (level : Nat) (content : List Char) (start : Nat) :
    (Comment.ofToken ⟨.comment, '-' :: '-' ::
      (LongBracket.opening level ++ (content ++ LongBracket.closing level)), start⟩).style =
        .block ∧
    (Comment.ofToken ⟨.comment, '-' :: '-' ::
      (LongBracket.opening level ++ (content ++ LongBracket.closing level)), start⟩).text =
        content := by
  have behind : (Token.mk .comment ('-' :: '-' :: (LongBracket.opening level ++
      (content ++ LongBracket.closing level))) start).text.drop 2 =
      LongBracket.opening level ++ (content ++ LongBracket.closing level) := rfl
  rw [Comment.ofToken, behind, LongBracket.level?_opening_append]
  exact ⟨rfl, Comment.inside_append level content⟩

/-- A token with carriage returns put in is respelled. -/
theorem respelled_withReturns {kind : Kind} {text : List Char} (spelled : Spelled kind text)
    (delimited : Delimited kind text) (noReturn : '\r' ∉ text) (start other : Nat) :
    Respelled withReturns ⟨kind, text, start⟩ ⟨kind, withReturns text, other⟩ where
  kind := rfl
  verbatim verbatim := withReturns_eq_self (isLineBreak_of_verbatim spelled verbatim)
  string isString := by
    refine ⟨rfl, ?_⟩
    have isString : kind = .quotedString ∨ kind = .longString := isString
    cases delimited with
    | quoted isQuote isContent =>
      refine stringValue?_quoted isQuote isContent (fun member => noReturn ?_) start other
      exact List.mem_cons_of_mem _ (List.mem_append_left _ member)
    | long level content =>
      have none : '\r' ∉ content := fun member =>
        noReturn (List.mem_append_right _ (List.mem_append_left _ member))
      show some (Utf8.encode (LongBracket.value (withReturns _))) =
        some (Utf8.encode (LongBracket.value _))
      rw [withReturns_enclosed, LongBracket.value_withReturns level none]
    | line => rcases isString with isString | isString <;> cases isString
    | block => rcases isString with isString | isString <;> cases isString
    | other bare => rcases isString with rfl | rfl <;> cases bare
  comment isComment := by
    refine ⟨rfl, ?_⟩
    have isComment : kind = .comment := isComment
    have dash : '-' ≠ '\n' := by decide
    cases delimited with
    | quoted => cases isComment
    | long => cases isComment
    | line noBracket inLine =>
      obtain ⟨style, said⟩ := ofToken_line noBracket start
      obtain ⟨otherStyle, otherSaid⟩ := ofToken_line noBracket other
      rw [withReturns_cons dash, withReturns_cons dash, withReturns_eq_self inLine, style, said,
        otherStyle, otherSaid]
      exact ⟨rfl, rfl⟩
    | block level content =>
      obtain ⟨style, said⟩ := ofToken_block level content start
      obtain ⟨otherStyle, otherSaid⟩ := ofToken_block level (withReturns content) other
      rw [withReturns_cons dash, withReturns_cons dash, withReturns_enclosed, style, said,
        otherStyle, otherSaid]
      exact ⟨rfl, rfl⟩
    | other bare =>
      subst isComment
      cases bare

/-- The tokens of a text are respelled if carriage returns are put in. -/
theorem respelled_tokensFrom {text : List Char} (noReturn : '\r' ∉ text) (offset other : Nat) :
    List.Forall₂ (Respelled withReturns) (tokensFrom offset text)
      (tokensFrom other (withReturns text)) := by
  fun_induction tokensFrom offset text generalizing other with
  | case1 =>
    rw [withReturns, List.flatMap_nil, tokensFrom]
    exact .nil
  | case2 offset c rest space inductionHypothesis =>
    rw [List.mem_cons, not_or] at noReturn
    by_cases isFeed : c = '\n'
    · subst isFeed
      rw [withReturns_cons_lineFeed, tokensFrom_space rfl, tokensFrom_space rfl]
      exact inductionHypothesis noReturn.2 _
    · rw [withReturns_cons isFeed, tokensFrom_space space]
      exact inductionHypothesis noReturn.2 _
  | case3 offset c rest solid kind count shaped token inductionHypothesis =>
    have noSpace : isSpace c = false := Bool.eq_false_iff.2 solid
    rw [List.mem_cons, not_or] at noReturn
    have noFeed : c ≠ '\n' := by
      rintro rfl
      cases noSpace
    have inLine := isLineBreak_of_ne (Ne.symm noReturn.1) noFeed
    have whole : withReturns rest =
        withReturns (rest.take count) ++ withReturns (rest.drop count) := by
      rw [← withReturns_append, List.take_append_drop]
    have cut : shape c (withReturns rest) = (kind, (withReturns (rest.take count)).length) := by
      rw [← write_returning, Lengthening.shape_write (Bool.eq_false_iff.1 inLine)
        (Quoted.quotedShape_returning noReturn.2), shaped]
      rfl
    have spelled := shape_spelled c rest
    have delimited := shape_delimited (c := c) noReturn.2
    rw [shaped] at spelled delimited
    have none : '\r' ∉ c :: rest.take count := fun member =>
      (List.mem_cons.1 member).elim noReturn.1 fun later =>
        noReturn.2 (List.mem_of_mem_take later)
    have written : c :: withReturns (rest.take count) = withReturns (c :: rest.take count) :=
      (withReturns_cons noFeed _).symm
    rw [withReturns_cons noFeed, tokensFrom_cons noSpace, cut, whole, List.take_left,
      List.drop_left, written]
    exact .cons (respelled_withReturns spelled delimited none ..)
      (inductionHypothesis (fun member => noReturn.2 (List.mem_of_mem_drop member)) _)

end Token

/-! ### Sources with carriage returns -/

/-- The line endings of a source do not matter. A source without carriage returns parses exactly if
it does with one put in front of each line feed, and then both have the same layout in every
configuration. -/
theorem format_ignores_returns {source : List Char} (plain : '\r' ∉ source) :
    ((Program.parse (withReturns source)).isOk ↔ (Program.parse source).isOk) ∧
      ((Program.parse source).isOk → ∀ config, ∃ text, formatText config source = .ok text ∧
        formatText config (withReturns source) = .ok text) := by
  rcases format_congr_of_respelled contentLines_withReturns
    (Token.respelled_tokensFrom plain 0 0) with
    ⟨error, other, failed, alsoFailed, -⟩ | ⟨program, copy, parsed, alsoParsed, laid⟩
  · rw [failed, alsoFailed]
    exact ⟨Iff.rfl, fun isOk => by cases isOk⟩
  · rw [parsed, alsoParsed]
    exact ⟨Iff.rfl, fun _ => laid⟩

theorem format_ignores_returns_of_lines :
    '\r' ∉ "x = 'a\\\nb\\z\\\n' --c\n--[[d\n\ne]]\ny = [[\n\nf]]".toList ∧
    (Program.parse (withReturns
      "x = 'a\\\nb\\z\\\n' --c\n--[[d\n\ne]]\ny = [[\n\nf]]".toList)).isOk ∧
    ∀ config, ∃ text,
      formatText config "x = 'a\\\nb\\z\\\n' --c\n--[[d\n\ne]]\ny = [[\n\nf]]".toList = .ok text ∧
      formatText config (withReturns
        "x = 'a\\\nb\\z\\\n' --c\n--[[d\n\ne]]\ny = [[\n\nf]]".toList) = .ok text := by
  have plain : '\r' ∉ "x = 'a\\\nb\\z\\\n' --c\n--[[d\n\ne]]\ny = [[\n\nf]]".toList := by
    decide +kernel
  have parsed : (Program.parse
      "x = 'a\\\nb\\z\\\n' --c\n--[[d\n\ne]]\ny = [[\n\nf]]".toList).isOk := by
    decide +kernel
  obtain ⟨both, laid⟩ := format_ignores_returns plain
  exact ⟨plain, both.2 parsed, laid parsed⟩

end LuaStyle
