/-
This file says how the tokens of a source look and how they lie in it.

What a token of a kind is written as can be told without the lexer: a reserved word and a symbol
are their texts, a name is made of the characters of names and is not reserved, a number is one that
goes on to its end, and a comment without long brackets has no line break in it. Every token that
the lexer cuts off is written so. And the tokens lie one behind the other, each of them with at
least one byte, so the offsets of a token tell where it stands among the others.
-/

import LuaStyle.Parser.Program

namespace LuaStyle

/-! ### Cutting lists -/

section

variable {Item : Type} {test : Item → Bool}

theorem dropWhile_eq_self {items : List Item} (stops : ∀ item ∈ items.head?, test item = false) :
    items.dropWhile test = items := by
  cases items with
  | nil => rfl
  | cons item rest => rw [List.dropWhile_cons, stops item rfl]; rfl

theorem takeWhile_eq_nil {items : List Item} (stops : ∀ item ∈ items.head?, test item = false) :
    items.takeWhile test = [] := by
  cases items with
  | nil => rfl
  | cons item rest => rw [List.takeWhile_cons, stops item rfl]; rfl

/-- A list is cut where its first part, all of which passes the test, ends. -/
theorem takeWhile_append_eq {first rest : List Item} (passes : ∀ item ∈ first, test item)
    (stops : ∀ item ∈ rest.head?, test item = false) : (first ++ rest).takeWhile test = first := by
  rw [List.takeWhile_append_of_pos passes, takeWhile_eq_nil stops, List.append_nil]

/-- Dropping what passes a test stops at the first item that does not. -/
theorem dropWhile_append_eq {first rest : List Item} (passes : ∀ item ∈ first, test item)
    (stops : ∀ item ∈ rest.head?, test item = false) : (first ++ rest).dropWhile test = rest := by
  rw [List.dropWhile_append_of_pos passes, dropWhile_eq_self stops]

theorem head?_dropWhile (items : List Item) :
    ∀ item ∈ (items.dropWhile test).head?, test item = false := by
  induction items with
  | nil =>
    intro _ member
    cases member
  | cons other rest inductionHypothesis =>
    rw [List.dropWhile_cons]
    split
    · exact inductionHypothesis
    next fails =>
      intro item same
      cases same
      exact Bool.eq_false_iff.2 fails

/-- Taking as many items as pass a test takes those that do. -/
theorem take_takeWhile (test : Item → Bool) (items : List Item) :
    items.take (items.takeWhile test).length = items.takeWhile test :=
  (List.prefix_iff_eq_take.1 (List.takeWhile_prefix test)).symm

end

/-! ### Long brackets -/

namespace LongBracket

theorem length_opening (level : Nat) : (opening level).length = level + 2 := by
  simp [opening]

theorem length_closing (level : Nat) : (closing level).length = level + 2 := by
  simp [closing]

/-- The level of a long bracket is read off the text it starts. -/
theorem level?_opening_append (level : Nat) (rest : List Char) :
    level? (opening level ++ rest) = some level := by
  have marks : ∀ c ∈ List.replicate level '=', (c == '=') = true := fun c member =>
    beq_iff_eq.2 (List.eq_of_mem_replicate member)
  have ends : ∀ c ∈ ('[' :: rest).head?, (c == '=') = false := by simp
  have cut := takeWhile_append_eq marks ends
  have same : opening level ++ rest = '[' :: (List.replicate level '=' ++ '[' :: rest) := by
    simp [opening]
  rw [same, level?, cut, List.length_replicate, List.drop_left' List.length_replicate]
  rfl

/-- A text starts with a long bracket exactly when the opening bracket of its level can be cut
off. -/
theorem eq_opening_append_of_level? {text : List Char} {level : Nat}
    (opens : level? text = some level) : ∃ rest, text = opening level ++ rest := by
  unfold level? at opens
  split at opens
  next rest =>
    dsimp only at opens
    split at opens
    next bracket =>
      cases opens
      have marks : rest.takeWhile (· == '=') =
          List.replicate (rest.takeWhile (· == '=')).length '=' :=
        List.eq_replicate_iff.2 ⟨rfl, fun c member =>
          eq_of_beq (List.all_eq_true.1 List.all_takeWhile c member)⟩
      have split := List.take_append_drop (rest.takeWhile (· == '=')).length rest
      rw [take_takeWhile] at split
      generalize rest.drop (rest.takeWhile (· == '=')).length = after at bracket split
      cases after with
      | nil => cases bracket
      | cons c after =>
        cases bracket
        refine ⟨after, ?_⟩
        rw [opening, List.cons_append, List.cons_append, List.append_assoc, ← marks,
          List.singleton_append, split]
    · cases opens
  · cases opens

/-- Only a square bracket starts a long bracket. -/
theorem eq_bracket_of_level? {c : Char} {text : List Char} {level : Nat}
    (opens : level? (c :: text) = some level) : c = '[' := by
  obtain ⟨_, same⟩ := eq_opening_append_of_level? opens
  exact (List.cons.inj same).1

/-- Behind the first character of an opening bracket stands the rest of it. -/
theorem exists_opening_tail {text : List Char} {level : Nat}
    (opens : level? ('[' :: text) = some level) :
    ∃ front rest, opening level = '[' :: front ∧ front.length = level + 1 ∧
      text = front ++ rest := by
  obtain ⟨rest, same⟩ := eq_opening_append_of_level? opens
  obtain ⟨front, form⟩ : ∃ front, opening level = '[' :: front := ⟨_, rfl⟩
  have length := length_opening level
  rw [form] at same length
  exact ⟨front, rest, form, Nat.succ.inj length, (List.cons.inj same).2⟩

/-- A text has a level exactly if the opening bracket of that level stands in front of it. -/
theorem level?_eq_some_iff {text : List Char} {level : Nat} :
    level? text = some level ↔ opening level <+: text := by
  constructor
  · intro opens
    obtain ⟨rest, same⟩ := eq_opening_append_of_level? opens
    exact ⟨rest, same.symm⟩
  · rintro ⟨rest, rfl⟩
    exact level?_opening_append level rest

/-- The opening of a long bracket is still there in the first part of a text that holds it. -/
theorem level?_take {text : List Char} {level count : Nat} (opens : level? text = some level)
    (enough : level + 2 ≤ count) : level? (text.take count) = some level := by
  obtain ⟨rest, rfl⟩ := eq_opening_append_of_level? opens
  rw [List.take_append, List.take_of_length_le (by rw [length_opening]; exact enough)]
  exact level?_opening_append level _

end LongBracket

namespace Token

/-! ### How tokens are written -/

/-- The text is that of a name. -/
def IsName (text : List Char) : Prop :=
  ∃ c rest, text = c :: rest ∧ isNameStart c ∧ (∀ d ∈ rest, isNamePart d) ∧
    Keyword.ofText? text = none

/-- The text is that of a number, from its first character to its last. -/
def IsNumber (text : List Char) : Prop :=
  ∃ c rest, text = c :: rest ∧ startsNumber c rest ∧
    numberLength (startsHexadecimal text) c rest = rest.length

/-- A token of the kind can be written as the text. Of strings it is said how they start, and
nothing is said of malformed tokens. -/
inductive Spelled : Kind → List Char → Prop
  | keyword (word : Keyword) : Spelled (.keyword word) word.text
  | symbol (mark : Symbol) : Spelled (.symbol mark) mark.text
  | name {text} : IsName text → Spelled .name text
  | number {text} : IsNumber text → Spelled .number text
  | comment {content} :
    (LongBracket.level? content = none → ∀ c ∈ content, isLineBreak c = false) →
      Spelled .comment ('-' :: '-' :: content)
  | quotedString {quote text} : quote ≠ '[' → Spelled .quotedString (quote :: text)
  | longString {text} : Spelled .longString ('[' :: text)
  | unterminatedComment {text} : Spelled .unterminatedComment text
  | unterminatedString {text} : Spelled .unterminatedString text
  | unknown {text} : Spelled .unknown text

/-- A quote starts a string, closed or not. -/
theorem quotedShape_kind (quote : Char) (text : List Char) :
    (quotedShape quote text).1 = .quotedString ∨
      (quotedShape quote text).1 = .unterminatedString := by
  fun_induction quotedShape quote text <;> simp_all

/-- A long bracket starts a string, closed or not. -/
theorem longStringShape_kind (level : Nat) (text : List Char) :
    (longStringShape level text).1 = .longString ∨
      (longStringShape level text).1 = .unterminatedString := by
  unfold longStringShape
  split <;> simp

/-- What is cut off as a comment is spelled as one of that kind. -/
theorem commentShape_spelled (text : List Char) :
    Spelled (commentShape text).1 ('-' :: '-' :: text.take (commentShape text).2) := by
  unfold commentShape
  split
  next level opens =>
    split
    next length closed =>
      refine .comment fun none => ?_
      rw [LongBracket.level?_take opens (Nat.le_add_right ..)] at none
      cases none
    · exact .unterminatedComment
  · refine .comment fun _ c member => ?_
    rw [take_takeWhile] at member
    have within := List.all_eq_true.1 List.all_takeWhile c member
    rwa [Bool.not_eq_true'] at within

theorem Keyword.text_of_ofText? {word : List Char} {keyword : Keyword}
    (found : Keyword.ofText? word = some keyword) : keyword.text = word := by
  rw [Keyword.ofText?, List.find?_eq_some_iff_append] at found
  exact eq_of_beq found.1

/-- The symbol that is found stands in front of the text. -/
theorem Symbol.isPrefix_of_first? {text : List Char} {symbol : Symbol}
    (found : Symbol.first? text = some symbol) : symbol.text <+: text := by
  rw [Symbol.first?, List.find?_eq_some_iff_append] at found
  exact List.isPrefixOf_iff_prefix.1 found.1

theorem Symbol.text_eq_cons (symbol : Symbol) : ∃ c rest, symbol.text = c :: rest := by
  cases symbol <;> exact ⟨_, _, rfl⟩

/-- A number that goes on to a place goes on to its end when the text ends there. -/
theorem numberLength_take (isHexadecimal : Bool) (previous : Char) (text : List Char) :
    numberLength isHexadecimal previous (text.take (numberLength isHexadecimal previous text)) =
      numberLength isHexadecimal previous text := by
  induction text generalizing previous with
  | nil => rfl
  | cons c rest inductionHypothesis =>
    rw [numberLength]
    split
    next goesOn => rw [List.take_succ_cons, numberLength, if_pos goesOn, inductionHypothesis]
    · rfl

theorem numberLength_le (isHexadecimal : Bool) (previous : Char) (text : List Char) :
    numberLength isHexadecimal previous text ≤ text.length := by
  induction text generalizing previous with
  | nil => exact Nat.le_refl _
  | cons c rest inductionHypothesis =>
    rw [numberLength]
    split
    · exact Nat.succ_le_succ (inductionHypothesis c)
    · exact Nat.zero_le _

/-- A letter or digit goes on a number. -/
theorem numberLength_cons {isHexadecimal : Bool} {previous c : Char} {rest : List Char}
    (alphanumeric : c.isAlphanum) :
    numberLength isHexadecimal previous (c :: rest) = numberLength isHexadecimal c rest + 1 := by
  rw [numberLength, alphanumeric]
  rfl

theorem startsHexadecimal_cons_cons (c d : Char) (rest : List Char) :
    startsHexadecimal (c :: d :: rest) = (c == '0' && (d == 'x' || d == 'X')) := by
  unfold startsHexadecimal
  split <;> simp_all

/-- The part of a number that is cut off tells as well if it is hexadecimal. -/
theorem startsHexadecimal_take (c : Char) (rest : List Char) (isHexadecimal : Bool) :
    startsHexadecimal (c :: rest.take (numberLength isHexadecimal c rest)) =
      startsHexadecimal (c :: rest) := by
  cases rest with
  | nil => rfl
  | cons d rest =>
    cases length : numberLength isHexadecimal c (d :: rest) with
    | succ length =>
      rw [List.take_succ_cons, startsHexadecimal_cons_cons, startsHexadecimal_cons_cons]
    | zero =>
      have other : d.isAlphanum = false := by
        cases alphanumeric : d.isAlphanum with
        | false => rfl
        | true =>
          rw [numberLength_cons alphanumeric] at length
          cases length
      have letter : (d == 'x' || d == 'X') = false := by
        rw [Bool.or_eq_false_iff, beq_eq_false_iff_ne, beq_eq_false_iff_ne]
        constructor <;> rintro rfl <;> cases other
      rw [List.take_zero, startsHexadecimal_cons_cons, letter, Bool.and_false]
      unfold startsHexadecimal
      split <;> simp_all

/-- What is cut off as a number is spelled as one. -/
theorem isNumber_take {c : Char} {rest : List Char} (starts : startsNumber c rest) :
    IsNumber (c :: rest.take (numberLength (startsHexadecimal (c :: rest)) c rest)) := by
  refine ⟨c, _, rfl, ?_, ?_⟩
  · cases rest with
    | nil => exact starts
    | cons d rest =>
      rcases Bool.or_eq_true .. ▸ starts with digit | point
      · rw [startsNumber, digit, Bool.true_or]
      · obtain ⟨same, digit⟩ := Bool.and_eq_true .. ▸ point
        have alphanumeric : d.isAlphanum := by
          rw [Char.isAlphanum, show d.isDigit = true from digit, Bool.or_true]
        rw [numberLength_cons alphanumeric, List.take_succ_cons, startsNumber, same]
        exact Bool.or_eq_true .. ▸ .inr digit
  · rw [startsHexadecimal_take, numberLength_take, List.length_take,
      Nat.min_eq_left (numberLength_le ..)]

/-- What the lexer cuts off is written like a token of the kind it gives. -/
theorem shape_spelled (c : Char) (rest : List Char) :
    Spelled (shape c rest).1 (c :: rest.take (shape c rest).2) := by
  unfold shape
  split
  next dashes =>
    obtain ⟨rfl, second⟩ := dashes
    cases rest with
    | nil => cases second
    | cons d rest =>
      cases second
      exact commentShape_spelled rest
  split
  next quote =>
    rcases quotedShape_kind c rest with kind | kind <;> rw [kind]
    · exact .quotedString (by rcases quote with rfl | rfl <;> exact nofun)
    · exact .unterminatedString
  split
  next starts => exact .number (isNumber_take starts)
  split
  next starts =>
    dsimp only
    rw [take_takeWhile, wordKind]
    split
    next keyword found =>
      rw [← Keyword.text_of_ofText? found]
      exact .keyword keyword
    next none =>
      exact .name ⟨c, _, rfl, starts, List.all_eq_true.1 List.all_takeWhile, none⟩
  split
  next level opens =>
    obtain rfl := LongBracket.eq_bracket_of_level? opens
    rcases longStringShape_kind level rest with kind | kind <;> rw [kind]
    · exact .longString
    · exact .unterminatedString
  split
  next symbol found =>
    obtain ⟨more, same⟩ := Symbol.isPrefix_of_first? found
    obtain ⟨first, others, text⟩ := symbol.text_eq_cons
    rw [text, List.cons_append] at same
    obtain ⟨rfl, rfl⟩ := List.cons.inj same
    dsimp only
    rw [text, List.length_cons, Nat.add_sub_cancel, List.take_left, ← text]
    exact .symbol symbol
  · exact .unknown

/-! ### The tokens of a text -/

theorem tokensFrom_nil (offset : Nat) : tokensFrom offset [] = [] := by
  rw [tokensFrom]

theorem tokensFrom_space {c : Char} (space : isSpace c) (offset : Nat) (rest : List Char) :
    tokensFrom offset (c :: rest) = tokensFrom (offset + c.utf8Size) rest := by
  rw [tokensFrom, if_pos space]

/-- A character that is no space starts a token, and the others come behind it. -/
theorem tokensFrom_cons {c : Char} (solid : isSpace c = false) (offset : Nat) (rest : List Char) :
    tokensFrom offset (c :: rest) =
      ⟨(shape c rest).1, c :: rest.take (shape c rest).2, offset⟩ ::
        tokensFrom (offset + byteLength (c :: rest.take (shape c rest).2))
          (rest.drop (shape c rest).2) := by
  rw [tokensFrom, if_neg (by rw [solid]; exact Bool.false_ne_true)]
  rfl

/-- A token behind an offset that takes up some of the source and is written like its kind. -/
structure Fits (offset : Nat) (token : Token) : Prop where
  start_ge : offset ≤ token.start
  start_lt : token.start < token.stop
  spelled : Spelled token.kind token.text

/-- A token that fits behind an offset fits behind every earlier one. -/
theorem Fits.mono {earlier later : Nat} {token : Token} (fits : Fits later token)
    (before : earlier ≤ later) : Fits earlier token :=
  ⟨Nat.le_trans before fits.start_ge, fits.start_lt, fits.spelled⟩

theorem byteLength_pos (c : Char) (rest : List Char) : 0 < byteLength (c :: rest) :=
  Nat.lt_of_lt_of_le (Char.utf8Size_pos c) (Nat.le_add_right ..)

/-- The tokens of a text stand behind its offset, and each is spelled as its kind. -/
theorem fits_of_mem_tokensFrom {offset : Nat} {text : List Char} :
    ∀ token ∈ tokensFrom offset text, Fits offset token := by
  fun_induction tokensFrom offset text with
  | case1 => exact fun _ member => nomatch member
  | case2 offset c rest space inductionHypothesis =>
    exact fun token member => (inductionHypothesis token member).mono (Nat.le_add_right ..)
  | case3 offset c rest solid kind count shaped token inductionHypothesis =>
    intro other member
    rcases List.mem_cons.1 member with rfl | later
    · refine ⟨Nat.le_refl _, Nat.lt_add_of_pos_right (byteLength_pos ..), ?_⟩
      have spelled := shape_spelled c rest
      rw [shaped] at spelled
      exact spelled
    · exact (inductionHypothesis other later).mono (Nat.le_add_right ..)

/-- The tokens lie one behind the other. -/
theorem pairwise_tokensFrom {offset : Nat} {text : List Char} :
    (tokensFrom offset text).Pairwise fun first second => first.stop ≤ second.start := by
  fun_induction tokensFrom offset text with
  | case1 => exact .nil
  | case2 offset c rest space inductionHypothesis => exact inductionHypothesis
  | case3 offset c rest solid kind count shaped token inductionHypothesis =>
    exact .cons (fun other member => (fits_of_mem_tokensFrom other member).start_ge)
      inductionHypothesis

end Token

end LuaStyle
