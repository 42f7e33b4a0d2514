/-
This file follows the lexer through a text that is written piece by piece.

Where a piece is cut off depends on what is written behind it: a name ends where no further letter
follows, and `-` is an operator unless another one follows. So a statement about a piece names what
stands behind it, and pieces are put together from the end. The pieces here are the lexemes whose
texts are fixed, names, numbers, and the spaces between them; no blank character is in a name or a
number.
-/

import LuaStyle.Proofs.Spelled
import LuaStyle.Text.Blank

namespace LuaStyle

/-! ### Pieces of text -/

/-- With the rest behind it, the text is cut into tokens of which the condition holds, wherever it
starts. -/
def Token.Cuts (text rest : List Char) (holds : List Token → Prop) : Prop :=
  ∀ offset, ∃ tokens, holds tokens ∧
    Token.tokensFrom offset (text ++ rest) =
      tokens ++ Token.tokensFrom (offset + byteLength text) rest

/-- The tokens are two stretches, each as its condition says. -/
def Token.Joined (first second : List Token → Prop) (tokens : List Token) : Prop :=
  ∃ before after, tokens = before ++ after ∧ first before ∧ second after

namespace Token

/-- One token, given how the lexer cuts it. -/
theorem tokensFrom_of_shape {c : Char} {text rest : List Char} {kind : Kind}
    (solid : isSpace c = false) (shaped : shape c (text ++ rest) = (kind, text.length))
    (offset : Nat) :
    tokensFrom offset (c :: (text ++ rest)) =
      ⟨kind, c :: text, offset⟩ :: tokensFrom (offset + byteLength (c :: text)) rest := by
  rw [tokensFrom_cons solid, shaped, List.take_left, List.drop_left]

namespace Cuts

variable {text first second rest : List Char} {holds weaker before after : List Token → Prop}

/-- What is known of the tokens may be weakened. -/
theorem mono (cuts : Cuts text rest holds) (implies : ∀ tokens, holds tokens → weaker tokens) :
    Cuts text rest weaker := by
  intro offset
  obtain ⟨tokens, held, same⟩ := cuts offset
  exact ⟨tokens, implies tokens held, same⟩

theorem nil : Cuts [] rest (· = []) := fun _ => ⟨[], rfl, rfl⟩

/-- Texts that are cut off one in front of the other are cut off together. -/
theorem append (cuts : Cuts first (second ++ rest) before) (further : Cuts second rest after) :
    Cuts (first ++ second) rest (Joined before after) := by
  intro offset
  obtain ⟨tokens, held, same⟩ := cuts offset
  obtain ⟨more, heldMore, sameMore⟩ := further (offset + byteLength first)
  refine ⟨tokens ++ more, ⟨tokens, more, rfl, held, heldMore⟩, ?_⟩
  rw [List.append_assoc, same, sameMore, byteLength_append, List.append_assoc, Nat.add_assoc]

/-- A space in front of a text is passed over. -/
theorem space {c : Char} (isSpace : Token.isSpace c) (cuts : Cuts text rest holds) :
    Cuts (c :: text) rest holds := by
  intro offset
  obtain ⟨tokens, held, same⟩ := cuts (offset + c.utf8Size)
  refine ⟨tokens, held, ?_⟩
  rw [List.cons_append, tokensFrom_space isSpace, same, Nat.add_assoc]
  rfl

/-- Spaces in front of a text are passed over. -/
theorem spaces (blank : ∀ c ∈ first, isSpace c) (cuts : Cuts second rest holds) :
    Cuts (first ++ second) rest holds := by
  induction first with
  | nil => exact cuts
  | cons c first inductionHypothesis =>
    obtain ⟨isSpace, blank⟩ := List.forall_mem_cons.1 blank
    exact (inductionHypothesis blank).space isSpace

/-- Spaces at the end. -/
theorem trailing (cuts : Cuts first (second ++ rest) holds) (blank : ∀ c ∈ second, isSpace c) :
    Cuts (first ++ second) rest holds := by
  have none : Cuts second rest (· = []) := by
    rw [← List.append_nil second]
    exact spaces blank nil
  refine (cuts.append none).mono ?_
  rintro _ ⟨tokens, _, rfl, held, rfl⟩
  rw [List.append_nil]
  exact held

/-- A text of one shape is cut off as one token. -/
theorem of_shape {c : Char} {kind : Kind} (solid : isSpace c = false)
    (shaped : shape c (text ++ rest) = (kind, text.length)) :
    Cuts (c :: text) rest fun tokens =>
      ∃ token, tokens = [token] ∧ token.kind = kind ∧ token.text = c :: text := fun offset =>
  ⟨[⟨kind, c :: text, offset⟩], ⟨_, rfl, rfl, rfl⟩, tokensFrom_of_shape solid shaped offset⟩

end Cuts

/-! ### Words -/

/-- No letter, digit or underscore follows. -/
def EndsName (rest : List Char) : Prop :=
  ∀ c ∈ rest.head?, isNamePart c = false

theorem isAlpha_iff {c : Char} : c.isAlpha ↔
    ('A'.toNat ≤ c.toNat ∧ c.toNat ≤ 'Z'.toNat) ∨ ('a'.toNat ≤ c.toNat ∧ c.toNat ≤ 'z'.toNat) := by
  show (decide ('A'.toNat ≤ c.toNat ∧ c.toNat ≤ 'Z'.toNat) ||
    (decide ('a'.toNat ≤ c.toNat) && decide (c.toNat ≤ 'z'.toNat))) = true ↔ _
  rw [Bool.or_eq_true, Bool.and_eq_true, decide_eq_true_eq, decide_eq_true_eq, decide_eq_true_eq]

theorem isDigit_of_isNameStart {c : Char} (start : isNameStart c) : c.isDigit = false := by
  rw [Bool.eq_false_iff]
  intro digit
  rw [Char.isDigit_iff_toNat] at digit
  rw [isNameStart, Bool.or_eq_true, isAlpha_iff, beq_iff_eq] at start
  rcases start with (upper | lower) | rfl
  · exact absurd (Nat.le_trans upper.1 digit.2) (by decide)
  · exact absurd (Nat.le_trans lower.1 digit.2) (by decide)
  · exact absurd digit.2 (by decide)

/-- No name starts with a space. -/
theorem isSpace_of_isNameStart {c : Char} (start : isNameStart c) : isSpace c = false := by
  cases space : isSpace c with
  | false => rfl
  | true =>
    simp only [isSpace, Bool.or_eq_true, beq_iff_eq] at space
    rcases space with ((((rfl | rfl) | rfl) | rfl) | rfl) | rfl <;> cases start

/-- What a name is made of is cut off in front of what no name goes on with. -/
theorem shape_word {c : Char} {more rest : List Char} (start : isNameStart c)
    (parts : ∀ d ∈ more, isNamePart d) (ends : EndsName rest) :
    shape c (more ++ rest) = (wordKind (c :: more), more.length) := by
  have noDash : c ≠ '-' := by rintro rfl; cases start
  have noDouble : c ≠ '\x22' := by rintro rfl; cases start
  have noSingle : c ≠ '\x27' := by rintro rfl; cases start
  have noPoint : (c == '.') = false := by
    rw [beq_eq_false_iff_ne]
    rintro rfl
    cases start
  have noNumber : startsNumber c (more ++ rest) = false := by
    rw [startsNumber, isDigit_of_isNameStart start, noPoint]
    rfl
  have word := takeWhile_append_eq parts ends
  rw [shape, if_neg (fun both => noDash both.1), if_neg (not_or.2 ⟨noDouble, noSingle⟩), noNumber,
    if_neg Bool.false_ne_true, if_pos start, word]
  dsimp only
  rw [List.take_left]

theorem Keyword.text_eq_cons (word : Keyword) :
    ∃ c more, word.text = c :: more ∧ isNameStart c ∧ ∀ d ∈ more, isNamePart d := by
  cases word <;> exact ⟨_, _, rfl, rfl, List.all_eq_true.1 rfl⟩

/-- Each keyword is told from names by its text. -/
theorem wordKind_text (word : Keyword) : wordKind word.text = .keyword word := by
  cases word <;> rfl

/-- A reserved word. -/
theorem cuts_word (word : Keyword) {rest : List Char} (ends : EndsName rest) :
    Cuts word.text rest fun tokens => ∃ token, tokens = [token] ∧ token.kind = .keyword word ∧
      token.text = word.text := by
  obtain ⟨c, more, same, start, parts⟩ := word.text_eq_cons
  have kind := wordKind_text word
  rw [same] at kind ⊢
  refine .of_shape (isSpace_of_isNameStart start) ?_
  rw [shape_word start parts ends, kind]

/-- A name. -/
theorem cuts_name {text rest : List Char} (named : IsName text) (ends : EndsName rest) :
    Cuts text rest fun tokens => ∃ token, tokens = [token] ∧ token.kind = .name ∧
      token.text = text := by
  obtain ⟨c, more, rfl, start, parts, free⟩ := named
  refine .of_shape (isSpace_of_isNameStart start) ?_
  rw [shape_word start parts ends, wordKind, free]

/-! ### Symbols -/

/-- The symbol ends in front of the character. A shorter symbol could otherwise become a longer one,
a comment, a long bracket or a number. -/
def Symbol.endsBefore : Symbol → Char → Bool
  | leftSquare, c => c != '[' && c != '='
  | colon, c => c != ':'
  | dot, c => c != '.' && !c.isDigit
  | dotDot, c => c != '.'
  | equal, c | less, c | greater, c => c != '='
  | minus, c => c != '-'
  | _, _ => true

/-- The symbol ends in front of the text. -/
def Symbol.EndsIn (mark : Symbol) (rest : List Char) : Prop :=
  ∀ c ∈ rest.head?, mark.endsBefore c

theorem Symbol.first?_text_append (mark : Symbol) {rest : List Char} (ends : mark.EndsIn rest) :
    Symbol.first? (mark.text ++ rest) = some mark := by
  cases rest with
  | nil => cases mark <;> rfl
  | cons d rest =>
    have before := ends d rfl
    have differs (e : Char) (different : (d != e) = true) : (e == d) = false := by
      rw [Bool.beq_comm]
      exact beq_eq_false_iff_ne.2 (bne_iff_ne.1 different)
    cases mark with
    | colon | dotDot | equal | less | greater =>
      simp [Symbol.first?, Symbol.all, Symbol.text, List.isPrefixOf, differs _ before]
    | dot =>
      obtain ⟨noPoint, -⟩ := Bool.and_eq_true .. ▸ before
      simp [Symbol.first?, Symbol.all, Symbol.text, List.isPrefixOf, differs _ noPoint]
    | _ => simp [Symbol.first?, Symbol.all, Symbol.text, List.isPrefixOf]

/-- A symbol is cut off where nothing else starts. -/
theorem shape_of_first? {c : Char} {more : List Char} {mark : Symbol}
    (noComment : ¬(c = '-' ∧ more.head? = some '-')) (noQuote : ¬(c = '\x22' ∨ c = '\x27'))
    (noNumber : startsNumber c more = false) (noName : isNameStart c = false)
    (noBracket : LongBracket.level? (c :: more) = none)
    (found : Symbol.first? (c :: more) = some mark) :
    shape c more = (.symbol mark, mark.text.length - 1) := by
  rw [shape, if_neg noComment, if_neg noQuote, noNumber, if_neg Bool.false_ne_true, noName,
    if_neg Bool.false_ne_true, noBracket]
  dsimp only
  rw [found]

/-- A mark is cut off in front of what does not make it another mark. -/
theorem shape_symbol (mark : Symbol) {rest : List Char} (ends : mark.EndsIn rest) :
    ∃ c more, mark.text = c :: more ∧ isSpace c = false ∧
      shape c (more ++ rest) = (.symbol mark, more.length) := by
  have found := mark.first?_text_append ends
  cases mark with
  | minus =>
    have single : rest.head? ≠ some '-' := by
      intro same
      cases ends '-' same
    exact ⟨_, _, rfl, rfl,
      shape_of_first? (fun both => single both.2) (by decide) rfl rfl rfl found⟩
  | dot =>
    have noNumber : startsNumber '.' rest = false := by
      cases rest with
      | nil => rfl
      | cons d rest =>
        obtain ⟨-, noDigit⟩ := Bool.and_eq_true .. ▸ ends d rfl
        rw [Bool.not_eq_true'] at noDigit
        exact noDigit
    exact ⟨_, _, rfl, rfl, shape_of_first? (fun both => absurd both.1 (by decide)) (by decide)
      noNumber rfl rfl found⟩
  | leftSquare =>
    have noBracket : LongBracket.level? ('[' :: rest) = none := by
      cases rest with
      | nil => rfl
      | cons d rest =>
        obtain ⟨noSquare, noEqual⟩ := Bool.and_eq_true .. ▸ ends d rfl
        have stops : (d == '=') = false := beq_eq_false_iff_ne.2 (bne_iff_ne.1 noEqual)
        rw [LongBracket.level?, List.takeWhile_cons, stops]
        exact if_neg fun same => bne_iff_ne.1 noSquare (Option.some.inj same)
    exact ⟨_, _, rfl, rfl, shape_of_first? (fun both => absurd both.1 (by decide)) (by decide) rfl
      rfl noBracket found⟩
  | _ =>
    exact ⟨_, _, rfl, rfl, shape_of_first? (fun both => absurd both.1 (by decide)) (by decide) rfl
      rfl rfl found⟩

/-- A symbol. -/
theorem cuts_symbol (mark : Symbol) {rest : List Char} (ends : mark.EndsIn rest) :
    Cuts mark.text rest fun tokens => ∃ token, tokens = [token] ∧ token.kind = .symbol mark ∧
      token.text = mark.text := by
  obtain ⟨c, more, same, solid, shaped⟩ := shape_symbol mark ends
  rw [same]
  exact .of_shape solid shaped

/-! ### Numbers -/

/-- The character ends every expression. -/
def isStop (c : Char) : Bool :=
  isSpace c || c == ')' || c == ']' || c == '\x7d' || c == ','

/-- Nothing follows that could go on an expression. -/
def Stops (rest : List Char) : Prop :=
  ∀ c ∈ rest.head?, isStop c

theorem isNamePart_of_isStop {c : Char} (stop : isStop c) : isNamePart c = false := by
  simp only [isStop, isSpace, Bool.or_eq_true, beq_iff_eq] at stop
  rcases stop with
    ((((((((rfl | rfl) | rfl) | rfl) | rfl) | rfl) | rfl) | rfl) | rfl) | rfl <;> rfl

/-- Where nothing goes on, a name ends. -/
theorem Stops.endsName {rest : List Char} (stops : Stops rest) : EndsName rest :=
  fun c next => isNamePart_of_isStop (stops c next)

/-- Nothing follows that could go on the number: no letter, digit, underscore or point, and no sign
behind the letter of an exponent. -/
def EndsNumber (text rest : List Char) : Prop :=
  ∀ c ∈ rest.head?, isNamePart c = false ∧ c ≠ '.' ∧
    (c = '+' ∨ c = '-' → startsHexadecimal text ∨ ∀ d ∈ text.getLast?, d ≠ 'e' ∧ d ≠ 'E')

/-- What ends a number ends a name. -/
theorem EndsNumber.endsName {text rest : List Char} (ends : EndsNumber text rest) :
    EndsName rest :=
  fun c next => (ends c next).1

/-- Where nothing goes on, a number ends. -/
theorem Stops.endsNumber {rest : List Char} (stops : Stops rest) (text : List Char) :
    EndsNumber text rest := by
  intro c next
  have stop := stops c next
  refine ⟨isNamePart_of_isStop stop, ?_, ?_⟩
  · rintro rfl
    cases stop
  · rintro (rfl | rfl) <;> cases stop

/-- A number that takes a whole text takes no more of it in front of what ends it. -/
theorem numberLength_append {isHexadecimal : Bool} {previous : Char} {text rest : List Char}
    (whole : numberLength isHexadecimal previous text = text.length)
    (ends : numberLength isHexadecimal (text.getLastD previous) rest = 0) :
    numberLength isHexadecimal previous (text ++ rest) = text.length := by
  induction text generalizing previous with
  | nil => exact ends
  | cons c text inductionHypothesis =>
    rw [List.getLastD_cons] at ends
    rw [List.cons_append, numberLength]
    rw [numberLength] at whole
    split at whole
    next goesOn =>
      rw [if_pos goesOn, inductionHypothesis (Nat.succ.inj whole) ends]
      rfl
    · cases whole

theorem EndsNumber.numberLength_eq {c : Char} {more rest : List Char}
    (ends : EndsNumber (c :: more) rest) :
    numberLength (startsHexadecimal (c :: more)) (more.getLastD c) rest = 0 := by
  cases rest with
  | nil => rfl
  | cons d rest =>
    obtain ⟨noPart, noPoint, noSign⟩ := ends d rfl
    obtain ⟨noLetter, noUnderscore⟩ := Bool.or_eq_false_iff.1 noPart
    rw [numberLength, noLetter, noUnderscore, beq_false_of_ne noPoint]
    refine if_neg fun goesOn => ?_
    simp only [Bool.false_or, Bool.and_eq_true, Bool.or_eq_true, beq_iff_eq, Bool.not_eq_true']
      at goesOn
    obtain ⟨⟨sign, letter⟩, decimal⟩ := goesOn
    rcases noSign sign with hexadecimal | other
    · rw [hexadecimal] at decimal
      cases decimal
    · have last : (c :: more).getLast? = some (more.getLastD c) := by
        rw [List.getLast?_cons, List.getLastD_eq_getLast?]
      obtain ⟨small, capital⟩ := other _ last
      exact letter.elim small capital

/-- Whether a number starts is seen from its first characters. -/
theorem startsNumber_append {c : Char} {more : List Char} (starts : startsNumber c more)
    (rest : List Char) : startsNumber c (more ++ rest) := by
  cases more with
  | cons d more => exact starts
  | nil =>
    rw [startsNumber, List.head?_nil, Option.any_none, Bool.and_false, Bool.or_false] at starts
    rw [startsNumber, starts, Bool.true_or]

/-- Whether a number is hexadecimal is seen from its own text. -/
theorem startsHexadecimal_append {c : Char} {more rest : List Char} (ends : EndsName rest) :
    startsHexadecimal (c :: (more ++ rest)) = startsHexadecimal (c :: more) := by
  cases more with
  | cons d more =>
    rw [List.cons_append, startsHexadecimal_cons_cons, startsHexadecimal_cons_cons]
  | nil =>
    cases rest with
    | nil => rfl
    | cons d rest =>
      have noPart := ends d rfl
      have letter : (d == 'x' || d == 'X') = false := by
        rw [Bool.or_eq_false_iff, beq_eq_false_iff_ne, beq_eq_false_iff_ne]
        constructor <;> rintro rfl <;> cases noPart
      rw [List.nil_append, startsHexadecimal_cons_cons, letter, Bool.and_false]
      unfold startsHexadecimal
      split <;> simp_all

theorem startsNumber_ne {c d : Char} {more : List Char} (starts : startsNumber c more)
    (noDigit : d.isDigit = false) (noPoint : (d == '.') = false) : c ≠ d := by
  rintro rfl
  rw [startsNumber, noDigit, noPoint] at starts
  cases starts

theorem isSpace_of_startsNumber {c : Char} {more : List Char} (starts : startsNumber c more) :
    isSpace c = false := by
  simp only [isSpace, Bool.or_eq_false_iff, beq_eq_false_iff_ne]
  refine ⟨⟨⟨⟨⟨?_, ?_⟩, ?_⟩, ?_⟩, ?_⟩, ?_⟩ <;> exact startsNumber_ne starts rfl rfl

/-- A number is cut off in front of what ends it. -/
theorem shape_number {c : Char} {more rest : List Char} (number : IsNumber (c :: more))
    (ends : EndsNumber (c :: more) rest) : shape c (more ++ rest) = (.number, more.length) := by
  obtain ⟨_, _, same, starts, whole⟩ := number
  cases same
  have noDash : c ≠ '-' := startsNumber_ne starts rfl rfl
  have noDouble : c ≠ '\x22' := startsNumber_ne starts rfl rfl
  have noSingle : c ≠ '\x27' := startsNumber_ne starts rfl rfl
  rw [shape, if_neg (fun both => noDash both.1), if_neg (not_or.2 ⟨noDouble, noSingle⟩),
    if_pos (startsNumber_append starts rest), startsHexadecimal_append ends.endsName,
    numberLength_append whole ends.numberLength_eq]

theorem IsNumber.isSpace_eq {c : Char} {more : List Char} (number : IsNumber (c :: more)) :
    isSpace c = false := by
  obtain ⟨_, _, same, starts, -⟩ := number
  cases same
  exact isSpace_of_startsNumber starts

/-- A number. -/
theorem cuts_number {text rest : List Char} (number : IsNumber text)
    (ends : EndsNumber text rest) :
    Cuts text rest fun tokens => ∃ token, tokens = [token] ∧ token.kind = .number ∧
      token.text = text := by
  obtain ⟨c, more, rfl, -, -⟩ := id number
  exact .of_shape number.isSpace_eq (shape_number number ends)

/-! ### Blank characters -/

theorem isSpace_of_isLineBreak {c : Char} (lineBreak : isLineBreak c) : isSpace c := by
  rw [isLineBreak, Bool.or_eq_true, beq_iff_eq, beq_iff_eq] at lineBreak
  rcases lineBreak with rfl | rfl <;> rfl

theorem isBlank_of_isAlphanum {c : Char} (plain : c.isAlphanum) : isBlank c = false := by
  have code : 48 ≤ c.toNat ∧ c.toNat ≤ 122 := by
    rcases Bool.or_eq_true .. ▸ plain with letter | digit
    · rcases isAlpha_iff.1 letter with upper | lower
      · exact ⟨Nat.le_trans (by decide) upper.1, Nat.le_trans upper.2 (by decide)⟩
      · exact ⟨Nat.le_trans (by decide) lower.1, Nat.le_trans lower.2 (by decide)⟩
    · have digit := Char.isDigit_iff_toNat.1 digit
      exact ⟨digit.1, Nat.le_trans digit.2 (by decide)⟩
  rw [Bool.eq_false_iff]
  simp only [isBlank, ne_eq, Bool.or_eq_true, Bool.and_eq_true, decide_eq_true_eq, beq_iff_eq]
  omega

theorem isNamePart_of_isNameStart {c : Char} (start : isNameStart c) : isNamePart c := by
  rw [isNameStart, Bool.or_eq_true] at start
  rw [isNamePart, Char.isAlphanum, Bool.or_eq_true, Bool.or_eq_true]
  exact start.imp_left .inl

/-- What names are made of is not blank. -/
theorem isBlank_of_isNamePart {c : Char} (part : isNamePart c) : isBlank c = false := by
  rcases Bool.or_eq_true .. ▸ part with plain | underscore
  · exact isBlank_of_isAlphanum plain
  · cases beq_iff_eq.1 underscore
    rfl

/-- No blank character is in a name. -/
theorem IsName.isBlank_eq {text : List Char} (isName : IsName text) :
    ∀ c ∈ text, isBlank c = false := by
  obtain ⟨c, rest, rfl, start, goOn, -⟩ := isName
  exact List.forall_mem_cons.2 ⟨isBlank_of_isNamePart (isNamePart_of_isNameStart start),
    fun d member => isBlank_of_isNamePart (goOn d member)⟩

/-- A number is made of letters, digits, underscores, points and signs. -/
theorem mem_of_numberLength {isHexadecimal : Bool} {previous : Char} {rest : List Char}
    (whole : numberLength isHexadecimal previous rest = rest.length) :
    ∀ c ∈ rest, c.isAlphanum ∨ c ∈ ['.', '_', '+', '-'] := by
  induction rest generalizing previous with
  | nil => exact List.forall_mem_nil _
  | cons c rest inductionHypothesis =>
    rw [numberLength] at whole
    split at whole
    next goesOn =>
      refine List.forall_mem_cons.2 ⟨?_, inductionHypothesis (Nat.succ.inj whole)⟩
      simp only [Bool.or_eq_true, Bool.and_eq_true, beq_iff_eq] at goesOn
      rcases goesOn with ((plain | rfl) | rfl) | ⟨⟨rfl | rfl, -⟩, -⟩
      · exact .inl plain
      all_goals exact .inr (by decide)
    · cases whole

/-- Only letters, digits, points, underscores and signs are in a number. -/
theorem IsNumber.mem {text : List Char} (isNumber : IsNumber text) :
    ∀ c ∈ text, c.isAlphanum ∨ c ∈ ['.', '_', '+', '-'] := by
  obtain ⟨c, rest, rfl, starts, whole⟩ := isNumber
  refine List.forall_mem_cons.2 ⟨?_, mem_of_numberLength whole⟩
  rcases Bool.or_eq_true .. ▸ starts with digit | point
  · exact .inl (Bool.or_eq_true .. ▸ .inr digit)
  · cases beq_iff_eq.1 (Bool.and_eq_true .. ▸ point).1
    exact .inr (by decide)

/-- No blank character is in a number. -/
theorem IsNumber.isBlank_eq {text : List Char} (isNumber : IsNumber text) :
    ∀ c ∈ text, isBlank c = false := by
  intro c member
  rcases isNumber.mem c member with plain | other
  · exact isBlank_of_isAlphanum plain
  · have all : (['.', '_', '+', '-'].all fun c => isBlank c == false) := by decide
    exact eq_of_beq (List.all_eq_true.1 all c other)

end Token

end LuaStyle
