/-
This file gives the grammar of numerals and proves that they are read by it.

A numeral is `0x` with hexadecimal digits, or a mantissa with an exponent or without. The reader
tells it by cutting at the first `e` and the first point, and the lexer takes whatever letters,
digits, points and signs come one after the other; neither has the grammar in it. But what is read
has the form of a numeral, every numeral is read, and the lexer cuts off a numeral as one token
wherever nothing follows that could go on a name or a fraction.
-/

import LuaStyle.Number.Numeral
import LuaStyle.Proofs.Cutting

namespace LuaStyle

/-! ### The grammar -/

/-- The character is a hexadecimal digit of either case. -/
def IsHexDigit (c : Char) : Prop :=
  c.isDigit ∨ ('a' ≤ c ∧ c ≤ 'f') ∨ ('A' ≤ c ∧ c ≤ 'F')

namespace Numeral

/-- The text has only decimal digits in it. -/
def AllDigits (text : List Char) : Prop :=
  ∀ c ∈ text, c.isDigit

/-- Digits with at most one point among them, and at least one digit in all. -/
inductive IsMantissa : List Char → Prop
  | whole {digits} : digits ≠ [] → AllDigits digits → IsMantissa digits
  | point {whole fraction} :
    whole ++ fraction ≠ [] → AllDigits (whole ++ fraction) → IsMantissa (whole ++ '.' :: fraction)

/-- Nothing, or the letter of an exponent, perhaps a sign, and at least one digit. -/
inductive IsExponent : List Char → Prop
  | none : IsExponent []
  | some {mark sign digits} :
    mark = 'e' ∨ mark = 'E' → sign = [] ∨ sign = ['+'] ∨ sign = ['-'] → digits ≠ [] →
      AllDigits digits → IsExponent (mark :: (sign ++ digits))

/-- The text is a numeral. -/
inductive IsNumeral : List Char → Prop
  | hexadecimal {mark digits} :
    mark = 'x' ∨ mark = 'X' → digits ≠ [] → (∀ c ∈ digits, IsHexDigit c) →
      IsNumeral ('0' :: mark :: digits)
  | decimal {mantissa exponent} :
    IsMantissa mantissa → IsExponent exponent → IsNumeral (mantissa ++ exponent)

/-! ### Reading decimals -/

theorem allDigits_append {first second : List Char} :
    AllDigits (first ++ second) ↔ AllDigits first ∧ AllDigits second :=
  List.forall_mem_append

theorem natural?_eq_some {digits : List Char} (nonempty : digits ≠ [])
    (all : AllDigits digits) : natural? digits = some (Nat.ofDigitChars 10 digits 0) :=
  if_pos ⟨nonempty, List.all_eq_true.2 all⟩

theorem isExponentMark_of_isDigit {c : Char} (digit : c.isDigit) : isExponentMark c = false := by
  cases mark : isExponentMark c with
  | false => rfl
  | true =>
    rcases Bool.or_eq_true .. ▸ mark with same | same <;> rw [eq_of_beq same] at digit <;>
      exact absurd digit (by decide)

theorem ne_point_of_isDigit {c : Char} (digit : c.isDigit) : (c != '.') = true := by
  rw [bne_iff_ne]
  rintro rfl
  exact absurd digit (by decide)

/-- What stands behind the mantissa: nothing, or an exponent with its mark. -/
def IsExponentPart (tail : List Char) : Prop :=
  ∀ c ∈ tail.head?, isExponentMark c

section

variable {whole fraction tail : List Char}

theorem decimal?_append {mantissa : List Char}
    (plain : ∀ c ∈ mantissa, isExponentMark c = false) (ends : IsExponentPart tail) :
    decimal? (mantissa ++ tail) =
      (natural? (mantissa.takeWhile (· != '.') ++ (mantissa.dropWhile (· != '.')).drop 1)).bind
        fun digits => (exponent? tail).map fun exponent =>
          .decimal digits (exponent - ((mantissa.dropWhile (· != '.')).drop 1).length) := by
  have passes : ∀ c ∈ mantissa, (!isExponentMark c) = true := fun c member => by
    rw [plain c member]
    rfl
  have stops : ∀ c ∈ tail.head?, (!isExponentMark c) = false := fun c member => by
    rw [ends c member]
    rfl
  rw [decimal?, takeWhile_append_eq passes stops, dropWhile_append_eq passes stops]

/-- A mantissa without a point. -/
theorem decimal?_whole (digits : AllDigits whole) (ends : IsExponentPart tail) :
    decimal? (whole ++ tail) = (natural? whole).bind fun digits =>
      (exponent? tail).map fun exponent => .decimal digits exponent := by
  have passes : ∀ c ∈ whole, (c != '.') = true := fun c member =>
    ne_point_of_isDigit (digits c member)
  have stops : ∀ c ∈ ([] : List Char).head?, (c != '.') = false := by simp
  have none := takeWhile_append_eq passes stops
  have left := dropWhile_append_eq passes stops
  rw [List.append_nil] at none left
  rw [decimal?_append (fun c member => isExponentMark_of_isDigit (digits c member)) ends, none,
    left]
  simp

/-- A mantissa with a point. -/
theorem decimal?_point (digits : AllDigits whole) (further : AllDigits fraction)
    (ends : IsExponentPart tail) :
    decimal? (whole ++ '.' :: fraction ++ tail) =
      (natural? (whole ++ fraction)).bind fun digits => (exponent? tail).map fun exponent =>
        .decimal digits (exponent - fraction.length) := by
  have passes : ∀ c ∈ whole, (c != '.') = true := fun c member =>
    ne_point_of_isDigit (digits c member)
  have stops : ∀ c ∈ ('.' :: fraction).head?, (c != '.') = false := by simp
  have plain : ∀ c ∈ whole ++ '.' :: fraction, isExponentMark c = false := by
    intro c member
    rcases List.mem_append.1 member with member | member
    · exact isExponentMark_of_isDigit (digits c member)
    · rcases List.mem_cons.1 member with rfl | member
      · rfl
      · exact isExponentMark_of_isDigit (further c member)
  rw [decimal?_append plain ends, takeWhile_append_eq passes stops,
    dropWhile_append_eq passes stops]
  rfl

end

/-- Without the mark of hexadecimal digits, a numeral is decimal. -/
theorem read?_eq_decimal? {text : List Char} (decimal : Token.startsHexadecimal text = false) :
    read? text = decimal? text := by
  unfold read?
  split
  · cases decimal
  · cases decimal
  · rfl

/-- A number in digits is not announced as hexadecimal. -/
theorem startsHexadecimal_digits {whole rest : List Char} (nonempty : whole ≠ [])
    (digits : AllDigits whole) (ends : ∀ c ∈ rest.head?, c = '.' ∨ isExponentMark c) :
    Token.startsHexadecimal (whole ++ rest) = false := by
  have second : ∀ c ∈ (whole ++ rest).tail.head?, c ≠ 'x' ∧ c ≠ 'X' := by
    intro c member
    cases whole with
    | nil => exact absurd rfl nonempty
    | cons first further =>
      cases further with
      | nil =>
        rcases ends c member with rfl | mark
        · decide
        · constructor <;> rintro rfl <;> exact absurd mark (by decide)
      | cons digit more =>
        have isDigit := digits digit (List.mem_cons_of_mem _ List.mem_cons_self)
        cases member
        constructor <;> rintro rfl <;> exact absurd isDigit (by decide)
  unfold Token.startsHexadecimal
  split
  next same =>
    rw [same] at second
    exact absurd rfl (second 'x' rfl).1
  next same =>
    rw [same] at second
    exact absurd rfl (second 'X' rfl).2
  · rfl

/-! ### What is read as a numeral -/

theorem isSome_natural?_iff {digits : List Char} :
    (natural? digits).isSome ↔ digits ≠ [] ∧ AllDigits digits := by
  rw [natural?]
  split
  next both => exact iff_of_true rfl ⟨both.1, List.all_eq_true.1 both.2⟩
  next fails =>
    exact iff_of_false Bool.false_ne_true fun both =>
      fails ⟨both.1, List.all_eq_true.2 both.2⟩

theorem exponent?_digits {mark : Char} {digits : List Char} (all : AllDigits digits) :
    exponent? (mark :: digits) = (natural? digits).map Int.ofNat := by
  unfold exponent?
  split
  next same => cases same
  next same =>
    cases same
    exact absurd (all '+' List.mem_cons_self) (by decide)
  next same =>
    cases same
    exact absurd (all '-' List.mem_cons_self) (by decide)
  next same =>
    cases same
    rfl

theorem IsExponent.isExponentPart {tail : List Char} (exponent : IsExponent tail) :
    IsExponentPart tail := by
  intro c member
  cases exponent with
  | none => cases member
  | some letter =>
    cases member
    rcases letter with rfl | rfl <;> rfl

/-- Behind its mark, an exponent is read exactly if it has the form of one. -/
theorem isSome_exponent?_iff {tail : List Char} (part : IsExponentPart tail) :
    (exponent? tail).isSome ↔ IsExponent tail := by
  constructor
  · intro read
    have letter : ∀ {mark rest}, tail = mark :: rest → mark = 'e' ∨ mark = 'E' := by
      rintro mark rest rfl
      simpa [isExponentMark] using part mark rfl
    unfold exponent? at read
    split at read
    · exact .none
    all_goals
      rw [Option.isSome_map] at read
      obtain ⟨nonempty, all⟩ := isSome_natural?_iff.1 read
    · exact @IsExponent.some _ ['+'] _ (letter rfl) (.inr (.inl rfl)) nonempty all
    · exact @IsExponent.some _ ['-'] _ (letter rfl) (.inr (.inr rfl)) nonempty all
    · exact @IsExponent.some _ [] _ (letter rfl) (.inl rfl) nonempty all
  · intro exponent
    cases exponent with
    | none => rfl
    | some letter sign nonempty all =>
      have read := isSome_natural?_iff.2 ⟨nonempty, all⟩
      rcases sign with rfl | rfl | rfl
      · rw [List.nil_append, exponent?_digits all, Option.isSome_map]
        exact read
      · exact Option.isSome_map.trans read
      · exact Option.isSome_map.trans read

theorem isMantissa_of_natural? {mantissa : List Char}
    (read : (natural? (mantissa.takeWhile (· != '.') ++
      (mantissa.dropWhile (· != '.')).drop 1)).isSome) : IsMantissa mantissa := by
  obtain ⟨nonempty, all⟩ := isSome_natural?_iff.1 read
  have whole := List.takeWhile_append_dropWhile (p := (· != '.')) (l := mantissa)
  have point : ∀ c ∈ (mantissa.dropWhile (· != '.')).head?, (c != '.') = false :=
    head?_dropWhile mantissa
  generalize mantissa.takeWhile (· != '.') = before, mantissa.dropWhile (· != '.') = behind at *
  subst whole
  cases behind with
  | nil =>
    rw [List.drop_nil, List.append_nil] at nonempty all
    rw [List.append_nil]
    exact .whole nonempty all
  | cons c fraction =>
    obtain rfl : c = '.' := by simpa using point c rfl
    exact .point nonempty all

/-- A decimal that is read has the form of one. -/
theorem isNumeral_of_decimal? {text : List Char} (read : (decimal? text).isSome) :
    IsNumeral text := by
  obtain ⟨numeral, read⟩ := Option.isSome_iff_exists.1 read
  obtain ⟨digits, natural, read⟩ := Option.bind_eq_some_iff.1 read
  obtain ⟨exponent, tail, -⟩ := Option.map_eq_some_iff.1 read
  have mark : IsExponentPart (text.dropWhile (!isExponentMark ·)) := fun c member =>
    (Bool.not_eq_false' _).mp (head?_dropWhile text c member)
  rw [← List.takeWhile_append_dropWhile (p := (!isExponentMark ·)) (l := text)]
  exact .decimal (isMantissa_of_natural? (Option.isSome_of_eq_some natural))
    ((isSome_exponent?_iff mark).1 (Option.isSome_of_eq_some tail))

/-- A text in the form of a decimal is read as one. -/
theorem isSome_decimal? {mantissa tail : List Char} (isMantissa : IsMantissa mantissa)
    (exponent : IsExponent tail) : (decimal? (mantissa ++ tail)).isSome := by
  obtain ⟨power, read⟩ :=
    Option.isSome_iff_exists.1 ((isSome_exponent?_iff exponent.isExponentPart).2 exponent)
  cases isMantissa with
  | whole nonempty all =>
    rw [decimal?_whole all exponent.isExponentPart, natural?_eq_some nonempty all, read]
    rfl
  | point nonempty all =>
    obtain ⟨before, behind⟩ := allDigits_append.1 all
    rw [decimal?_point before behind exponent.isExponentPart, natural?_eq_some nonempty all, read]
    rfl

/-- A decimal does not look like a hexadecimal numeral. -/
theorem startsHexadecimal_decimal {mantissa tail : List Char} (isMantissa : IsMantissa mantissa)
    (exponent : IsExponent tail) : Token.startsHexadecimal (mantissa ++ tail) = false := by
  cases isMantissa with
  | whole nonempty all =>
    exact startsHexadecimal_digits nonempty all fun c member =>
      .inr (exponent.isExponentPart c member)
  | @point whole fraction nonempty all =>
    rw [List.append_assoc, List.cons_append]
    cases whole with
    | nil => rfl
    | cons c whole =>
      exact startsHexadecimal_digits (List.cons_ne_nil c whole) (allDigits_append.1 all).1
        fun d member => .inl (Option.some.inj member).symm

theorem isSome_hexDigitValue?_iff {c : Char} : (hexDigitValue? c).isSome ↔ IsHexDigit c := by
  unfold hexDigitValue? IsHexDigit
  grind

theorem isSome_mapM_iff {digits : List Char} :
    (digits.mapM hexDigitValue?).isSome ↔ ∀ c ∈ digits, (hexDigitValue? c).isSome := by
  induction digits with
  | nil => exact iff_of_true rfl (List.forall_mem_nil _)
  | cons c digits inductionHypothesis =>
    rw [List.mapM_cons, List.forall_mem_cons, ← inductionHypothesis]
    cases hexDigitValue? c <;> cases digits.mapM hexDigitValue? <;> simp

theorem isSome_hexadecimal?_iff {digits : List Char} :
    (hexadecimal? digits).isSome ↔ digits ≠ [] ∧ ∀ c ∈ digits, IsHexDigit c := by
  rw [hexadecimal?]
  split
  next none => exact iff_of_false Bool.false_ne_true fun both => both.1 none
  next nonempty =>
    rw [Option.isSome_map, isSome_mapM_iff]
    simp only [isSome_hexDigitValue?_iff, ne_eq, nonempty, not_false_eq_true, true_and]

/-- Exactly the numerals have a value. -/
theorem isSome_valueOf?_iff {text : List Char} : (valueOf? text).isSome ↔ IsNumeral text := by
  rw [valueOf?, Option.isSome_map]
  constructor
  · intro read
    unfold read? at read
    split at read
    · obtain ⟨nonempty, all⟩ := isSome_hexadecimal?_iff.1 read
      exact .hexadecimal (.inl rfl) nonempty all
    · obtain ⟨nonempty, all⟩ := isSome_hexadecimal?_iff.1 read
      exact .hexadecimal (.inr rfl) nonempty all
    · exact isNumeral_of_decimal? read
  · intro numeral
    cases numeral with
    | hexadecimal letter nonempty all =>
      rcases letter with rfl | rfl <;> exact isSome_hexadecimal?_iff.2 ⟨nonempty, all⟩
    | decimal mantissa exponent =>
      rw [read?_eq_decimal? (startsHexadecimal_decimal mantissa exponent)]
      exact isSome_decimal? mantissa exponent

end Numeral

/-! ### Numerals as tokens -/

namespace Token

/-- Whatever stands before it, the text goes on a number up to its end. -/
def GoesOn (isHexadecimal : Bool) (text : List Char) : Prop :=
  ∀ previous, numberLength isHexadecimal previous text = text.length

theorem goesOn_nil {isHexadecimal : Bool} : GoesOn isHexadecimal [] := fun _ => rfl

theorem GoesOn.cons {isHexadecimal : Bool} {c : Char} {text : List Char}
    (goesOn : GoesOn isHexadecimal text) (plain : c.isAlphanum || c == '.') :
    GoesOn isHexadecimal (c :: text) := by
  intro previous
  rw [numberLength, plain, Bool.true_or, Bool.true_or, if_pos rfl, goesOn c, List.length_cons]

theorem isAlphanum_of_isDigit {c : Char} (digit : c.isDigit) : c.isAlphanum := by
  rw [Char.isAlphanum, digit, Bool.or_true]

theorem isAlphanum_of_isHexDigit {c : Char} (digit : IsHexDigit c) : c.isAlphanum := by
  rcases digit with digit | letter
  · exact isAlphanum_of_isDigit digit
  · have alpha : c.isAlpha := by
      rw [isAlpha_iff]
      rcases letter with ⟨low, high⟩ | ⟨low, high⟩
      · exact .inr ⟨low, Nat.le_trans high (by decide : 'f'.toNat ≤ 'z'.toNat)⟩
      · exact .inl ⟨low, Nat.le_trans high (by decide : 'F'.toNat ≤ 'Z'.toNat)⟩
    rw [Char.isAlphanum, alpha, Bool.true_or]

theorem GoesOn.alphanums {isHexadecimal : Bool} {front text : List Char}
    (goesOn : GoesOn isHexadecimal text) (all : ∀ c ∈ front, c.isAlphanum) :
    GoesOn isHexadecimal (front ++ text) := by
  induction front with
  | nil => exact goesOn
  | cons c rest inductionHypothesis =>
    obtain ⟨first, others⟩ := List.forall_mem_cons.1 all
    refine (inductionHypothesis others).cons ?_
    rw [first, Bool.true_or]

theorem GoesOn.digits {isHexadecimal : Bool} {digits text : List Char}
    (goesOn : GoesOn isHexadecimal text) (all : Numeral.AllDigits digits) :
    GoesOn isHexadecimal (digits ++ text) :=
  goesOn.alphanums fun c member => isAlphanum_of_isDigit (all c member)

/-- The sign of an exponent goes on the number because of the letter in front of it. -/
theorem goesOn_exponent {tail : List Char} (exponent : Numeral.IsExponent tail) :
    GoesOn false tail := by
  cases exponent with
  | none => exact goesOn_nil
  | @some mark sign digits letter signed nonempty all =>
    have further : GoesOn false digits := by
      have goesOn := (goesOn_nil : GoesOn false []).digits all
      rwa [List.append_nil] at goesOn
    have plain : mark.isAlphanum := by rcases letter with rfl | rfl <;> rfl
    have behind : numberLength false mark (sign ++ digits) = (sign ++ digits).length := by
      rcases signed with rfl | rfl | rfl
      · exact further mark
      · rw [List.singleton_append, numberLength, further '+', if_pos]
        · rfl
        · rcases letter with rfl | rfl <;> rfl
      · rw [List.singleton_append, numberLength, further '-', if_pos]
        · rfl
        · rcases letter with rfl | rfl <;> rfl
    intro previous
    rw [numberLength_cons plain, behind, List.length_cons]

/-- A numeral is a number to the lexer. -/
theorem isNumber_of_isNumeral {text : List Char} (numeral : Numeral.IsNumeral text) :
    IsNumber text := by
  cases numeral with
  | @hexadecimal mark digits letter nonempty all =>
    have prefixed : startsHexadecimal ('0' :: mark :: digits) = true := by
      rcases letter with rfl | rfl <;> rfl
    have plain : mark.isAlphanum := by rcases letter with rfl | rfl <;> rfl
    have further := (goesOn_nil : GoesOn true []).alphanums fun c member =>
      isAlphanum_of_isHexDigit (all c member)
    rw [List.append_nil] at further
    refine ⟨'0', mark :: digits, rfl, rfl, ?_⟩
    rw [prefixed, numberLength_cons plain, further mark, List.length_cons]
  | @decimal mantissa tail isMantissa exponent =>
    have decimal := Numeral.startsHexadecimal_decimal isMantissa exponent
    have further := goesOn_exponent exponent
    have whole {first rest : List Char} (nonempty : first ≠ []) (all : Numeral.AllDigits first)
        (goesOn : GoesOn false rest) (plain : startsHexadecimal (first ++ rest) = false) :
        IsNumber (first ++ rest) := by
      cases first with
      | nil => exact absurd rfl nonempty
      | cons c first =>
        obtain ⟨digit, others⟩ := List.forall_mem_cons.1 all
        refine ⟨c, first ++ rest, rfl, ?_, ?_⟩
        · rw [startsNumber, digit, Bool.true_or]
        · rw [plain]
          exact goesOn.digits others c
    cases isMantissa with
    | whole nonempty all => exact whole nonempty all further decimal
    | @point before fraction nonempty all =>
      obtain ⟨allBefore, allBehind⟩ := Numeral.allDigits_append.1 all
      have behind := further.digits allBehind
      rw [List.append_assoc, List.cons_append] at decimal ⊢
      cases before with
      | cons c before =>
        exact whole (List.cons_ne_nil c before) allBefore (behind.cons rfl) decimal
      | nil =>
        -- a point starts a number only in front of a digit
        cases fraction with
        | nil => exact absurd rfl nonempty
        | cons digit fraction =>
          refine ⟨'.', digit :: fraction ++ tail, rfl, ?_, behind '.'⟩
          have first := (List.forall_mem_cons.1 allBehind).1
          rw [startsNumber, List.cons_append, List.head?_cons, Option.any_some, first]
          rfl

/-- The letter of an exponent is not the last character of a decimal. -/
theorem getLast?_decimal {mantissa tail : List Char} (isMantissa : Numeral.IsMantissa mantissa)
    (exponent : Numeral.IsExponent tail) :
    ∀ c ∈ (mantissa ++ tail).getLast?, c.isDigit ∨ c = '.' := by
  intro c last
  cases exponent with
  | none =>
    rw [List.append_nil] at last
    have member := List.mem_of_getLast? last
    cases isMantissa with
    | whole nonempty all => exact .inl (all c member)
    | point nonempty all =>
      obtain ⟨before, behind⟩ := Numeral.allDigits_append.1 all
      rcases List.mem_append.1 member with member | member
      · exact .inl (before c member)
      · rcases List.mem_cons.1 member with same | member
        · exact .inr same
        · exact .inl (behind c member)
  | @some mark sign digits letter signed nonempty all =>
    rw [← List.cons_append, ← List.append_assoc, List.getLast?_append,
      List.getLast?_eq_some_getLast nonempty, Option.some_or] at last
    cases last
    exact .inl (all _ (List.getLast_mem nonempty))

/-- A numeral ends where nothing follows that could go on a name or a fraction. -/
theorem endsNumber_of_isNumeral {text rest : List Char} (numeral : Numeral.IsNumeral text)
    (ends : ∀ c ∈ rest.head?, c.isAlphanum = false ∧ c ≠ '_' ∧ c ≠ '.') :
    EndsNumber text rest := by
  intro c next
  obtain ⟨noLetter, noUnderscore, noPoint⟩ := ends c next
  refine ⟨?_, noPoint, fun _ => ?_⟩
  · rw [isNamePart, noLetter, beq_false_of_ne noUnderscore]
    rfl
  · cases numeral with
    | hexadecimal letter =>
      left
      rcases letter with rfl | rfl <;> rfl
    | decimal mantissa exponent =>
      right
      intro d last
      rcases getLast?_decimal mantissa exponent d last with digit | rfl
      · constructor <;> rintro rfl <;> cases digit
      · decide

/-- A numeral is cut off as one token wherever nothing follows that could go on a name or a
fraction. -/
theorem tokensFrom_numeral {text rest : List Char} (numeral : Numeral.IsNumeral text)
    (ends : ∀ c ∈ rest.head?, c.isAlphanum = false ∧ c ≠ '_' ∧ c ≠ '.') (offset : Nat) :
    tokensFrom offset (text ++ rest) =
      ⟨.number, text, offset⟩ :: tokensFrom (offset + byteLength text) rest := by
  have number := isNumber_of_isNumeral numeral
  obtain ⟨c, more, rfl, -, -⟩ := id number
  exact tokensFrom_of_shape number.isSpace_eq
    (shape_number number (endsNumber_of_isNumeral numeral ends)) offset

end Token

end LuaStyle
