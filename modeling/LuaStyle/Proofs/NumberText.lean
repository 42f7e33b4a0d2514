/-
This file proves that a written number is read back.

The positional and the scientific notation of a decimal are both read as a decimal of the same
value, and so is the normal form of a double that is neither negative nor past the finite ones.
Every numeral has such a double as its value, or infinity, whose text is kept; a hexadecimal numeral
is written with the same digits. So the text in which the value of a numeral is written names the
value again.
-/

import LuaStyle.Layout.Printer
import LuaStyle.Proofs.Numerals
import LuaStyle.Proofs.Rounding

namespace LuaStyle

namespace Double

/-! ### The doubles that numerals name -/

/-- Neither negative nor past infinity, and so no NaN either. -/
def IsMagnitude (x : Double) : Prop :=
  x.bits.toNat ≤ infinity.bits.toNat

theorem IsMagnitude.isNegative_eq {x : Double} (magnitude : x.IsMagnitude) :
    x.isNegative = false := by
  have least : infinity.bits.toNat < signBit := by decide
  rw [isNegative, decide_eq_false_iff_not, Nat.not_le]
  exact Nat.lt_of_le_of_lt magnitude least

theorem IsMagnitude.isNaN_eq {x : Double} (magnitude : x.IsMagnitude) : x.isNaN = false := by
  have parts := bits_toNat_of_nonnegative magnitude.isNegative_eq
  have top : infinity.bits.toNat = 2047 * leadingBit := rfl
  rw [IsMagnitude, parts, top] at magnitude
  by_cases last : x.exponentField = 2047
  · rw [last] at magnitude
    rw [isNaN, show x.fractionField = 0 by omega]
    exact Bool.and_false _
  · rw [isNaN, beq_false_of_ne last]
    rfl

/-- A finite double without a sign is a magnitude. -/
theorem isMagnitude_of_isFinite {x : Double} (nonnegative : x.isNegative = false)
    (finite : x.isFinite) : x.IsMagnitude := by
  have top : infinity.bits.toNat = 2047 * leadingBit := rfl
  have low : x.exponentField < 2047 := of_decide_eq_true finite
  have part := x.fractionField_lt
  have whole : (x.exponentField + 1) * leadingBit ≤ 2047 * leadingBit :=
    Nat.mul_le_mul_right _ low
  rw [IsMagnitude, bits_toNat_of_nonnegative nonnegative, top]
  rw [Nat.add_mul] at whole
  omega

/-- A number that is not a NaN equals itself. -/
theorem sameNumber_self {x : Double} (number : x.isNaN = false) : x.sameNumber x := by
  rw [sameNumber, number, beq_self_eq_true]
  rfl

theorem isMagnitude_ofUnits (numerator denominator : Nat) :
    (ofUnits numerator denominator).IsMagnitude :=
  bits_ofUnits_le numerator denominator

theorem isMagnitude_zero : zero.IsMagnitude :=
  Nat.zero_le _

theorem isMagnitude_ofDecimal (digits : Nat) (exponent : Int) :
    (ofDecimal digits exponent).IsMagnitude := by
  rw [ofDecimal_eq_ofUnits]
  exact isMagnitude_ofUnits _ _

/-- Reading one more hexadecimal digit keeps a magnitude. -/
theorem isMagnitude_appendHexDigit {x : Double} (magnitude : x.IsMagnitude) (digit : Nat) :
    (x.appendHexDigit digit).IsMagnitude := by
  rw [appendHexDigit]
  split
  · exact isMagnitude_ofUnits _ _
  · exact magnitude

end Double

namespace Numeral

/-- A numeral names no negative number and is never the value that is not a number. -/
theorem isMagnitude_value (numeral : Numeral) : numeral.value.IsMagnitude := by
  cases numeral with
  | decimal digits exponent => exact Double.isMagnitude_ofDecimal digits exponent
  | hexadecimal digits =>
    show (digits.foldl Double.appendHexDigit .zero).IsMagnitude
    generalize Double.zero = start, Double.isMagnitude_zero = magnitude
    induction digits generalizing start with
    | nil => exact magnitude
    | cons digit digits inductionHypothesis =>
      exact inductionHypothesis _ (Double.isMagnitude_appendHexDigit magnitude digit)

theorem isMagnitude_of_valueOf? {text : List Char} {value : Double}
    (named : valueOf? text = some value) : value.IsMagnitude := by
  obtain ⟨numeral, -, rfl⟩ := Option.map_eq_some_iff.1 named
  exact numeral.isMagnitude_value

/-! ### Digits -/

/-- The decimal notation of a number consists of digits. -/
theorem allDigits_toDigits (number : Nat) : AllDigits (Nat.toDigits 10 number) := fun _ member =>
  Nat.isDigit_of_mem_toDigits (by decide) (by decide) member

theorem allDigits_zeros (count : Nat) : AllDigits (List.replicate count '0') := by
  intro c member
  rw [List.eq_of_mem_replicate member]
  rfl

/-- The decimal notation of a number is read as that number. -/
theorem natural?_toDigits (number : Nat) : natural? (Nat.toDigits 10 number) = some number := by
  rw [natural?_eq_some Nat.toDigits_ne_nil (allDigits_toDigits number),
    Nat.ofDigitChars_ten_toDigits]

end Numeral

/-! ### Notations are read back -/

namespace Numeral

/-- The exponent with its mark, if there is one, is written as this text. -/
inductive WrittenExponent : List Char → Int → Prop
  | none : WrittenExponent [] 0
  | some (exponent : Int) : WrittenExponent ('e' :: Double.signed exponent) exponent

/-- The number `digits * 10 ^ exponent` is written as this text, with digits in front. -/
inductive Written : List Char → Nat → Int → Prop
  | whole {whole tail exponent} :
    whole ≠ [] → AllDigits whole → WrittenExponent tail exponent →
      Written (whole ++ tail) (Nat.ofDigitChars 10 whole 0) exponent
  | point {whole fraction tail exponent} :
    whole ≠ [] → AllDigits (whole ++ fraction) → WrittenExponent tail exponent →
      Written (whole ++ '.' :: fraction ++ tail) (Nat.ofDigitChars 10 (whole ++ fraction) 0)
        (exponent - fraction.length)

/-- An exponent is read as the number it was written from. -/
theorem exponent?_signed (number : Int) :
    Numeral.exponent? ('e' :: Double.signed number) = some number := by
  have read := Numeral.natural?_toDigits number.natAbs
  unfold Double.signed
  split
  · show (Numeral.natural? (Nat.toDigits 10 number.natAbs)).map _ = _
    rw [read, Option.map_some]
    congr 1
    show -(number.natAbs : Int) = number
    omega
  · rw [exponent?_digits (allDigits_toDigits number.natAbs), read, Option.map_some]
    congr 1
    show (number.natAbs : Int) = number
    omega

theorem WrittenExponent.isExponent {tail : List Char} {exponent : Int}
    (written : WrittenExponent tail exponent) : IsExponent tail := by
  cases written with
  | none => exact .none
  | some =>
    have digits := allDigits_toDigits exponent.natAbs
    rw [Double.signed]
    split
    · exact @IsExponent.some _ ['-'] _ (.inl rfl) (.inr (.inr rfl)) Nat.toDigits_ne_nil digits
    · exact @IsExponent.some _ [] _ (.inl rfl) (.inl rfl) Nat.toDigits_ne_nil digits

theorem WrittenExponent.exponent?_eq {tail : List Char} {exponent : Int}
    (written : WrittenExponent tail exponent) : exponent? tail = .some exponent := by
  cases written with
  | none => rfl
  | some => exact exponent?_signed exponent

namespace Written

variable {text : List Char} {digits : Nat} {exponent : Int}

/-- A decimal that is written down is a mantissa and an exponent. -/
theorem exists_eq_append (written : Written text digits exponent) :
    ∃ mantissa tail, text = mantissa ++ tail ∧ IsMantissa mantissa ∧ IsExponent tail := by
  cases written with
  | whole nonempty all tail => exact ⟨_, _, rfl, .whole nonempty all, tail.isExponent⟩
  | point nonempty all tail =>
    exact ⟨_, _, rfl, .point (List.append_ne_nil_of_left_ne_nil nonempty _) all, tail.isExponent⟩

/-- What is written for a number has the form of a numeral. -/
theorem isNumeral (written : Written text digits exponent) : IsNumeral text := by
  obtain ⟨mantissa, tail, rfl, isMantissa, isExponent⟩ := written.exists_eq_append
  exact .decimal isMantissa isExponent

/-- What is written in decimal notation does not start as hexadecimal. -/
theorem startsHexadecimal_eq (written : Written text digits exponent) :
    Token.startsHexadecimal text = false := by
  obtain ⟨mantissa, tail, rfl, isMantissa, isExponent⟩ := written.exists_eq_append
  exact startsHexadecimal_decimal isMantissa isExponent

/-- What is written is read back. -/
theorem valueOf?_eq (written : Written text digits exponent) :
    valueOf? text = some (.ofDecimal digits exponent) := by
  rw [valueOf?, read?_eq_decimal? written.startsHexadecimal_eq]
  cases written with
  | whole nonempty all tail =>
    rw [decimal?_whole all tail.isExponent.isExponentPart, tail.exponent?_eq,
      natural?_eq_some nonempty all]
    rfl
  | point nonempty all tail =>
    obtain ⟨before, behind⟩ := allDigits_append.1 all
    rw [decimal?_point before behind tail.isExponent.isExponentPart, tail.exponent?_eq,
      natural?_eq_some (List.append_ne_nil_of_left_ne_nil nonempty _) all]
    rfl

end Written

end Numeral

namespace Double

/-- The text is that of a decimal which names the double. -/
def IsText (x : Double) (text : List Char) : Prop :=
  ∃ digits exponent, Numeral.Written text digits exponent ∧ ofDecimal digits exponent = x

/-- The text of a double is read as that double. -/
theorem IsText.valueOf?_eq {x : Double} {text : List Char} (named : x.IsText text) :
    Numeral.valueOf? text = some x := by
  obtain ⟨digits, exponent, written, rfl⟩ := named
  exact written.valueOf?_eq

/-- Positional notation names the double that the decimal names. -/
theorem isText_positional (decimal : Decimal) : decimal.toDouble.IsText (positional decimal) := by
  obtain ⟨number, exponent⟩ := decimal
  have digits := Numeral.allDigits_toDigits number
  have nonempty : Nat.toDigits 10 number ≠ [] := Nat.toDigits_ne_nil
  have value : Nat.ofDigitChars 10 (Nat.toDigits 10 number) 0 = number :=
    Nat.ofDigitChars_ten_toDigits
  rw [positional, Decimal.toDouble]
  dsimp only
  generalize Nat.toDigits 10 number = text at digits nonempty value
  unfold placePoint
  split
  next low =>
    have zeros := Numeral.allDigits_zeros (-((text.length : Int) + exponent)).toNat
    have written := Numeral.Written.point (List.cons_ne_nil '0' [])
      (Numeral.allDigits_append.2 ⟨Numeral.allDigits_zeros 1,
        Numeral.allDigits_append.2 ⟨zeros, digits⟩⟩) .none
    rw [List.append_nil] at written
    refine ⟨_, _, written, ?_⟩
    rw [Nat.ofDigitChars_append, Nat.ofDigitChars_append, Nat.ofDigitChars_replicate_zero,
      List.length_append, List.length_replicate]
    show ofDecimal (Nat.ofDigitChars 10 text 0) _ = _
    rw [value]
    congr 1
    omega
  next high =>
  split
  next whole =>
    generalize count : ((text.length : Int) + exponent - text.length).toNat = zeros
    have written := Numeral.Written.whole (List.append_ne_nil_of_left_ne_nil nonempty _)
      (Numeral.allDigits_append.2 ⟨digits, Numeral.allDigits_zeros zeros⟩) .none
    rw [List.append_nil] at written
    refine ⟨_, _, written, ?_⟩
    rw [Nat.ofDigitChars_append, value, Nat.ofDigitChars_replicate_zero, Nat.mul_comm]
    refine (ofDecimal_mul_pow number zeros 0).trans ?_
    congr 1
    omega
  next split =>
    generalize count : ((text.length : Int) + exponent).toNat = before
    have inside : before < text.length := by omega
    have cut : text.take before ++ text.drop before = text := List.take_append_drop ..
    have some : text.take before ≠ [] := by
      intro empty
      have length := congrArg List.length empty
      rw [List.length_take, List.length_nil] at length
      omega
    have written := Numeral.Written.point some
      (show Numeral.AllDigits (text.take before ++ text.drop before) by rwa [cut]) .none
    rw [List.append_nil] at written
    refine ⟨_, _, written, ?_⟩
    rw [cut, value, List.length_drop]
    congr 1
    omega

/-- Scientific notation names the double that the decimal names. -/
theorem isText_scientific (decimal : Decimal) : decimal.toDouble.IsText (scientific decimal) := by
  obtain ⟨number, exponent⟩ := decimal
  have digits := Numeral.allDigits_toDigits number
  have nonempty : Nat.toDigits 10 number ≠ [] := Nat.toDigits_ne_nil
  have value : Nat.ofDigitChars 10 (Nat.toDigits 10 number) 0 = number :=
    Nat.ofDigitChars_ten_toDigits
  rw [scientific, Decimal.toDouble]
  dsimp only
  generalize Nat.toDigits 10 number = text at digits nonempty value
  generalize written : (text.length : Int) + exponent - 1 = power
  cases text with
  | nil => exact absurd rfl nonempty
  | cons digit further =>
    cases further with
    | nil =>
      refine ⟨_, _, .whole nonempty digits (.some power), ?_⟩
      rw [value]
      congr 1
      rw [List.length_singleton] at written
      omega
    | cons second rest =>
      refine ⟨_, _, .point (List.cons_ne_nil digit []) digits (.some power), ?_⟩
      show ofDecimal (Nat.ofDigitChars 10 (digit :: second :: rest) 0) _ = _
      rw [value]
      congr 1
      rw [List.length_cons] at written
      omega

theorem magnitude_eq_self {x : Double} (magnitude : x.IsMagnitude) : x.magnitude = x := by
  have below : x.bits.toNat < signBit :=
    Nat.lt_of_le_of_lt magnitude (by decide)
  rw [Double.magnitude, Nat.mod_eq_of_lt below, UInt64.ofNat_toNat]

/-- A finite double that is not negative is named by either of its notations. -/
theorem isText_written {style : Decimal → List Char}
    (names : ∀ decimal : Decimal, decimal.toDouble.IsText (style decimal)) {x : Double}
    (magnitude : x.IsMagnitude) (finite : x.isFinite) : x.IsText (written style x) := by
  have nonnegative := magnitude.isNegative_eq
  have shortest := Decimal.toDouble_shortest finite nonnegative
  have same : written style x =
      if x.units = 0 then style ⟨0, 0⟩ else style (Decimal.shortest x) := by
    rw [written, magnitude.isNaN_eq, finite, magnitude_eq_self magnitude, nonnegative]
    rfl
  rw [same]
  split
  next none =>
    have exact := ofUnits_units finite nonnegative
    rw [none, ofUnits_eq_zero (by decide)] at exact
    rw [← exact]
    exact names ⟨0, 0⟩
  · have named := names (Decimal.shortest x)
    rwa [shortest] at named

/-- A finite double that is not negative is named by its normal form. -/
theorem isText_normalForm {x : Double} (magnitude : x.IsMagnitude) (finite : x.isFinite) :
    x.IsText x.normalForm := by
  rw [normalForm]
  split
  · exact isText_written isText_scientific magnitude finite
  · exact isText_written isText_positional magnitude finite

/-- A finite double that is negative is written with a minus sign. -/
theorem written_of_isNegative (style : Decimal → List Char) {x : Double} (negative : x.isNegative)
    (finite : x.isFinite) : ∃ text, written style x = '-' :: text := by
  have low : x.exponentField < 2047 := of_decide_eq_true finite
  have number : x.isNaN = false := by
    rw [isNaN, beq_false_of_ne (Nat.ne_of_lt low), Bool.false_and]
  rw [written, number, if_neg Bool.false_ne_true, if_pos negative]
  exact ⟨_, rfl⟩

/-- The normal form of a finite double does not start like a hexadecimal number. -/
theorem startsHexadecimal_normalForm {x : Double} (finite : x.isFinite) :
    Token.startsHexadecimal x.normalForm = false := by
  cases negative : x.isNegative with
  | false =>
    obtain ⟨digits, exponent, written, -⟩ :=
      isText_normalForm (isMagnitude_of_isFinite negative finite) finite
    exact written.startsHexadecimal_eq
  | true =>
    rw [normalForm]
    split
    · obtain ⟨text, same⟩ := written_of_isNegative scientific negative finite
      rw [same]
      rfl
    · obtain ⟨text, same⟩ := written_of_isNegative positional negative finite
      rw [same]
      rfl

end Double

/-! ### Number literals -/

/-- A character in upper case is the character itself, unless it was a small letter, of which there
are few enough to try them all. -/
theorem toUpper_cases (c : Char) :
    c.toUpper = c ∨ ∃ code, code < 123 ∧ 97 ≤ code ∧ c = Char.ofNat code := by
  by_cases lower : c.val ≥ 'a'.val ∧ c.val ≤ 'z'.val
  · refine .inr ⟨c.toNat, ?_, ?_, (Char.ofNat_toNat c).symm⟩
    · exact Nat.lt_succ_of_le (UInt32.le_iff_toNat_le.1 lower.2)
    · exact UInt32.le_iff_toNat_le.1 lower.1
  · exact .inl (dif_neg lower)

/-- The case of a hexadecimal digit does not matter. -/
theorem hexDigitValue?_toUpper (c : Char) : hexDigitValue? c.toUpper = hexDigitValue? c := by
  have letters : ∀ code < 123, 97 ≤ code →
      hexDigitValue? (Char.ofNat code).toUpper = hexDigitValue? (Char.ofNat code) := by decide
  rcases toUpper_cases c with same | ⟨code, low, high, rfl⟩
  · rw [same]
  · exact letters code low high

theorem toUpper_toUpper (c : Char) : c.toUpper.toUpper = c.toUpper := by
  have letters : ∀ code < 123, 97 ≤ code →
      (Char.ofNat code).toUpper.toUpper = (Char.ofNat code).toUpper := by decide
  rcases toUpper_cases c with same | ⟨code, low, high, rfl⟩
  · rw [same, same]
  · exact letters code low high

namespace Literal

/-- The value of hexadecimal digits does not depend on their case. -/
theorem hexadecimal?_map_toUpper (digits : List Char) :
    Numeral.hexadecimal? (digits.map Char.toUpper) = Numeral.hexadecimal? digits := by
  have same : (digits.map Char.toUpper).mapM hexDigitValue? = digits.mapM hexDigitValue? := by
    rw [List.mapM_map]
    congr 1
    funext c
    exact hexDigitValue?_toUpper c
  simp only [Numeral.hexadecimal?, same, List.map_eq_nil_iff]

theorem normalHexadecimal?_eq_none {text : List Char}
    (decimal : Token.startsHexadecimal text = false) : normalHexadecimal? text = none := by
  unfold normalHexadecimal?
  split
  · cases decimal
  · cases decimal
  · rfl

/-- A hexadecimal literal in normal form stays as it is. -/
theorem normalHexadecimal?_of_upper {digits : List Char}
    (upper : digits.map Char.toUpper = digits) :
    normalHexadecimal? ('0' :: 'x' :: digits) = some ('0' :: 'x' :: digits) := by
  rw [normalHexadecimal?, upper]

theorem map_toUpper_map_toUpper (digits : List Char) :
    (digits.map Char.toUpper).map Char.toUpper = digits.map Char.toUpper := by
  rw [List.map_map]
  exact List.map_congr_left fun c _ => toUpper_toUpper c

/-- A hexadecimal number in upper case is written as it stands. -/
theorem normalHexadecimal?_normal {raw text : List Char}
    (normal : normalHexadecimal? raw = some text) : normalHexadecimal? text = some text := by
  unfold normalHexadecimal? at normal
  split at normal
  · cases normal
    exact normalHexadecimal?_of_upper (map_toUpper_map_toUpper _)
  · cases normal
    exact normalHexadecimal?_of_upper (map_toUpper_map_toUpper _)
  · cases normal

/-- The text in which the value of a numeral is written names it. -/
theorem valueOf?_normalNumber {raw : List Char} {value : Double}
    (named : Numeral.valueOf? raw = some value) :
    Numeral.valueOf? (normalNumber raw value) = some value := by
  have magnitude := Numeral.isMagnitude_of_valueOf? named
  unfold normalNumber
  split
  next text hexadecimal =>
    unfold normalHexadecimal? at hexadecimal
    split at hexadecimal
    · cases hexadecimal
      rw [← named]
      exact congrArg (Option.map _) (hexadecimal?_map_toUpper _)
    · cases hexadecimal
      rw [← named]
      exact congrArg (Option.map _) (hexadecimal?_map_toUpper _)
    · cases hexadecimal
  · split
    next finite => exact (Double.isText_normalForm magnitude finite).valueOf?_eq
    · exact named

/-- The text in which a number is written stays as it is when it is written again. -/
theorem normalNumber_normalNumber (raw : List Char) (value : Double) :
    normalNumber (normalNumber raw value) value = normalNumber raw value := by
  cases hexadecimal : normalHexadecimal? raw with
  | some text => simp only [normalNumber, hexadecimal, normalHexadecimal?_normal hexadecimal]
  | none =>
    by_cases finite : value.isFinite
    · have decimal := normalHexadecimal?_eq_none (Double.startsHexadecimal_normalForm finite)
      simp only [normalNumber, hexadecimal, if_pos finite, decimal]
    · simp only [normalNumber, hexadecimal, if_neg finite]

/-- A literal that was read from a number can be written. -/
theorem numberDoc_eq_ok {raw : List Char} {value : Double}
    (named : Numeral.valueOf? raw = some value) :
    numberDoc raw value = .ok (Doc.ofText (normalNumber raw value)) := by
  have number := (Numeral.isMagnitude_of_valueOf? named).isNaN_eq
  rw [numberDoc, valueOf?_normalNumber named, Option.any_some, Double.sameNumber_self number]
  rfl

end Literal

/-! ### Written numbers as tokens -/

namespace Token

/-- A number goes on with a character in upper case exactly if it does with the character. -/
theorem goesOn_toUpper (c : Char) :
    (c.toUpper.isAlphanum || c.toUpper == '.' || c.toUpper == '_') =
      (c.isAlphanum || c == '.' || c == '_') := by
  have letters : ∀ code < 123, 97 ≤ code →
      ((Char.ofNat code).toUpper.isAlphanum || (Char.ofNat code).toUpper == '.' ||
        (Char.ofNat code).toUpper == '_') =
      ((Char.ofNat code).isAlphanum || Char.ofNat code == '.' || Char.ofNat code == '_') := by
    decide
  rcases toUpper_cases c with same | ⟨code, low, high, rfl⟩
  · rw [same]
  · exact letters code low high

/-- A hexadecimal number in upper case is as long as it was. The character before does not matter,
since no sign belongs to such a number. -/
theorem numberLength_map_toUpper (first second : Char) (text : List Char) :
    numberLength true first (text.map Char.toUpper) = numberLength true second text := by
  induction text generalizing first second with
  | nil => rfl
  | cons c rest inductionHypothesis =>
    rw [List.map_cons, numberLength, numberLength, Bool.not_true, Bool.and_false, Bool.and_false,
      Bool.or_false, Bool.or_false,
      goesOn_toUpper, inductionHypothesis]

/-- The text in which a number is written is that of a number. -/
theorem isNumber_normalNumber {raw : List Char} {value : Double} (number : IsNumber raw)
    (named : Numeral.valueOf? raw = some value) :
    IsNumber (Literal.normalNumber raw value) := by
  have magnitude := Numeral.isMagnitude_of_valueOf? named
  unfold Literal.normalNumber
  split
  next text hexadecimal =>
    unfold Literal.normalHexadecimal? at hexadecimal
    obtain ⟨c, rest, same, -, whole⟩ := number
    have uppered {mark : Char} {digits : List Char} (alphanumeric : mark.isAlphanum)
        (goesOn : numberLength true '0' (mark :: digits) = (mark :: digits).length) :
        IsNumber ('0' :: 'x' :: digits.map Char.toUpper) := by
      refine ⟨'0', 'x' :: digits.map Char.toUpper, rfl, rfl, ?_⟩
      show numberLength true '0' _ = _
      rw [numberLength_cons alphanumeric, List.length_cons] at goesOn
      rw [numberLength_cons rfl, numberLength_map_toUpper 'x' mark, Nat.succ.inj goesOn,
        List.length_cons, List.length_map]
    split at hexadecimal
    · cases hexadecimal
      cases same
      exact uppered rfl whole
    · cases hexadecimal
      cases same
      exact uppered rfl whole
    · cases hexadecimal
  · split
    next finite =>
      obtain ⟨digits, exponent, written, -⟩ := Double.isText_normalForm magnitude finite
      exact isNumber_of_isNumeral written.isNumeral
    · exact number

end Token

end LuaStyle
