/-
This file proves that rounding a decimal to a double depends on its value alone.

`Double.ofDecimal` settles very large and very small exponents without computing a power. Here all
its cases are shown to be one: the nearest double to a fraction, and the same for every way to write
the fraction. So the zeros at the end of the digits can be moved into the exponent and back, and the
exact expansion of a double, which is a fraction over a power of ten, rounds to the double it was
taken from. Together with the search for the shortest digits, which checks every decimal it returns,
this means that the shortest decimal of a double names it.
-/

import LuaStyle.Number.Shortest

namespace LuaStyle

namespace Double

/-! ### The nearest double to a fraction -/

/-- The nearest natural number depends on the fraction and not on how it is written. -/
theorem nearest_mul (numerator denominator : Nat) {factor : Nat} (positive : 0 < factor) :
    nearest (numerator * factor) (denominator * factor) = nearest numerator denominator := by
  have remainder : numerator * factor % (denominator * factor) =
      numerator % denominator * factor := Nat.mul_mod_mul_right ..
  have below : denominator * factor < 2 * (numerator % denominator * factor) ↔
      denominator < 2 * (numerator % denominator) := by
    rw [← Nat.mul_assoc, Nat.mul_lt_mul_right positive]
  have tie : 2 * (numerator % denominator * factor) = denominator * factor ↔
      2 * (numerator % denominator) = denominator := by
    rw [← Nat.mul_assoc, Nat.mul_left_inj (Nat.pos_iff_ne_zero.1 positive)]
  simp only [nearest, remainder, Nat.mul_div_mul_right _ _ positive, below, tie]

theorem ofUnits_mul (numerator denominator : Nat) {factor : Nat} (positive : 0 < factor) :
    ofUnits (numerator * factor) (denominator * factor) = ofUnits numerator denominator := by
  have scaled (power : Nat) : nearest (numerator * factor) (denominator * factor * power) =
      nearest numerator (denominator * power) := by
    rw [Nat.mul_right_comm, nearest_mul _ _ positive]
  simp only [ofUnits, Nat.mul_div_mul_right _ _ positive, scaled]

/-- Fractions of equal value round to the same double. -/
theorem ofUnits_congr {numerator denominator numerator' denominator' : Nat}
    (positive : 0 < denominator) (positive' : 0 < denominator')
    (same : numerator * denominator' = numerator' * denominator) :
    ofUnits numerator denominator = ofUnits numerator' denominator' := by
  rw [← ofUnits_mul numerator denominator positive', same, Nat.mul_comm denominator,
    ofUnits_mul _ _ positive]

/-- What is rounded to is neither negative nor past infinity. -/
theorem bits_ofUnits_le (numerator denominator : Nat) :
    (ofUnits numerator denominator).bits.toNat ≤ infinity.bits.toNat := by
  rw [ofUnits]
  generalize infinity = largest
  split
  next below =>
    rw [UInt64.toNat_ofNat_of_lt' (Nat.lt_trans below largest.bits.toNat_lt_size)]
    exact Nat.le_of_lt below
  · exact Nat.le_refl _

/-- A fraction below half a unit rounds to zero. -/
theorem ofUnits_eq_zero {numerator denominator : Nat} (small : 2 * numerator < denominator) :
    ofUnits numerator denominator = zero := by
  have quotient : numerator / denominator = 0 := Nat.div_eq_of_lt (by omega)
  have remainder : numerator % denominator = numerator := Nat.mod_eq_of_lt (by omega)
  have rounded : nearest numerator denominator = 0 := by
    rw [nearest, quotient, remainder, if_neg (by omega)]
  have scale : Nat.log2 0 - 52 = 0 := by decide
  have one : denominator * Nat.pow 2 0 = denominator := Nat.mul_one _
  rw [ofUnits, quotient, scale, one, rounded]
  rfl

/-- A whole number of units with too many bits rounds to infinity. -/
theorem ofUnits_eq_infinity {units : Nat} (bits : 2099 ≤ Nat.log2 units) :
    ofUnits units 1 = infinity := by
  have past : ¬ (Nat.log2 units - 52) * leadingBit +
      nearest units (1 * Nat.pow 2 (Nat.log2 units - 52)) < infinity.bits.toNat := by
    have most : 2047 * leadingBit ≤ (Nat.log2 units - 52) * leadingBit :=
      Nat.mul_le_mul_right _ (by omega)
    have same : infinity.bits.toNat = 2047 * leadingBit := rfl
    omega
  rw [ofUnits, Nat.div_one, if_neg past]

/-! ### Exact magnitudes -/

theorem bits_toNat_of_nonnegative {x : Double} (nonnegative : x.isNegative = false) :
    x.bits.toNat = x.exponentField * leadingBit + x.fractionField := by
  have bound : x.bits.toNat < signBit := by
    rw [isNegative, decide_eq_false_iff_not] at nonnegative
    omega
  have field : x.bits.toNat / leadingBit < 2048 := by
    rw [Nat.div_lt_iff_lt_mul (by decide)]
    exact bound
  rw [exponentField, fractionField, Nat.mod_eq_of_lt field, Nat.mul_comm]
  exact (Nat.div_add_mod ..).symm

theorem nearest_exact (number : Nat) {factor : Nat} (positive : 0 < factor) :
    nearest (number * factor) factor = number := by
  have remainder : number * factor % factor = 0 := Nat.mul_mod_left ..
  have exact : ¬ (factor < 2 * 0 ∨ (2 * 0 = factor ∧ number * factor / factor % 2 = 1)) := by omega
  rw [nearest, remainder, if_neg exact, Nat.mul_div_cancel _ positive]

theorem fractionField_lt (x : Double) : x.fractionField < leadingBit :=
  Nat.mod_lt _ (by decide)

/-- The least exponent leaves no more bits than a fraction has. -/
theorem log2_units_lt {x : Double} (least : x.exponentField = 0) : Nat.log2 x.units < 53 := by
  have units : x.units = x.fractionField := if_pos least
  rw [units]
  by_cases zero : x.fractionField = 0
  · rw [zero]
    decide
  · exact (Nat.log2_lt zero).2 (Nat.lt_trans x.fractionField_lt (by decide))

/-- Any other exponent tells how many bits there are. -/
theorem log2_units {x : Double} (normal : x.exponentField ≠ 0) :
    Nat.log2 x.units = 52 + (x.exponentField - 1) := by
  have units : x.units = (leadingBit + x.fractionField) * Nat.pow 2 (x.exponentField - 1) :=
    if_neg normal
  have leading : Nat.pow 2 52 = leadingBit := by decide
  have power : 0 < Nat.pow 2 (x.exponentField - 1) := Nat.two_pow_pos _
  have low : Nat.pow 2 (52 + (x.exponentField - 1)) ≤ x.units :=
    calc Nat.pow 2 (52 + (x.exponentField - 1))
        = leadingBit * Nat.pow 2 (x.exponentField - 1) := leading ▸ Nat.pow_add ..
      _ ≤ (leadingBit + x.fractionField) * Nat.pow 2 (x.exponentField - 1) :=
        Nat.mul_le_mul_right _ (Nat.le_add_right ..)
      _ = x.units := units.symm
  have high : x.units < Nat.pow 2 (52 + (x.exponentField - 1) + 1) :=
    calc x.units
        = (leadingBit + x.fractionField) * Nat.pow 2 (x.exponentField - 1) := units
      _ < (leadingBit + leadingBit) * Nat.pow 2 (x.exponentField - 1) :=
        Nat.mul_lt_mul_of_pos_right (Nat.add_lt_add_left x.fractionField_lt _) power
      _ = Nat.pow 2 (52 + 1) * Nat.pow 2 (x.exponentField - 1) := rfl
      _ = Nat.pow 2 (52 + 1 + (x.exponentField - 1)) := (Nat.pow_add ..).symm
      _ = Nat.pow 2 (52 + (x.exponentField - 1) + 1) := by rw [Nat.add_right_comm]
  have nonzero : x.units ≠ 0 :=
    Nat.pos_iff_ne_zero.1 (Nat.lt_of_lt_of_le (Nat.two_pow_pos _) low)
  exact (Nat.log2_eq_iff nonzero).2 ⟨low, high⟩

/-- The units of a double round to the double. -/
theorem ofUnits_units {x : Double} (finite : x.isFinite) (nonnegative : x.isNegative = false) :
    ofUnits x.units 1 = x := by
  have parts := bits_toNat_of_nonnegative nonnegative
  have fraction := x.fractionField_lt
  have exponent : x.exponentField < 2047 := of_decide_eq_true finite
  have below : x.bits.toNat < infinity.bits.toNat := by
    have same : infinity.bits.toNat = 2047 * leadingBit := rfl
    have most : (x.exponentField + 1) * leadingBit ≤ 2047 * leadingBit :=
      Nat.mul_le_mul_right _ exponent
    rw [Nat.add_mul] at most
    omega
  have whole : Nat.log2 x.units - 52 = x.exponentField - 1 ∧
      nearest x.units (1 * Nat.pow 2 (x.exponentField - 1)) + (x.exponentField - 1) * leadingBit =
        x.bits.toNat := by
    rw [Nat.one_mul]
    by_cases least : x.exponentField = 0
    · have units : x.units = x.fractionField := if_pos least
      have low := log2_units_lt least
      have exact := nearest_exact x.fractionField (Nat.zero_lt_one)
      rw [Nat.mul_one] at exact
      rw [parts, least]
      exact ⟨by omega, by rw [units, show Nat.pow 2 (0 - 1) = 1 from rfl, exact]; omega⟩
    · have units : x.units = (leadingBit + x.fractionField) * Nat.pow 2 (x.exponentField - 1) :=
        if_neg least
      have power : 0 < Nat.pow 2 (x.exponentField - 1) := Nat.two_pow_pos _
      have log := log2_units least
      refine ⟨by omega, ?_⟩
      rw [units, nearest_exact _ power, parts]
      have step : x.exponentField * leadingBit =
          (x.exponentField - 1) * leadingBit + leadingBit := by
        rw [← Nat.succ_mul]
        congr 1
        omega
      omega
  obtain ⟨scale, rounded⟩ := whole
  rw [ofUnits, Nat.div_one, scale, Nat.add_comm, rounded, if_pos below]
  cases x
  congr 1
  exact UInt64.ofNat_toNat

/-! ### Decimals -/

/-- The power of two that counts the units in one, with an exponent that is not a numeral. -/
theorem unitsInOne_eq : ∃ bits, bits = 1074 ∧ unitsInOne = Nat.pow 2 bits := by
  refine ⟨1074, rfl, ?_⟩
  unfold unitsInOne
  exact Eq.refl _

theorem unitsInOne_pos : 0 < unitsInOne := by
  obtain ⟨bits, -, same⟩ := unitsInOne_eq
  rw [same]
  exact Nat.two_pow_pos bits

theorem ten_pow_pos (exponent : Nat) : 0 < Nat.pow 10 exponent :=
  Nat.pow_pos (by decide)

theorem two_pow_mul_three_le (exponent : Nat) : Nat.pow 2 (3 * exponent) ≤ Nat.pow 10 exponent := by
  rw [Nat.pow_eq, Nat.pow_eq, Nat.pow_mul]
  exact Nat.pow_le_pow_left (by decide) _

theorem five_pow_mul_two_pow (exponent : Nat) :
    Nat.pow 5 exponent * Nat.pow 2 exponent = Nat.pow 10 exponent :=
  (Nat.mul_pow 5 2 exponent).symm

theorem two_pow_add (first second : Nat) :
    Nat.pow 2 (first + second) = Nat.pow 2 first * Nat.pow 2 second :=
  Nat.pow_add ..

/-- The shortcuts for large and small exponents are right: a decimal always rounds to the double
that is nearest to its fraction. -/
theorem ofDecimal_eq_ofUnits (digits : Nat) (exponent : Int) :
    ofDecimal digits exponent =
      ofUnits (digits * Nat.pow 10 exponent.toNat * unitsInOne) (Nat.pow 10 (-exponent).toNat) := by
  unfold ofDecimal
  by_cases none : digits = 0
  · rw [if_pos none, none, Nat.zero_mul, Nat.zero_mul, ofUnits_eq_zero (ten_pow_pos _)]
  rw [if_neg none]
  have some : 1 ≤ digits := Nat.pos_iff_ne_zero.2 none
  obtain ⟨bits, size, same⟩ := unitsInOne_eq
  by_cases large : 400 < exponent
  · have divisor : Nat.pow 10 (-exponent).toNat = 1 := by
      rw [show (-exponent).toNat = 0 by omega]
    have product : Nat.pow 2 (3 * exponent.toNat + bits) ≤
        digits * Nat.pow 10 exponent.toNat * unitsInOne := by
      rw [same, two_pow_add, ← Nat.one_mul (Nat.pow 2 (3 * exponent.toNat))]
      exact Nat.mul_le_mul_right _ (Nat.mul_le_mul some (two_pow_mul_three_le _))
    have nonzero : digits * Nat.pow 10 exponent.toNat * unitsInOne ≠ 0 :=
      Nat.pos_iff_ne_zero.1 (Nat.lt_of_lt_of_le (Nat.two_pow_pos _) product)
    have many := (Nat.le_log2 nonzero).2 product
    rw [if_pos large, divisor, ofUnits_eq_infinity (by omega)]
  rw [if_neg large]
  by_cases small : exponent < -401 - (Nat.log2 digits : Int)
  · rw [if_pos small, ofUnits_eq_zero]
    have factor : Nat.pow 10 exponent.toNat = 1 := by
      rw [show exponent.toNat = 0 by omega]
    have power : Nat.pow 2 (3 * (402 + Nat.log2 digits)) ≤ Nat.pow 10 (-exponent).toNat :=
      Nat.le_trans (two_pow_mul_three_le _) (Nat.pow_le_pow_right (by decide) (by omega))
    have below : digits < Nat.pow 2 (Nat.log2 digits + 1) := Nat.lt_log2_self
    have powers : 2 * (Nat.pow 2 (Nat.log2 digits + 1) * unitsInOne) =
        Nat.pow 2 (1 + (Nat.log2 digits + 1) + bits) := by
      rw [same, two_pow_add _ bits, two_pow_add 1, Nat.mul_assoc]
    rw [factor, Nat.mul_one]
    calc 2 * (digits * unitsInOne)
        < 2 * (Nat.pow 2 (Nat.log2 digits + 1) * unitsInOne) :=
          Nat.mul_lt_mul_of_pos_left (Nat.mul_lt_mul_of_pos_right below unitsInOne_pos) (by decide)
      _ = Nat.pow 2 (1 + (Nat.log2 digits + 1) + bits) := powers
      _ ≤ Nat.pow 2 (3 * (402 + Nat.log2 digits)) := Nat.pow_le_pow_right (by decide) (by omega)
      _ ≤ Nat.pow 10 (-exponent).toNat := power
  rw [if_neg small]
  by_cases whole : 0 ≤ exponent
  · rw [if_pos whole, show (-exponent).toNat = 0 by omega]
  · rw [if_neg whole, show exponent.toNat = 0 by omega]
    show _ = ofUnits (digits * 1 * unitsInOne) _
    rw [Nat.mul_one]

/-- Digits with zeros behind them name the same double as the digits with a larger exponent. -/
theorem ofDecimal_mul_pow (digits zeros : Nat) (exponent : Int) :
    ofDecimal (digits * Nat.pow 10 zeros) exponent = ofDecimal digits (exponent + zeros) := by
  rw [ofDecimal_eq_ofUnits, ofDecimal_eq_ofUnits]
  refine ofUnits_congr (ten_pow_pos _) (ten_pow_pos _) ?_
  have powers : Nat.pow 10 zeros * Nat.pow 10 exponent.toNat *
        Nat.pow 10 (-(exponent + zeros)).toNat =
      Nat.pow 10 (exponent + zeros).toNat * Nat.pow 10 (-exponent).toNat := by
    simp only [Nat.pow_eq, ← Nat.pow_add]
    congr 1
    omega
  calc digits * Nat.pow 10 zeros * Nat.pow 10 exponent.toNat * unitsInOne *
        Nat.pow 10 (-(exponent + zeros)).toNat
      = digits * unitsInOne * (Nat.pow 10 zeros * Nat.pow 10 exponent.toNat *
        Nat.pow 10 (-(exponent + zeros)).toNat) := by
        simp only [Nat.mul_assoc, Nat.mul_left_comm, Nat.mul_comm]
    _ = digits * unitsInOne * (Nat.pow 10 (exponent + zeros).toNat *
        Nat.pow 10 (-exponent).toNat) := by rw [powers]
    _ = digits * Nat.pow 10 (exponent + zeros).toNat * unitsInOne *
        Nat.pow 10 (-exponent).toNat := by
        simp only [Nat.mul_assoc, Nat.mul_left_comm, Nat.mul_comm]

end Double

namespace Decimal

/-! ### Decimals that name a double -/

theorem expansion_eq (x : Double) :
    ∃ bits : Nat, Double.unitsInOne = Nat.pow 2 bits ∧
      expansion x = ⟨x.units * Nat.pow 5 bits, -bits⟩ := by
  obtain ⟨bits, size, units⟩ := Double.unitsInOne_eq
  refine ⟨bits, units, ?_⟩
  rw [expansion, size]
  exact Eq.refl _

/-- The exact expansion of a double names it. -/
theorem toDouble_expansion {x : Double} (finite : x.isFinite) (nonnegative : x.isNegative = false) :
    (expansion x).toDouble = x := by
  obtain ⟨bits, units, same⟩ := expansion_eq x
  have exponent : (-(bits : Int)).toNat = 0 := by omega
  have divisor : (-(-(bits : Int))).toNat = bits := by omega
  rw [toDouble, same, Double.ofDecimal_eq_ofUnits]
  dsimp only
  rw [exponent, divisor]
  refine (Double.ofUnits_congr (Double.ten_pow_pos _) Nat.zero_lt_one ?_).trans
    (Double.ofUnits_units finite nonnegative)
  show x.units * Nat.pow 5 bits * 1 * Double.unitsInOne * 1 = x.units * Nat.pow 10 bits
  rw [Nat.mul_one, Nat.mul_one, units, Nat.mul_assoc, Double.five_pow_mul_two_pow]

theorem toDouble_stripZeros (bound : Nat) (decimal : Decimal) :
    (stripZeros bound decimal).toDouble = decimal.toDouble := by
  induction bound generalizing decimal with
  | zero => rfl
  | succ bound inductionHypothesis =>
    rw [stripZeros]
    by_cases zero : decimal.digits % 10 = 0
    · have digits : decimal.digits / 10 * Nat.pow 10 1 = decimal.digits := by
        show decimal.digits / 10 * 10 = _
        omega
      have shifted := Double.ofDecimal_mul_pow (decimal.digits / 10) 1 decimal.exponent
      rw [digits] at shifted
      rw [if_pos zero, inductionHypothesis]
      exact shifted.symm
    · rw [if_neg zero]

/-- A decimal that the search returns names the double. -/
theorem toDouble_of_naming? {x : Double} {leading : Int} {count : Nat} {decimal : Decimal}
    (named : naming? x leading count = some decimal) : decimal.toDouble = x := by
  unfold naming? at named
  generalize onGrid x.units (leading - ((count : Int) - 1)) = fraction at named
  obtain ⟨numerator, denominator⟩ := fraction
  dsimp only at named
  rw [List.find?_eq_some_iff_append] at named
  cases x
  exact congrArg Double.mk (eq_of_beq named.1)

/-- The shortest decimal of a double names it. -/
theorem toDouble_shortest {x : Double} (finite : x.isFinite) (nonnegative : x.isNegative = false) :
    (shortest x).toDouble = x := by
  rw [shortest, toDouble_stripZeros]
  cases found : (List.range' 1 17).findSome? (naming? x (leadingExponent x.units)) with
  | none =>
    rw [Option.getD_none]
    exact toDouble_expansion finite nonnegative
  | some decimal =>
    obtain ⟨count, -, named⟩ := List.exists_of_findSome?_eq_some found
    rw [Option.getD_some]
    exact toDouble_of_naming? named

end Decimal

end LuaStyle
