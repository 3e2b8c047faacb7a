import SearchPhrase.Proofs.Numeral.Double

/-!
# Decimals in double precision

A decimal is rounded to the nearest number of double precision and then loses
its fraction.  The computation takes two shortcuts, for decimals that are too
large or too small by their exponents alone, and never computes the rounded
number itself but only its whole part.  The main statement is that all of this
finds the truncation of the nearest number of double precision, and refuses
exactly those beyond sixty-three bits.
-/

namespace SearchPhrase.Numeral

/-! ## Losing the fraction -/

/-- The whole number that is left of a number without its fraction. -/
def truncate (number : ℚ) : ℤ :=
  if number < 0 then ⌈number⌉ else ⌊number⌋

theorem truncate_of_nonneg {number : ℚ} (nonneg : 0 ≤ number) :
    truncate number = ⌊number⌋ :=
  if_neg (not_lt.mpr nonneg)

@[simp]
theorem truncate_neg (number : ℚ) : truncate (-number) = -truncate number := by
  unfold truncate
  rcases lt_trichotomy number 0 with negative | rfl | positive
  · rw [if_neg (not_lt.mpr (neg_pos.mpr negative).le), if_pos negative,
      Int.floor_neg]
  · simp
  · rw [if_pos (neg_lt_zero.mpr positive), if_neg positive.le.not_gt,
      Int.ceil_neg]

/-! ## Quotients beyond sixty-three bits -/

section Quotient

variable {numerator denominator whole : ℕ} {double : Double}

theorem bitLength_le {number bits : ℕ} (small : number < 2 ^ bits) :
    bitLength number ≤ bits := by
  by_contra! longer
  obtain ⟨shorter, length⟩ := Nat.exists_eq_add_of_lt longer
  have atLeast := two_pow_le_of_bitLength length
  have power := Nat.pow_le_pow_right two_pos (Nat.le_add_right bits shorter)
  omega

theorem Double.IsNearest.two_pow_le_value {number : ℚ}
    (nearest : double.IsNearest number)
    (large : 2 ^ 63 ≤ number) : 2 ^ 63 ≤ double.value := by
  obtain ⟨limit, atLimit, -⟩ := exists_value_eq
    (show |(1 : ℤ)| ≤ 2 ^ 53 by norm_num)
    (show (-1074 : ℤ) ≤ 63 ∧ 63 ≤ 970 by norm_num)
  have value : limit.value = 2 ^ 63 := by
    rw [atLimit]
    norm_num
  rw [← value] at large ⊢
  exact nearest.le_value large

/-- What is beyond sixty-three bits stays beyond them, whatever its sign. -/
theorem Double.IsNearest.two_pow_le_abs_value {number : ℚ}
    (nearest : double.IsNearest number)
    (large : 2 ^ 63 ≤ |number|) : 2 ^ 63 ≤ |double.value| := by
  rcases le_abs.mp large with positive | negative
  · exact (nearest.two_pow_le_value positive).trans (le_abs_self _)
  · have mirrored := nearest.neg.two_pow_le_value negative
    rw [value_neg] at mirrored
    exact mirrored.trans (neg_le_abs _)

theorem wholePartOfNearest_eq_iff (positive : 0 < denominator)
    (nearest : double.IsNearest ((numerator : ℚ) / denominator)) :
    wholePartOfNearest numerator denominator = whole ∧ whole < 2 ^ 63 ↔
      ⌊double.value⌋ = whole ∧ double.value < 2 ^ 63 := by
  by_cases small : numerator / denominator < 2 ^ 63
  · have floored :=
      nearest.floor_value positive ((bitLength_le small).trans (by norm_num))
    rw [floored, Nat.cast_inj]
    refine and_congr_right fun same => ?_
    have below : double.value < 2 ^ 63 ↔ ⌊double.value⌋ < 2 ^ 63 := by
      rw [Int.floor_lt]
      norm_num
    rw [below, floored, same]
    norm_cast
  · rw [not_lt] at small
    have beyond := le_wholePartOfNearest positive small
    have large : (2 : ℚ) ^ 63 ≤ numerator / denominator := by
      rw [le_div_iff₀ (by exact_mod_cast positive)]
      exact_mod_cast (Nat.le_div_iff_mul_le positive).mp small
    have atLeast := nearest.two_pow_le_value large
    constructor
    · rintro ⟨same, less⟩
      omega
    · rintro ⟨-, less⟩
      exact absurd less (not_lt.mpr atLeast)

end Quotient

/-! ## Decimals -/

namespace Decimal

variable {decimal : Decimal}

/-- The exact magnitude of a decimal. -/
def magnitude (decimal : Decimal) : ℚ :=
  decimal.significand * 10 ^ decimal.exponent

/-- The exact value of a decimal. -/
def value (decimal : Decimal) : ℚ :=
  if decimal.negative then -decimal.magnitude else decimal.magnitude

theorem magnitude_nonneg (decimal : Decimal) : 0 ≤ decimal.magnitude :=
  mul_nonneg (Nat.cast_nonneg _) (zpow_nonneg (by norm_num) _)

@[simp]
theorem abs_value (decimal : Decimal) :
    |decimal.value| = decimal.magnitude := by
  unfold value
  split
  · rw [abs_neg, abs_of_nonneg decimal.magnitude_nonneg]
  · rw [abs_of_nonneg decimal.magnitude_nonneg]

/-- The magnitude as the quotient that is computed with. -/
theorem magnitude_eq_div (decimal : Decimal) :
    decimal.magnitude =
      ((decimal.significand * 10 ^ decimal.exponent.toNat : ℕ) : ℚ) /
        ((10 ^ (-decimal.exponent).toNat : ℕ) : ℚ) := by
  unfold magnitude
  generalize decimal.significand = significand
  rcases le_total 0 decimal.exponent with nonneg | nonpos
  · obtain ⟨places, same⟩ := Int.eq_ofNat_of_zero_le nonneg
    simp [same]
  · obtain ⟨places, same⟩ := Int.exists_eq_neg_ofNat nonpos
    simp [same, div_eq_mul_inv]

theorem significand_lt
    (digits : ∀ character ∈ decimal.digits, character.isDigit = true) :
    decimal.significand < 10 ^ decimal.digits.length := by
  unfold significand
  generalize decimal.digits = characters at digits
  induction characters with
  | nil => simp
  | cons first rest ih =>
      rw [List.forall_mem_cons] at digits
      have remaining := ih digits.2
      have bounds := Char.isDigit_iff_toNat.mp digits.1
      have upper : first.toNat - '0'.toNat ≤ 9 := by
        have : first.toNat ≤ 57 := bounds.2
        exact Nat.sub_le_of_le_add this
      have power := Nat.mul_le_mul_left (10 ^ rest.length) upper
      rw [Nat.ofDigitChars_cons, Nat.ofDigitChars_eq_ofDigitChars_zero,
        Nat.mul_zero, Nat.zero_add, List.length_cons, Nat.pow_succ]
      omega

/-- The shortcuts by the exponent agree with the rounding of the quotient. -/
theorem magnitude?_eq
    (digits : ∀ character ∈ decimal.digits, character.isDigit = true) :
    decimal.magnitude? =
      if decimal.significand ≠ 0 ∧ 19 ≤ decimal.exponent then none
      else
        some (wholePartOfNearest
          (decimal.significand * 10 ^ decimal.exponent.toNat)
          (10 ^ (-decimal.exponent).toNat)) := by
  have bound := significand_lt digits
  unfold magnitude?
  by_cases zero : decimal.significand = 0
  · rw [if_pos (beq_iff_eq.mpr zero), if_neg fun large => large.1 zero, zero,
      Nat.zero_mul, wholePartOfNearest_eq_zero (Nat.pow_pos (by decide))]
  rw [if_neg (by simpa using zero)]
  by_cases large : 19 ≤ decimal.exponent
  · rw [if_pos large, if_pos ⟨zero, large⟩]
  have notBoth : ¬ (decimal.significand ≠ 0 ∧ 19 ≤ decimal.exponent) :=
    fun both => large both.2
  rw [if_neg large, if_neg notBoth]
  by_cases small : decimal.exponent + decimal.digits.length < 0
  · have noPower : decimal.exponent.toNat = 0 := by omega
    have places : decimal.digits.length + 1 ≤ (-decimal.exponent).toNat := by
      omega
    have power := Nat.pow_le_pow_right (show 0 < 10 by decide) places
    rw [Nat.pow_succ] at power
    rw [if_pos small, noPower, pow_zero, mul_one,
      wholePartOfNearest_eq_zero (by omega)]
  · rw [if_neg small]
    rfl

/--
A decimal is refused by its exponent alone only if it is beyond sixty-three
bits.
-/
theorem two_pow_le_magnitude (nonzero : decimal.significand ≠ 0)
    (large : 19 ≤ decimal.exponent) :
    2 ^ 63 ≤ decimal.magnitude := by
  have atLeast : (1 : ℚ) ≤ decimal.significand := by
    exact_mod_cast Nat.one_le_iff_ne_zero.mpr nonzero
  calc (2 : ℚ) ^ 63 ≤ 1 * 10 ^ (19 : ℤ) := by norm_num
    _ ≤ decimal.significand * 10 ^ decimal.exponent := by
        gcongr
        norm_num

theorem magnitude_lt_of_magnitude?
    (digits : ∀ character ∈ decimal.digits, character.isDigit = true)
    {whole : ℕ}
    (found : decimal.magnitude? = some whole) (small : whole < 2 ^ 63) :
    decimal.magnitude < 2 ^ 63 := by
  rw [magnitude?_eq digits] at found
  split_ifs at found
  cases found
  have positive : 0 < 10 ^ (-decimal.exponent).toNat := Nat.pow_pos (by decide)
  by_contra! large
  rw [magnitude_eq_div, le_div_iff₀ (by exact_mod_cast positive)] at large
  have atLeast := (Nat.le_div_iff_mul_le positive).mpr (by exact_mod_cast large)
  exact absurd small (not_lt.mpr (le_wholePartOfNearest positive atLeast))

/--
The magnitude that is computed is that of the nearest number of double
precision.
-/
theorem magnitude?_eq_some_iff
    (digits : ∀ character ∈ decimal.digits, character.isDigit = true)
    {whole : ℕ} :
    decimal.magnitude? = some whole ∧ whole < 2 ^ 63 ↔
      ∃ double : Double,
        double.IsNearest decimal.magnitude ∧ |double.value| < 2 ^ 63 ∧
          truncate double.value = whole := by
  have nonneg := decimal.magnitude_nonneg
  have matched {double : Double}
      (nearest : double.IsNearest decimal.magnitude) :
      decimal.magnitude? = some whole ∧ whole < 2 ^ 63 ↔
        |double.value| < 2 ^ 63 ∧ truncate double.value = whole := by
    have rounded := nearest.value_nonneg nonneg
    rw [abs_of_nonneg rounded, truncate_of_nonneg rounded,
      and_comm (a := double.value < 2 ^ 63), magnitude?_eq digits]
    split_ifs with beyond
    · have atLeast :=
        nearest.two_pow_le_value (two_pow_le_magnitude beyond.1 beyond.2)
      exact iff_of_false (by simp) fun less =>
        absurd less.2 (not_lt.mpr atLeast)
    · rw [magnitude_eq_div] at nearest
      rw [Option.some.injEq]
      exact wholePartOfNearest_eq_iff (Nat.pow_pos (by decide)) nearest
  constructor
  · rintro ⟨found, small⟩
    have less := magnitude_lt_of_magnitude? digits found small
    obtain ⟨double, nearest⟩ :=
      Double.exists_isNearest nonneg (less.trans (by norm_num))
    exact ⟨double, nearest, (matched nearest).mp ⟨found, small⟩⟩
  · rintro ⟨double, nearest, held⟩
    exact (matched nearest).mpr held

theorem truncated?_eq_some_iff_magnitude? {number : ℤ} :
    decimal.truncated? = some number ↔
      ∃ whole : ℕ, (decimal.magnitude? = some whole ∧ whole < 2 ^ 63) ∧
        (if decimal.negative then -(whole : ℤ) else whole) = number := by
  unfold truncated?
  cases decimal.magnitude? with
  | none => simp
  | some whole => simp [and_assoc]

/--
The whole number of a decimal is the truncation of the nearest number of double
precision, and there is none if that is beyond sixty-three bits.
-/
theorem truncated?_eq_some_iff
    (digits : ∀ character ∈ decimal.digits, character.isDigit = true)
    {number : ℤ} :
    decimal.truncated? = some number ↔
      ∃ double : Double,
        double.IsNearest decimal.value ∧ |double.value| < 2 ^ 63 ∧
          truncate double.value = number := by
  have whole {double : Double} (nearest : double.IsNearest decimal.magnitude) :
      ∃ whole : ℕ, truncate double.value = whole := by
    have rounded := nearest.value_nonneg decimal.magnitude_nonneg
    rw [truncate_of_nonneg rounded]
    exact Int.eq_ofNat_of_zero_le (Int.floor_nonneg.mpr rounded)
  simp only [truncated?_eq_some_iff_magnitude?, magnitude?_eq_some_iff digits,
    value]
  cases decimal.negative with
  | false =>
      constructor
      · rintro ⟨_, ⟨double, nearest, less, same⟩, rfl⟩
        exact ⟨double, nearest, less, same⟩
      · rintro ⟨double, nearest, less, rfl⟩
        obtain ⟨number, same⟩ := whole nearest
        exact ⟨number, ⟨double, nearest, less, same⟩, same.symm⟩
  | true =>
      constructor
      · rintro ⟨_, ⟨double, nearest, less, same⟩, rfl⟩
        refine ⟨double.neg, nearest.neg, ?_, ?_⟩
        · rwa [Double.value_neg, abs_neg]
        · rw [Double.value_neg, truncate_neg, same, if_pos rfl]
      · rintro ⟨double, nearest, less, rfl⟩
        have mirrored := nearest.neg
        rw [if_pos rfl, neg_neg] at mirrored
        obtain ⟨number, same⟩ := whole mirrored
        refine ⟨number, ⟨double.neg, mirrored, ?_, same⟩, ?_⟩
        · rwa [Double.value_neg, abs_neg]
        · rw [if_pos rfl, ← same, Double.value_neg, truncate_neg, neg_neg]

end Decimal

end SearchPhrase.Numeral
