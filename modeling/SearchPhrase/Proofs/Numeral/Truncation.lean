import Mathlib.Algebra.Order.Floor.Semifield
import Mathlib.Data.Nat.Cast.Order.Field
import SearchPhrase.Proofs.Numeral.WholeNumbers

/-!
# Truncation of decimals

A decimal with a point is read by way of double precision, so that it is rounded
before it loses its fraction.  It is then not truncated towards zero if rounding
leads to another whole part: up to the next whole number, which happens right
below it, or between numbers that are so large that only some whole numbers have
double precision.

The main statement says which decimals are truncated exactly.  Those whose
digits, without the point, write a number below two to the power 53 all are.
-/

namespace SearchPhrase.Numeral

/-! ## Rounding that keeps the whole part -/

theorem IsNearestInteger.lt_iff {number : ℚ} {integer bound : ℤ}
    (nearest : IsNearestInteger number integer) :
    integer < bound ↔
      number < bound - 1 / 2 ∨ number = bound - 1 / 2 ∧ Odd bound := by
  have close := abs_le.mp nearest.close
  constructor
  · intro less
    have atMost : (integer : ℚ) ≤ bound - 1 := by
      exact_mod_cast Int.le_sub_one_of_lt less
    rcases lt_or_eq_of_le (show number ≤ bound - 1 / 2 by linarith) with
      below | tie
    · exact .inl below
    · have last : (integer : ℚ) = (bound - 1 : ℤ) := by
        push_cast
        linarith
      have even := nearest.even (by rw [tie, last]; norm_num)
      refine .inr ⟨tie, ?_⟩
      obtain ⟨half, same⟩ := (Int.cast_inj.mp last) ▸ even
      exact ⟨half, by omega⟩
  · rintro (below | ⟨tie, odd⟩)
    · have less : (integer : ℚ) < bound := by linarith
      exact_mod_cast less
    · refine lt_of_le_of_ne ?_ ?_
      · exact nearest.integer_le (by linarith)
      · rintro rfl
        have even := nearest.even (by rw [tie]; norm_num)
        exact Int.not_even_iff_odd.mpr odd even

/--
Half the distance between the numbers of double precision right below the whole
number that comes after a given one.
-/
def halfSpacing (whole : ℕ) : ℚ :=
  2 ^ ((bitLength whole : ℤ) - 54)

/--
Rounding a number to double precision keeps its whole part.

A whole part of at most 53 bits is kept if the number is further from the next
whole number than half the distance of the numbers below that one.  At half the
distance it goes to the even significand.  A larger whole part is kept if it has
double precision itself.
-/
structure KeepsWholePart (number : ℚ) : Prop where
  fine : ⌊number⌋₊ < 2 ^ 53 → number + halfSpacing ⌊number⌋₊ < ⌊number⌋₊ + 1 ∨
    number + halfSpacing ⌊number⌋₊ = ⌊number⌋₊ + 1 ∧ 2 ^ 52 ≤ ⌊number⌋₊ ∧
      Even ⌊number⌋₊
  coarse : 2 ^ 53 ≤ ⌊number⌋₊ → 2 ^ (bitLength ⌊number⌋₊ - 53) ∣ ⌊number⌋₊

theorem halfSpacing_mul {whole : ℕ} (fine : whole < 2 ^ 53) :
    halfSpacing whole * (2 ^ (53 - bitLength whole) : ℕ) = 1 / 2 := by
  have bits := bitLength_le fine
  rw [halfSpacing, Nat.cast_pow, Nat.cast_ofNat, ← zpow_natCast,
    ← zpow_add₀ two_ne_zero,
    show (bitLength whole : ℤ) - 54 + (53 - bitLength whole : ℕ) = -1 by omega]
  norm_num

/--
The next whole number has an odd significand only if it needs all the bits
itself.
-/
theorem odd_next_iff {whole : ℕ} (fine : whole < 2 ^ 53) :
    Odd ((whole + 1) * 2 ^ (53 - bitLength whole)) ↔
      2 ^ 52 ≤ whole ∧ Even whole := by
  have bits := bitLength_le fine
  have full : Odd (2 ^ (53 - bitLength whole)) ↔ 2 ^ 52 ≤ whole := by
    constructor
    · intro odd
      have length : bitLength whole = 52 + 1 := by
        by_contra shorter
        exact Nat.not_even_iff_odd.mpr odd
          (Nat.even_pow.mpr ⟨even_two, by omega⟩)
      exact two_pow_le_of_bitLength length
    · intro large
      have longer := (Nat.pow_lt_pow_iff_right one_lt_two).mp
        (large.trans_lt (lt_two_pow_bitLength whole))
      rw [show 53 - bitLength whole = 0 by omega, pow_zero]
      exact odd_one
  rw [Nat.odd_mul, full, Nat.odd_add_one, Nat.not_odd_iff_even, and_comm]

section Quotient

variable {numerator denominator : ℕ}

theorem wholePartOfNearest_eq_div_iff_of_fine (positive : 0 < denominator)
    (fine : numerator / denominator < 2 ^ 53) :
    wholePartOfNearest numerator denominator = numerator / denominator ↔
      (numerator : ℚ) / denominator + halfSpacing (numerator / denominator) <
          (numerator / denominator : ℕ) + 1 ∨
        (numerator : ℚ) / denominator + halfSpacing (numerator / denominator) =
            (numerator / denominator : ℕ) + 1 ∧
          2 ^ 52 ≤ numerator / denominator ∧
            Even (numerator / denominator) := by
  have lower : ((numerator / denominator : ℕ) : ℚ) ≤ numerator / denominator :=
    Nat.cast_div_le
  have half := halfSpacing_mul fine
  have odd := odd_next_iff fine
  simp only [wholePartOfNearest, Nat.pow_eq, if_pos (bitLength_le fine)]
  have positiveScale : 0 < 2 ^ (53 - bitLength (numerator / denominator)) :=
    Nat.two_pow_pos _
  generalize 2 ^ (53 - bitLength (numerator / denominator)) = scale at *
  generalize halfSpacing (numerator / denominator) = spacing at *
  generalize numerator / denominator = whole at *
  have rounded := isNearestInteger_roundQuotient (numerator * scale) positive
  generalize roundQuotient (numerator * scale) denominator = multiple at *
  have rationalScale : (0 : ℚ) < scale := by exact_mod_cast positiveScale
  rw [Nat.cast_mul, mul_div_right_comm] at rounded
  generalize (numerator : ℚ) / denominator = number at *
  have atLeast : whole * scale ≤ multiple := by
    have below : ((whole * scale : ℤ) : ℚ) ≤ number * scale := by
      push_cast
      gcongr
    exact_mod_cast rounded.le_integer below
  have kept : multiple / scale = whole ↔
      (multiple : ℤ) < ((whole + 1) * scale : ℕ) := by
    rw [Nat.cast_lt, ← Nat.div_lt_iff_lt_mul positiveScale]
    have above := (Nat.le_div_iff_mul_le positiveScale).mpr atLeast
    omega
  have limit :
      (((whole + 1) * scale : ℕ) : ℤ) - 1 / 2 =
        ((whole + 1 : ℚ) - spacing) * scale := by
    push_cast
    linarith
  rw [kept, rounded.lt_iff, Int.odd_coe_nat, odd, limit,
    mul_lt_mul_iff_left₀ rationalScale, mul_left_inj' rationalScale.ne',
    lt_sub_iff_add_lt, eq_sub_iff_add_eq]

/--
From the 53rd power of two on, the whole part is kept exactly if it is a
multiple of the spacing.  What the whole part leaves is less than one, and that
is at most half the spacing.
-/
theorem wholePartOfNearest_eq_div_iff_of_coarse (positive : 0 < denominator)
    (coarse : 2 ^ 53 ≤ numerator / denominator) :
    wholePartOfNearest numerator denominator = numerator / denominator ↔
      2 ^ (bitLength (numerator / denominator) - 53) ∣
        numerator / denominator := by
  have bits : 53 < bitLength (numerator / denominator) :=
    (Nat.pow_lt_pow_iff_right one_lt_two).mp
      (coarse.trans_lt (lt_two_pow_bitLength _))
  simp only [wholePartOfNearest, Nat.pow_eq, if_neg (not_le.mpr bits)]
  have unit : 2 ≤ 2 ^ (bitLength (numerator / denominator) - 53) :=
    Nat.le_self_pow (by omega) 2
  generalize 2 ^ (bitLength (numerator / denominator) - 53) = spacing at *
  constructor
  · intro same
    exact ⟨_, same.symm.trans (Nat.mul_comm _ _)⟩
  · rintro ⟨multiple, shape⟩
    have rounded := isNearestInteger_roundQuotient numerator
      (Nat.mul_pos positive (two_pos.trans_le unit))
    have lower :
        ((numerator / denominator : ℕ) : ℚ) ≤ numerator / denominator :=
      Nat.cast_div_le
    have upper :
        (numerator : ℚ) / denominator < (numerator / denominator : ℕ) + 1 := by
      rw [← Nat.floor_div_eq_div (K := ℚ) numerator denominator]
      exact Nat.lt_floor_add_one _
    have rationalUnit : (2 : ℚ) ≤ spacing := by exact_mod_cast unit
    have rationalSpacing : (0 : ℚ) < spacing := by linarith
    rw [Nat.cast_mul, ← div_div] at rounded
    rw [shape] at lower upper ⊢
    push_cast at lower upper
    have atLeast :
        ((multiple : ℤ) : ℚ) ≤ numerator / denominator / spacing := by
      rw [le_div_iff₀ rationalSpacing, Int.cast_natCast]
      linarith
    have below :
        (numerator : ℚ) / denominator / spacing <
          ((multiple + 1 : ℤ) : ℚ) - 1 / 2 := by
      rw [div_lt_iff₀ rationalSpacing]
      push_cast
      linarith
    have fromBelow := rounded.le_integer atLeast
    have fromAbove := rounded.lt_iff.mpr (.inl below)
    rw [Nat.mul_comm spacing]
    congr 1
    omega

theorem wholePartOfNearest_eq_div_iff (positive : 0 < denominator) :
    wholePartOfNearest numerator denominator = numerator / denominator ↔
      KeepsWholePart ((numerator : ℚ) / denominator) := by
  have whole : ⌊(numerator : ℚ) / denominator⌋₊ = numerator / denominator :=
    Nat.floor_div_eq_div numerator denominator
  rcases lt_or_ge (numerator / denominator) (2 ^ 53) with fine | coarse
  · rw [wholePartOfNearest_eq_div_iff_of_fine positive fine]
    constructor
    · intro kept
      refine ⟨fun _ => by rwa [whole], fun large => ?_⟩
      rw [whole] at large
      exact absurd fine (not_lt.mpr large)
    · intro kept
      have inside := kept.fine (by rwa [whole])
      rwa [whole] at inside
  · rw [wholePartOfNearest_eq_div_iff_of_coarse positive coarse]
    constructor
    · intro kept
      refine ⟨fun small => ?_, fun _ => by rwa [whole]⟩
      rw [whole] at small
      exact absurd small (not_lt.mpr coarse)
    · intro kept
      have inside := kept.coarse (by rwa [whole])
      rwa [whole] at inside

/-- A numerator of at most 53 bits is never rounded to another whole part. -/
theorem keepsWholePart_of_lt (positive : 0 < denominator)
    (short : numerator < 2 ^ 53) :
    KeepsWholePart ((numerator : ℚ) / denominator) := by
  have fine : numerator / denominator < 2 ^ 53 :=
    (Nat.div_le_self _ _).trans_lt short
  have rational : (0 : ℚ) < denominator := by exact_mod_cast positive
  have next :
      (numerator : ℚ) + 1 ≤
        denominator * ((numerator / denominator : ℕ) + 1) := by
    exact_mod_cast Nat.lt_mul_div_succ numerator positive
  rw [← wholePartOfNearest_eq_div_iff positive,
    wholePartOfNearest_eq_div_iff_of_fine positive fine]
  left
  rw [← lt_sub_iff_add_lt, div_lt_iff₀ rational]
  suffices less :
      numerator + halfSpacing (numerator / denominator) * denominator <
        denominator * ((numerator / denominator : ℕ) + 1) by linarith
  rw [halfSpacing]
  cases length : bitLength (numerator / denominator) with
  | zero =>
      have none : numerator / denominator = 0 := by
        have below := lt_two_pow_bitLength (numerator / denominator)
        rw [length, pow_zero] at below
        exact Nat.lt_one_iff.mp below
      have rationalShort : (numerator : ℚ) < 2 ^ 53 := by exact_mod_cast short
      rw [none] at next ⊢
      norm_num at next ⊢
      rcases lt_or_ge (denominator : ℚ) (2 ^ 54) with less | more <;> linarith
  | succ bits =>
      have below :=
        (Nat.le_div_iff_mul_le positive).mp (two_pow_le_of_bitLength length)
      have small : (2 : ℚ) ^ bits * denominator < 2 ^ 53 := by
        exact_mod_cast below.trans_lt short
      have spacing :
          (2 : ℚ) ^ (((bits + 1 : ℕ) : ℤ) - 54) = 2 ^ bits / 2 ^ 53 := by
        rw [← zpow_natCast, ← zpow_natCast, ← zpow_sub₀ two_ne_zero]
        congr 1
        push_cast
        ring
      rw [spacing]
      linarith

end Quotient

/-! ## Texts of decimals with a point -/

theorem Sign.abs_factor (sign : Sign) : |sign.factor| = 1 := by
  cases sign <;> rfl

theorem Sign.truncate_factor_mul (sign : Sign) (number : ℚ) :
    truncate (sign.factor * number) = sign.factor * truncate number := by
  cases sign <;> simp [factor]

/-- Numbers below the limit are told apart as words. -/
theorem Sign.int64?_factor_mul_inj (sign : Sign) {first second : ℕ}
    (less : first < 2 ^ 63) :
    int64? (sign.factor * first) = int64? (sign.factor * second) ↔
      first = second := by
  constructor
  · intro same
    have fits : (int64? (sign.factor * first)).isSome = true := by
      rw [isSome_int64?_iff]
      cases sign <;> simp only [factor] <;> omega
    obtain ⟨word, found⟩ := Option.isSome_iff_exists.mp fits
    have one := int64?_eq_some_iff.mp found
    have other := int64?_eq_some_iff.mp (same ▸ found)
    cases sign <;> simp only [factor] at one other <;> omega
  · rintro rfl
    rfl

/--
A decimal with a point: a sign or none, digits, the point, and digits again.
-/
structure PointNumeral where
  sign : Sign
  whole : List Char
  fraction : List Char
  whole_ne_nil : whole ≠ []
  fraction_ne_nil : fraction ≠ []
  isDigit : ∀ character ∈ whole ++ fraction, character.isDigit = true

namespace PointNumeral

/-- A numeral as it is written, with its sign and its point. -/
def text (numeral : PointNumeral) : String :=
  String.ofList
    (numeral.sign.characters ++ (numeral.whole ++ '.' :: numeral.fraction))

/-- The digits without the point, as a number. -/
def significand (numeral : PointNumeral) : ℕ :=
  Nat.ofDigitChars 10 (numeral.whole ++ numeral.fraction) 0

/--
The exact value: the whole part, and the fraction by its number of places.
-/
def value (numeral : PointNumeral) : ℚ :=
  numeral.sign.factor * (Nat.ofDigitChars 10 numeral.whole 0 +
    Nat.ofDigitChars 10 numeral.fraction 0 / 10 ^ numeral.fraction.length)

/-- The decimal that is read from the text. -/
def decimal (numeral : PointNumeral) : Decimal :=
  ⟨numeral.sign.isNegative, numeral.whole ++ numeral.fraction,
    -numeral.fraction.length⟩

theorem isNumeral_whole (numeral : PointNumeral) :
    Text.IsNumeral numeral.whole (Nat.ofDigitChars 10 numeral.whole 0) where
  ne_nil := numeral.whole_ne_nil
  isDigit character member :=
    numeral.isDigit character (List.mem_append_left _ member)
  value := rfl

theorem isDigit_fraction (numeral : PointNumeral) :
    ∀ character ∈ numeral.fraction, character.isDigit = true :=
  fun character member =>
    numeral.isDigit character (List.mem_append_right _ member)

theorem isWord_text (numeral : PointNumeral) :
    Text.IsWord numeral.text.toList where
  ne_nil := by simp [text]
  solid := by
    intro character member
    simp only [text, String.toList_ofList, List.mem_append,
      List.mem_cons] at member
    rcases member with inSign | inWhole | rfl | inFraction
    · cases sign : numeral.sign <;> rw [sign] at inSign
      · cases inSign
      · rw [List.mem_singleton.mp inSign]
        rfl
      · rw [List.mem_singleton.mp inSign]
        rfl
    · exact Text.isBlank_of_isDigit
        (numeral.isNumeral_whole.isDigit character inWhole)
    · rfl
    · exact Text.isBlank_of_isDigit
        (numeral.isDigit_fraction character inFraction)

theorem splitSign_text (numeral : PointNumeral) :
    splitSign numeral.text.toList =
      (numeral.sign.isNegative, numeral.whole ++ '.' :: numeral.fraction) := by
  rw [text, String.toList_ofList]
  exact numeral.sign.splitSign_append numeral.isNumeral_whole
    ('.' :: numeral.fraction)

theorem ofText?_text (numeral : PointNumeral) :
    Decimal.ofText? numeral.text.toList = some numeral.decimal := by
  have whole := numeral.isNumeral_whole.isDigit
  have fraction := numeral.isDigit_fraction
  have taken :
      (numeral.whole ++ '.' :: numeral.fraction).takeWhile Char.isDigit =
        numeral.whole := by
    rw [List.takeWhile_append_of_pos whole]
    simp
  have dropped :
      (numeral.whole ++ '.' :: numeral.fraction).dropWhile Char.isDigit =
        '.' :: numeral.fraction := by
    rw [List.dropWhile_append_of_pos whole]
    simp
  have split :
      splitFraction ('.' :: numeral.fraction) = (numeral.fraction, []) := by
    rw [splitFraction, List.takeWhile_eq_self_iff.mpr fraction,
      List.dropWhile_eq_nil_iff.mpr fraction]
  simp [Decimal.ofText?, numeral.splitSign_text, taken, dropped, split,
    exponent?, numeral.whole_ne_nil, decimal]

theorem whole?_text (numeral : PointNumeral) :
    whole? numeral.text.toList = none := by
  simp [whole?, numeral.splitSign_text, Text.nat?]

theorem integer?_text (numeral : PointNumeral) :
    integer? numeral.text = numeral.decimal.truncated?.bind int64? := by
  have trimmed : Text.trim numeral.text.toList = numeral.text.toList :=
    Text.trim_eq_self numeral.isWord_text.isTrimmed.first
      numeral.isWord_text.isTrimmed.last
  simp only [integer?, trimmed, numeral.whole?_text, numeral.ofText?_text,
    Option.bind_none]

/-! ## Which decimals are truncated exactly -/

/-- The exact value as a quotient of whole numbers. -/
theorem value_eq (numeral : PointNumeral) :
    numeral.value = numeral.sign.factor *
      ((numeral.significand : ℚ) / (10 ^ numeral.fraction.length : ℕ)) := by
  have positive : (0 : ℚ) < 10 ^ numeral.fraction.length := by positivity
  have digits : (numeral.significand : ℚ) =
      10 ^ numeral.fraction.length * Nat.ofDigitChars 10 numeral.whole 0 +
        Nat.ofDigitChars 10 numeral.fraction 0 := by
    rw [significand, Nat.ofDigitChars_append,
      Nat.ofDigitChars_eq_ofDigitChars_zero]
    push_cast
    rfl
  rw [value, digits]
  push_cast
  rw [add_div, mul_div_cancel_left₀ _ positive.ne']

theorem abs_value (numeral : PointNumeral) :
    |numeral.value| =
      (numeral.significand : ℚ) / (10 ^ numeral.fraction.length : ℕ) := by
  rw [value_eq, abs_mul, ← Int.cast_abs, Sign.abs_factor, Int.cast_one, one_mul,
    abs_of_nonneg (by positivity)]

theorem value_decimal (numeral : PointNumeral) :
    numeral.decimal.value = numeral.value := by
  have magnitude : numeral.decimal.magnitude =
      (numeral.significand : ℚ) / (10 ^ numeral.fraction.length : ℕ) := by
    rw [Decimal.magnitude, div_eq_mul_inv, Nat.cast_pow, Nat.cast_ofNat,
      ← zpow_natCast, ← zpow_neg]
    rfl
  rw [value_eq, ← magnitude, Decimal.value, decimal]
  cases numeral.sign <;> simp [Sign.factor, Sign.isNegative]

theorem truncate_value (numeral : PointNumeral) :
    truncate numeral.value = numeral.sign.factor *
      (numeral.significand / 10 ^ numeral.fraction.length : ℕ) := by
  rw [value_eq, Sign.truncate_factor_mul, truncate_of_nonneg (by positivity),
    Rat.floor_natCast_div_natCast]
  rfl

theorem truncated?_decimal (numeral : PointNumeral) :
    numeral.decimal.truncated? =
      if wholePartOfNearest numeral.significand (10 ^ numeral.fraction.length) <
          2 ^ 63 then
        some (numeral.sign.factor *
          wholePartOfNearest numeral.significand (10 ^ numeral.fraction.length))
      else none := by
  have magnitude : numeral.decimal.magnitude? =
      some
        (wholePartOfNearest numeral.significand
          (10 ^ numeral.fraction.length)) := by
    have narrow :
        ¬ (numeral.decimal.significand ≠ 0 ∧
          19 ≤ numeral.decimal.exponent) := by
      simp only [decimal]
      omega
    have power : numeral.decimal.exponent.toNat = 0 := by
      simp only [decimal]
      omega
    have places :
        (-numeral.decimal.exponent).toNat = numeral.fraction.length := by
      simp only [decimal]
      omega
    rw [Decimal.magnitude?_eq numeral.isDigit, if_neg narrow, power, places,
      pow_zero, mul_one]
    rfl
  rw [Decimal.truncated?, magnitude, ← Sign.ite_isNegative]
  rfl

/--
A decimal is read as its truncation unless rounding leads to another whole part,
or the truncation is the least word.
-/
theorem integer?_eq_iff (numeral : PointNumeral) :
    integer? numeral.text = int64? (truncate numeral.value) ↔
      truncate numeral.value ≠ -2 ^ 63 ∧
        (|truncate numeral.value| < 2 ^ 63 →
          KeepsWholePart |numeral.value|) := by
  have positive : 0 < 10 ^ numeral.fraction.length := Nat.pow_pos (by decide)
  rw [integer?_text, truncated?_decimal, truncate_value, abs_value, abs_mul,
    Sign.abs_factor, one_mul, Nat.abs_cast,
    ← wholePartOfNearest_eq_div_iff positive]
  have beyond := @le_wholePartOfNearest numeral.significand _ positive
  generalize wholePartOfNearest numeral.significand
    (10 ^ numeral.fraction.length) = rounded at *
  generalize numeral.significand / 10 ^ numeral.fraction.length = whole at *
  split
  · next less =>
      have small : whole < 2 ^ 63 := by
        by_contra large
        exact absurd (beyond (not_lt.mp large)) (not_le.mpr less)
      rw [Option.bind_some, numeral.sign.int64?_factor_mul_inj less]
      cases numeral.sign <;> simp only [Sign.factor] <;> omega
  · next large =>
      have outside : none = int64? (numeral.sign.factor * whole) ↔
          ¬ (-2 ^ 63 ≤ numeral.sign.factor * whole ∧
            numeral.sign.factor * whole ≤ 2 ^ 63 - 1) := by
        rw [← isSome_int64?_iff, Option.not_isSome_iff_eq_none, eq_comm]
      rw [Option.bind_none, outside]
      cases numeral.sign <;> simp only [Sign.factor] <;> omega

/-- Reading a decimal is truncating its nearest double. -/
theorem integer?_eq_some_iff (numeral : PointNumeral) {word : Int64} :
    integer? numeral.text = some word ↔
      ∃ double : Double,
        double.IsNearest numeral.value ∧ |double.value| < 2 ^ 63 ∧
          truncate double.value = word.toInt := by
  simp only [integer?_text, Option.bind_eq_some_iff, int64?_eq_some_iff]
  constructor
  · rintro ⟨whole, found, same⟩
    rw [same, ← numeral.value_decimal]
    exact (Decimal.truncated?_eq_some_iff numeral.isDigit).mp found
  · intro rounded
    rw [← numeral.value_decimal] at rounded
    exact ⟨word.toInt,
      (Decimal.truncated?_eq_some_iff numeral.isDigit).mpr rounded, rfl⟩

/-- A decimal with few digits is read as its truncation. -/
theorem integer?_of_significand_lt (numeral : PointNumeral)
    (short : numeral.significand < 2 ^ 53) :
    integer? numeral.text = int64? (truncate numeral.value) := by
  have positive : 0 < 10 ^ numeral.fraction.length := Nat.pow_pos (by decide)
  have below : numeral.significand / 10 ^ numeral.fraction.length < 2 ^ 53 :=
    (Nat.div_le_self _ _).trans_lt short
  refine numeral.integer?_eq_iff.mpr ⟨?_, fun _ => ?_⟩
  · rw [truncate_value]
    generalize numeral.significand / 10 ^ numeral.fraction.length = whole at *
    cases numeral.sign <;> simp only [Sign.factor] <;> omega
  · rw [abs_value]
    exact keepsWholePart_of_lt positive short

end PointNumeral

/--
A decimal with a point is rounded to the nearest double, a tie to the even one,
and the double is truncated towards zero if it lies within the words of
sixty-four bits.

So the decimal itself is truncated, if that fits in a word, exactly when
rounding keeps its whole part and the truncation is not the least word.  A
decimal whose digits write a number below two to the power 53 is always
truncated exactly.
-/
theorem truncated_iff_whole_part_kept (numeral : PointNumeral) :
    (∀ word : Int64, integer? numeral.text = some word ↔
      ∃ double : Double,
        double.IsNearest numeral.value ∧ |double.value| < 2 ^ 63 ∧
          truncate double.value = word.toInt) ∧
    (integer? numeral.text = int64? (truncate numeral.value) ↔
      truncate numeral.value ≠ -2 ^ 63 ∧
        (|truncate numeral.value| < 2 ^ 63 → KeepsWholePart |numeral.value|)) ∧
    (numeral.significand < 2 ^ 53 →
      integer? numeral.text = int64? (truncate numeral.value)) :=
  ⟨fun _ => numeral.integer?_eq_some_iff, numeral.integer?_eq_iff,
    numeral.integer?_of_significand_lt⟩

/--
Fifteen nines after the point are cut off.  After twenty nines the next whole
number is nearer than any other number of double precision, and the least word
is refused.
-/
theorem truncated_iff_whole_part_kept_nines :
    integer? "-0.999999999999999" = some 0 ∧
      integer? "0.99999999999999999999" ≠ some 0 ∧
      integer? "-9223372036854775808.0" ≠ some Int64.minValue := by
  refine ⟨?_, ?_, ?_⟩
  · let numeral : PointNumeral :=
      ⟨.minus, ['0'], "999999999999999".toList, by decide, by decide,
        List.all_eq_true.mp (by decide)⟩
    have whole : truncate numeral.value = 0 :=
      numeral.truncate_value.trans (by decide)
    have cut := (truncated_iff_whole_part_kept numeral).2.2 (by decide)
    rw [whole] at cut
    exact cut
  · let numeral : PointNumeral :=
      ⟨.absent, ['0'], "99999999999999999999".toList, by decide, by decide,
        List.all_eq_true.mp (by decide)⟩
    have whole : truncate numeral.value = 0 :=
      numeral.truncate_value.trans (by decide)
    intro kept
    have keeps :=
      ((truncated_iff_whole_part_kept numeral).2.1.mp
        (by rw [whole]; exact kept)).2
        (by rw [whole]; decide)
    rw [numeral.abs_value, ← wholePartOfNearest_eq_div_iff (by decide)] at keeps
    revert keeps
    decide
  · let numeral : PointNumeral :=
      ⟨.minus, "9223372036854775808".toList, ['0'], by decide, by decide,
        List.all_eq_true.mp (by decide)⟩
    have whole : truncate numeral.value = -2 ^ 63 :=
      numeral.truncate_value.trans (by decide)
    intro kept
    exact
      ((truncated_iff_whole_part_kept numeral).2.1.mp
        (by rw [whole]; exact kept)).1 whole

end SearchPhrase.Numeral
