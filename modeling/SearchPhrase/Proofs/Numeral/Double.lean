import Mathlib.Data.Int.Log
import Mathlib.Data.Rat.Floor
import Mathlib.Tactic.FieldSimp
import Mathlib.Tactic.Linarith
import SearchPhrase.Numeral.Decimal

/-!
# Double precision

A number of double precision is a significand of 53 bits times a power of two.
This module says which of these numbers is the nearest to a given one, where a
tie goes to the even significand, and proves that the rounding of quotients
finds the whole part of the nearest.

Between two neighbouring powers of two the numbers of double precision lie on a
grid, the multiples of a smaller power of two.  There the nearest of them is the
nearest integer multiple.
-/

namespace SearchPhrase.Numeral

/-! ## Numbers of double precision -/

/--
A finite number of double precision: a significand of 53 bits times a power of
two.
-/
structure Double where
  significand : ℤ
  exponent : ℤ
  significand_lt : |significand| < 2 ^ 53
  exponent_mem : -1074 ≤ exponent ∧ exponent ≤ 971

namespace Double

/-- The number that a double stands for. -/
def value (double : Double) : ℚ :=
  double.significand * 2 ^ double.exponent

/--
No number of double precision is nearer to a number, and any other one that is
as near makes the significand an even one.

A value may have several significands, but an odd one that has all 53 bits, or
the least exponent, is the only one of its value.
-/
structure IsNearest (double : Double) (number : ℚ) : Prop where
  nearest : ∀ other : Double, |number - double.value| ≤ |number - other.value|
  even : ∀ other : Double, |number - double.value| = |number - other.value| →
    other.value = double.value ∨ Even double.significand

section Order

variable {double other : Double} {number : ℚ}

/-- Rounding does not lead below a number of double precision. -/
theorem IsNearest.le_value (nearest : double.IsNearest number)
    (below : other.value ≤ number) :
    other.value ≤ double.value := by
  have closer := nearest.nearest other
  rw [abs_of_nonneg (sub_nonneg.mpr below)] at closer
  linarith [le_abs_self (number - double.value)]

/-- Rounding does not lead above a number of double precision. -/
theorem IsNearest.value_le (nearest : double.IsNearest number)
    (above : number ≤ other.value) :
    double.value ≤ other.value := by
  have closer := nearest.nearest other
  rw [abs_of_nonpos (sub_nonpos.mpr above)] at closer
  linarith [neg_abs_le (number - double.value)]

end Order

/-- The double with the opposite sign. -/
def neg (double : Double) : Double where
  significand := -double.significand
  exponent := double.exponent
  significand_lt := by
    rw [abs_neg]
    exact double.significand_lt
  exponent_mem := double.exponent_mem

@[simp]
theorem value_neg (double : Double) : double.neg.value = -double.value := by
  simp [value, neg]

theorem IsNearest.neg {double : Double} {number : ℚ}
    (nearest : double.IsNearest number) :
    double.neg.IsNearest (-number) := by
  have mirrored (other : Double) :
      |-number - other.value| = |number - other.neg.value| := by
    rw [value_neg, ← abs_neg]
    congr 1
    ring
  have itself : |-number - double.neg.value| = |number - double.value| := by
    rw [value_neg, ← abs_neg]
    congr 1
    ring
  constructor
  · intro other
    rw [itself, mirrored]
    exact nearest.nearest other.neg
  · intro other tie
    rw [itself, mirrored] at tie
    rcases nearest.even other.neg tie with same | even
    · left
      rw [value_neg] at same ⊢
      linarith
    · exact .inr even.neg

/-! ## The grid between two powers of two -/

theorem two_pow_mul_zpow (bits : ℕ) (exponent : ℤ) :
    ((2 ^ bits : ℤ) : ℚ) * 2 ^ exponent = 2 ^ (exponent + bits) := by
  rw [zpow_add₀ two_ne_zero, zpow_natCast, mul_comm]
  norm_cast

/--
The multiples of a power of two have double precision up to the 53rd power of
two, inclusive.  The limit itself has one bit too many, all but the first of
them zero.
-/
theorem exists_value_eq {multiple exponent : ℤ} (small : |multiple| ≤ 2 ^ 53)
    (range : -1074 ≤ exponent ∧ exponent ≤ 970) :
    ∃ double : Double, double.value = multiple * 2 ^ exponent ∧
      (Even multiple → Even double.significand) := by
  rcases lt_or_eq_of_le small with less | limit
  · exact ⟨⟨multiple, exponent, less, by omega⟩, rfl, id⟩
  · obtain ⟨half, rfl⟩ : ∃ half, multiple = 2 * half := by
      rcases (abs_eq (by positivity)).mp limit with rfl | rfl
      · exact ⟨2 ^ 52, rfl⟩
      · exact ⟨-2 ^ 52, rfl⟩
    have halved : |half| = 2 ^ 52 := by
      rw [abs_mul] at limit
      norm_num at limit ⊢
      linarith
    have even : Even half := by
      rcases (abs_eq (by positivity)).mp halved with rfl | rfl
      · exact ⟨2 ^ 51, by norm_num⟩
      · exact ⟨-2 ^ 51, by norm_num⟩
    refine ⟨⟨half, exponent + 1, by rw [halved]; norm_num, by omega⟩, ?_,
      fun _ => even⟩
    rw [value, zpow_add₀ two_ne_zero]
    push_cast
    ring

theorem IsNearest.value_nonneg {double : Double} {number : ℚ}
    (nearest : double.IsNearest number)
    (nonneg : 0 ≤ number) : 0 ≤ double.value := by
  obtain ⟨zero, atZero, -⟩ := exists_value_eq
    (show |(0 : ℤ)| ≤ 2 ^ 53 by norm_num)
    (show (-1074 : ℤ) ≤ 0 ∧ 0 ≤ 970 by norm_num)
  rw [Int.cast_zero, zero_mul] at atZero
  rw [← atZero] at nonneg ⊢
  exact nearest.le_value nonneg

/--
A number of double precision that is not too small is a multiple of a power of
two.
-/
theorem exists_multiple (double : Double) {exponent : ℤ}
    (coarse : 2 ^ (exponent + 52) ≤ |double.value| ∨ exponent = -1074) :
    ∃ multiple : ℤ, double.value = multiple * 2 ^ exponent ∧
      (Even double.significand → Even multiple) := by
  have atLeast : exponent ≤ double.exponent := by
    rcases coarse with large | rfl
    · by_contra! finer
      have positive := zpow_pos (two_pos (α := ℚ)) double.exponent
      have below : |double.value| < 2 ^ (exponent + 52) :=
        calc |double.value| =
          (|double.significand| : ℤ) * 2 ^ double.exponent := by
              rw [value, abs_mul, abs_of_pos positive, Int.cast_abs]
          _ < (2 ^ 53 : ℤ) * 2 ^ double.exponent :=
              mul_lt_mul_of_pos_right (by exact_mod_cast double.significand_lt)
                positive
          _ = 2 ^ (double.exponent + 53) := two_pow_mul_zpow 53 double.exponent
          _ ≤ 2 ^ (exponent + 52) := zpow_le_zpow_right₀ one_le_two (by omega)
      exact absurd large (not_le.mpr below)
    · exact double.exponent_mem.1
  obtain ⟨shift, sum⟩ := Int.le.dest atLeast
  refine ⟨double.significand * 2 ^ shift, ?_, fun even => even.mul_right _⟩
  rw [value, ← sum, zpow_add₀ two_ne_zero, zpow_natCast]
  push_cast
  ring

end Double

/-- The integer nearest to a number; a tie goes to the even one. -/
structure IsNearestInteger (number : ℚ) (integer : ℤ) : Prop where
  close : |number - integer| ≤ 1 / 2
  even : |number - integer| = 1 / 2 → Even integer

namespace IsNearestInteger

variable {number : ℚ} {integer other : ℤ}

theorem half_le (nearest : IsNearestInteger number integer)
    (differ : other ≠ integer) :
    1 / 2 ≤ |number - other| := by
  have apart : (1 : ℚ) ≤ |(other : ℚ) - integer| := by
    exact_mod_cast Int.one_le_abs (sub_ne_zero.mpr differ)
  have triangle := abs_sub_le (other : ℚ) number integer
  have close := nearest.close
  rw [abs_sub_comm (other : ℚ) number] at triangle
  linarith

theorem le_abs_sub (nearest : IsNearestInteger number integer) (other : ℤ) :
    |number - integer| ≤ |number - other| := by
  by_cases same : other = integer
  · rw [same]
  · exact nearest.close.trans (nearest.half_le same)

/-- Rounding does not lead below an integer. -/
theorem le_integer (nearest : IsNearestInteger number integer)
    (below : (other : ℚ) ≤ number) :
    other ≤ integer := by
  have close := (abs_le.mp nearest.close).2
  have above : (other : ℚ) < (integer + 1 : ℤ) := by
    push_cast
    linarith
  exact Int.lt_add_one_iff.mp (by exact_mod_cast above)

/-- Rounding does not lead above an integer. -/
theorem integer_le (nearest : IsNearestInteger number integer)
    (above : number ≤ other) :
    integer ≤ other := by
  have close := (abs_le.mp nearest.close).1
  have below : (integer : ℚ) < (other + 1 : ℤ) := by
    push_cast
    linarith
  exact Int.lt_add_one_iff.mp (by exact_mod_cast below)

end IsNearestInteger

/--
A number lies between two neighbouring powers of two, where the numbers of
double precision are the multiples of a third one.  Below the least exponent the
grid goes down to zero.
-/
structure InBinade (number : ℚ) (exponent : ℤ) : Prop where
  lower : 2 ^ (exponent + 52) ≤ number ∨ exponent = -1074 ∧ 0 ≤ number
  upper : number < 2 ^ (exponent + 53)
  range : -1074 ≤ exponent ∧ exponent ≤ 970

namespace InBinade

variable {number : ℚ} {exponent multiple : ℤ} {double : Double}

theorem nonneg (inside : InBinade number exponent) : 0 ≤ number := by
  rcases inside.lower with large | ⟨-, nonneg⟩
  · exact (zpow_pos two_pos _).le.trans large
  · exact nonneg

theorem abs_sub_mul_unit (number : ℚ) (multiple exponent : ℤ) :
    |number - multiple * 2 ^ exponent| =
      |number / 2 ^ exponent - multiple| * 2 ^ exponent := by
  have positive := zpow_pos (two_pos (α := ℚ)) exponent
  rw [← abs_of_pos positive, ← abs_mul, abs_of_pos positive, sub_mul,
    div_mul_cancel₀ _ positive.ne']

theorem multiple_le (inside : InBinade number exponent)
    (nearest : IsNearestInteger (number / 2 ^ exponent) multiple) :
    |multiple| ≤ 2 ^ 53 := by
  have positive := zpow_pos (two_pos (α := ℚ)) exponent
  have lower : ((0 : ℤ) : ℚ) ≤ number / 2 ^ exponent := by
    rw [Int.cast_zero]
    exact div_nonneg inside.nonneg positive.le
  have upper : number / 2 ^ exponent ≤ ((2 ^ 53 : ℤ) : ℚ) := by
    rw [div_le_iff₀ positive, Double.two_pow_mul_zpow]
    exact inside.upper.le
  rw [abs_of_nonneg (nearest.le_integer lower)]
  exact nearest.integer_le upper

/--
In a binade, the number of double precision at the nearest integer multiple is
the nearest.  A smaller number of double precision is further away than the
lower end of the binade.
-/
theorem isNearest (inside : InBinade number exponent)
    (nearest : IsNearestInteger (number / 2 ^ exponent) multiple)
    (held : double.value = multiple * 2 ^ exponent)
    (even : Even multiple → Even double.significand) :
    double.IsNearest number := by
  have positive := zpow_pos (two_pos (α := ℚ)) exponent
  have nearer (other : Double) : other.value = double.value ∨
      |number - double.value| < |number - other.value| ∨
      |number - double.value| ≤ |number - other.value| ∧
        Even double.significand := by
    rw [held, abs_sub_mul_unit]
    by_cases coarse : 2 ^ (exponent + 52) ≤ |other.value| ∨ exponent = -1074
    · obtain ⟨otherMultiple, otherHeld, -⟩ := other.exists_multiple coarse
      rw [otherHeld, abs_sub_mul_unit]
      by_cases same : otherMultiple = multiple
      · exact .inl (by rw [same])
      · have away := nearest.half_le same
        rcases lt_or_eq_of_le nearest.close with close | tie
        · exact .inr
            (.inl (mul_lt_mul_of_pos_right (close.trans_le away) positive))
        · refine .inr (.inr ⟨?_, even (nearest.even tie)⟩)
          exact mul_le_mul_of_nonneg_right (tie.le.trans away) positive.le
    · rw [not_or, not_le] at coarse
      have lower : 2 ^ (exponent + 52) ≤ number :=
        inside.lower.resolve_right fun least => coarse.2 least.1
      have bottom := nearest.le_abs_sub (2 ^ 52)
      have scaled := abs_sub_mul_unit number (2 ^ 52) exponent
      have power : ((2 ^ 52 : ℤ) : ℚ) * 2 ^ exponent = 2 ^ (exponent + 52) :=
        Double.two_pow_mul_zpow 52 exponent
      rw [power, abs_of_nonneg (sub_nonneg.mpr lower)] at scaled
      have further : number - 2 ^ (exponent + 52) < |number - other.value| := by
        have small := (abs_lt.mp coarse.1).2
        have distance := le_abs_self (number - other.value)
        linarith
      refine .inr (.inl (lt_of_le_of_lt ?_ further))
      rw [scaled]
      gcongr
  constructor
  · intro other
    rcases nearer other with same | less | ⟨le, -⟩
    · rw [same]
    · exact less.le
    · exact le
  · intro other tie
    rcases nearer other with same | less | ⟨-, isEven⟩
    · exact .inl same
    · exact absurd tie less.ne
    · exact .inr isEven

/--
In a binade, the nearest number of double precision is at the nearest integer
multiple.  Two multiples that are equally near are neighbours, so that they are
not both even.
-/
theorem value_eq (inside : InBinade number exponent)
    (nearest : IsNearestInteger (number / 2 ^ exponent) multiple)
    (chosen : double.IsNearest number) :
    double.value = multiple * 2 ^ exponent := by
  have positive := zpow_pos (two_pos (α := ℚ)) exponent
  obtain ⟨best, held, even⟩ :=
    Double.exists_value_eq (inside.multiple_le nearest) inside.range
  have bestChosen := inside.isNearest nearest held even
  have tie := le_antisymm (chosen.nearest best) (bestChosen.nearest double)
  have coarse : 2 ^ (exponent + 52) ≤ |double.value| ∨ exponent = -1074 := by
    refine inside.lower.imp (fun lower => ?_) And.left
    obtain ⟨bottom, atBottom, -⟩ :=
      Double.exists_value_eq (show |(2 ^ 52 : ℤ)| ≤ 2 ^ 53 by norm_num)
        inside.range
    rw [Double.two_pow_mul_zpow] at atBottom
    have above := chosen.le_value (atBottom.trans_le lower)
    rw [atBottom] at above
    exact above.trans (le_abs_self double.value)
  obtain ⟨other, otherHeld, otherEven⟩ := double.exists_multiple coarse
  by_cases same : other = multiple
  · rw [otherHeld, same]
  · exfalso
    rw [held, otherHeld, abs_sub_mul_unit, abs_sub_mul_unit] at tie
    have equal := mul_right_cancel₀ positive.ne' tie
    have away := nearest.half_le same
    have half : |number / 2 ^ exponent - multiple| = 1 / 2 :=
      le_antisymm nearest.close (equal ▸ away)
    have evenMultiple := nearest.even half
    have evenOther : Even other := by
      refine otherEven
        ((chosen.even best ?_).resolve_left fun atBest => same ?_)
      · rw [held, otherHeld, abs_sub_mul_unit, abs_sub_mul_unit, equal]
      · rw [held, otherHeld] at atBest
        exact_mod_cast (mul_right_cancel₀ positive.ne' atBest).symm
    obtain ⟨halfMultiple, rfl⟩ := evenMultiple
    obtain ⟨halfOther, rfl⟩ := evenOther
    have near :
        |((halfOther + halfOther : ℤ) : ℚ) -
          (halfMultiple + halfMultiple : ℤ)| ≤ 1 := by
      have triangle :=
        abs_sub_le ((halfOther + halfOther : ℤ) : ℚ) (number / 2 ^ exponent)
          (halfMultiple + halfMultiple : ℤ)
      rw [abs_sub_comm _ (number / 2 ^ exponent)] at triangle
      linarith
    have near :
        |halfOther + halfOther - (halfMultiple + halfMultiple)| ≤ 1 := by
      exact_mod_cast near
    rw [abs_le] at near
    omega

end InBinade

/-! ## Rounding of quotients -/

section Quotient

variable {numerator denominator : ℕ}

/-- A quotient half way between two whole numbers goes to the even one. -/
theorem even_roundQuotient_of_tie (numerator : ℕ) (positive : 0 < denominator)
    (tie :
      2 * numerator =
        (2 * roundQuotient numerator denominator + 1) * denominator ∨
        2 * numerator + denominator =
          2 * roundQuotient numerator denominator * denominator) :
    Even (roundQuotient numerator denominator) := by
  have division := Nat.div_add_mod numerator denominator
  have remainder := Nat.mod_lt numerator positive
  rw [Nat.mul_comm] at division
  simp only [roundQuotient] at tie ⊢
  generalize numerator / denominator = quotient at *
  generalize numerator % denominator = rest at *
  split_ifs at tie ⊢ with below above even
  · rcases tie with tie | tie <;> nlinarith
  · rcases tie with tie | tie <;> nlinarith
  · exact Nat.even_iff.mpr (beq_iff_eq.mp even)
  · rw [beq_iff_eq] at even
    exact Nat.even_iff.mpr (by omega)

theorem isNearestInteger_roundQuotient (numerator : ℕ)
    (positive : 0 < denominator) :
    IsNearestInteger ((numerator : ℚ) / denominator)
      (roundQuotient numerator denominator : ℕ) := by
  obtain ⟨lower, upper⟩ := roundQuotient_bounds numerator positive
  have even := even_roundQuotient_of_tie numerator positive
  generalize roundQuotient numerator denominator = rounded at *
  have positive : (0 : ℚ) < denominator := by exact_mod_cast positive
  have lower : (2 : ℚ) * numerator ≤ (2 * rounded + 1) * denominator := by
    exact_mod_cast lower
  have upper :
      (2 : ℚ) * rounded * denominator ≤ 2 * numerator + denominator := by
    exact_mod_cast upper
  constructor
  · rw [abs_le, Int.cast_natCast]
    constructor
    · rw [neg_le_sub_iff_le_add, ← sub_le_iff_le_add, le_div_iff₀ positive]
      linarith
    · rw [sub_le_iff_le_add, div_le_iff₀ positive]
      linarith
  · intro tie
    rw [Int.cast_natCast, abs_eq (by norm_num), sub_eq_iff_eq_add,
      sub_eq_iff_eq_add, div_eq_iff positive.ne',
      div_eq_iff positive.ne'] at tie
    refine (Int.even_coe_nat rounded).mpr
      (even (tie.imp (fun up => ?_) fun down => ?_))
    · have up : (2 : ℚ) * numerator = (2 * rounded + 1) * denominator := by
        linarith
      exact_mod_cast up
    · have down :
          (2 : ℚ) * numerator + denominator = 2 * rounded * denominator := by
        linarith
      exact_mod_cast down

/-- Every number that is not negative has a nearest integer. -/
theorem exists_isNearestInteger {number : ℚ} (nonneg : 0 ≤ number) :
    ∃ integer, IsNearestInteger number integer := by
  have rounded := isNearestInteger_roundQuotient number.num.toNat number.den_pos
  have shape : ((number.num.toNat : ℕ) : ℚ) / number.den = number := by
    rw [← Int.cast_natCast, Int.toNat_of_nonneg (Rat.num_nonneg.mpr nonneg),
      Rat.num_div_den]
  rw [shape] at rounded
  exact ⟨_, rounded⟩

theorem exists_inBinade {number : ℚ} (nonneg : 0 ≤ number)
    (small : number < 2 ^ 64) :
    ∃ exponent, InBinade number exponent := by
  by_cases tiny : number < 2 ^ (-1021 : ℤ)
  · exact ⟨-1074, .inr ⟨rfl, nonneg⟩, tiny, by omega⟩
  · rw [not_lt] at tiny
    have positive : 0 < number := lt_of_lt_of_le (zpow_pos two_pos _) tiny
    have lower := Int.zpow_log_le_self one_lt_two positive
    have upper := Int.lt_zpow_succ_log_self one_lt_two number
    have above : -1021 ≤ Int.log 2 number :=
      (Int.zpow_le_iff_le_log one_lt_two positive).mp (by exact_mod_cast tiny)
    have below : Int.log 2 number < 64 :=
      (Int.lt_zpow_iff_log_lt one_lt_two positive).mp (by exact_mod_cast small)
    refine ⟨Int.log 2 number - 52, .inl ?_, ?_, by omega⟩
    · rw [sub_add_cancel]
      exact_mod_cast lower
    · rw [show Int.log 2 number - 52 + 53 = Int.log 2 number + 1 by ring]
      exact_mod_cast upper

/--
Every number up to a large power of two has a nearest number of double
precision.
-/
theorem Double.exists_isNearest {number : ℚ} (nonneg : 0 ≤ number)
    (small : number < 2 ^ 64) :
    ∃ double : Double, double.IsNearest number := by
  obtain ⟨exponent, inside⟩ := exists_inBinade nonneg small
  obtain ⟨multiple, nearest⟩ := exists_isNearestInteger
    (div_nonneg nonneg (zpow_pos (two_pos (α := ℚ)) exponent).le)
  obtain ⟨double, held, even⟩ :=
    exists_value_eq (inside.multiple_le nearest) inside.range
  exact ⟨double, inside.isNearest nearest held even⟩

/-! ## The whole part of the nearest number -/

theorem lt_two_pow_bitLength (number : ℕ) : number < 2 ^ bitLength number := by
  unfold bitLength
  split
  · next zero => simp [beq_iff_eq.mp zero]
  · next nonzero =>
      exact (Nat.log2_lt (by simpa using nonzero)).mp (Nat.lt_succ_self _)

theorem two_pow_le_of_bitLength {number bits : ℕ}
    (length : bitLength number = bits + 1) :
    2 ^ bits ≤ number := by
  unfold bitLength at length
  split at length
  · cases length
  · next nonzero =>
      cases length
      exact Nat.log2_self_le (by simpa using nonzero)

theorem zpow_le_quotient (positive : 0 < denominator)
    (half : denominator ≤ 2 * numerator) :
    (2 : ℚ) ^ ((bitLength (numerator / denominator) : ℤ) - 53 + 52) ≤
      numerator / denominator := by
  have rational : (0 : ℚ) < denominator := by exact_mod_cast positive
  rw [le_div_iff₀ rational]
  cases length : bitLength (numerator / denominator) with
  | zero =>
      have half : (denominator : ℚ) ≤ 2 * numerator := by exact_mod_cast half
      norm_num
      linarith
  | succ bits =>
      have below :=
        (Nat.le_div_iff_mul_le positive).mp (two_pow_le_of_bitLength length)
      rw [show ((bits + 1 : ℕ) : ℤ) - 53 + 52 = bits by push_cast; ring,
        zpow_natCast]
      exact_mod_cast below

theorem inBinade_quotient (positive : 0 < denominator)
    (half : denominator ≤ 2 * numerator)
    (small : bitLength (numerator / denominator) ≤ 64) :
    InBinade ((numerator : ℚ) / denominator)
      (bitLength (numerator / denominator) - 53) where
  lower := .inl (zpow_le_quotient positive half)
  upper := by
    have above := lt_two_pow_bitLength (numerator / denominator)
    have rational : (0 : ℚ) < denominator := by exact_mod_cast positive
    rw [div_lt_iff₀ rational, sub_add_cancel, zpow_natCast]
    exact_mod_cast (Nat.div_lt_iff_lt_mul positive).mp above
  range := by omega

/--
The whole part that is computed is that of the nearest multiple on the grid of a
quotient.
-/
theorem exists_wholePartOfNearest (numerator : ℕ) (positive : 0 < denominator)
    {bits : ℕ} (length : bitLength (numerator / denominator) = bits) :
    ∃ multiple : ℤ,
      IsNearestInteger ((numerator : ℚ) / denominator / 2 ^ ((bits : ℤ) - 53))
          multiple ∧
        (wholePartOfNearest numerator denominator : ℤ) =
          ⌊(multiple : ℚ) * 2 ^ ((bits : ℤ) - 53)⌋ := by
  simp only [wholePartOfNearest, length, Nat.pow_eq]
  split
  · next fine =>
      have scale :
          (2 : ℚ) ^ ((bits : ℤ) - 53) = ((2 ^ (53 - bits) : ℕ) : ℚ)⁻¹ := by
        rw [Nat.cast_pow, Nat.cast_ofNat, ← zpow_natCast, ← zpow_neg]
        congr 1
        omega
      have rounded :=
        isNearestInteger_roundQuotient (numerator * 2 ^ (53 - bits)) positive
      rw [Nat.cast_mul, ← div_mul_eq_mul_div, ← div_inv_eq_mul,
        ← scale] at rounded
      refine ⟨_, rounded, ?_⟩
      rw [scale, ← div_eq_mul_inv, Int.cast_natCast,
        Rat.floor_natCast_div_natCast]
      rfl
  · next coarse =>
      have scale : (2 : ℚ) ^ ((bits : ℤ) - 53) = (2 ^ (bits - 53) : ℕ) := by
        rw [Nat.cast_pow, Nat.cast_ofNat, ← zpow_natCast]
        congr 1
        omega
      have rounded := isNearestInteger_roundQuotient numerator
        (Nat.mul_pos positive (Nat.two_pow_pos (bits - 53)))
      rw [Nat.cast_mul, ← div_div, ← scale] at rounded
      refine ⟨_, rounded, ?_⟩
      rw [scale, ← Int.cast_natCast (2 ^ (bits - 53)), ← Int.cast_mul,
        Int.floor_intCast]
      rfl

/-- Below one half, nothing is rounded up to one. -/
theorem wholePartOfNearest_eq_zero (small : 2 * numerator < denominator) :
    wholePartOfNearest numerator denominator = 0 := by
  have noBits : bitLength (numerator / denominator) = 0 := by
    rw [Nat.div_eq_of_lt (by omega)]
    rfl
  have upper :=
    (roundQuotient_bounds (numerator * 2 ^ 53)
      (show 0 < denominator by omega)).2
  rw [Nat.mul_assoc] at upper
  have less : roundQuotient (numerator * 2 ^ 53) denominator < 2 ^ 53 := by
    by_contra! reached
    have atLeast := Nat.mul_le_mul_right denominator reached
    omega
  simp only [wholePartOfNearest, noBits, Nat.zero_le, if_true, Nat.sub_zero,
    Nat.pow_eq]
  exact Nat.div_eq_of_lt less

theorem Double.IsNearest.floor_eq_zero {double : Double} {number : ℚ}
    (nearest : double.IsNearest number) (nonneg : 0 ≤ number)
    (small : number < 1 / 2) :
    ⌊double.value⌋ = 0 := by
  obtain ⟨half, atHalf, -⟩ := exists_value_eq
    (show |(1 : ℤ)| ≤ 2 ^ 53 by norm_num)
    (show (-1074 : ℤ) ≤ -1 ∧ -1 ≤ 970 by norm_num)
  norm_num at atHalf
  have upper := nearest.value_le (small.le.trans_eq atHalf.symm)
  rw [Int.floor_eq_zero_iff]
  exact ⟨nearest.value_nonneg nonneg, by linarith⟩

/--
The whole part that is computed is that of the nearest number of double
precision.
-/
theorem Double.IsNearest.floor_value {double : Double}
    (positive : 0 < denominator)
    (small : bitLength (numerator / denominator) ≤ 64)
    (nearest : double.IsNearest ((numerator : ℚ) / denominator)) :
    ⌊double.value⌋ = wholePartOfNearest numerator denominator := by
  by_cases half : denominator ≤ 2 * numerator
  · obtain ⟨multiple, atMultiple, whole⟩ :=
      exists_wholePartOfNearest numerator positive rfl
    rw [whole,
      (inBinade_quotient positive half small).value_eq atMultiple nearest]
  · have rational : (0 : ℚ) < denominator := by exact_mod_cast positive
    have below : ((2 * numerator : ℕ) : ℚ) < denominator := by
      exact_mod_cast not_le.mp half
    push_cast at below
    have less : (numerator : ℚ) / denominator < 1 / 2 := by
      rw [div_lt_iff₀ rational]
      linarith
    rw [nearest.floor_eq_zero (by positivity) less,
      wholePartOfNearest_eq_zero (not_le.mp half), Nat.cast_zero]

/-- What is beyond sixty-three bits stays beyond them. -/
theorem le_wholePartOfNearest (positive : 0 < denominator)
    (large : 2 ^ 63 ≤ numerator / denominator) :
    2 ^ 63 ≤ wholePartOfNearest numerator denominator := by
  obtain ⟨multiple, atMultiple, whole⟩ :=
    exists_wholePartOfNearest numerator positive rfl
  have half : denominator ≤ 2 * numerator := by
    have enough := (Nat.le_div_iff_mul_le positive).mp large
    omega
  have lower := zpow_le_quotient positive half
  have bits : 63 < bitLength (numerator / denominator) :=
    (Nat.pow_lt_pow_iff_right one_lt_two).mp
      (large.trans_lt (lt_two_pow_bitLength _))
  generalize bitLength (numerator / denominator) = length at *
  have positive := zpow_pos (two_pos (α := ℚ)) ((length : ℤ) - 53)
  have scaled :
      ((2 ^ 52 : ℤ) : ℚ) ≤
        numerator / denominator / 2 ^ ((length : ℤ) - 53) := by
    rw [le_div_iff₀ positive, Double.two_pow_mul_zpow]
    exact lower
  have atLeast : ((2 ^ 52 : ℤ) : ℚ) ≤ multiple := by
    exact_mod_cast atMultiple.le_integer scaled
  have floored : (2 ^ 63 : ℤ) ≤ wholePartOfNearest numerator denominator := by
    rw [whole, Int.le_floor]
    calc ((2 ^ 63 : ℤ) : ℚ) = 2 ^ ((11 : ℤ) + 52) := by norm_num
      _ ≤ 2 ^ ((length : ℤ) - 53 + 52) :=
        zpow_le_zpow_right₀ one_le_two (by omega)
      _ = ((2 ^ 52 : ℤ) : ℚ) * 2 ^ ((length : ℤ) - 53) :=
        (Double.two_pow_mul_zpow 52 _).symm
      _ ≤ multiple * 2 ^ ((length : ℤ) - 53) := by gcongr
  exact_mod_cast floored

end Quotient

end SearchPhrase.Numeral
