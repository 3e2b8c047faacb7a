import SearchPhrase.Proofs.Calendar.Reading
import SearchPhrase.Proofs.Numeral.DecimalRounding

/-!
# Whole numbers

A text that writes a whole number is first read exactly.  Only a number beyond a
word is read again in double precision, where rounding keeps it beyond the word,
however many digits it has.  The main statement is that a whole number is
therefore read as itself if it fits in a word, and not at all otherwise.
-/

namespace SearchPhrase.Numeral

open Text (IsNumeral)

/-! ## Signs -/

/-- The sign in front of a numeral, if there is one. -/
inductive Sign where
  | absent
  | plus
  | minus
deriving DecidableEq, Repr

namespace Sign

/-- The characters by which a sign is written. -/
def characters : Sign → List Char
  | .absent => []
  | .plus => ['+']
  | .minus => ['-']

/-- Whether a sign makes a number negative. -/
def isNegative : Sign → Bool
  | .minus => true
  | _ => false

/-- The factor by which a sign changes a number. -/
def factor : Sign → ℤ
  | .minus => -1
  | _ => 1

theorem ite_isNegative (sign : Sign) (magnitude : ℤ) :
    (if sign.isNegative then -magnitude else magnitude) =
      sign.factor * magnitude := by
  cases sign <;> simp [isNegative, factor]

/-- A sign is split off in front of a digit. -/
theorem splitSign_append (sign : Sign) {digits : List Char} {number : ℕ}
    (numeral : IsNumeral digits number) (rest : List Char) :
    splitSign (sign.characters ++ (digits ++ rest)) =
      (sign.isNegative, digits ++ rest) := by
  obtain ⟨first, others, rfl⟩ := List.exists_cons_of_ne_nil numeral.ne_nil
  have digit := numeral.isDigit first List.mem_cons_self
  cases sign with
  | absent =>
      rw [characters, List.nil_append, List.cons_append, splitSign]
      · rfl
      · rintro _ signed
        cases signed
        cases digit
      · rintro _ signed
        cases signed
        cases digit
  | plus => rfl
  | minus => rfl

end Sign

/-! ## Words -/

theorem isSome_int64?_iff {number : ℤ} :
    (int64? number).isSome = true ↔ -2 ^ 63 ≤ number ∧ number ≤ 2 ^ 63 - 1 := by
  have least : Int64.minValue.toInt = -2 ^ 63 := by decide
  have most : Int64.maxValue.toInt = 2 ^ 63 - 1 := by decide
  rw [int64?, least, most]
  split
  · next fits => exact iff_of_true rfl fits
  · next beyond => exact iff_of_false (by simp) beyond

/-! ## Texts of whole numbers -/

section Whole

variable {sign : Sign} {digits : List Char} {number : ℕ}
  (numeral : IsNumeral digits number)
include numeral

theorem whole?_characters :
    whole? (sign.characters ++ digits) = some (sign.factor * number) := by
  have split := sign.splitSign_append numeral []
  rw [List.append_nil] at split
  simp only [whole?, split, Text.nat?_eq_some_iff.mpr numeral,
    sign.ite_isNegative]
  rfl

theorem ofText?_characters :
    Decimal.ofText? (sign.characters ++ digits) =
      some ⟨sign.isNegative, digits, 0⟩ := by
  have split := sign.splitSign_append numeral []
  rw [List.append_nil] at split
  have taken : digits.takeWhile Char.isDigit = digits :=
    List.takeWhile_eq_self_iff.mpr numeral.isDigit
  have dropped : digits.dropWhile Char.isDigit = [] :=
    List.dropWhile_eq_nil_iff.mpr numeral.isDigit
  simp [Decimal.ofText?, split, taken, dropped, splitFraction, exponent?,
    numeral.ne_nil]

/-- A number beyond a word stays beyond it in double precision. -/
theorem truncated?_eq_none (large : 2 ^ 63 ≤ number) (negative : Bool) :
    (⟨negative, digits, 0⟩ : Decimal).truncated? = none := by
  rw [Option.eq_none_iff_forall_ne_some]
  intro whole found
  obtain ⟨double, nearest, less, -⟩ :=
    (Decimal.truncated?_eq_some_iff numeral.isDigit).mp found
  have exact : (⟨negative, digits, 0⟩ : Decimal).magnitude = number := by
    rw [Decimal.magnitude, Decimal.significand, numeral.value, zpow_zero,
      mul_one]
  have beyond : 2 ^ 63 ≤ |(⟨negative, digits, 0⟩ : Decimal).value| := by
    rw [Decimal.abs_value, exact]
    exact_mod_cast large
  exact absurd less (not_lt.mpr (nearest.two_pow_le_abs_value beyond))

theorem integer?_of_trim_eq {text : String}
    (written : Text.trim text.toList = sign.characters ++ digits) :
    integer? text = int64? (sign.factor * number) := by
  simp only [integer?, written, whole?_characters numeral,
    ofText?_characters numeral, Option.bind_some]
  cases fits : int64? (sign.factor * number) with
  | some word => rfl
  | none =>
      have beyond :
          ¬ (-2 ^ 63 ≤ sign.factor * number ∧
            sign.factor * number ≤ 2 ^ 63 - 1) := by
        rw [← isSome_int64?_iff, fits]
        simp
      have large : 2 ^ 63 ≤ number := by
        cases sign <;> simp only [Sign.factor] at beyond <;> omega
      rw [truncated?_eq_none numeral large]
      rfl

end Whole

/--
A text that writes a whole number of any length, with or without a sign and
apart from blanks at its ends, is read as that number and as no other.  It is
read exactly if the number fits in a word of sixty-four bits.
-/
theorem whole_numbers_read_exactly (text : String) (sign : Sign)
    {digits : List Char} {number : ℕ}
    (written : Text.trim text.toList = sign.characters ++ digits)
    (numeral : IsNumeral digits number) :
    (∀ word : Int64, integer? text = some word ↔
      word.toInt = sign.factor * number) ∧
      ((integer? text).isSome = true ↔
        -2 ^ 63 ≤ sign.factor * number ∧
          sign.factor * number ≤ 2 ^ 63 - 1) := by
  rw [integer?_of_trim_eq numeral written]
  exact ⟨fun _ => int64?_eq_some_iff, isSome_int64?_iff⟩

/-- The least word is read, and the number after the greatest one is not. -/
theorem whole_numbers_read_exactly_limits :
    integer? " -9223372036854775808\n" = some Int64.minValue ∧
      (integer? "+0009223372036854775808").isSome = false := by
  have least : IsNumeral "9223372036854775808".toList 9223372036854775808 :=
    Text.nat?_eq_some_iff.mp (by decide)
  have beyond : IsNumeral "0009223372036854775808".toList 9223372036854775808 :=
    Text.nat?_eq_some_iff.mp (by decide)
  have reads :=
    whole_numbers_read_exactly " -9223372036854775808\n" .minus
      (by decide) least
  have refuses :=
    whole_numbers_read_exactly "+0009223372036854775808" .plus
      (by decide) beyond
  refine ⟨(reads.1 Int64.minValue).mpr (by decide), ?_⟩
  rw [Bool.eq_false_iff, ne_eq, refuses.2]
  decide

end SearchPhrase.Numeral
