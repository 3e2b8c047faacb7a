import SearchPhrase.Numeral.Decimal
import SearchPhrase.Text.Blank
import SearchPhrase.Text.Digit

/-!
# Numerals

The value of a numerical field is a whole number of sixty-four bits.  A whole
numeral that fits is read exactly; any other numeral is read as a decimal in
double precision and loses its fraction.
-/

namespace SearchPhrase.Numeral

/-- A number as a word of sixty-four bits, if it fits. -/
def int64? (number : Int) : Option Int64 :=
  if Int64.minValue.toInt ≤ number ∧ number ≤ Int64.maxValue.toInt then
    some (Int64.ofInt number)
  else none

/-- A number as an unsigned word of thirty-two bits, if it fits. -/
def uint32? (number : Int) : Option UInt32 :=
  if 0 ≤ number ∧ number < UInt32.size then some (UInt32.ofNat number.toNat)
  else none

/-- The whole number that a text writes with an optional sign. -/
def whole? (text : List Char) : Option Int :=
  let (negative, digits) := splitSign text
  (Text.nat? digits).map fun magnitude =>
    if negative then -magnitude else magnitude

/-- The whole number that a text stands for, apart from blanks at its ends. -/
def integer? (text : String) : Option Int64 :=
  let trimmed := Text.trim text.toList
  match (whole? trimmed).bind int64? with
  | some number => some number
  | none =>
      match Decimal.ofText? trimmed with
      | some decimal => decimal.truncated?.bind int64?
      | none => none

/--
Whether a text has the shape of a number: an optional sign, digits, and
optionally a point with further digits, where digits are those of any script.
-/
def isShapedAsNumber (text : String) : Bool :=
  let unsigned := (splitSign text.toList).2
  let rest := unsigned.dropWhile Text.isDecimalDigit
  Text.isDecimalRun (unsigned.takeWhile Text.isDecimalDigit) &&
    match rest with
    | [] => true
    | '.' :: fraction => Text.isDecimalRun fraction
    | _ => false

@[simp]
theorem int64?_toInt (number : Int64) : int64? number.toInt = some number := by
  rw [int64?, if_pos ⟨number.minValue_le_toInt, number.toInt_le⟩,
    Int64.ofInt_toInt]

/-- A word holds the number that it is made of. -/
theorem int64?_eq_some_iff {number : Int} {word : Int64} :
    int64? number = some word ↔ word.toInt = number := by
  constructor
  · intro fits
    unfold int64? at fits
    split at fits
    · next bounds =>
        cases fits
        exact Int64.toInt_ofInt_of_le bounds.1
          (Int.lt_of_le_of_lt bounds.2 (by decide))
    · cases fits
  · rintro rfl
    exact int64?_toInt word

/-- An unsigned word holds the number that it is made of. -/
theorem uint32?_eq_some_iff {number : Int} {word : UInt32} :
    uint32? number = some word ↔ (word.toNat : Int) = number := by
  constructor
  · intro fits
    unfold uint32? at fits
    split at fits
    · next bounds =>
        cases fits
        rw [UInt32.toNat_ofNat_of_lt' (by omega)]
        omega
    · cases fits
  · rintro rfl
    rw [uint32?, if_pos ⟨by omega, by exact_mod_cast word.toNat_lt_size⟩]
    simp

end SearchPhrase.Numeral
