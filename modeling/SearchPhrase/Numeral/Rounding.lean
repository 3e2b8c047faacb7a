/-!
# Rounding to double precision

A decimal value is first rounded to the nearest number with a significand of 53
bits, ties going to the even one, and then loses its fraction.  Both steps are
exact arithmetic on the numerator and denominator of the value.
-/

namespace SearchPhrase.Numeral

/-- The whole number nearest to a quotient; a tie goes to the even one. -/
def roundQuotient (numerator denominator : Nat) : Nat :=
  let quotient := numerator / denominator
  let twice := 2 * (numerator % denominator)
  if twice < denominator then quotient
  else if denominator < twice then quotient + 1
  else if quotient % 2 == 0 then quotient
  else quotient + 1

/-- The number of binary digits of a number; zero has none. -/
def bitLength (number : Nat) : Nat :=
  if number == 0 then 0 else number.log2 + 1

/--
The whole part of the number with a significand of 53 bits that is nearest to a
quotient.

The bits of the whole part fix the spacing of those numbers around a quotient
that is at least one half.  Below one half they are closer to each other, but
none of them reaches one.
-/
def wholePartOfNearest (numerator denominator : Nat) : Nat :=
  let bits := bitLength (numerator / denominator)
  if bits ≤ 53 then
    let scale := Nat.pow 2 (53 - bits)
    roundQuotient (numerator * scale) denominator / scale
  else
    let spacing := Nat.pow 2 (bits - 53)
    roundQuotient numerator (denominator * spacing) * spacing

/-- Twice the distance between a quotient and its rounding is at most one. -/
theorem roundQuotient_bounds (numerator : Nat) {denominator : Nat}
    (positive : 0 < denominator) :
    2 * numerator ≤
      (2 * roundQuotient numerator denominator + 1) * denominator ∧
      2 * roundQuotient numerator denominator * denominator ≤
        2 * numerator + denominator := by
  have division := Nat.div_add_mod numerator denominator
  have remainder := Nat.mod_lt numerator positive
  rw [Nat.mul_comm] at division
  simp only [roundQuotient]
  split
  · constructor <;> grind
  · split
    · constructor <;> grind
    · split
      · constructor <;> grind
      · constructor <;> grind

end SearchPhrase.Numeral
