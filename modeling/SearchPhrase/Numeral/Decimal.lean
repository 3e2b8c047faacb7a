import SearchPhrase.Numeral.Rounding

/-!
# Decimal numerals

A decimal numeral has an optional sign, digits with an optional point among or
around them, and an optional exponent.
-/

namespace SearchPhrase.Numeral

/-- A sign, digits, and the power of ten that the digits count. -/
structure Decimal where
  negative : Bool
  digits : List Char
  exponent : Int
deriving DecidableEq, Repr

/-- Read an optional sign: whether it is a minus sign, and the rest. -/
def splitSign : List Char → Bool × List Char
  | '-' :: rest => (true, rest)
  | '+' :: rest => (false, rest)
  | text => (false, text)

/-- Read an exponent, with or without a sign, or its absence. -/
def exponent? : List Char → Option Int
  | [] => some 0
  | letter :: rest =>
      let (negative, digits) := splitSign rest
      if (letter == 'e' || letter == 'E') && !digits.isEmpty &&
          digits.all Char.isDigit then
        let magnitude := Nat.ofDigitChars 10 digits 0
        some (if negative then -magnitude else magnitude)
      else none

/-- Read a fraction or its absence: the digits, and the rest. -/
def splitFraction : List Char → List Char × List Char
  | '.' :: rest => (rest.takeWhile Char.isDigit, rest.dropWhile Char.isDigit)
  | text => ([], text)

namespace Decimal

/-- The decimal that a text writes. -/
def ofText? (text : List Char) : Option Decimal :=
  let (negative, unsigned) := splitSign text
  let whole := unsigned.takeWhile Char.isDigit
  let (fraction, rest) := splitFraction (unsigned.dropWhile Char.isDigit)
  if (whole ++ fraction).isEmpty then none
  else
    (exponent? rest).map fun exponent =>
      { negative := negative
        digits := whole ++ fraction
        exponent := exponent - fraction.length }

/-- The number that the digits write, before the exponent applies. -/
def significand (decimal : Decimal) : Nat :=
  Nat.ofDigitChars 10 decimal.digits 0

/--
The whole part of the magnitude after rounding to double precision, or none if
the exponent alone takes it beyond sixty-four bits.

An exponent that leaves no digit in front of the point gives zero without
computing the power of ten.
-/
def magnitude? (decimal : Decimal) : Option Nat :=
  if decimal.significand == 0 then some 0
  else if 19 ≤ decimal.exponent then none
  else if decimal.exponent + decimal.digits.length < 0 then some 0
  else
    some (wholePartOfNearest
      (decimal.significand * Nat.pow 10 decimal.exponent.toNat)
      (Nat.pow 10 (-decimal.exponent).toNat))

/--
The whole number towards zero, where its magnitude is below 2 to the power 63.
-/
def truncated? (decimal : Decimal) : Option Int :=
  match decimal.magnitude? with
  | some magnitude =>
      if magnitude < Nat.pow 2 63 then
        some (if decimal.negative then -magnitude else magnitude)
      else none
  | none => none

end Decimal

end SearchPhrase.Numeral
