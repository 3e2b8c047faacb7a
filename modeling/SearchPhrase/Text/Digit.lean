/-!
# Digits

Two classes of digits matter.  Patterns over values accept every decimal digit
of Unicode (the general category Nd), while a number is read from the ten ASCII
digits only.  The decimal digits come in runs of ten, so the table lists the
character that stands for zero in each run.
-/

namespace SearchPhrase.Text

/-- The code points of the decimal digits that stand for zero. -/
def zeroDigits : List Nat :=
  [0x0030, 0x0660, 0x06F0, 0x07C0, 0x0966, 0x09E6, 0x0A66, 0x0AE6, 0x0B66,
    0x0BE6, 0x0C66, 0x0CE6, 0x0D66, 0x0DE6, 0x0E50, 0x0ED0, 0x0F20, 0x1040,
    0x1090, 0x17E0, 0x1810, 0x1946, 0x19D0, 0x1A80, 0x1A90, 0x1B50, 0x1BB0,
    0x1C40, 0x1C50, 0xA620, 0xA8D0, 0xA900, 0xA9D0, 0xA9F0, 0xAA50, 0xABF0,
    0xFF10, 0x104A0, 0x10D30, 0x10D40, 0x11066, 0x110F0, 0x11136, 0x111D0,
    0x112F0, 0x11450, 0x114D0, 0x11650, 0x116C0, 0x116D0, 0x116DA, 0x11730,
    0x118E0, 0x11950, 0x11BF0, 0x11C50, 0x11D50, 0x11DA0, 0x11F50, 0x16130,
    0x16A60, 0x16AC0, 0x16B50, 0x16D70, 0x1CCF0, 0x1D7CE, 0x1D7D8, 0x1D7E2,
    0x1D7EC, 0x1D7F6, 0x1E140, 0x1E2F0, 0x1E4F0, 0x1E5F1, 0x1E950, 0x1FBF0]

/-- Whether a character is a decimal digit of any script. -/
def isDecimalDigit (character : Char) : Bool :=
  zeroDigits.any fun first =>
    first ≤ character.toNat && character.toNat ≤ first + 9

/-- Whether a text is a nonempty run of decimal digits of any script. -/
def isDecimalRun (text : List Char) : Bool :=
  !text.isEmpty && text.all isDecimalDigit

/-- The number that a nonempty run of ASCII digits writes. -/
def nat? (text : List Char) : Option Nat :=
  if !text.isEmpty && text.all Char.isDigit then
    some (Nat.ofDigitChars 10 text 0)
  else none

/-- The decimal text of a number, with zeros in front up to a least width. -/
def zeroPadded (width number : Nat) : List Char :=
  (Nat.toDigits 10 number).leftpad width '0'

/--
The decimal text of an integer, with a minus sign in front of a negative one.
-/
def ofInt (number : Int) : List Char :=
  if number < 0 then '-' :: Nat.toDigits 10 number.natAbs
  else Nat.toDigits 10 number.natAbs

theorem isDecimalDigit_of_isDigit
    {character : Char} (digit : character.isDigit = true) :
    isDecimalDigit character = true := by
  simp only [Char.isDigit, Bool.and_eq_true, decide_eq_true_eq,
    ge_iff_le] at digit
  have lower : 0x30 ≤ character.toNat := UInt32.le_iff_toNat_le.mp digit.1
  have upper : character.toNat ≤ 0x30 + 9 := UInt32.le_iff_toNat_le.mp digit.2
  simp only [isDecimalDigit, zeroDigits, List.any_cons, Bool.or_eq_true]
  exact Or.inl (by simp [lower, upper])

end SearchPhrase.Text
