/-!
# Form encoding

Parameters enter a query string in the encoding of web forms.  A text is taken
as its UTF-8 bytes: ASCII letters, digits and the marks `*`, `-`, `.`, `_` stand
for themselves, a space is written `+`, and every other byte is a percent sign
with two upper-case hexadecimal digits.
-/

namespace SearchPhrase.Text.FormEncoding

/-- Whether a byte stands for itself in an encoded text. -/
def isPlain (byte : UInt8) : Bool :=
  let code := byte.toNat
  (0x30 ≤ code && code ≤ 0x39) || (0x41 ≤ code && code ≤ 0x5A) ||
    (0x61 ≤ code && code ≤ 0x7A) || code == 0x2A || code == 0x2D ||
    code == 0x2E || code == 0x5F

/-- The upper-case hexadecimal digit of a number below sixteen. -/
def hexDigit (value : Nat) : Char :=
  if value < 10 then Char.ofNat (0x30 + value)
  else Char.ofNat (0x41 + (value - 10))

/-- A byte in the form encoding: itself, a plus for a blank, or an escape. -/
def encodeByte (byte : UInt8) : List Char :=
  if isPlain byte then [Char.ofNat byte.toNat]
  else if byte == 0x20 then ['+']
  else ['%', hexDigit (byte.toNat / 16), hexDigit (byte.toNat % 16)]

/-- The encoded form of a list of characters, byte by byte. -/
def encodeChars (text : List Char) : List Char :=
  text.flatMap fun character =>
    (String.utf8EncodeChar character).flatMap encodeByte

/-- The form encoding of a text. -/
def encode (text : String) : String :=
  String.ofList (encodeChars text.toList)

@[simp]
theorem encodeChars_append (left right : List Char) :
    encodeChars (left ++ right) = encodeChars left ++ encodeChars right := by
  simp [encodeChars]

end SearchPhrase.Text.FormEncoding
