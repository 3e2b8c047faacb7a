import SearchPhrase.Text.FormEncoding

/-!
# Decoding of web forms

A text in the encoding of web forms is decoded to bytes: a plus sign is a space,
a percent sign with two hexadecimal digits is the byte that they write, and
every other character stands for its own UTF-8 bytes.  The bytes are then read
as UTF-8.

Decoding undoes encoding, in front of any other text.  Hence two texts with the
same encoded form are equal.
-/

namespace SearchPhrase.Text.FormEncoding

/-! ## Decoding -/

/-- The value of a hexadecimal digit, in upper or lower case. -/
def hexValue? (character : Char) : Option Nat :=
  let code := character.toNat
  if 0x30 ≤ code ∧ code ≤ 0x39 then some (code - 0x30)
  else if 0x41 ≤ code ∧ code ≤ 0x46 then some (code - 0x41 + 10)
  else if 0x61 ≤ code ∧ code ≤ 0x66 then some (code - 0x61 + 10)
  else none

/-- The bytes that an encoded text stands for. -/
def decodeBytes : List Char → List UInt8
  | [] => []
  | '+' :: rest => 0x20 :: decodeBytes rest
  | '%' :: high :: low :: rest =>
      match hexValue? high, hexValue? low with
      | some upper, some lower =>
          UInt8.ofNat (16 * upper + lower) :: decodeBytes rest
      | _, _ => String.utf8EncodeChar '%' ++ decodeBytes (high :: low :: rest)
  | character :: rest => String.utf8EncodeChar character ++ decodeBytes rest

/--
The text that an encoded text stands for, if its bytes are those of a text.
-/
def decode? (text : String) : Option String :=
  String.fromUTF8? (decodeBytes text.toList).toByteArray

theorem decodeBytes_plus (rest : List Char) :
    decodeBytes ('+' :: rest) = 0x20 :: decodeBytes rest := by
  rw [decodeBytes]

theorem decodeBytes_percent
    {high low : Char} {upper lower : Nat}
    (highValue : hexValue? high = some upper)
    (lowValue : hexValue? low = some lower) (rest : List Char) :
    decodeBytes ('%' :: high :: low :: rest) =
      UInt8.ofNat (16 * upper + lower) :: decodeBytes rest := by
  rw [decodeBytes, highValue, lowValue]

theorem decodeBytes_cons
    {character : Char} (notPlus : character ≠ '+')
    (notPercent : character ≠ '%') (rest : List Char) :
    decodeBytes (character :: rest) =
      String.utf8EncodeChar character ++ decodeBytes rest := by
  rw [decodeBytes]
  · intro equal
    exact notPlus equal
  · intro high low others equal
    exact absurd equal notPercent

/-- Characters without plus and percent signs stand for their own bytes. -/
theorem decodeBytes_append
    {text : List Char} (noPlus : '+' ∉ text) (noPercent : '%' ∉ text)
    (rest : List Char) :
    decodeBytes (text ++ rest) =
      text.flatMap String.utf8EncodeChar ++ decodeBytes rest := by
  induction text with
  | nil => rfl
  | cons character others ih =>
      simp only [List.mem_cons, not_or] at noPlus noPercent
      rw [List.cons_append,
        decodeBytes_cons (Ne.symm noPlus.1) (Ne.symm noPercent.1),
        ih noPlus.2 noPercent.2, List.flatMap_cons, List.append_assoc]

/-- Decoded bytes are read as the text whose bytes they are. -/
theorem decode?_of_bytes
    {text decoded : List Char}
    (bytes : decodeBytes text = decoded.flatMap String.utf8EncodeChar) :
    decode? (String.ofList text) = some (String.ofList decoded) := by
  have valid : decoded.utf8Encode.IsValidUTF8 :=
    ByteArray.isValidUTF8_utf8Encode
  rw [decode?, String.toList_ofList, bytes]
  change String.fromUTF8? decoded.utf8Encode = _
  rw [String.fromUTF8?, dif_pos valid]
  rfl

/-! ## Decoding of encoded texts -/

theorem hexValue?_hexDigit :
    ∀ value < 16, hexValue? (hexDigit value) = some value := by
  decide

theorem plain_byte :
    ∀ code < 256, isPlain (UInt8.ofNat code) = true →
      String.utf8EncodeChar (Char.ofNat code) = [UInt8.ofNat code] ∧
        Char.ofNat code ≠ '+' ∧ Char.ofNat code ≠ '%' := by
  decide +kernel

theorem decodeBytes_encodeByte (byte : UInt8) (rest : List Char) :
    decodeBytes (encodeByte byte ++ rest) = byte :: decodeBytes rest := by
  have bounded : byte.toNat < 256 := byte.toNat_lt
  have same : UInt8.ofNat byte.toNat = byte := UInt8.ofNat_toNat
  unfold encodeByte
  split
  · next plain =>
      rw [← same] at plain
      obtain ⟨bytes, notPlus, notPercent⟩ := plain_byte byte.toNat bounded plain
      rw [List.cons_append, decodeBytes_cons notPlus notPercent, bytes, same]
      rfl
  · split
    · next blank =>
        rw [beq_iff_eq] at blank
        rw [List.cons_append, decodeBytes_plus, blank]
        rfl
    · have upper := hexValue?_hexDigit (byte.toNat / 16) (by omega)
      have lower := hexValue?_hexDigit (byte.toNat % 16) (by omega)
      rw [List.cons_append, List.cons_append, List.cons_append,
        decodeBytes_percent upper lower, Nat.div_add_mod, same]
      rfl

/-- Decoding undoes encoding, in front of any other text. -/
theorem decodeBytes_encodeChars (text rest : List Char) :
    decodeBytes (encodeChars text ++ rest) =
      text.flatMap String.utf8EncodeChar ++ decodeBytes rest := by
  have ofBytes (bytes : List UInt8) (others : List Char) :
      decodeBytes (bytes.flatMap encodeByte ++ others) =
        bytes ++ decodeBytes others := by
    induction bytes with
    | nil => rfl
    | cons byte bytes ih =>
        rw [List.flatMap_cons, List.append_assoc, decodeBytes_encodeByte, ih,
          List.cons_append]
  induction text with
  | nil => rfl
  | cons character others ih =>
      rw [encodeChars, List.flatMap_cons, List.append_assoc, ofBytes,
        ← encodeChars, ih, List.flatMap_cons, List.append_assoc]

theorem encodeChars_injective : Function.Injective encodeChars := by
  intro left right equal
  have bytes (text : List Char) :
      decodeBytes (encodeChars text) = text.flatMap String.utf8EncodeChar := by
    simpa [decodeBytes] using decodeBytes_encodeChars text []
  have decoded :
      decode? (String.ofList (encodeChars left)) =
        some (String.ofList right) := by
    rw [equal]
    exact decode?_of_bytes (bytes right)
  rw [decode?_of_bytes (bytes left), Option.some.injEq,
    String.ofList_inj] at decoded
  exact decoded

/-! ## The alphabet of encoded texts -/

/-- Whether a character can stand in an encoded text. -/
def isFormCharacter (character : Char) : Bool :=
  character.isAlphanum || "*-._+%".toList.contains character

theorem all_isFormCharacter_encodeByte :
    ∀ code < 256, (encodeByte (UInt8.ofNat code)).all isFormCharacter =
      true := by
  decide +kernel

theorem isFormCharacter_of_mem_encodeChars
    {text : List Char} {character : Char}
    (member : character ∈ encodeChars text) :
    isFormCharacter character = true := by
  obtain ⟨source, -, inBytes⟩ := List.mem_flatMap.mp member
  obtain ⟨byte, -, inByte⟩ := List.mem_flatMap.mp inBytes
  have same : UInt8.ofNat byte.toNat = byte := UInt8.ofNat_toNat
  rw [← same] at inByte
  have form := all_isFormCharacter_encodeByte byte.toNat byte.toNat_lt
  exact List.all_eq_true.mp form character inByte

@[simp]
theorem encodeChars_eq_nil_iff {text : List Char} :
    encodeChars text = [] ↔ text = [] := by
  constructor
  · intro empty
    exact encodeChars_injective empty
  · intro empty
    rw [empty]
    rfl

end SearchPhrase.Text.FormEncoding
