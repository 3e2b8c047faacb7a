import SearchPhrase.Json
import SearchPhrase.Text.Digit

/-!
# Writing JSON

A value is written without blanks.  Strings are written in ASCII: every other
character, and every control character, is escaped by its UTF-16 units.
-/

namespace SearchPhrase.Json

/-- The lower-case hexadecimal digits of a 16-bit unit, four of them. -/
def unitDigits (unit : Nat) : List Char :=
  (Nat.toDigits 16 unit).leftpad 4 '0'

/-- The escape of a 16-bit unit. -/
def escapeUnit (unit : Nat) : List Char :=
  '\\' :: 'u' :: unitDigits unit

/-- A character as it is written in a string literal. -/
def escapeChar (character : Char) : List Char :=
  let code := character.toNat
  if character == '"' || character == '\\' then ['\\', character]
  else if 0x20 ≤ code && code ≤ 0x7E then [character]
  else if code < 0x10000 then escapeUnit code
  else
    escapeUnit (0xD800 + (code - 0x10000) / 0x400) ++
      escapeUnit (0xDC00 + (code - 0x10000) % 0x400)

/-- The string literal of a text. -/
def quoted (content : String) : List Char :=
  '"' :: content.toList.flatMap escapeChar ++ ['"']

/--
The literal of an optional text, where an absent text is an unpaired escape.
-/
def textLiteral : Option String → List Char
  | some content => quoted content
  | none => '"' :: escapeUnit 0xD800 ++ ['"']

mutual

/-- Write a value in front of a text. -/
def write : Json → List Char → List Char
  | .null, rest => "null".toList ++ rest
  | .bool true, rest => "true".toList ++ rest
  | .bool false, rest => "false".toList ++ rest
  | .integer value, rest => Text.ofInt value ++ rest
  | .decimal literal, rest => literal.toList ++ rest
  | .text content, rest => textLiteral content ++ rest
  | .array elements, rest => '[' :: writeElements elements (']' :: rest)
  | .object members, rest => '\x7b' :: writeMembers members ('\x7d' :: rest)

/--
Write the elements of an array in front of a text, with commas between them.
-/
def writeElements : List Json → List Char → List Char
  | [], rest => rest
  | [element], rest => element.write rest
  | element :: others, rest => element.write (',' :: writeElements others rest)

/--
Write the members of an object in front of a text, with commas between them.
-/
def writeMembers : List (Option String × Json) → List Char → List Char
  | [], rest => rest
  | [(name, value)], rest => textLiteral name ++ ':' :: value.write rest
  | (name, value) :: others, rest =>
      textLiteral name ++ ':' :: value.write (',' :: writeMembers others rest)

end

/-- The text of a value. -/
def render (value : Json) : String :=
  String.ofList (value.write [])

end SearchPhrase.Json
