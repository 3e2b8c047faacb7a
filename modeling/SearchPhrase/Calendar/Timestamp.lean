import SearchPhrase.Calendar.Instant

/-!
# Internet timestamps

A timestamp has a fixed number of digits in every place, an optional fraction
of a second and a zone.  It is read as the local time that it writes: the zone
must be well formed and does not move the instant.
-/

namespace SearchPhrase.Timestamp

/-- Read a fixed number of digits and give the rest. -/
def digits? (count : Nat) (text : List Char) : Option (Nat × List Char) :=
  let digits := text.take count
  if digits.length == count && digits.all Char.isDigit then
    some (Nat.ofDigitChars 10 digits 0, text.drop count)
  else none

/-- Read one of the given characters and give the rest. -/
def mark? (allowed : List Char) : List Char → Option (List Char)
  | character :: rest => if allowed.contains character then some rest else none
  | [] => none

/-- Read three numbers of two or four digits with a mark between them. -/
def triple? (width : Nat) (mark : Char) (text : List Char) :
    Option ((Nat × Nat × Nat) × List Char) := do
  let (first, text) ← digits? width text
  let text ← mark? [mark] text
  let (second, text) ← digits? 2 text
  let text ← mark? [mark] text
  let (third, text) ← digits? 2 text
  return ((first, second, third), text)

/--
Read an optional fraction of a second as nanoseconds.  Digits after the ninth
are dropped.
-/
def nanoseconds? : List Char → Option (Nat × List Char)
  | '.' :: rest =>
      let digits := rest.takeWhile Char.isDigit
      let kept := digits.take 9
      if digits.isEmpty then none
      else
        some (Nat.ofDigitChars 10 (kept.rightpad 9 '0') 0,
          rest.dropWhile Char.isDigit)
  | text => some (0, text)

/--
Whether a text is a zone: `Z`, or a sign with hours and minutes that make less
than a day.
-/
def isZone : List Char → Bool
  | ['Z'] | ['z'] => true
  | text =>
      let zone : Option Bool := do
        let text ← mark? ['+', '-', '\u2212'] text
        let (hours, text) ← digits? 2 text
        let text ← mark? [':'] text
        let (minutes, text) ← digits? 2 text
        return minutes < 60 && hours < 24 && text.isEmpty
      zone.getD false

/-- The instant that a timestamp writes. -/
def instant? (text : List Char) : Option Instant := do
  let ((year, month, day), text) ← triple? 4 '-' text
  let text ← mark? ['T', 't', ' '] text
  let ((hour, minute, second), text) ← triple? 2 ':' text
  let (nanosecond, text) ← nanoseconds? text
  let date ← Date.of? year month day
  let instant ← Instant.ofClock? date hour minute second nanosecond
  if isZone text then some instant else none

end SearchPhrase.Timestamp
