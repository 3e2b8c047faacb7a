import Mathlib.Algebra.Group.Nat.Defs
import SearchPhrase.Calendar.TimeExpression
import SearchPhrase.Proofs.Text.Words

/-!
# Reading by layouts

A layout reads a text item by item, and each item takes a part of the text and
leaves the rest to the next one.  This module says what each item takes: a
number takes blanks and a run of digits that does not go on, unless its width is
used up; a mark takes one character; and a gap takes blanks.
-/

namespace SearchPhrase

/-! ## Digits and blanks -/

namespace Text

/-- A nonempty run of digits and the number that it writes. -/
structure IsNumeral (digits : List Char) (number : Nat) : Prop where
  ne_nil : digits ≠ []
  isDigit : ∀ character ∈ digits, character.isDigit = true
  value : Nat.ofDigitChars 10 digits 0 = number

theorem nat?_eq_some_iff {digits : List Char} {number : Nat} :
    nat? digits = some number ↔ IsNumeral digits number := by
  simp only [nat?, Option.ite_none_right_eq_some, Option.some.injEq,
    Bool.and_eq_true, Bool.not_eq_true', List.isEmpty_eq_false_iff,
    List.all_eq_true]
  exact ⟨fun ⟨⟨nonempty, digit⟩, value⟩ => ⟨nonempty, digit, value⟩,
    fun ⟨nonempty, digit, value⟩ => ⟨⟨nonempty, digit⟩, value⟩⟩

/-- A text does not go on with a digit. -/
def NoDigitFirst (text : List Char) : Prop :=
  ∀ character ∈ text.head?, character.isDigit = false

theorem noDigitFirst_nil : NoDigitFirst [] := by
  simp [NoDigitFirst]

theorem noDigitFirst_cons {character : Char}
    (notDigit : character.isDigit = false)
    (rest : List Char) : NoDigitFirst (character :: rest) := by
  simpa [NoDigitFirst] using notDigit

theorem noDigitFirst_hyphen (rest : List Char) : NoDigitFirst ('-' :: rest) :=
  noDigitFirst_cons rfl rest

theorem takeWhile_take_eq_nil_iff {width : Nat} {text : List Char} :
    (text.take width).takeWhile Char.isDigit = [] ↔
      (0 < width → NoDigitFirst text) := by
  cases text with
  | nil => simp [noDigitFirst_nil]
  | cons character rest => cases width <;> simp [NoDigitFirst]

theorem isBlank_of_isDigit {character : Char}
    (digit : character.isDigit = true) :
    isBlank character = false := by
  have bounds := Char.isDigit_iff_toNat.mp digit
  have lower : 48 ≤ character.toNat := bounds.1
  have upper : character.toNat ≤ 57 := bounds.2
  simp [isBlank]
  omega

theorem IsNumeral.trimStart_append {digits : List Char} {number : Nat}
    (numeral : IsNumeral digits number) (rest : List Char) :
    trimStart (digits ++ rest) = digits ++ rest := by
  obtain ⟨first, others, rfl⟩ := List.exists_cons_of_ne_nil numeral.ne_nil
  exact trimStart_cons
    (isBlank_of_isDigit (numeral.isDigit first List.mem_cons_self)) _

/-- A number with zeros in front of it. -/
theorem isNumeral_zeroPadded (width number : Nat) :
    IsNumeral (zeroPadded width number) number where
  ne_nil := by simp [zeroPadded, List.leftpad, Nat.toDigits_ne_nil]
  isDigit := by
    intro character member
    rcases List.mem_append.mp member with zero | digit
    · rw [List.eq_of_mem_replicate zero]
      rfl
    · exact Nat.isDigit_of_mem_toDigits (by decide) (by decide) digit
  value := by
    simp [zeroPadded, List.leftpad, Nat.ofDigitChars_append,
      Nat.ofDigitChars_replicate_zero]

theorem length_zeroPadded {width number : Nat} (positive : 0 < width)
    (fits : number < 10 ^ width) :
    (zeroPadded width number).length = width := by
  have atMost := (Nat.length_toDigits_le_iff (by decide) positive).mpr fits
  simp [zeroPadded, atMost]

end Text

namespace Layout

open Text (IsNumeral NoDigitFirst)

/-! ## Numbers -/

theorem takeWhile_take_append
    {digits : List Char}
    (isDigit : ∀ character ∈ digits, character.isDigit = true)
    {atMost : Nat} (fits : digits.length ≤ atMost) (rest : List Char) :
    ((digits ++ rest).take atMost).takeWhile Char.isDigit =
      digits ++ (rest.take (atMost - digits.length)).takeWhile
        Char.isDigit := by
  rw [List.take_append, List.take_of_length_le fits,
    List.takeWhile_append_of_pos isDigit]

/--
Reading digits takes a run of them, which ends there unless it has the greatest
width.
-/
theorem digits?_eq_some_iff {atMost number : Nat} {text rest : List Char} :
    digits? atMost text = some (number, rest) ↔
      ∃ digits, text = digits ++ rest ∧ IsNumeral digits number ∧
        digits.length ≤ atMost ∧
        (digits.length < atMost → NoDigitFirst rest) := by
  constructor
  · intro read
    simp only [digits?] at read
    generalize taken :
      (text.take atMost).takeWhile Char.isDigit = digits at read
    have isDigit : ∀ character ∈ digits, character.isDigit = true :=
      fun character member => List.mem_takeWhile_imp (taken ▸ member)
    have start : digits <+: text.take atMost := taken ▸ List.takeWhile_prefix _
    have fits : digits.length ≤ atMost :=
      start.length_le.trans (List.length_take_le atMost text)
    have shape : text = digits ++ text.drop digits.length :=
      (List.prefix_iff_eq_append.mp
        (start.trans (List.take_prefix atMost text))).symm
    split at read
    · cases read
    · next nonempty =>
        cases read
        refine ⟨digits, shape, ⟨by simpa using nonempty, isDigit, rfl⟩, fits,
          fun shorter => ?_⟩
        rw [shape, takeWhile_take_append isDigit fits,
          List.append_right_eq_self, Text.takeWhile_take_eq_nil_iff] at taken
        exact taken (Nat.sub_pos_of_lt shorter)
  · rintro ⟨digits, rfl, numeral, fits, stops⟩
    have ended :
        (rest.take (atMost - digits.length)).takeWhile Char.isDigit = [] :=
      Text.takeWhile_take_eq_nil_iff.mpr fun remains =>
        stops (Nat.lt_of_sub_pos remains)
    have taken := takeWhile_take_append numeral.isDigit fits rest
    rw [ended, List.append_nil] at taken
    simp [digits?, taken, numeral.ne_nil, numeral.value]

/-- Digits that use up the width are read, whatever follows them. -/
theorem digits?_zeroPadded {width number : Nat} (positive : 0 < width)
    (fits : number < 10 ^ width) (rest : List Char) :
    digits? width (Text.zeroPadded width number ++ rest) =
      some (number, rest) := by
  have length := Text.length_zeroPadded positive fits
  exact digits?_eq_some_iff.mpr
    ⟨_, rfl, Text.isNumeral_zeroPadded width number, length.le,
      fun shorter => by omega⟩

/-- A year that starts with a digit has no sign. -/
theorem year?_append {digits : List Char} {number : Nat}
    (numeral : IsNumeral digits number) (rest : List Char) :
    year? (digits ++ rest) =
      (digits? 4 (digits ++ rest)).map fun (number, rest) =>
        ((number : Int), rest) := by
  obtain ⟨first, others, rfl⟩ := List.exists_cons_of_ne_nil numeral.ne_nil
  have digit := numeral.isDigit first List.mem_cons_self
  rw [List.cons_append, year?]
  · rintro _ signed
    cases signed
    cases digit
  · rintro _ signed
    cases signed
    cases digit

/-- Reading a year takes an optional sign and digits. -/
theorem exists_of_year? {text rest : List Char} {year : Int}
    (read : year? text = some (year, rest)) :
    ∃ sign digits number,
      text = sign ++ digits ++ rest ∧ IsNumeral digits number ∧
        ∀ character ∈ sign, character = '-' ∨ character = '+' := by
  unfold year? at read
  split at read
  · obtain ⟨⟨number, others⟩, taken, same⟩ := Option.map_eq_some_iff.mp read
    cases same
    obtain ⟨digits, rfl, numeral, -⟩ := digits?_eq_some_iff.mp taken
    exact ⟨['-'], digits, number, rfl, numeral, by simp⟩
  · obtain ⟨⟨number, others⟩, taken, same⟩ := Option.map_eq_some_iff.mp read
    cases same
    obtain ⟨digits, rfl, numeral, -⟩ := digits?_eq_some_iff.mp taken
    exact ⟨['+'], digits, number, rfl, numeral, by simp⟩
  · obtain ⟨⟨number, others⟩, taken, same⟩ := Option.map_eq_some_iff.mp read
    cases same
    obtain ⟨digits, rfl, numeral, -⟩ := digits?_eq_some_iff.mp taken
    exact ⟨[], digits, number, rfl, numeral, by simp⟩

/-! ## Items -/

section Items

variable {reading result : Reading} {items : Layout} {text : List Char}

theorem read_nil_iff :
    read reading [] text = some result ↔ text = [] ∧ reading = result := by
  cases text <;> simp [read]

theorem read_gap :
    read reading (.gap :: items) text =
      read reading items (Text.trimStart text) := by
  rw [read]

theorem read_mark (mark : Char) :
    read reading (.mark mark :: items) (mark :: text) =
      read reading items text := by
  simp [read]

theorem read_mark_iff {mark : Char} :
    read reading (.mark mark :: items) text = some result ↔
      ∃ rest, text = mark :: rest ∧ read reading items rest = some result := by
  cases text with
  | nil => simp [read]
  | cons character rest =>
      by_cases same : character = mark <;> simp [read, same]

theorem read_year_iff :
    read reading (.part .year :: items) text = some result ↔
      ∃ year rest, year? (Text.trimStart text) = some (year, rest) ∧
        read { reading with year := year } items rest = some result := by
  rw [read]
  rcases year? (Text.trimStart text) with _ | ⟨year, rest⟩ <;> simp [and_assoc]

theorem read_part_iff {part : Part} (notYear : part ≠ .year) :
    read reading (.part part :: items) text = some result ↔
      ∃ number rest, digits? 2 (Text.trimStart text) = some (number, rest) ∧
        read (reading.set part number) items rest = some result := by
  rw [read]
  · rcases digits? 2 (Text.trimStart text) with _ | ⟨number, rest⟩ <;>
      simp [and_assoc]
  · exact notYear

end Items

/-- Without a time, the instant is the start of the day. -/
theorem Reading.instant?_date (year : Int) (month day : Nat) :
    ({ year, month, day } : Reading).instant? =
      (Date.of? year month day).map .midnight := by
  simp only [instant?]
  cases Date.of? year month day <;> rfl

end Layout

end SearchPhrase
