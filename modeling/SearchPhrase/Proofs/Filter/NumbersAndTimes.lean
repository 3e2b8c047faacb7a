import SearchPhrase.Proofs.Calendar.DistanceReading
import SearchPhrase.Proofs.Filter.SearchOutcome

/-!
# Numbers and times

A value without a field searches fields of numbers if it has the shape of a
number, and fields of times if it is a time expression.  No value is both.  A
number has a digit, unlike the names of days; it has no blank, unlike a
distance; and it has no mark of a written date but a single hyphen in front,
where a written date has two.

The shape of numbers is stated as a pattern.  Its digits are those of any
script.
-/

namespace SearchPhrase

open Text.Pattern

namespace Numeral

/-! ## The pattern of numbers -/

/-- A sign, which may be absent. -/
def signPattern : Language Char :=
  optional (one fun character => character == '-' || character == '+')

/-- A point and decimal digits, which may be absent together. -/
def fractionPattern : Language Char :=
  optional (one (fun character => character == '.') * repeated decimalDigit)

/-- An optional sign, digits, and optionally a point with further digits. -/
def pattern : Language Char :=
  signPattern * (repeated decimalDigit * fractionPattern)

theorem mem_signPattern {sign : List Char} :
    sign ∈ signPattern ↔ sign = [] ∨ sign = ['-'] ∨ sign = ['+'] := by
  simp [signPattern, mem_optional, mem_one, or_and_right, exists_or]

theorem mem_fractionPattern {ending : List Char} :
    ending ∈ fractionPattern ↔
      ending = [] ∨
        ∃ digits ∈ repeated decimalDigit, ending = '.' :: digits := by
  rw [fractionPattern, mem_optional, Language.mem_mul]
  refine or_congr_right ⟨?_, ?_⟩
  · rintro ⟨_, ⟨point, isPoint, rfl⟩, digits, run, rfl⟩
    exact ⟨digits, run, by rw [beq_iff_eq.mp isPoint]; rfl⟩
  · rintro ⟨digits, run, rfl⟩
    exact ⟨['.'], ⟨'.', rfl, rfl⟩, digits, run, rfl⟩

theorem exists_sign (text : List Char) :
    ∃ sign ∈ signPattern, text = sign ++ (splitSign text).2 := by
  unfold splitSign
  split
  · exact ⟨['-'], mem_signPattern.mpr (by simp), rfl⟩
  · exact ⟨['+'], mem_signPattern.mpr (by simp), rfl⟩
  · exact ⟨[], mem_signPattern.mpr (by simp), rfl⟩

theorem splitSign_append_digits {sign digits : List Char}
    (isSign : sign ∈ signPattern)
    (isRun : digits ∈ repeated decimalDigit) (rest : List Char) :
    (splitSign (sign ++ (digits ++ rest))).2 = digits ++ rest := by
  obtain ⟨nonempty, isDigit⟩ := mem_repeated_one.mp isRun
  obtain ⟨first, others, rfl⟩ := List.exists_cons_of_ne_nil nonempty
  have digit := isDigit first List.mem_cons_self
  rcases mem_signPattern.mp isSign with rfl | rfl | rfl
  · rw [List.nil_append, List.cons_append, splitSign]
    · rintro _ signed
      cases signed
      revert digit
      decide
    · rintro _ signed
      cases signed
      revert digit
      decide
  · rfl
  · rfl

/-- The shape of a number is the pattern. -/
theorem isShapedAsNumber_iff {text : String} :
    isShapedAsNumber text = true ↔ text.toList ∈ pattern := by
  constructor
  · intro shaped
    simp only [isShapedAsNumber, Bool.and_eq_true, isDecimalRun_iff] at shaped
    obtain ⟨run, ending⟩ := shaped
    obtain ⟨sign, isSign, shape⟩ := exists_sign text.toList
    refine ⟨sign, isSign, _, ⟨_, run, _, ?_, List.takeWhile_append_dropWhile⟩,
      shape.symm⟩
    apply mem_fractionPattern.mpr
    split at ending
    · next ended => exact .inl ended
    · next fraction pointed =>
        exact .inr ⟨fraction, isDecimalRun_iff.mp ending, pointed⟩
    · cases ending
  · rintro ⟨sign, isSign, _, ⟨digits, run, ending, isEnding, rfl⟩, shape⟩
    have isDigit := (mem_repeated_one.mp run).2
    simp only [isShapedAsNumber, ← shape, splitSign_append_digits isSign run,
      List.takeWhile_append_of_pos isDigit,
      List.dropWhile_append_of_pos isDigit]
    rcases mem_fractionPattern.mp isEnding with
      rfl | ⟨fraction, fractionRun, rfl⟩
    · simp [isDecimalRun_iff.mpr run]
    · have point : Text.isDecimalDigit '.' = false := by decide
      simp [point, isDecimalRun_iff.mpr run, isDecimalRun_iff.mpr fractionRun]

/-! ## What a number does not have -/

section Number

variable {text : List Char} (number : text ∈ pattern)
include number

theorem exists_decimalDigit_of_mem_pattern :
    ∃ digit ∈ text, Text.isDecimalDigit digit = true := by
  obtain ⟨sign, -, _, ⟨digits, run, ending, -, rfl⟩, rfl⟩ := number
  obtain ⟨nonempty, isDigit⟩ := mem_repeated_one.mp run
  obtain ⟨digit, inside⟩ := List.exists_mem_of_ne_nil digits nonempty
  exact ⟨digit, by simp [inside], isDigit digit inside⟩

/-- A number has a sign at most in front, and else digits and points. -/
theorem exists_sign_of_mem_pattern :
    ∃ sign ∈ signPattern, ∃ rest, text = sign ++ rest ∧
      ∀ character ∈ rest, Text.isDecimalDigit character = true ∨
        character = '.' := by
  obtain ⟨sign, isSign, _, ⟨digits, run, ending, isEnding, rfl⟩, rfl⟩ := number
  refine ⟨sign, isSign, _, rfl, fun character member => ?_⟩
  rcases List.mem_append.mp member with inDigits | inEnding
  · exact .inl ((mem_repeated_one.mp run).2 character inDigits)
  · rcases mem_fractionPattern.mp isEnding with
      rfl | ⟨fraction, fractionRun, rfl⟩
    · cases inEnding
    · rcases List.mem_cons.mp inEnding with point | inFraction
      · exact .inr point
      · exact .inl ((mem_repeated_one.mp fractionRun).2 character inFraction)

theorem classified_of_mem_pattern {character : Char}
    (member : character ∈ text) :
    character = '-' ∨ character = '+' ∨ character = '.' ∨
      Text.isDecimalDigit character = true := by
  obtain ⟨sign, isSign, rest, rfl, isRest⟩ := exists_sign_of_mem_pattern number
  rcases List.mem_append.mp member with inSign | inRest
  · rcases mem_signPattern.mp isSign with rfl | rfl | rfl <;> simp_all
  · rcases isRest character inRest with digit | point <;> simp_all

theorem isBlank_of_mem_pattern {character : Char} (member : character ∈ text) :
    Text.isBlank character = false := by
  rcases classified_of_mem_pattern number member with rfl | rfl | rfl | digit
  · rfl
  · rfl
  · rfl
  · exact Text.isBlank_of_isDecimalDigit digit

theorem count_hyphen_of_mem_pattern : text.count '-' ≤ 1 := by
  obtain ⟨sign, isSign, rest, rfl, isRest⟩ := exists_sign_of_mem_pattern number
  have none : rest.count '-' = 0 := by
    rw [List.count_eq_zero]
    intro inside
    have := isRest '-' inside
    revert this
    decide
  rcases mem_signPattern.mp isSign with rfl | rfl | rfl <;> simp [none]

end Number

end Numeral

/-! ## Numbers are no times -/

/-- A number is no time expression. -/
theorem TimeExpression.ofText?_eq_none_of_number {value : String}
    (number : value.toList ∈ Numeral.pattern) : ofText? value = none := by
  obtain ⟨digit, inside, decimal⟩ :=
    Numeral.exists_decimalDigit_of_mem_pattern number
  have solid : ∀ character ∈ value.toList, Text.isBlank character = false :=
    fun _ => Numeral.isBlank_of_mem_pattern number
  have trimmed : Text.trim value.toList = value.toList :=
    Text.trim_eq_self
      (fun character head => solid character (List.mem_of_mem_head? head))
      fun character last => solid character (List.mem_of_mem_getLast? last)
  have apart : ∀ name ∈ dayNames, digit ∉ name.toList := by
    refine @not_mem_dayName
      (fun letter => letter.toNat < 65 || 122 < letter.toNat) (by decide) _ ?_
    simpa using Text.lt_or_lt_of_isDecimalDigit decimal
  have notDay : dayName? value.toList = none :=
    dayName?_eq_none_of_mem inside apart
      (Text.lowerCase_of_isDecimalDigit decimal)
  have notWeekday : Weekday.ofName? value.toList = none :=
    weekday_eq_none_of_mem inside apart (Text.toLower_of_isDecimalDigit decimal)
  have notDistance : WrittenDistance.ofText? value.toList = none := by
    rw [Option.eq_none_iff_forall_ne_some]
    intro written found
    obtain ⟨blank, between, isBlank⟩ :=
      WrittenDistance.exists_blank_of_ofText? found
    rw [solid blank between] at isBlank
    cases isBlank
  have notDate : written? value.toList = none := by
    by_contra isDate
    rcases hyphens_or_mark_of_written?
        (Option.isSome_iff_ne_none.mpr isDate) with
      hyphens | ⟨mark, listed, inMark⟩
    · have := Numeral.count_hyphen_of_mem_pattern number
      omega
    · have classified := Numeral.classified_of_mem_pattern number inMark
      simp only [List.mem_cons, List.not_mem_nil, or_false] at listed
      rcases listed with rfl | rfl | rfl | rfl <;> revert classified <;> decide
  simp [ofText?, trimmed, notDay, notWeekday, distance?, notDistance, notDate]

theorem TimeExpression.read_eq_none_of_number (reference : Instant)
    {value : String}
    (number : value.toList ∈ Numeral.pattern) :
    read reference value = .ok none := by
  rw [read, ofText?_eq_none_of_number number]

namespace Catalog

variable {catalog : Catalog} {reference : Instant} {value : String}
  {operator : Option Comparison} {fields : List Field}

/-- No field of times is chosen for a number. -/
theorem isTemporal_of_mem_candidates (number : value.toList ∈ Numeral.pattern)
    (found : catalog.candidates reference value operator = .ok fields)
    {field : Field}
    (chosen : field ∈ fields) : field.type.isTemporal = false := by
  rw [Bool.eq_false_iff]
  intro temporal
  obtain ⟨-, -, textual⟩ := (mem_candidates_iff found).mp chosen
  rcases textual with ⟨textual, -⟩ | ⟨numerical, -⟩ | ⟨-, instant, read⟩
  · simp [FieldType.isTemporal_eq, textual] at temporal
  · simp [FieldType.isTemporal_eq, numerical] at temporal
  · rw [TimeExpression.read_eq_none_of_number reference number] at read
    cases read

/-- A field of numbers is chosen only for a number. -/
theorem number_of_mem_candidates
    (found : catalog.candidates reference value operator = .ok fields)
    {field : Field}
    (chosen : field ∈ fields) (numerical : field.type.isNumerical = true) :
    value.toList ∈ Numeral.pattern := by
  obtain ⟨-, -, fits⟩ := (mem_candidates_iff found).mp chosen
  rcases fits with ⟨textual, -⟩ | ⟨-, shaped, -⟩ | ⟨temporal, -⟩
  · simp [FieldType.isNumerical_of_isTextual textual] at numerical
  · exact Numeral.isShapedAsNumber_iff.mp shaped
  · simp [FieldType.isTemporal_eq, numerical] at temporal

/--
A value is never both a number and a time, whatever times are relative to.

A search for a number therefore chooses its default fields without a fault, and
none of them is of times.  No search at all chooses a field of numbers and one
of times.
-/
theorem numbers_are_no_times (reference : Instant) (value : String) :
    (Numeral.isShapedAsNumber value = true ↔ value.toList ∈ Numeral.pattern) ∧
      (value.toList ∈ Numeral.pattern →
        TimeExpression.read reference value = .ok none ∧
          ∀ (catalog : Catalog) (operator : Option Comparison),
            ∃ fields, catalog.candidates reference value operator = .ok fields ∧
              ∀ field ∈ fields, field.type.isTemporal = false) ∧
      ∀ (catalog : Catalog) (operator : Option Comparison)
        (fields : List Field),
        catalog.candidates reference value operator = .ok fields →
          ¬ ((∃ field ∈ fields, field.type.isNumerical = true) ∧
            ∃ field ∈ fields, field.type.isTemporal = true) := by
  refine ⟨Numeral.isShapedAsNumber_iff, fun number => ⟨?_, ?_⟩, ?_⟩
  · exact TimeExpression.read_eq_none_of_number reference number
  · intro catalog operator
    have found :
        ∃ fields, catalog.candidates reference value operator = .ok fields := by
      rw [candidates, TimeExpression.read_eq_none_of_number reference number]
      exact ⟨_, rfl⟩
    obtain ⟨fields, found⟩ := found
    exact ⟨fields, found,
      fun _ chosen => isTemporal_of_mem_candidates number found chosen⟩
  · rintro catalog operator fields found
      ⟨⟨first, firstIn, numerical⟩, second, secondIn, temporal⟩
    have number := number_of_mem_candidates found firstIn numerical
    rw [isTemporal_of_mem_candidates number found secondIn] at temporal
    cases temporal

/--
A number with a sign and with digits of another script is no time.  For a
decimal, a catalog with a default field of each kind offers the field of numbers
only.
-/
theorem numbers_are_no_times_signed :
    "-٢٠٢٤.٥".toList ∈ Numeral.pattern ∧
      TimeExpression.read inventoryDay "-٢٠٢٤.٥" = .ok none ∧
      ∃ (catalog : Catalog) (fields : List Field),
        catalog.candidates inventoryDay "-2024.5" none = .ok fields ∧
          (∃ field ∈ catalog.defaultFields, field.type.isTemporal = true) ∧
          (∃ field ∈ fields, field.type.isNumerical = true) ∧
          ¬ ∃ field ∈ fields, field.type.isTemporal = true := by
  have shaped := numbers_are_no_times inventoryDay "-٢٠٢٤.٥"
  have number := shaped.1.mp (by decide)
  refine ⟨number, (shaped.2.1 number).1, ?_⟩
  let memory : Field := { name := "memory", type := .integer }
  let updated : Field := { name := "updated", type := .timestamp }
  let catalog : Catalog := { fields := [memory, updated] }
  have found :
      catalog.candidates inventoryDay "-2024.5" none = .ok [memory] := rfl
  have searched : updated ∈ catalog.defaultFields :=
    List.mem_cons_of_mem _ List.mem_cons_self
  have offered : ∃ field ∈ [memory], field.type.isNumerical = true :=
    ⟨memory, by simp, rfl⟩
  refine ⟨catalog, [memory], found, ⟨updated, searched, rfl⟩, offered, ?_⟩
  intro temporal
  exact (numbers_are_no_times inventoryDay "-2024.5").2.2 catalog none _ found
    ⟨offered, temporal⟩

end Catalog

end SearchPhrase
