import SearchPhrase.Filter.Parameter
import SearchPhrase.Proofs.Calendar.Reading

/-!
# Reading dates back

The dates and instants that a filter is sent with are written by year, month and
day, with a sign on years that do not have four digits, and by the time on a
clock.  Such a text is not a keyword, a day of the week or a distance, since it
has a hyphen among its first characters other than blanks.  Of the layouts, none
before the one that writes it reads it.  Reading the text therefore gives the
date back, and the instant up to the fraction of its second.
-/

namespace SearchPhrase

/-! ## Texts that name no day -/

/--
A text is no keyword if it has a character that stays as it is and the keyword
has not.
-/
theorem Text.map_ne_of_mem {text : List Char} {mark : Char}
    (member : mark ∈ text)
    {change : Char → Char} (fixed : change mark = mark) {keyword : String}
    (without : mark ∉ keyword.toList) :
    (text.map change == keyword.toList) = false := by
  rw [beq_eq_false_iff_ne]
  intro same
  rw [← same] at without
  exact without (List.mem_map.mpr ⟨mark, member, fixed⟩)

namespace TimeExpression

/-- The keywords that stand for a day. -/
def dayNames : List String :=
  ["today", "yesterday", "tomorrow"] ++
    Weekday.all.flatMap fun weekday => [weekday.name, weekday.shortName]

section Marks

variable {text : List Char} {mark : Char} (member : mark ∈ text)
  (apart : ∀ name ∈ dayNames, mark ∉ name.toList)
include member apart

theorem dayName?_eq_none_of_mem (fixed : Text.lowerCase mark = mark) :
    dayName? text = none := by
  have other {name : String} (listed : name ∈ dayNames) :
      Text.lowersTo text name = false :=
    Text.map_ne_of_mem member fixed (apart name listed)
  unfold dayName?
  rw [other (by decide), other (by decide), other (by decide)]
  rfl

theorem weekday_eq_none_of_mem (fixed : mark.toLower = mark) :
    Weekday.ofName? text = none := by
  have other {name : String} (listed : name ∈ dayNames) :
      Text.equalsIgnoringCase text name = false :=
    Text.map_ne_of_mem member fixed (apart name listed)
  rw [Weekday.ofName?, List.find?_eq_none]
  intro weekday _
  rw [other (by cases weekday <;> decide), other (by cases weekday <;> decide)]
  decide

end Marks

/--
A text with a hyphen that is no distance is read as the date that it writes, if
any.
-/
theorem ofText?_of_hyphen {text : String} (hyphen : '-' ∈ Text.trim text.toList)
    (apart : distance? (Text.trim text.toList) = none) :
    ofText? text = (written? (Text.trim text.toList)).map .literal := by
  have notNumber : (Text.trim text.toList).all Char.isDigit = false :=
    List.all_eq_false.mpr ⟨'-', hyphen, by decide⟩
  have notDay := dayName?_eq_none_of_mem hyphen (by decide) (by decide)
  have notWeekday := weekday_eq_none_of_mem hyphen (by decide) (by decide)
  simp [ofText?, notNumber, notDay, notWeekday, apart]

end TimeExpression

/-! ## Written dates -/

namespace Date

theorem isDigit_or_sign_of_mem_yearCharacters {year : Int} {character : Char}
    (member : character ∈ yearCharacters year) :
    character.isDigit = true ∨ character = '-' ∨ character = '+' := by
  have digits := (Text.isNumeral_zeroPadded 4 year.natAbs).isDigit character
  unfold yearCharacters at member
  split at member
  · rcases List.mem_cons.mp member with rfl | digit
    · exact Or.inr (Or.inl rfl)
    · exact Or.inl (digits digit)
  · split at member
    · exact Or.inl (digits member)
    · rcases List.mem_cons.mp member with rfl | digit
      · exact Or.inr (Or.inr rfl)
      · exact Or.inl (digits digit)

theorem isDigit_or_sign_of_mem {date : Date} {character : Char}
    (member : character ∈ date.characters) :
    character.isDigit = true ∨ character = '-' ∨ character = '+' := by
  simp only [characters, List.append_assoc, List.cons_append, List.mem_append,
    List.mem_cons] at member
  rcases member with year | rfl | month | rfl | day
  · exact isDigit_or_sign_of_mem_yearCharacters year
  · exact Or.inr (Or.inl rfl)
  · exact Or.inl
      ((Text.isNumeral_zeroPadded 2 date.month).isDigit character month)
  · exact Or.inr (Or.inl rfl)
  · exact Or.inl ((Text.isNumeral_zeroPadded 2 date.day).isDigit character day)

theorem isBlank_of_mem_characters {date : Date} {character : Char}
    (member : character ∈ date.characters) :
    Text.isBlank character = false := by
  rcases isDigit_or_sign_of_mem member with digit | rfl | rfl
  · exact Text.isBlank_of_isDigit digit
  · decide
  · decide

theorem hyphen_mem_characters (date : Date) : '-' ∈ date.characters := by
  simp [characters]

theorem characters_ne_nil (date : Date) : date.characters ≠ [] :=
  List.ne_nil_of_mem date.hyphen_mem_characters

theorem month_lt_hundred (date : Date) : date.month < 100 := by
  have := date.month_mem
  omega

theorem day_lt_hundred (date : Date) : date.day < 100 := by
  have upper := date.day_mem.2
  have longest : daysInMonth date.year date.month ≤ 31 := by
    unfold daysInMonth
    split
    · split <;> decide
    all_goals decide
  omega

end Date

namespace Layout

/-! ## Reading a written date -/

/--
All the digits before a hyphen are read where the width allows any number of
them.
-/
theorem digits?_before_hyphen (number : Nat) (rest : List Char) :
    digits? (Text.zeroPadded 4 number ++ '-' :: rest).length
        (Text.zeroPadded 4 number ++ '-' :: rest) =
      some (number, '-' :: rest) := by
  refine digits?_eq_some_iff.mpr
    ⟨_, rfl, Text.isNumeral_zeroPadded 4 number, by simp, ?_⟩
  exact fun _ => Text.noDigitFirst_hyphen rest

/--
A written year is read back before a hyphen, with its sign and all its digits.
-/
theorem year?_yearCharacters (year : Int) (rest : List Char) :
    year? (Date.yearCharacters year ++ '-' :: rest) =
      some (year, '-' :: rest) := by
  unfold Date.yearCharacters
  split
  · next negative =>
      rw [List.cons_append, year?, digits?_before_hyphen]
      simp only [Option.map_some]
      rw [show -(year.natAbs : Int) = year by omega]
  · next notNegative =>
      have whole : (year.natAbs : Int) = year := by omega
      split
      · next small =>
          have fits : year.natAbs < 10 ^ 4 := by omega
          rw [year?_append (Text.isNumeral_zeroPadded 4 year.natAbs),
            digits?_zeroPadded (by decide) fits]
          simp [whole]
      · rw [List.cons_append, year?, digits?_before_hyphen]
        simp [whole]

theorem trimStart_yearCharacters (year : Int) (rest : List Char) :
    Text.trimStart (Date.yearCharacters year ++ rest) =
      Date.yearCharacters year ++ rest := by
  have unsigned :=
    (Text.isNumeral_zeroPadded 4 year.natAbs).trimStart_append rest
  unfold Date.yearCharacters
  split
  · exact Text.trimStart_cons (by decide) _
  · split
    · exact unsigned
    · exact Text.trimStart_cons (by decide) _

/-- A number of two digits is read back, whatever follows it. -/
theorem read_zeroPadded {part : Part} (notYear : part ≠ .year) {number : Nat}
    (fits : number < 100) (reading : Reading) (items : Layout)
    (rest : List Char) :
    read reading (.part part :: items) (Text.zeroPadded 2 number ++ rest) =
      read (reading.set part number) items rest := by
  have numeral := Text.isNumeral_zeroPadded 2 number
  rw [read, numeral.trimStart_append, digits?_zeroPadded (by decide) fits]
  exact notYear

/-- The numbers of a date, with a time that is still to be read. -/
def Reading.ofDate (date : Date) : Reading where
  year := date.year
  month := date.month
  day := date.day

theorem Reading.instant?_ofDate (date : Date) :
    (Reading.ofDate date).instant? = some (.midnight date) := by
  rw [ofDate, instant?_date, Date.of?_self, Option.map_some]

/--
A written date is read back by year, month and day, and then what follows it.
-/
theorem read_yearFirst_characters (date : Date) (items : Layout)
    (rest : List Char) :
    read {} (yearFirst '-' ++ items) (date.characters ++ rest) =
      read (.ofDate date) items rest := by
  simp only [yearFirst, Date.characters, List.cons_append, List.append_assoc,
    List.nil_append]
  rw [read, trimStart_yearCharacters, year?_yearCharacters]
  simp only [read_mark]
  rw [read_zeroPadded (by decide) date.month_lt_hundred, read_mark,
    read_zeroPadded (by decide) date.day_lt_hundred]
  rfl

/-- A date that is written with hyphens is not read with another mark. -/
theorem read_yearFirst_of_ne {mark : Char} (other : mark ≠ '-') (date : Date)
    (items : Layout) (rest : List Char) :
    read {} (yearFirst mark ++ items) (date.characters ++ rest) = none := by
  simp only [yearFirst, Date.characters, List.cons_append, List.append_assoc,
    List.nil_append]
  rw [read, trimStart_yearCharacters, year?_yearCharacters]
  simp [read, other.symm]

/-- The time on a clock is read back. -/
theorem read_hourMinuteSecond {hour minute second : Nat} (hourFits : hour < 100)
    (minuteFits : minute < 100) (secondFits : second < 100)
    (reading : Reading) :
    read reading hourMinuteSecond
        (Text.zeroPadded 2 hour ++ ':' :: Text.zeroPadded 2 minute ++
          ':' :: Text.zeroPadded 2 second) =
      some
        { reading with hour := hour, minute := minute, second := second } := by
  simp only [hourMinuteSecond, hourMinute, List.cons_append, List.append_assoc,
    List.nil_append]
  rw [read_zeroPadded (by decide) hourFits, read_mark,
    read_zeroPadded (by decide) minuteFits, read_mark,
    ← List.append_nil (Text.zeroPadded 2 second),
    read_zeroPadded (by decide) secondFits, read]
  rfl

end Layout

namespace Instant

/--
The start of the second of an instant; that of a leap second is in the leap
second.
-/
def wholeSecond (instant : Instant) : Instant where
  date := instant.date
  second := instant.second
  nanosecond := if instant.isLeap then nanosecondsPerSecond else 0
  second_lt := instant.second_lt
  nanosecond_lt := by split <;> decide
  leap_second := by
    intro leap
    split at leap
    · next inLeap => exact instant.leap_second (of_decide_eq_true inLeap)
    · cases leap

@[simp]
theorem of?_self (instant : Instant) :
    of? instant.date instant.second instant.nanosecond = some instant := by
  rw [of?,
    dif_pos ⟨instant.second_lt, instant.nanosecond_lt, instant.leap_second⟩]

/--
The second that a clock shows: the leap second of a minute is its second 60.
-/
def clockSecond (instant : Instant) : Nat :=
  instant.second % 60 + if instant.isLeap then 1 else 0

/-- The time that a clock shows. -/
def clock (instant : Instant) : List Char :=
  Text.zeroPadded 2 (instant.second / 3600) ++
    ':' :: Text.zeroPadded 2 (instant.second / 60 % 60) ++
    ':' :: Text.zeroPadded 2 instant.clockSecond

theorem isBlank_of_mem_clock {instant : Instant} {character : Char}
    (member : character ∈ instant.clock) : Text.isBlank character = false := by
  have digit (number : Nat) (inNumber : character ∈ Text.zeroPadded 2 number) :
      Text.isBlank character = false :=
    Text.isBlank_of_isDigit
      ((Text.isNumeral_zeroPadded 2 number).isDigit character inNumber)
  simp only [clock, List.append_assoc, List.cons_append, List.mem_append,
    List.mem_cons] at member
  rcases member with hour | rfl | minute | rfl | second
  · exact digit _ hour
  · decide
  · exact digit _ minute
  · decide
  · exact digit _ second

theorem clock_ne_nil (instant : Instant) : instant.clock ≠ [] := by
  simp [clock]

theorem characters_eq (instant : Instant) :
    instant.characters = instant.date.characters ++ ' ' :: instant.clock := by
  simp [characters, clock, clockSecond]

/-- The time on the clock of an instant is that of the start of its second. -/
theorem ofClock?_eq_wholeSecond (instant : Instant) :
    ofClock? instant.date (instant.second / 3600) (instant.second / 60 % 60)
        instant.clockSecond 0 =
      some instant.wholeSecond := by
  have inDay : instant.second < 86400 := instant.second_lt
  have onClock := of?_self instant.wholeSecond
  by_cases inLeap : instant.isLeap = true
  · have last : instant.second % 60 = 59 :=
      instant.leap_second (of_decide_eq_true inLeap)
    have total :
        3600 * (instant.second / 3600) + 60 * (instant.second / 60 % 60) + 59 =
          instant.second := by omega
    simpa [ofClock?, wholeSecond, clockSecond, inLeap, last, total,
      show instant.second / 3600 < 24 by omega,
      show instant.second / 60 % 60 < 60 by omega] using onClock
  · have total :
        3600 * (instant.second / 3600) + 60 * (instant.second / 60 % 60) +
          instant.second % 60 = instant.second := by omega
    simpa [ofClock?, wholeSecond, clockSecond, inLeap, total,
      show instant.second / 3600 < 24 by omega,
      show instant.second / 60 % 60 < 60 by omega,
      show instant.second % 60 ≤ 60 by omega,
      show instant.second % 60 ≠ 60 by omega] using onClock

end Instant

namespace TimeExpression

/-! ## Texts that start with a written date -/

/--
A written date that blanks may follow is no distance, since its first word has a
hyphen.
-/
theorem distance?_characters (date : Date) {rest : List Char}
    (separate : ∀ character ∈ rest.head?, Text.isBlank character = true) :
    distance? (date.characters ++ rest) = none := by
  have word : Text.words date.characters = [date.characters] :=
    Text.words_eq_singleton date.characters_ne_nil fun _ =>
      Date.isBlank_of_mem_characters
  have hyphenated : Text.isDecimalRun date.characters = false := by
    have notDigit : Text.isDecimalDigit '-' = false := by decide
    simp only [Text.isDecimalRun, Bool.and_eq_false_iff, List.all_eq_false]
    exact Or.inr ⟨'-', date.hyphen_mem_characters, by simp [notDigit]⟩
  have unwritten :
      WrittenDistance.ofText? (date.characters ++ rest) = none := by
    unfold WrittenDistance.ofText?
    cases rest with
    | nil => rw [List.append_nil, word]
    | cons blank rest =>
        rw [Text.words_append_blank _ (separate blank rfl), word]
        cases Text.words rest <;> simp [hyphenated]
  rw [distance?, unwritten]

/-- A text that starts with a written date is read as what it writes. -/
theorem ofText?_characters (date : Date) {rest : List Char}
    (separate : ∀ character ∈ rest.head?, Text.isBlank character = true)
    (solid : ∀ character ∈ rest.getLast?, Text.isBlank character = false) :
    ofText? (String.ofList (date.characters ++ rest)) =
      (written? (date.characters ++ rest)).map .literal := by
  have hyphen : '-' ∈ date.characters ++ rest :=
    List.mem_append_left rest date.hyphen_mem_characters
  have trimmed :
      Text.trim (date.characters ++ rest) = date.characters ++ rest := by
    apply Text.trim_eq_self
    · intro character first
      obtain ⟨head, others, shape⟩ :=
        List.exists_cons_of_ne_nil date.characters_ne_nil
      rw [shape, List.cons_append, List.head?_cons,
        Option.mem_some_iff] at first
      rw [← first]
      exact Date.isBlank_of_mem_characters (shape ▸ List.mem_cons_self)
    · intro character last
      rw [List.getLast?_append] at last
      cases ended : rest.getLast? with
      | none =>
          rw [ended, Option.none_or] at last
          exact Date.isBlank_of_mem_characters (List.mem_of_mem_getLast? last)
      | some final =>
          rw [ended, Option.some_or, Option.mem_some_iff] at last
          exact solid character (ended.trans (congrArg some last))
  rw [ofText?_of_hyphen, String.toList_ofList, trimmed]
  · rwa [String.toList_ofList, trimmed]
  · rw [String.toList_ofList, trimmed]
    exact distance?_characters date separate

/--
A date is read by year, month and day, after the layouts with a time did not
fit.
-/
theorem written?_date (date : Date) :
    written? date.characters = some (.midnight date) := by
  have hyphens (items : Layout) :
      Layout.read {} (Layout.yearFirst '-' ++ items) date.characters =
        Layout.read (.ofDate date) items [] := by
    simpa using Layout.read_yearFirst_characters date items []
  have slashes (items : Layout) :
      Layout.read {} (Layout.yearFirst '/' ++ items) date.characters =
        none := by
    simpa using Layout.read_yearFirst_of_ne (by decide) date items []
  have dateOnly :
      Layout.read {} (Layout.yearFirst '-') date.characters =
        some (.ofDate date) := by
    simpa [Layout.read] using hyphens []
  have spacedTime :
      Layout.read (.ofDate date) (.gap :: Layout.hourMinute) [] = none := rfl
  have spacedSecond :
      Layout.read (.ofDate date) (.gap :: Layout.hourMinuteSecond) [] = none :=
    rfl
  have markedTime (time : Layout) :
      Layout.read (.ofDate date) (.mark 'T' :: time) [] = none := rfl
  simp only [written?, Layout.all, List.findSome?_cons, Layout.instant?,
    hyphens, slashes, dateOnly, spacedTime, spacedSecond, markedTime,
    Layout.Reading.instant?_ofDate]

/-- An instant is read by the first layout. -/
theorem written?_instant (instant : Instant) :
    written? instant.characters = some instant.wholeSecond := by
  have inDay : instant.second < 86400 := instant.second_lt
  have secondFits : instant.clockSecond < 100 := by
    unfold Instant.clockSecond
    split <;> omega
  have unspaced : Text.trimStart (' ' :: instant.clock) = instant.clock := by
    rw [Text.trimStart_blank (by decide)]
    exact Text.trimStart_eq_self fun character first =>
      Instant.isBlank_of_mem_clock (List.mem_of_mem_head? first)
  have timed :=
    Layout.read_hourMinuteSecond (show instant.second / 3600 < 100 by omega)
      (show instant.second / 60 % 60 < 100 by omega) secondFits
      (.ofDate instant.date)
  have first :
      Layout.instant? (Layout.yearFirst '-' ++ .gap :: Layout.hourMinuteSecond)
        instant.characters = some instant.wholeSecond := by
    rw [Layout.instant?, Instant.characters_eq,
      Layout.read_yearFirst_characters, Layout.read_gap, unspaced,
      Instant.clock, timed]
    simp only [Layout.Reading.instant?, Layout.Reading.ofDate, Date.of?_self,
      Instant.ofClock?_eq_wholeSecond]
  rw [written?, Layout.all, List.findSome?_cons, first]

/--
What a filter is sent with is read back, whatever times are relative to: a date
as the start of its day, and an instant as the start of its second, where a leap
second stays one.
-/
theorem read_literal (reference : Instant) :
    (∀ date, read reference (Parameter.date date).literal =
      .ok (some (.midnight date))) ∧
      ∀ instant, read reference (Parameter.timestamp instant).literal =
        .ok (some instant.wholeSecond) := by
  constructor
  · intro date
    have written : ofText? (String.ofList (date.characters ++ [])) = _ :=
      ofText?_characters date (by simp) (by simp)
    rw [List.append_nil, written?_date, Option.map_some] at written
    rw [Parameter.literal, Date.render, read, written]
    rfl
  · intro instant
    have solid :
        ∀ character ∈ (' ' :: instant.clock).getLast?,
          Text.isBlank character = false := by
      intro character last
      rw [List.getLast?_cons_of_ne_nil instant.clock_ne_nil] at last
      exact Instant.isBlank_of_mem_clock (List.mem_of_mem_getLast? last)
    have separate :
        ∀ character ∈ (' ' :: instant.clock).head?,
          Text.isBlank character = true := by
      simp [Text.isBlank]
    have written := ofText?_characters instant.date separate solid
    rw [← Instant.characters_eq, written?_instant, Option.map_some] at written
    rw [Parameter.literal, Instant.render, read, written]
    rfl

end TimeExpression

end SearchPhrase
