import Mathlib.Data.List.Perm.Basic
import SearchPhrase.Proofs.Calendar.Reading

/-!
# Texts that two forms read

A written date is read by the first of ten forms that fits: nine layouts and the
timestamp.  The order of the forms matters only for texts that two of them read
as different instants.  This module says which texts these are.

The forms are told apart by counting: a mark such as `:` that is neither a
digit, a blank nor a sign occurs in a text as often as in the layout that reads
it.  The counts are equal only for the two orders of a date with hyphens, and
both orders read a text exactly if it has three numbers of one or two digits.
-/

namespace SearchPhrase

/-- A form of written dates: a layout, or the timestamp. -/
inductive WrittenForm where
  | layout (layout : Layout)
  | timestamp
deriving DecidableEq, Repr

namespace WrittenForm

/-- The forms in the order in which they are tried. -/
def all : List WrittenForm :=
  Layout.all.map .layout ++ [.timestamp]

/-- The instant that a text writes in one form. -/
def instant? : WrittenForm → List Char → Option Instant
  | .layout items, text => items.instant? text
  | .timestamp, text => Timestamp.instant? text

/-- Dates with the year in front and hyphens. -/
def yearFirst : WrittenForm :=
  .layout (Layout.yearFirst '-')

/-- Dates with the day in front and hyphens. -/
def dayFirst : WrittenForm :=
  .layout Layout.dayFirst

/-- Two forms read a text as different instants. -/
def Ambiguous (text : List Char) : Prop :=
  ∃ left ∈ all, ∃ right ∈ all,
    (left.instant? text).isSome ∧ (right.instant? text).isSome ∧
      left.instant? text ≠ right.instant? text

theorem written?_eq_findSome? (text : List Char) :
    TimeExpression.written? text =
      all.findSome? fun form => form.instant? text := by
  simp only [TimeExpression.written?, all, List.findSome?_append,
    List.findSome?_map, List.findSome?_singleton]
  change _ = (Layout.all.findSome? fun layout => layout.instant? text).or
    (Timestamp.instant? text)
  cases Layout.all.findSome? fun layout => layout.instant? text <;> rfl

end WrittenForm

/-! ## Counting separators -/

namespace Layout

/-- A character that no number, blank or sign of a date has. -/
structure IsSeparator (character : Char) : Prop where
  solid : Text.isBlank character = false
  notDigit : character.isDigit = false
  notMinus : character ≠ '-'
  notPlus : character ≠ '+'

/-- The separators by which the layouts are told apart. -/
def separators : List Char :=
  ['/', 'T', ':', 'Z', 'z']

section Counting

variable {separator : Char}

theorem isSeparator_of_mem (member : separator ∈ separators) :
    IsSeparator separator := by
  simp only [separators, List.mem_cons, List.not_mem_nil, or_false] at member
  rcases member with rfl | rfl | rfl | rfl | rfl <;> constructor <;> decide

theorem count_trimStart (apart : IsSeparator separator) (text : List Char) :
    (Text.trimStart text).count separator = text.count separator := by
  obtain ⟨blanks, shape, isBlank⟩ := Text.exists_blanks text
  have absent : separator ∉ blanks := fun inside =>
    absurd (isBlank separator inside) (by simp [apart.solid])
  conv_rhs =>
    rw [shape, List.count_append, List.count_eq_zero_of_not_mem absent,
      Nat.zero_add]

theorem count_numeral (apart : IsSeparator separator)
    {digits : List Char} {number : Nat}
    (numeral : Text.IsNumeral digits number) : digits.count separator = 0 :=
  List.count_eq_zero_of_not_mem fun inside =>
    absurd (numeral.isDigit separator inside) (by simp [apart.notDigit])

theorem count_of_digits? (apart : IsSeparator separator) {atMost number : Nat}
    {text rest : List Char} (read : digits? atMost text = some (number, rest)) :
    text.count separator = rest.count separator := by
  obtain ⟨digits, rfl, numeral, -⟩ := digits?_eq_some_iff.mp read
  simp [count_numeral apart numeral]

theorem count_of_year? (apart : IsSeparator separator)
    {text rest : List Char} {year : Int}
    (read : year? text = some (year, rest)) :
    text.count separator = rest.count separator := by
  obtain ⟨sign, digits, number, rfl, numeral, isSign⟩ := exists_of_year? read
  have absent : separator ∉ sign := by
    intro inside
    exact (isSign separator inside).elim apart.notMinus apart.notPlus
  simp [count_numeral apart numeral, List.count_eq_zero_of_not_mem absent]

/--
A layout reads only texts that have each separator as often as the layout.
-/
theorem count_of_read (apart : IsSeparator separator) {layout : Layout} :
    ∀ {reading result : Reading} {text : List Char},
      read reading layout text = some result →
        text.count separator = layout.count (.mark separator) := by
  induction layout with
  | nil =>
      intro reading result text accepted
      simp [(read_nil_iff.mp accepted).1]
  | cons item items ih =>
      intro reading result text accepted
      cases item with
      | gap =>
          rw [read_gap] at accepted
          rw [← count_trimStart apart, ih accepted]
          simp
      | mark character =>
          obtain ⟨rest, rfl, remaining⟩ := read_mark_iff.mp accepted
          rw [List.count_cons, List.count_cons, ih remaining]
          simp
      | part part =>
          have skipped : items.count (.mark separator) =
              ((.part part :: items : Layout)).count (.mark separator) := by
            simp
          by_cases isYear : part = .year
          · subst isYear
            obtain ⟨year, rest, taken, remaining⟩ := read_year_iff.mp accepted
            rw [← count_trimStart apart, count_of_year? apart taken,
              ih remaining, skipped]
          · obtain ⟨number, rest, taken, remaining⟩ :=
              (read_part_iff isYear).mp accepted
            rw [← count_trimStart apart, count_of_digits? apart taken,
              ih remaining, skipped]

end Counting

/--
The layouts with the same separators are the two orders of a date with hyphens.
-/
theorem eq_or_reversed_of_count_eq :
    ∀ left ∈ all, ∀ right ∈ all,
      separators.map (fun separator => left.count (.mark separator)) =
        separators.map (fun separator => right.count (.mark separator)) →
      left = right ∨ (left = yearFirst '-' ∧ right = dayFirst) ∨
        (left = dayFirst ∧ right = yearFirst '-') := by
  decide

theorem separators_of_mem_all :
    ∀ layout ∈ all, layout.count (.mark 'Z') = 0 ∧
      layout.count (.mark 'z') = 0 ∧
      layout.count (.mark ':') ≤ 2 := by
  decide

theorem exists_read_of_instant? {layout : Layout} {text : List Char}
    (accepted : (layout.instant? text).isSome) :
    ∃ reading, read {} layout text = some reading := by
  unfold instant? at accepted
  split at accepted
  · next reading taken => exact ⟨reading, taken⟩
  · cases accepted

end Layout

namespace Timestamp

section Counting

variable {text rest : List Char}

theorem suffix_of_digits? {count number : Nat}
    (read : digits? count text = some (number, rest)) :
    rest <:+ text := by
  simp only [digits?] at read
  split at read
  · cases read
    exact List.drop_suffix _ _
  · cases read

theorem eq_cons_of_mark? {allowed : List Char}
    (read : mark? allowed text = some rest) :
    ∃ character ∈ allowed, text = character :: rest := by
  cases text with
  | nil => cases read
  | cons character others =>
      simp only [mark?, Option.ite_none_right_eq_some,
        Option.some.injEq] at read
      obtain ⟨member, rfl⟩ := read
      exact ⟨character, by simpa using member, rfl⟩

theorem suffix_of_mark? {allowed : List Char}
    (read : mark? allowed text = some rest) :
    rest <:+ text := by
  obtain ⟨character, -, rfl⟩ := eq_cons_of_mark? read
  exact List.suffix_cons character rest

theorem count_of_mark? {mark : Char} (read : mark? [mark] text = some rest) :
    text.count mark = rest.count mark + 1 := by
  obtain ⟨character, member, rfl⟩ := eq_cons_of_mark? read
  simp [List.mem_singleton.mp member]

/-- Three numbers have two marks between them. -/
theorem count_of_triple? {width : Nat} {mark : Char} {numbers : Nat × Nat × Nat}
    (read : triple? width mark text = some (numbers, rest)) :
    rest <:+ text ∧ rest.count mark + 2 ≤ text.count mark := by
  simp only [triple?, Option.bind_eq_bind, Option.bind_eq_some_iff, Prod.exists,
    Option.pure_def, Option.some.injEq, Prod.mk.injEq] at read
  obtain ⟨_, afterFirst, first, beforeSecond, firstMark, _, afterSecond, second,
    beforeThird, secondMark, _, _, third, -, rfl⟩ := read
  have firstSuffix := suffix_of_digits? first
  have secondSuffix := suffix_of_digits? second
  have thirdSuffix := suffix_of_digits? third
  refine ⟨thirdSuffix.trans <| (suffix_of_mark? secondMark).trans <|
    secondSuffix.trans <| (suffix_of_mark? firstMark).trans firstSuffix, ?_⟩
  have firstCount := count_of_mark? firstMark
  have secondCount := count_of_mark? secondMark
  have firstLe := firstSuffix.sublist.count_le mark
  have secondLe := secondSuffix.sublist.count_le mark
  have thirdLe := thirdSuffix.sublist.count_le mark
  omega

theorem suffix_of_nanoseconds? {number : Nat}
    (read : nanoseconds? text = some (number, rest)) :
    rest <:+ text := by
  unfold nanoseconds? at read
  split at read
  · simp only [Option.ite_none_left_eq_some, Option.some.injEq,
      Prod.mk.injEq] at read
    obtain ⟨-, -, rfl⟩ := read
    exact (List.dropWhile_suffix _).trans (List.suffix_cons _ _)
  · cases read
    exact List.suffix_refl _

theorem separator_of_isZone (zone : isZone text = true) :
    'Z' ∈ text ∨ 'z' ∈ text ∨ ':' ∈ text := by
  unfold isZone at zone
  split at zone
  · simp
  · simp
  · simp only [Option.bind_eq_bind, Option.pure_def] at zone
    have found := (Option.getD_eq_iff.mp zone).resolve_right (by simp)
    simp only [Option.bind_eq_some_iff, Prod.exists] at found
    obtain ⟨afterSign, sign, _, afterHours, hours, beforeMinutes, mark, -⟩ :=
      found
    have inside : ':' ∈ afterHours := by
      obtain ⟨character, member, rfl⟩ := eq_cons_of_mark? mark
      simp [List.mem_singleton.mp member]
    exact .inr <| .inr <| (suffix_of_mark? sign).subset <|
      (suffix_of_digits? hours).subset inside

/--
A timestamp has a separator that no layout has, or more colons than any layout:
two of the time and one of the zone.
-/
theorem separator_of_instant? (accepted : (instant? text).isSome) :
    'Z' ∈ text ∨ 'z' ∈ text ∨ 3 ≤ text.count ':' := by
  obtain ⟨instant, found⟩ := Option.isSome_iff_exists.mp accepted
  simp only [instant?, Option.bind_eq_bind, Option.bind_eq_some_iff,
    Prod.exists, Option.ite_none_right_eq_some] at found
  obtain ⟨_, _, _, afterDate, date, beforeTime, mark, _, _, _, afterTime, time,
    _, zone, fraction, _, -, _, -, isZone, -⟩ := found
  have timeSuffix : beforeTime <:+ text :=
    (suffix_of_mark? mark).trans (count_of_triple? date).1
  have zoneSuffix : zone <:+ afterTime := suffix_of_nanoseconds? fraction
  have zoneInside : zone <:+ text :=
    zoneSuffix.trans ((count_of_triple? time).1.trans timeSuffix)
  rcases separator_of_isZone isZone with upper | lower | colon
  · exact .inl (zoneInside.subset upper)
  · exact .inr (.inl (zoneInside.subset lower))
  · have inZone : 1 ≤ zone.count ':' := List.count_pos_iff.mpr colon
    have inTime := (count_of_triple? time).2
    have zoneLe := zoneSuffix.sublist.count_le ':'
    have timeLe := timeSuffix.sublist.count_le ':'
    exact .inr (.inr (by omega))

end Counting

end Timestamp

/-! ## Dates with three short numbers -/

/-- A number of one or two digits, with blanks allowed in front of it. -/
def Text.ShortNumber (written : List Char) (number : Nat) : Prop :=
  ∃ blanks digits,
    written = blanks ++ digits ∧ (∀ blank ∈ blanks, isBlank blank = true) ∧
      IsNumeral digits number ∧ digits.length ≤ 2

/-- Three short numbers with hyphens between them. -/
def Text.ShortDate (first second third : Nat) (text : List Char) : Prop :=
  ∃ before between after, text = before ++ '-' :: (between ++ '-' :: after) ∧
    ShortNumber before first ∧ ShortNumber between second ∧
    ShortNumber after third

namespace Layout

open Text (ShortNumber ShortDate NoDigitFirst)

variable {first second third : Nat} {text : List Char}

theorem exists_shortNumber_of_digits? {number : Nat} {rest : List Char}
    (read : digits? 2 (Text.trimStart text) = some (number, rest)) :
    ∃ written, text = written ++ rest ∧ ShortNumber written number := by
  obtain ⟨blanks, shape, isBlank⟩ := Text.exists_blanks text
  obtain ⟨digits, taken, numeral, fits, -⟩ := digits?_eq_some_iff.mp read
  refine ⟨blanks ++ digits, ?_, ⟨blanks, digits, rfl, isBlank, numeral, fits⟩⟩
  rw [List.append_assoc, ← taken, ← shape]

theorem digits?_shortNumber {written : List Char} {number : Nat}
    (short : ShortNumber written number) {atMost : Nat} (wide : 2 ≤ atMost)
    {rest : List Char} (stops : NoDigitFirst rest) :
    digits? atMost (Text.trimStart (written ++ rest)) =
      some (number, rest) := by
  obtain ⟨blanks, digits, rfl, isBlank, numeral, fits⟩ := short
  rw [List.append_assoc, Text.trimStart_append isBlank,
    numeral.trimStart_append]
  exact digits?_eq_some_iff.mpr
    ⟨digits, rfl, numeral, fits.trans wide, fun _ => stops⟩

theorem year?_shortNumber {written : List Char} {number : Nat}
    (short : ShortNumber written number) {rest : List Char}
    (stops : NoDigitFirst rest) :
    year? (Text.trimStart (written ++ rest)) = some ((number : Int), rest) := by
  have unsigned := digits?_shortNumber short (by decide : 2 ≤ 4) stops
  obtain ⟨blanks, digits, rfl, isBlank, numeral, -⟩ := short
  rw [List.append_assoc, Text.trimStart_append isBlank,
    numeral.trimStart_append] at unsigned ⊢
  rw [year?_append numeral, unsigned]
  rfl

/-- A short date is read in both orders. -/
theorem read_shortDate (short : ShortDate first second third text) :
    read {} (yearFirst '-') text =
      some { year := first, month := second, day := third } ∧
      read {} dayFirst text =
        some { year := third, month := second, day := first } := by
  obtain ⟨before, between, after, rfl, firstShort, secondShort, thirdShort⟩ :=
    short
  have atEnd := Text.noDigitFirst_nil
  have lastDay := digits?_shortNumber thirdShort (le_refl 2) atEnd
  have lastYear := year?_shortNumber thirdShort atEnd
  rw [List.append_nil] at lastDay lastYear
  constructor
  · simp [yearFirst, read,
      year?_shortNumber firstShort (Text.noDigitFirst_hyphen _),
      digits?_shortNumber secondShort (le_refl 2) (Text.noDigitFirst_hyphen _),
      lastDay, Reading.set]
  · simp [dayFirst, read,
      digits?_shortNumber firstShort (le_refl 2) (Text.noDigitFirst_hyphen _),
      digits?_shortNumber secondShort (le_refl 2) (Text.noDigitFirst_hyphen _),
      lastYear, Reading.set]

/--
Only short dates are read in both orders.  The day in front bounds the first
number, and the day at the end bounds the last one.
-/
theorem exists_shortDate_of_read {left right : Reading}
    (yearRead : read {} (yearFirst '-') text = some left)
    (dayRead : read {} dayFirst text = some right) :
    ∃ first second third, ShortDate first second third text := by
  obtain ⟨first, _, firstTaken, afterFirst⟩ :=
    (read_part_iff (by decide)).mp dayRead
  obtain ⟨_, rfl, fromSecond⟩ := read_mark_iff.mp afterFirst
  obtain ⟨second, _, secondTaken, afterSecond⟩ :=
    (read_part_iff (by decide)).mp fromSecond
  obtain ⟨last, rfl, -⟩ := read_mark_iff.mp afterSecond
  obtain ⟨before, rfl, firstShort⟩ := exists_shortNumber_of_digits? firstTaken
  obtain ⟨between, rfl, secondShort⟩ :=
    exists_shortNumber_of_digits? secondTaken
  rw [yearFirst, read,
    year?_shortNumber firstShort (Text.noDigitFirst_hyphen _)] at yearRead
  simp only [read_mark] at yearRead
  obtain ⟨_, _, taken, afterMonth⟩ := (read_part_iff (by decide)).mp yearRead
  rw [digits?_shortNumber secondShort (le_refl 2) (Text.noDigitFirst_hyphen _)]
    at taken
  cases taken
  rw [read_mark] at afterMonth
  obtain ⟨third, rest, thirdTaken, ended⟩ :=
    (read_part_iff (by decide)).mp afterMonth
  obtain ⟨after, rfl, thirdShort⟩ := exists_shortNumber_of_digits? thirdTaken
  obtain ⟨rfl, -⟩ := read_nil_iff.mp ended
  exact ⟨first, second, third, before, between, after, by simp, firstShort,
    secondShort, thirdShort⟩

theorem instant?_shortDate (short : ShortDate first second third text) :
    instant? (yearFirst '-') text =
      (Date.of? first second third).map .midnight ∧
      instant? dayFirst text = (Date.of? third second first).map .midnight := by
  obtain ⟨yearRead, dayRead⟩ := read_shortDate short
  simp [instant?, yearRead, dayRead, Reading.instant?_date]

end Layout

/-! ## Trying the forms in another order -/

theorem Date.year_of_of? {year : Int} {month day : Nat} {date : Date}
    (valid : Date.of? year month day = some date) : date.year = year := by
  unfold Date.of? at valid
  split at valid
  · cases valid
    rfl
  · cases valid

namespace WrittenForm

variable {text : List Char}

theorem mem_all_iff {form : WrittenForm} :
    form ∈ all ↔
      (∃ items ∈ Layout.all, form = .layout items) ∨ form = .timestamp := by
  simp [all, eq_comm]

theorem nodup_all : all.Nodup := by
  decide

/-- No layout reads a timestamp. -/
theorem not_timestamp_of_layout {items : Layout} (member : items ∈ Layout.all)
    (accepted : (items.instant? text).isSome) :
    ¬ (Timestamp.instant? text).isSome := by
  intro timestamp
  obtain ⟨reading, taken⟩ := Layout.exists_read_of_instant? accepted
  obtain ⟨upper, lower, colons⟩ := Layout.separators_of_mem_all items member
  rw [← Layout.count_of_read (Layout.isSeparator_of_mem (by decide)) taken]
    at upper lower colons
  rcases Timestamp.separator_of_instant? timestamp with inside | inside | more
  · exact List.count_eq_zero.mp upper inside
  · exact List.count_eq_zero.mp lower inside
  · omega

/--
Two forms that read a text are the same, or they are the two orders of a date.
-/
theorem eq_or_reversed {left right : WrittenForm} (leftMember : left ∈ all)
    (rightMember : right ∈ all) (leftAccepts : (left.instant? text).isSome)
    (rightAccepts : (right.instant? text).isSome) :
    left = right ∨ (left = yearFirst ∧ right = dayFirst) ∨
      (left = dayFirst ∧ right = yearFirst) := by
  rcases mem_all_iff.mp leftMember with ⟨leftItems, leftIn, rfl⟩ | rfl <;>
    rcases mem_all_iff.mp rightMember with ⟨rightItems, rightIn, rfl⟩ | rfl
  · obtain ⟨_, leftRead⟩ := Layout.exists_read_of_instant? leftAccepts
    obtain ⟨_, rightRead⟩ := Layout.exists_read_of_instant? rightAccepts
    have same :=
      Layout.eq_or_reversed_of_count_eq leftItems leftIn rightItems rightIn
        (List.map_congr_left fun separator member => by
          have apart := Layout.isSeparator_of_mem member
          rw [← Layout.count_of_read apart leftRead,
            ← Layout.count_of_read apart rightRead])
    simpa [yearFirst, dayFirst] using same
  · exact absurd rightAccepts (not_timestamp_of_layout leftIn leftAccepts)
  · exact absurd leftAccepts (not_timestamp_of_layout rightIn rightAccepts)
  · exact .inl rfl

theorem ambiguous_iff_orders :
    Ambiguous text ↔
      (yearFirst.instant? text).isSome ∧ (dayFirst.instant? text).isSome ∧
        yearFirst.instant? text ≠ dayFirst.instant? text := by
  constructor
  · rintro ⟨left, leftMember, right, rightMember, leftAccepts, rightAccepts,
      differ⟩
    rcases eq_or_reversed leftMember rightMember leftAccepts rightAccepts with
      rfl | ⟨rfl, rfl⟩ | ⟨rfl, rfl⟩
    · exact absurd rfl differ
    · exact ⟨leftAccepts, rightAccepts, differ⟩
    · exact ⟨rightAccepts, leftAccepts, differ.symm⟩
  · rintro ⟨yearAccepts, dayAccepts, differ⟩
    exact ⟨yearFirst, by decide, dayFirst, by decide, yearAccepts, dayAccepts,
      differ⟩

/-- The ambiguous texts are the short dates that exist in both orders. -/
theorem ambiguous_iff_shortDate :
    Ambiguous text ↔
      ∃ first second third, Text.ShortDate first second third text ∧
        first ≠ third ∧ (Date.of? first second third).isSome ∧
          (Date.of? third second first).isSome := by
  rw [ambiguous_iff_orders]
  constructor
  · rintro ⟨yearAccepts, dayAccepts, differ⟩
    obtain ⟨_, yearRead⟩ := Layout.exists_read_of_instant? yearAccepts
    obtain ⟨_, dayRead⟩ := Layout.exists_read_of_instant? dayAccepts
    obtain ⟨first, second, third, short⟩ :=
      Layout.exists_shortDate_of_read yearRead dayRead
    obtain ⟨yearInstant, dayInstant⟩ := Layout.instant?_shortDate short
    simp only [yearFirst, dayFirst, instant?, yearInstant, dayInstant,
      Option.isSome_map]
      at yearAccepts dayAccepts differ
    refine ⟨first, second, third, short, ?_, yearAccepts, dayAccepts⟩
    rintro rfl
    exact differ rfl
  · rintro ⟨first, second, third, short, differ, yearValid, dayValid⟩
    obtain ⟨yearInstant, dayInstant⟩ := Layout.instant?_shortDate short
    simp only [yearFirst, dayFirst, instant?, yearInstant, dayInstant,
      Option.isSome_map]
    refine ⟨yearValid, dayValid, fun same => differ ?_⟩
    obtain ⟨date, valid⟩ := Option.isSome_iff_exists.mp yearValid
    obtain ⟨reversed, reversedValid⟩ := Option.isSome_iff_exists.mp dayValid
    rw [valid, reversedValid, Option.map_some, Option.map_some,
      Option.some.injEq] at same
    have sameYear : date.year = reversed.year :=
      congrArg (fun instant => instant.date.year) same
    rw [Date.year_of_of? valid, Date.year_of_of? reversedValid] at sameYear
    exact_mod_cast sameYear

section Order

variable {order : List WrittenForm}

theorem pair_sublist_or_reversed {first second : WrittenForm}
    (distinct : first ≠ second)
    (firstMember : first ∈ order) (secondMember : second ∈ order) :
    [first, second].Sublist order ∨ [second, first].Sublist order := by
  obtain ⟨before, after, rfl⟩ := List.append_of_mem firstMember
  rcases List.mem_append.mp secondMember with earlier | later
  · exact .inr ((List.singleton_sublist.mpr earlier).append
      (List.singleton_sublist.mpr List.mem_cons_self))
  · have inside := (List.mem_cons.mp later).resolve_left distinct.symm
    exact .inl (((List.singleton_sublist.mpr inside).cons_cons first).trans
      (List.sublist_append_right before _))

/-- If at most two forms read a text, then the one that is tried first does. -/
theorem findSome?_of_sublist (nodup : order.Nodup) {first second : WrittenForm}
    (only :
      ∀ form ∈ order, (form.instant? text).isSome →
        form = first ∨ form = second)
    (accepted : (first.instant? text).isSome)
    (tried : [first, second].Sublist order) :
    order.findSome? (fun form => form.instant? text) = first.instant? text := by
  obtain ⟨before, after, rfl, firstMember, secondTail⟩ :=
    List.cons_sublist_iff.mp tried
  have secondAfter : second ∈ after := List.singleton_sublist.mp secondTail
  have secondNotBefore : second ∉ before := fun inside =>
    (List.nodup_append.mp nodup).2.2 second inside second secondAfter rfl
  have found : (before.findSome? fun form => form.instant? text).isSome :=
    List.findSome?_isSome_iff.mpr ⟨first, firstMember, accepted⟩
  obtain ⟨instant, result⟩ := Option.isSome_iff_exists.mp found
  obtain ⟨form, member, reads⟩ := List.exists_of_findSome?_eq_some result
  have isFirst : form = first := by
    refine
      (only form (List.mem_append_left after member)
        (by simp [reads])).resolve_right ?_
    rintro rfl
    exact secondNotBefore member
  rw [List.findSome?_append, result, ← isFirst, reads, Option.some_or]

/-- A text that is not ambiguous is read alike in every order of the forms. -/
theorem findSome?_eq_some_iff (same : order.Perm all) (clear : ¬ Ambiguous text)
    {instant : Instant} :
    order.findSome? (fun form => form.instant? text) = some instant ↔
      ∃ form ∈ all, form.instant? text = some instant := by
  constructor
  · intro result
    obtain ⟨form, member, reads⟩ := List.exists_of_findSome?_eq_some result
    exact ⟨form, same.mem_iff.mp member, reads⟩
  · rintro ⟨form, member, reads⟩
    have found : (order.findSome? fun form => form.instant? text).isSome :=
      List.findSome?_isSome_iff.mpr
        ⟨form, same.mem_iff.mpr member, by simp [reads]⟩
    obtain ⟨other, result⟩ := Option.isSome_iff_exists.mp found
    obtain ⟨chosen, chosenMember, chosenReads⟩ :=
      List.exists_of_findSome?_eq_some result
    have agree : chosen.instant? text = form.instant? text := by
      by_contra differ
      exact clear ⟨chosen, same.mem_iff.mp chosenMember, form, member,
        by simp [chosenReads], by simp [reads], differ⟩
    rw [result, ← chosenReads, agree, reads]

theorem findSome?_of_perm (same : order.Perm all) (clear : ¬ Ambiguous text) :
    order.findSome? (fun form => form.instant? text) =
      TimeExpression.written? text := by
  rw [written?_eq_findSome?]
  ext instant
  rw [findSome?_eq_some_iff same clear, findSome?_eq_some_iff (.refl all) clear]

/--
An ambiguous text is read by year first or day first, whichever is tried first.
-/
theorem findSome?_of_ambiguous (same : order.Perm all)
    (ambiguous : Ambiguous text) :
    ([yearFirst, dayFirst].Sublist order →
      order.findSome? (fun form => form.instant? text) =
        yearFirst.instant? text) ∧
    ([dayFirst, yearFirst].Sublist order →
      order.findSome? (fun form => form.instant? text) =
        dayFirst.instant? text) := by
  obtain ⟨yearAccepts, dayAccepts, -⟩ := ambiguous_iff_orders.mp ambiguous
  have nodup : order.Nodup := same.nodup_iff.mpr nodup_all
  have only : ∀ form ∈ order, (form.instant? text).isSome →
      form = yearFirst ∨ form = dayFirst := by
    intro form member accepts
    rcases eq_or_reversed (same.mem_iff.mp member) (by decide) accepts
        yearAccepts with
      isYear | ⟨isYear, -⟩ | ⟨isDay, -⟩
    · exact .inl isYear
    · exact .inl isYear
    · exact .inr isDay
  exact ⟨findSome?_of_sublist nodup only yearAccepts,
    findSome?_of_sublist nodup
      (fun form member accepts => (only form member accepts).symm) dayAccepts⟩

theorem written?_of_ambiguous (ambiguous : Ambiguous text) :
    TimeExpression.written? text = yearFirst.instant? text := by
  rw [written?_eq_findSome?]
  exact (findSome?_of_ambiguous (.refl all) ambiguous).1 (by decide)

/--
An order of the forms matters only if the day comes first in it and the text is
ambiguous.
-/
theorem findSome?_eq_written?_iff (same : order.Perm all) :
    order.findSome? (fun form => form.instant? text) =
      TimeExpression.written? text ↔
      ¬ Ambiguous text ∨ [yearFirst, dayFirst].Sublist order := by
  by_cases ambiguous : Ambiguous text
  · obtain ⟨-, -, differ⟩ := ambiguous_iff_orders.mp ambiguous
    obtain ⟨yearTried, dayTried⟩ := findSome?_of_ambiguous same ambiguous
    rw [written?_of_ambiguous ambiguous]
    refine ⟨fun agree => .inr ?_,
      fun tried => yearTried (tried.resolve_left (by simpa))⟩
    refine (pair_sublist_or_reversed (by decide) (same.mem_iff.mpr (by decide))
      (same.mem_iff.mpr (by decide))).resolve_right fun reversed => differ ?_
    rw [← agree, dayTried reversed]
  · simp [ambiguous, findSome?_of_perm same ambiguous]

end Order

/--
Two forms that read a text read it alike, unless they are the two orders of a
date with hyphens.  These differ on the dates of three short numbers that exist
in both orders and whose first and last numbers are different.  Any order of the
forms therefore reads every other text alike, and these too if the year is tried
before the day.
-/
theorem agree_unless_reversed (text : List Char) :
    (∀ left ∈ all, ∀ right ∈ all,
      (left.instant? text).isSome → (right.instant? text).isSome →
      left.instant? text = right.instant? text ∨
        (left = yearFirst ∧ right = dayFirst) ∨
        (left = dayFirst ∧ right = yearFirst)) ∧
    (Ambiguous text ↔
      ∃ first second third, Text.ShortDate first second third text ∧
        first ≠ third ∧ (Date.of? first second third).isSome ∧
          (Date.of? third second first).isSome) ∧
    ∀ order : List WrittenForm, order.Perm all →
      (order.findSome? (fun form => form.instant? text) =
        TimeExpression.written? text ↔
        ¬ Ambiguous text ∨ [yearFirst, dayFirst].Sublist order) := by
  refine ⟨?_, ambiguous_iff_shortDate,
    fun order same => findSome?_eq_written?_iff same⟩
  intro left leftMember right rightMember leftAccepts rightAccepts
  rcases eq_or_reversed leftMember rightMember leftAccepts rightAccepts with
    rfl | reversed
  · exact .inl rfl
  · exact .inr reversed

/--
A date that reads the same both ways is not ambiguous, although two forms read
it.
-/
theorem agree_unless_reversed_palindrome :
    let text := "01-02-01".toList
    (yearFirst.instant? text).isSome ∧ (dayFirst.instant? text).isSome ∧
      ¬ Ambiguous text ∧
      all.reverse.findSome? (fun form => form.instant? text) =
        TimeExpression.written? text := by
  intro text
  have clear : ¬ Ambiguous text := by
    rw [ambiguous_iff_orders]
    decide
  exact ⟨by decide, by decide, clear,
    ((agree_unless_reversed text).2.2 all.reverse (List.reverse_perm all)).mpr
      (.inl clear)⟩

/--
The third of February in the year 1, or the first of February in the year 3.
-/
theorem short_date_in_both_orders :
    let text := "01-02-03".toList
    yearFirst ∈ all ∧ dayFirst ∈ all ∧
      (yearFirst.instant? text).map (fun instant => instant.date.year) =
        some 1 ∧
      (dayFirst.instant? text).map (fun instant => instant.date.year) = some 3 ∧
      all.reverse.findSome? (fun form => form.instant? text) ≠
        TimeExpression.written? text := by
  decide

end WrittenForm

end SearchPhrase
