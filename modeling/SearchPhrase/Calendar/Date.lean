import SearchPhrase.Text.Digit

/-!
# Dates

Dates are those of the proleptic Gregorian calendar, which has a year zero,
over a fixed range of years.  Days are counted from the first day of the year
one, so that moving by days is addition of day numbers.

The main statement is that a date is determined by its day number:
`Date.ofDayNumber?` and `Date.toDayNumber` undo each other.
-/

namespace SearchPhrase

namespace Date

/-- Whether a year of the Gregorian calendar has a twenty-ninth of February. -/
def isLeapYear (year : Int) : Bool :=
  year % 4 == 0 && (year % 100 != 0 || year % 400 == 0)

/-- The number of days of a month, which is counted from one. -/
def daysInMonth (year : Int) (month : Nat) : Nat :=
  match month with
  | 2 => if isLeapYear year then 29 else 28
  | 4 | 6 | 9 | 11 => 30
  | _ => 31

/-- The year in which the calendar starts. -/
def firstYear : Int := -262143

/-- The year in which the calendar ends. -/
def lastYear : Int := 262142

end Date

/-- A day of the calendar. -/
structure Date where
  year : Int
  month : Nat
  day : Nat
  year_mem : Date.firstYear ≤ year ∧ year ≤ Date.lastYear
  month_mem : 1 ≤ month ∧ month ≤ 12
  day_mem : 1 ≤ day ∧ day ≤ Date.daysInMonth year month
deriving DecidableEq, Repr

namespace Date

/-- The date with the given year, month and day, if the calendar has it. -/
def of? (year : Int) (month day : Nat) : Option Date :=
  if valid : (firstYear ≤ year ∧ year ≤ lastYear) ∧ (1 ≤ month ∧ month ≤ 12) ∧
      1 ≤ day ∧ day ≤ daysInMonth year month then
    some ⟨year, month, day, valid.1, valid.2.1, valid.2.2⟩
  else none

@[simp]
theorem of?_self (date : Date) :
    of? date.year date.month date.day = some date := by
  simp [of?, date.year_mem, date.month_mem, date.day_mem]

/-! ## Day numbers -/

/-- The number of days from the start of the year one to the start of a year. -/
def daysBeforeYear (year : Int) : Int :=
  365 * (year - 1) + (year - 1) / 4 - (year - 1) / 100 + (year - 1) / 400

/-- The number of days from the start of a year to the start of a month. -/
def daysBeforeMonth (year : Int) (month : Nat) : Nat :=
  let leapDay := if isLeapYear year then 1 else 0
  match month with
  | 0 | 1 => 0
  | 2 => 31
  | 3 => 59 + leapDay
  | 4 => 90 + leapDay
  | 5 => 120 + leapDay
  | 6 => 151 + leapDay
  | 7 => 181 + leapDay
  | 8 => 212 + leapDay
  | 9 => 243 + leapDay
  | 10 => 273 + leapDay
  | 11 => 304 + leapDay
  | 12 => 334 + leapDay
  | _ => 365 + leapDay

/-- The number of days from the first day of the year one to a date. -/
def toDayNumber (date : Date) : Int :=
  daysBeforeYear date.year + daysBeforeMonth date.year date.month +
    (date.day - 1)

/--
The year of a day number.

The mean length of a year gives a guess that is off by at most one.
-/
def yearOfDayNumber (number : Int) : Int :=
  let guess := 400 * number / 146097 + 1
  if number < daysBeforeYear guess then guess - 1
  else if daysBeforeYear (guess + 1) ≤ number then guess + 1
  else guess

/-- The last month, from a given one down, that starts by a day of the year. -/
def monthOfDay (year : Int) (dayOfYear : Nat) : Nat → Nat
  | 0 => 1
  | month + 1 =>
      if daysBeforeMonth year (month + 1) ≤ dayOfYear then month + 1
      else monthOfDay year dayOfYear month

/-- The date with a given day number, if the calendar has it. -/
def ofDayNumber? (number : Int) : Option Date :=
  let year := yearOfDayNumber number
  let dayOfYear := (number - daysBeforeYear year).toNat
  let month := monthOfDay year dayOfYear 12
  of? year month (dayOfYear - daysBeforeMonth year month + 1)

/-- The date a number of days later, or earlier if the number is negative. -/
def addDays? (date : Date) (days : Int) : Option Date :=
  ofDayNumber? (date.toDayNumber + days)

/--
The date a number of months later, or earlier if the number is negative.  The
day of the month is kept, or is the last of the month if that is shorter.
-/
def addMonths? (date : Date) (months : Int) : Option Date :=
  let total := date.year * 12 + (date.month - 1) + months
  let year := total / 12
  let month := (total % 12).toNat + 1
  of? year month (min date.day (daysInMonth year month))

/-! ## The year of a day number -/

/-- A year has 365 days, and one more if it is a leap year. -/
theorem daysBeforeYear_succ (year : Int) :
    daysBeforeYear (year + 1) =
      daysBeforeYear year + 365 + (if isLeapYear year then 1 else 0) := by
  have leap :
      isLeapYear year = true ↔
        year % 4 = 0 ∧ (year % 100 ≠ 0 ∨ year % 400 = 0) := by
    simp [isLeapYear]
  simp only [daysBeforeYear]
  split <;> rename_i condition <;> rw [leap] at condition <;> omega

theorem yearOfDayNumber_bounds (number : Int) :
    daysBeforeYear (yearOfDayNumber number) ≤ number ∧
      number < daysBeforeYear (yearOfDayNumber number + 1) := by
  simp only [yearOfDayNumber]
  split
  · simp only [daysBeforeYear] at *
    omega
  · split <;> simp only [daysBeforeYear] at * <;> omega

theorem daysBeforeYear_mono {earlier later : Int} (le : earlier ≤ later) :
    daysBeforeYear earlier ≤ daysBeforeYear later := by
  simp only [daysBeforeYear]
  omega

/-- A day number lies in no other year. -/
theorem yearOfDayNumber_eq {number year : Int}
    (lower : daysBeforeYear year ≤ number)
    (upper : number < daysBeforeYear (year + 1)) :
    yearOfDayNumber number = year := by
  have bounds := yearOfDayNumber_bounds number
  rcases Int.lt_trichotomy (yearOfDayNumber number) year with
    less | equal | greater
  · have :=
      daysBeforeYear_mono (show yearOfDayNumber number + 1 ≤ year by omega)
    omega
  · exact equal
  · have :=
      daysBeforeYear_mono (show year + 1 ≤ yearOfDayNumber number by omega)
    omega

/-! ## The month of a day of the year -/

/-- A month starts where the one before it ends. -/
theorem daysBeforeMonth_succ (year : Int) {month : Nat}
    (lower : 1 ≤ month) (upper : month ≤ 12) :
    daysBeforeMonth year (month + 1) =
      daysBeforeMonth year month + daysInMonth year month := by
  have cases :
      month = 1 ∨ month = 2 ∨ month = 3 ∨ month = 4 ∨ month = 5 ∨ month = 6 ∨
        month = 7 ∨ month = 8 ∨ month = 9 ∨ month = 10 ∨ month = 11 ∨
        month = 12 := by
    omega
  rcases cases with
    rfl | rfl | rfl | rfl | rfl | rfl | rfl | rfl | rfl | rfl | rfl | rfl <;>
    simp only [daysBeforeMonth, daysInMonth] <;> split <;> rfl

/-- The months of a year start one after the other. -/
theorem daysBeforeMonth_mono (year : Int) {month later : Nat}
    (positive : 1 ≤ month) (ordered : month ≤ later) (upper : later ≤ 13) :
    daysBeforeMonth year month ≤ daysBeforeMonth year later := by
  induction later with
  | zero => omega
  | succ later ih =>
      by_cases same : month = later + 1
      · exact Nat.le_of_eq (congrArg (daysBeforeMonth year) same)
      · have next :=
          daysBeforeMonth_succ year (show 1 ≤ later by omega) (by omega)
        have before := ih (by omega) (by omega)
        omega

/-- The months that start later start after the end of the month. -/
theorem monthOfDay_eq {year : Int} {month dayOfYear : Nat}
    (positive : 1 ≤ month) (lower : daysBeforeMonth year month ≤ dayOfYear)
    (upper : dayOfYear < daysBeforeMonth year (month + 1)) :
    ∀ last, month ≤ last → last ≤ 12 →
      monthOfDay year dayOfYear last = month := by
  intro last
  induction last with
  | zero => omega
  | succ previous ih =>
      intro atMost bounded
      by_cases same : month = previous + 1
      · subst same
        simp [monthOfDay, lower]
      · have later := daysBeforeMonth_mono year (show 1 ≤ month + 1 by omega)
          (show month + 1 ≤ previous + 1 by omega) (by omega)
        rw [monthOfDay, if_neg (by omega)]
        exact ih (by omega) (by omega)

/-- The day of the year of a date, counted from zero, lies in its month. -/
theorem dayOfYear_bounds (date : Date) :
    daysBeforeMonth date.year date.month + (date.day - 1) <
      daysBeforeMonth date.year (date.month + 1) := by
  have := date.day_mem
  rw [daysBeforeMonth_succ date.year date.month_mem.1 date.month_mem.2]
  omega

/-- The days of a year before a month are at most the days of the year. -/
theorem daysBeforeMonth_le (year : Int) (month : Nat) :
    daysBeforeMonth year month ≤ 365 + (if isLeapYear year then 1 else 0) := by
  simp only [daysBeforeMonth]
  split <;> split <;> omega

/-- The day number of a date lies in its year. -/
theorem toDayNumber_bounds (date : Date) :
    daysBeforeYear date.year ≤ date.toDayNumber ∧
      date.toDayNumber < daysBeforeYear (date.year + 1) := by
  have dayBounds := dayOfYear_bounds date
  have yearLength := daysBeforeMonth_le date.year (date.month + 1)
  have dayPositive := date.day_mem.1
  rw [daysBeforeYear_succ, toDayNumber]
  split at yearLength
  · next leap =>
      rw [if_pos leap]
      omega
  · next common =>
      rw [if_neg common]
      omega

/-- A date is the one with its day number. -/
@[simp]
theorem ofDayNumber?_toDayNumber (date : Date) :
    ofDayNumber? date.toDayNumber = some date := by
  have dayBounds := dayOfYear_bounds date
  have dayPositive := date.day_mem.1
  have year : yearOfDayNumber date.toDayNumber = date.year :=
    yearOfDayNumber_eq date.toDayNumber_bounds.1 date.toDayNumber_bounds.2
  have dayOfYear :
      (date.toDayNumber - daysBeforeYear date.year).toNat =
        daysBeforeMonth date.year date.month + (date.day - 1) := by
    simp only [toDayNumber]
    omega
  have month := monthOfDay_eq date.month_mem.1 (by omega) dayBounds 12
    date.month_mem.2 (Nat.le_refl 12)
  simp only [ofDayNumber?, year, dayOfYear, month]
  rw [show daysBeforeMonth date.year date.month + (date.day - 1) -
      daysBeforeMonth date.year date.month + 1 = date.day by omega]
  exact of?_self date

/-- The month of a day of the year has started by that day. -/
theorem daysBeforeMonth_monthOfDay (year : Int) (dayOfYear last : Nat) :
    daysBeforeMonth year (monthOfDay year dayOfYear last) ≤ dayOfYear := by
  induction last with
  | zero => exact Nat.zero_le dayOfYear
  | succ month ih =>
      rw [monthOfDay]
      split
      · next started => exact started
      · exact ih

/-- The date with a given day number has that day number. -/
theorem toDayNumber_of_ofDayNumber? {number : Int} {date : Date}
    (found : ofDayNumber? number = some date) : date.toDayNumber = number := by
  have bounds := yearOfDayNumber_bounds number
  have started := daysBeforeMonth_monthOfDay (yearOfDayNumber number)
    (number - daysBeforeYear (yearOfDayNumber number)).toNat 12
  simp only [ofDayNumber?, of?] at found
  split at found
  · cases found
    simp only [toDayNumber]
    omega
  · cases found

/-! ## Writing dates -/

/-- A year: four digits at least, with a sign outside the years 0 to 9999. -/
def yearCharacters (year : Int) : List Char :=
  if year < 0 then '-' :: Text.zeroPadded 4 year.natAbs
  else if year ≤ 9999 then Text.zeroPadded 4 year.natAbs
  else '+' :: Text.zeroPadded 4 year.natAbs

/-- A date as year, month and day with hyphens between them. -/
def characters (date : Date) : List Char :=
  yearCharacters date.year ++ '-' :: Text.zeroPadded 2 date.month ++
    '-' :: Text.zeroPadded 2 date.day

/-- A date as it is written in parameters. -/
def render (date : Date) : String :=
  String.ofList date.characters

end Date

end SearchPhrase
