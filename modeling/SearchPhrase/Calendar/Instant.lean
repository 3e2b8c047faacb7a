import SearchPhrase.Calendar.Date

/-!
# Instants

An instant is a second of a day with its fraction in nanoseconds.  A leap
second is the second that follows the last one of a minute: it counts as that
last second, and its nanoseconds start at one second.
-/

namespace SearchPhrase

/-- The number of nanoseconds in a second. -/
def nanosecondsPerSecond : Nat := 1000000000

/-- The number of seconds in a day, leap seconds apart. -/
def secondsPerDay : Nat := 86400

/-- A second of a day of the calendar, with its nanoseconds. -/
structure Instant where
  date : Date
  second : Nat
  nanosecond : Nat
  second_lt : second < secondsPerDay
  nanosecond_lt : nanosecond < 2 * nanosecondsPerSecond
  leap_second : nanosecondsPerSecond ≤ nanosecond → second % 60 = 59
deriving DecidableEq, Repr

namespace Instant

/-- The first instant of a day. -/
def midnight (date : Date) : Instant where
  date := date
  second := 0
  nanosecond := 0
  second_lt := by decide
  nanosecond_lt := by decide
  leap_second := by decide

/--
The instant with the given second of the day and nanoseconds, if there is one.
-/
def of? (date : Date) (second nanosecond : Nat) : Option Instant :=
  if valid : second < secondsPerDay ∧ nanosecond < 2 * nanosecondsPerSecond ∧
      (nanosecondsPerSecond ≤ nanosecond → second % 60 = 59) then
    some ⟨date, second, nanosecond, valid.1, valid.2.1, valid.2.2⟩
  else none

/--
The instant that a clock shows on a date.  The second 60 is the leap second of
its minute.
-/
def ofClock? (date : Date) (hour minute second nanosecond : Nat) :
    Option Instant :=
  if hour < 24 && minute < 60 && second ≤ 60 then
    if second == 60 then
      of? date (3600 * hour + 60 * minute + 59)
        (nanosecond + nanosecondsPerSecond)
    else of? date (3600 * hour + 60 * minute + second) nanosecond
  else none

/-- Whether an instant is in a leap second. -/
def isLeap (instant : Instant) : Bool :=
  nanosecondsPerSecond ≤ instant.nanosecond

/-- Whether an instant is the first one of its day. -/
def isMidnight (instant : Instant) : Bool :=
  instant.second == 0 && instant.nanosecond == 0

/--
The instant a number of seconds later, or earlier if the number is negative.

Moving by zero seconds stays in a leap second.  Moving on from one starts at
the second before it, and moving back at the second after it.
-/
def addSeconds? (instant : Instant) (seconds : Int) : Option Instant :=
  if seconds = 0 then some instant
  else
    let start : Int :=
      if instant.isLeap && seconds < 0 then instant.second + 1
      else instant.second
    let total := start + seconds
    match instant.date.addDays? (total / secondsPerDay) with
    | some date =>
        of? date (total % secondsPerDay).toNat
          (instant.nanosecond % nanosecondsPerSecond)
    | none => none

/-- An instant as its date and the time on a clock, without the nanoseconds. -/
def characters (instant : Instant) : List Char :=
  let leap := if instant.isLeap then 1 else 0
  instant.date.characters ++
    ' ' :: Text.zeroPadded 2 (instant.second / 3600) ++
    ':' :: Text.zeroPadded 2 (instant.second / 60 % 60) ++
    ':' :: Text.zeroPadded 2 (instant.second % 60 + leap)

/-- The text of an instant, without the nanoseconds. -/
def render (instant : Instant) : String :=
  String.ofList instant.characters

end Instant

end SearchPhrase
