import SearchPhrase.Calendar.Instant
import SearchPhrase.Numeral

/-!
# Durations

Times are moved by durations, which are counted in seconds.  Numbers of units
and of seconds are held in words of a fixed width, so a computation can leave
its word.  Where that is provided for, it gives no duration; where it is not, it
is a fault.
-/

namespace SearchPhrase

/-- Why a time expression cannot be resolved at all. -/
inductive CalendarFault where
  /--
  The latest given day of the week lies before the first day of the calendar.
  -/
  | beforeFirstDay
  /-- A number leaves its word where that is not provided for. -/
  | overflow
deriving DecidableEq, Repr

/-- A result that is taken to exist, since the numbers in it fit. -/
def orOverflow {α : Type} : Option α → Except CalendarFault α
  | some result => .ok result
  | none => .error .overflow

namespace Duration

/-- The most seconds whose milliseconds fit in a word of sixty-four bits. -/
def mostSeconds : Int :=
  Int64.maxValue.toInt / 1000

end Duration

/--
A number of seconds, negative towards the past, whose milliseconds fit in a
word.
-/
structure Duration where
  seconds : Int
  seconds_mem : -Duration.mostSeconds ≤ seconds ∧ seconds ≤ Duration.mostSeconds
deriving DecidableEq, Repr

namespace Duration

/-- The duration of a number of seconds, if there is one that long. -/
def ofSeconds? (seconds : Int) : Option Duration :=
  if valid : -mostSeconds ≤ seconds ∧ seconds ≤ mostSeconds then
    some ⟨seconds, valid⟩
  else none

/-- A number of units of a length in seconds. -/
def ofUnits? (length : Int) (count : Int64) : Option Duration :=
  (Numeral.int64? (count.toInt * length)).bind fun seconds =>
    ofSeconds? seconds.toInt

/-- The whole days of a duration, without the fraction of a day. -/
def days (duration : Duration) : Int :=
  duration.seconds.tdiv secondsPerDay

end Duration

/-- The date a duration later. -/
def Date.addDuration? (date : Date) (duration : Duration) : Option Date :=
  date.addDays? duration.days

/-- The date a duration earlier. -/
def Date.subDuration? (date : Date) (duration : Duration) : Option Date :=
  date.addDays? (-duration.days)

/-- The instant a duration later. -/
def Instant.addDuration? (instant : Instant) (duration : Duration) :
    Option Instant :=
  instant.addSeconds? duration.seconds

end SearchPhrase
