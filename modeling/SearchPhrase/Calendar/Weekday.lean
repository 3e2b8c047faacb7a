import SearchPhrase.Calendar.Duration
import SearchPhrase.Text.Keyword

/-!
# Days of the week

The first day of the year one is a Monday, so the day of the week of a date is
the remainder of its day number by seven.
-/

namespace SearchPhrase

/-- A day of the week. -/
inductive Weekday where
  | monday
  | tuesday
  | wednesday
  | thursday
  | friday
  | saturday
  | sunday
deriving DecidableEq, Repr

namespace Weekday

/-- The days of a week, which starts on Monday. -/
def all : List Weekday :=
  [.monday, .tuesday, .wednesday, .thursday, .friday, .saturday, .sunday]

/-- The number of days since Monday. -/
def sinceMonday : Weekday → Nat
  | .monday => 0
  | .tuesday => 1
  | .wednesday => 2
  | .thursday => 3
  | .friday => 4
  | .saturday => 5
  | .sunday => 6

/-- The name of a weekday in lower case. -/
def name : Weekday → String
  | .monday => "monday"
  | .tuesday => "tuesday"
  | .wednesday => "wednesday"
  | .thursday => "thursday"
  | .friday => "friday"
  | .saturday => "saturday"
  | .sunday => "sunday"

/-- The first three letters of the name of a weekday. -/
def shortName : Weekday → String
  | .monday => "mon"
  | .tuesday => "tue"
  | .wednesday => "wed"
  | .thursday => "thu"
  | .friday => "fri"
  | .saturday => "sat"
  | .sunday => "sun"

/--
The day of the week with a given name, full or of three letters, in any case.
-/
def ofName? (text : List Char) : Option Weekday :=
  all.find? fun weekday =>
    Text.equalsIgnoringCase text weekday.name ||
      Text.equalsIgnoringCase text weekday.shortName

end Weekday

namespace Date

/-- The number of days since the latest Monday. -/
def sinceMonday (date : Date) : Nat :=
  (date.toDayNumber % 7).toNat

/--
The latest date that is a given day of the week, the date itself included.

The days back to it are counted in unsigned words.  A week is added first, so
that the difference is not negative.
-/
def mostRecent (date : Date) (weekday : Weekday) :
    Except CalendarFault Date := do
  let ahead ← orOverflow (Numeral.uint32? (date.sinceMonday + 7))
  let back ← orOverflow (Numeral.uint32? (ahead.toNat - weekday.sinceMonday))
  let duration ←
    orOverflow (Duration.ofUnits? secondsPerDay (.ofNat (back % 7).toNat))
  match date.subDuration? duration with
  | some recent => pure recent
  | none => throw .beforeFirstDay

end Date

end SearchPhrase
