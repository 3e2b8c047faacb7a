import Mathlib.Data.Prod.Lex
import SearchPhrase.Calendar.Instant

/-!
# The order of time

Dates are ordered by year, then by month, then by day, and instants by their
date, then by the second of the day, then by the nanosecond.  A leap second is
thus later than the second that it repeats and earlier than the next one.  The
order of dates is that of their day numbers, so the next day is the least later
date, and moving on by a number of seconds leads to a later instant.
-/

namespace SearchPhrase

namespace Date

/-- Year, month and day, by which dates are ordered. -/
def orderKey (date : Date) : ℤ ×ₗ ℕ ×ₗ ℕ :=
  toLex (date.year, toLex (date.month, date.day))

theorem orderKey_injective : Function.Injective orderKey := by
  intro left right equal
  cases left
  cases right
  simpa [orderKey] using equal

instance : LinearOrder Date :=
  LinearOrder.lift' orderKey orderKey_injective

theorem lt_iff {left right : Date} :
    left < right ↔
      left.year < right.year ∨
        left.year = right.year ∧
          (left.month < right.month ∨
            left.month = right.month ∧ left.day < right.day) := by
  show orderKey left < orderKey right ↔ _
  simp only [orderKey, Prod.Lex.toLex_lt_toLex]

/-- A later date has a larger day number. -/
theorem toDayNumber_lt_of_lt {earlier later : Date} (before : earlier < later) :
    earlier.toDayNumber < later.toDayNumber := by
  have earlierBounds := earlier.toDayNumber_bounds
  have laterBounds := later.toDayNumber_bounds
  rcases lt_iff.mp before with year | ⟨year, month | ⟨month, day⟩⟩
  · have ordered :=
      daysBeforeYear_mono (show earlier.year + 1 ≤ later.year by omega)
    omega
  · have inMonth := dayOfYear_bounds earlier
    have ordered :=
      daysBeforeMonth_mono later.year (show 1 ≤ earlier.month + 1 by omega)
        (show earlier.month + 1 ≤ later.month by omega)
        (by have := later.month_mem.2; omega)
    have earlierDay := earlier.day_mem.1
    have laterDay := later.day_mem.1
    rw [year] at inMonth
    rw [toDayNumber, toDayNumber, year]
    omega
  · rw [toDayNumber, toDayNumber, year, month]
    omega

/-- Dates are ordered as their day numbers are. -/
theorem lt_iff_toDayNumber_lt {left right : Date} :
    left < right ↔ left.toDayNumber < right.toDayNumber := by
  constructor
  · exact toDayNumber_lt_of_lt
  · intro less
    rcases lt_trichotomy left right with before | rfl | after
    · exact before
    · exact absurd less (lt_irrefl _)
    · exact absurd (toDayNumber_lt_of_lt after) (lt_asymm less)

theorem le_iff_toDayNumber_le {left right : Date} :
    left ≤ right ↔ left.toDayNumber ≤ right.toDayNumber := by
  rw [← not_lt, lt_iff_toDayNumber_lt, not_lt]

theorem toDayNumber_injective : Function.Injective toDayNumber := by
  intro left right equal
  apply Option.some.inj
  rw [← ofDayNumber?_toDayNumber left, equal, ofDayNumber?_toDayNumber]

theorem toDayNumber_of_addDays?
    {date other : Date} {days : Int} (moved : date.addDays? days = some other) :
    other.toDayNumber = date.toDayNumber + days :=
  toDayNumber_of_ofDayNumber? moved

/-- A date is before the next day exactly if it is not after the day. -/
theorem lt_next_iff {date next other : Date}
    (moved : date.addDays? 1 = some next) :
    other < next ↔ other ≤ date := by
  rw [← not_lt, lt_iff_toDayNumber_lt, lt_iff_toDayNumber_lt,
    toDayNumber_of_addDays? moved]
  omega

end Date

namespace Instant

/-- Date, second and nanosecond, by which instants are ordered. -/
def orderKey (instant : Instant) : Date ×ₗ ℕ ×ₗ ℕ :=
  toLex (instant.date, toLex (instant.second, instant.nanosecond))

theorem orderKey_injective : Function.Injective orderKey := by
  intro left right equal
  cases left
  cases right
  simpa [orderKey] using equal

instance : LinearOrder Instant :=
  LinearOrder.lift' orderKey orderKey_injective

theorem lt_iff {left right : Instant} :
    left < right ↔
      left.date < right.date ∨
        left.date = right.date ∧
          (left.second < right.second ∨
            left.second = right.second ∧
              left.nanosecond < right.nanosecond) := by
  show orderKey left < orderKey right ↔ _
  simp only [orderKey, Prod.Lex.toLex_lt_toLex]

theorem of?_eq_some
    {date : Date} {second nanosecond : Nat} {instant : Instant}
    (found : of? date second nanosecond = some instant) :
    instant.date = date ∧ instant.second = second ∧
      instant.nanosecond = nanosecond := by
  unfold of? at found
  split at found
  · cases found
    exact ⟨rfl, rfl, rfl⟩
  · cases found

/-- Moving on by a positive number of seconds leads to a later instant. -/
theorem lt_of_addSeconds?
    {instant later : Instant} {seconds : Int} (positive : 0 < seconds)
    (moved : instant.addSeconds? seconds = some later) :
    instant < later := by
  have forward : (instant.isLeap && decide (seconds < 0)) = false := by
    simp [show ¬ seconds < 0 by omega]
  simp only [addSeconds?, if_neg (show ¬ seconds = 0 by omega), forward,
    Bool.false_eq_true, if_false] at moved
  split at moved
  · next date reached =>
      obtain ⟨sameDate, sameSecond, -⟩ := of?_eq_some moved
      have days := Date.toDayNumber_of_addDays? reached
      simp only [secondsPerDay] at days sameSecond
      rw [lt_iff, sameDate]
      by_cases sameDay : instant.second + seconds < 86400
      · right
        have sameNumber : instant.date.toDayNumber = date.toDayNumber := by
          omega
        exact ⟨Date.toDayNumber_injective sameNumber, Or.inl (by omega)⟩
      · left
        rw [Date.lt_iff_toDayNumber_lt]
        omega
  · cases moved

end Instant

end SearchPhrase
