import SearchPhrase.Proofs.Calendar.Order

/-!
# The range of the calendar

The day numbers of dates are all the numbers from the first day of the first
year to the last day of the last year.  The calendar therefore has a first and a
last date, and the last one alone has no next day.  Moving on from an instant by
at most a day fails only from the last date, and only past its end.
-/

namespace SearchPhrase

namespace Date

/-! ## Day numbers of dates -/

theorem monthOfDay_mem (year : Int) (dayOfYear last : Nat) :
    1 ≤ monthOfDay year dayOfYear last ∧
      monthOfDay year dayOfYear last ≤ max 1 last := by
  induction last with
  | zero => simp [monthOfDay]
  | succ month ih =>
      rw [monthOfDay]
      split <;> omega

/-- The month of a day of the year has not ended before that day. -/
theorem lt_daysBeforeMonth_monthOfDay_succ
    {year : Int} {dayOfYear last : Nat}
    (upper : dayOfYear < daysBeforeMonth year (last + 1)) :
    dayOfYear < daysBeforeMonth year (monthOfDay year dayOfYear last + 1) := by
  induction last with
  | zero => exact absurd upper (Nat.not_lt_zero dayOfYear)
  | succ month ih =>
      rw [monthOfDay]
      split
      · exact upper
      · next notStarted => exact ih (Nat.lt_of_not_le notStarted)

/-- A day number in the years of the calendar is that of a date. -/
theorem exists_ofDayNumber?
    {number : Int} (lower : daysBeforeYear firstYear ≤ number)
    (upper : number < daysBeforeYear (lastYear + 1)) :
    ∃ date, ofDayNumber? number = some date := by
  have bounds := yearOfDayNumber_bounds number
  have length := daysBeforeYear_succ (yearOfDayNumber number)
  generalize numbered : yearOfDayNumber number = year at bounds length
  have yearMem : firstYear ≤ year ∧ year ≤ lastYear := by
    constructor
    · by_contra before
      have := daysBeforeYear_mono (show year + 1 ≤ firstYear by omega)
      omega
    · by_contra after
      have := daysBeforeYear_mono (show lastYear + 1 ≤ year by omega)
      omega
  generalize counted : (number - daysBeforeYear year).toNat = dayOfYear
  have monthMem := monthOfDay_mem year dayOfYear 12
  have started := daysBeforeMonth_monthOfDay year dayOfYear 12
  have inYear : dayOfYear < daysBeforeMonth year 13 := by
    cases leap : isLeapYear year <;>
      simp only [daysBeforeMonth, leap, if_true, if_false,
        Bool.false_eq_true] at length ⊢ <;>
      omega
  have notEnded := lt_daysBeforeMonth_monthOfDay_succ inYear
  rw [daysBeforeMonth_succ year monthMem.1 (by omega)] at notEnded
  simp only [ofDayNumber?, numbered, counted, of?]
  rw [dif_pos ⟨yearMem, ⟨monthMem.1, by omega⟩, by omega, by omega⟩]
  exact ⟨_, rfl⟩

/-! ## The last date -/

/-- The last date of the calendar. -/
def last : Date where
  year := lastYear
  month := 12
  day := 31
  year_mem := by decide
  month_mem := by decide
  day_mem := by decide

theorem toDayNumber_last :
    last.toDayNumber + 1 = daysBeforeYear (lastYear + 1) := by
  decide

theorem toDayNumber_le_last (date : Date) :
    date.toDayNumber ≤ last.toDayNumber := by
  have inYear := date.toDayNumber_bounds.2
  have ordered := daysBeforeYear_mono (show date.year + 1 ≤ lastYear + 1 by
    have := date.year_mem.2; omega)
  have := toDayNumber_last
  omega

instance : OrderTop Date where
  top := last
  le_top date := le_iff_toDayNumber_le.mpr date.toDayNumber_le_last

/-! ## The first date -/

/-- The first date of the calendar. -/
def first : Date where
  year := firstYear
  month := 1
  day := 1
  year_mem := by decide
  month_mem := by decide
  day_mem := by decide

theorem toDayNumber_first : first.toDayNumber = daysBeforeYear firstYear := by
  decide

theorem toDayNumber_first_le (date : Date) :
    first.toDayNumber ≤ date.toDayNumber := by
  rw [toDayNumber_first]
  exact (daysBeforeYear_mono date.year_mem.1).trans date.toDayNumber_bounds.1

instance : OrderBot Date where
  bot := first
  bot_le date := le_iff_toDayNumber_le.mpr date.toDayNumber_first_le

/-! ## The days that a date reaches -/

/-- The dates are numbered from the first to the last without a gap. -/
theorem isSome_ofDayNumber?_iff {number : Int} :
    (ofDayNumber? number).isSome = true ↔
      (⊥ : Date).toDayNumber ≤ number ∧ number ≤ (⊤ : Date).toDayNumber := by
  constructor
  · intro found
    obtain ⟨date, dated⟩ := Option.isSome_iff_exists.mp found
    rw [← toDayNumber_of_ofDayNumber? dated]
    exact ⟨date.toDayNumber_first_le, date.toDayNumber_le_last⟩
  · rintro ⟨lower, upper⟩
    have atStart : (⊥ : Date).toDayNumber = daysBeforeYear firstYear :=
      toDayNumber_first
    have atEnd : (⊤ : Date).toDayNumber + 1 = daysBeforeYear (lastYear + 1) :=
      toDayNumber_last
    exact Option.isSome_iff_exists.mpr
      (exists_ofDayNumber? (by omega) (by omega))

/-- A date has a next day unless it is the last one. -/
theorem addDays?_one_eq_none_iff {date : Date} :
    date.addDays? 1 = none ↔ date = ⊤ := by
  constructor
  · intro stuck
    by_contra notLast
    have before := lt_iff_toDayNumber_lt.mp (lt_top_iff_ne_top.mpr notLast)
    have inYear := date.toDayNumber_bounds.1
    have ordered := daysBeforeYear_mono date.year_mem.1
    have atEnd : (⊤ : Date).toDayNumber + 1 = daysBeforeYear (lastYear + 1) :=
      toDayNumber_last
    have found : ∃ next, date.addDays? 1 = some next :=
      exists_ofDayNumber? (by omega) (by omega)
    simp [stuck] at found
  · rintro rfl
    cases moved : (⊤ : Date).addDays? 1 with
    | none => rfl
    | some next => exact absurd ((lt_next_iff moved).mpr le_rfl) not_top_lt

@[simp]
theorem addDays?_zero (date : Date) : date.addDays? 0 = some date := by
  simp [addDays?]

end Date

namespace Instant

/-- Every second of a day has all the fractions of a second. -/
theorem of?_ne_none
    (date : Date) {second nanosecond : Nat} (inDay : second < secondsPerDay)
    (inSecond : nanosecond < nanosecondsPerSecond) :
    of? date second nanosecond ≠ none := by
  have valid : second < secondsPerDay ∧ nanosecond < 2 * nanosecondsPerSecond ∧
      (nanosecondsPerSecond ≤ nanosecond → second % 60 = 59) :=
    ⟨inDay, by omega, by omega⟩
  rw [of?, dif_pos valid]
  exact Option.some_ne_none _

/--
Moving on by at most a day fails past the end of the last date, and nowhere
else.  At most a day is added, so the date is the next one or stays.
-/
theorem addSeconds?_eq_none_iff
    {instant : Instant} {seconds : Int}
    (positive : 0 < seconds) (atMost : seconds ≤ secondsPerDay) :
    instant.addSeconds? seconds = none ↔
      instant.date = ⊤ ∧ secondsPerDay ≤ instant.second + seconds := by
  have inDay := instant.second_lt
  have forward : (instant.isLeap && decide (seconds < 0)) = false := by
    simp [show ¬ seconds < 0 by omega]
  have timed (date : Date) :
      of? date ((instant.second + seconds) % secondsPerDay).toNat
        (instant.nanosecond % nanosecondsPerSecond) ≠ none := by
    apply of?_ne_none
    · simp only [secondsPerDay]
      omega
    · exact Nat.mod_lt _ (by decide)
  simp only [addSeconds?, if_neg (show ¬ seconds = 0 by omega), forward,
    Bool.false_eq_true, if_false]
  by_cases past : secondsPerDay ≤ instant.second + seconds
  · have tomorrow : (instant.second + seconds) / secondsPerDay = 1 := by
      simp only [secondsPerDay] at *
      omega
    rw [tomorrow]
    cases moved : instant.date.addDays? 1 with
    | none => simpa [past] using Date.addDays?_one_eq_none_iff.mp moved
    | some next =>
        have notLast : instant.date ≠ ⊤ := by
          rw [Ne, ← Date.addDays?_one_eq_none_iff, moved]
          exact Option.some_ne_none next
        simp [timed, notLast]
  · have today : (instant.second + seconds) / secondsPerDay = 0 := by
      simp only [secondsPerDay] at *
      omega
    simp [today, timed, past]

end Instant

end SearchPhrase
