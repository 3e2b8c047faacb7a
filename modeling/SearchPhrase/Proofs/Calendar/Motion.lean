import SearchPhrase.Proofs.Calendar.Range

/-!
# Motion in time

A time is moved by a number of days, months or seconds, and the move is possible
as long as it stays in the calendar.  The three ways of moving differ: days are
counted on, months keep the day as far as the month that is reached has it, and
seconds leave a leap second in one direction or the other.  What they have in
common is the subject of this module.  Moving further leads later, and if two
moves are possible then so is every move between them.
-/

namespace SearchPhrase

/--
A way of moving in time by a number of units: moving further leads later, and
the numbers that can be moved by have no gap.
-/
structure IsMotion {Time : Type} [Preorder Time] (move : ℤ → Option Time) :
    Prop where
  lt_of_lt {fewer more : ℤ} {earlier later : Time} (further : fewer < more)
    (atEarlier : move fewer = some earlier)
    (atLater : move more = some later) : earlier < later
  isSome_of_between {low middle high : ℤ} (above : low ≤ middle)
    (below : middle ≤ high)
    (atLow : (move low).isSome = true) (atHigh : (move high).isSome = true) :
    (move middle).isSome = true

namespace IsMotion

variable {Time : Type} [Preorder Time] {move : ℤ → Option Time}

theorem le_of_le (motion : IsMotion move)
    {fewer more : ℤ} {earlier later : Time}
    (further : fewer ≤ more) (atEarlier : move fewer = some earlier)
    (atLater : move more = some later) : earlier ≤ later := by
  rcases further.eq_or_lt with rfl | strictly
  · cases atEarlier.symm.trans atLater
    exact le_rfl
  · exact (motion.lt_of_lt strictly atEarlier atLater).le

/-- A number between two that lead to a time leads to one. -/
theorem exists_between (motion : IsMotion move)
    {low middle high : ℤ} {earlier later : Time}
    (above : low ≤ middle) (below : middle ≤ high)
    (atLow : move low = some earlier)
    (atHigh : move high = some later) :
    ∃ between, move middle = some between := by
  have lowPossible : (move low).isSome = true := by rw [atLow]; rfl
  have highPossible : (move high).isSome = true := by rw [atHigh]; rfl
  exact Option.isSome_iff_exists.mp
    (motion.isSome_of_between above below lowPossible highPossible)

/-- Moving by a multiple of a unit. -/
theorem scale (motion : IsMotion move) {factor : ℤ} (positive : 0 < factor) :
    IsMotion fun amount => move (factor * amount) where
  lt_of_lt further :=
    motion.lt_of_lt (Int.mul_lt_mul_of_pos_left further positive)
  isSome_of_between above below := motion.isSome_of_between
    (Int.mul_le_mul_of_nonneg_left above positive.le)
    (Int.mul_le_mul_of_nonneg_left below positive.le)

/-- Moving, and then going to a place that is later for later times. -/
theorem map (motion : IsMotion move) {Place : Type} [Preorder Place]
    {place : Time → Place}
    (strict : StrictMono place) :
    IsMotion fun amount => (move amount).map place where
  lt_of_lt further atEarlier atLater := by
    obtain ⟨earlier, fromEarlier, rfl⟩ := Option.map_eq_some_iff.mp atEarlier
    obtain ⟨later, fromLater, rfl⟩ := Option.map_eq_some_iff.mp atLater
    exact strict (motion.lt_of_lt further fromEarlier fromLater)
  isSome_of_between above below := by
    simpa using motion.isSome_of_between above below

end IsMotion

namespace Date

/-! ## Days -/

theorem addDays?_eq_some_iff {date other : Date} {days : ℤ} :
    date.addDays? days = some other ↔
      other.toDayNumber = date.toDayNumber + days := by
  constructor
  · exact toDayNumber_of_addDays?
  · intro number
    rw [addDays?, ← number, ofDayNumber?_toDayNumber]

theorem isSome_addDays?_iff {date : Date} {days : ℤ} :
    (date.addDays? days).isSome = true ↔
      (⊥ : Date).toDayNumber ≤ date.toDayNumber + days ∧
        date.toDayNumber + days ≤ (⊤ : Date).toDayNumber :=
  isSome_ofDayNumber?_iff

theorem isMotion_addDays? (date : Date) : IsMotion date.addDays? where
  lt_of_lt further atEarlier atLater := by
    rw [addDays?_eq_some_iff] at atEarlier atLater
    rw [lt_iff_toDayNumber_lt]
    omega
  isSome_of_between above below atLow atHigh := by
    rw [isSome_addDays?_iff] at *
    omega

/-! ## Months -/

/--
The number of months from the start of the year zero to the month of a date.
-/
def monthNumber (date : Date) : ℤ :=
  date.year * 12 + (date.month - 1)

theorem of?_eq_some_iff {year : ℤ} {month day : ℕ} {date : Date} :
    of? year month day = some date ↔
      date.year = year ∧ date.month = month ∧ date.day = day := by
  constructor
  · intro found
    unfold of? at found
    split at found
    · cases found
      exact ⟨rfl, rfl, rfl⟩
    · cases found
  · rintro ⟨rfl, rfl, rfl⟩
    exact of?_self date

theorem lt_of_monthNumber_lt {earlier later : Date}
    (before : earlier.monthNumber < later.monthNumber) : earlier < later := by
  have earlierMonth := earlier.month_mem
  have laterMonth := later.month_mem
  unfold monthNumber at before
  rw [lt_iff]
  omega

/--
The month that is reached is the one counted, and the day is kept if the month
has it.
-/
theorem addMonths?_eq_some_iff {date other : Date} {months : ℤ} :
    date.addMonths? months = some other ↔
      other.monthNumber = date.monthNumber + months ∧
        other.day = min date.day (daysInMonth other.year other.month) := by
  have month := other.month_mem
  simp only [addMonths?, of?_eq_some_iff, monthNumber]
  generalize date.year * 12 + (date.month - 1) + months = total
  constructor
  · rintro ⟨year, monthOfYear, day⟩
    rw [year, monthOfYear]
    exact ⟨by omega, day⟩
  · rintro ⟨counted, day⟩
    have year : total / 12 = other.year := by omega
    have monthOfYear : (total % 12).toNat + 1 = other.month := by omega
    rw [year, monthOfYear]
    exact ⟨rfl, rfl, day⟩

theorem one_le_daysInMonth (year : ℤ) (month : ℕ) :
    1 ≤ daysInMonth year month := by
  unfold daysInMonth
  split
  · split <;> decide
  all_goals decide

theorem isSome_addMonths?_iff {date : Date} {months : ℤ} :
    (date.addMonths? months).isSome = true ↔
      firstYear * 12 ≤ date.monthNumber + months ∧
        date.monthNumber + months < (lastYear + 1) * 12 := by
  constructor
  · intro possible
    obtain ⟨other, reached⟩ := Option.isSome_iff_exists.mp possible
    have counted := (addMonths?_eq_some_iff.mp reached).1
    have year := other.year_mem
    have month := other.month_mem
    unfold monthNumber at counted ⊢
    omega
  · rintro ⟨lower, upper⟩
    simp only [addMonths?]
    unfold monthNumber at lower upper
    generalize date.year * 12 + (date.month - 1) + months =
      total at lower upper ⊢
    have hasDay := one_le_daysInMonth (total / 12) ((total % 12).toNat + 1)
    have dayPositive := date.day_mem.1
    rw [of?, dif_pos ⟨⟨by omega, by omega⟩, ⟨by omega, by omega⟩,
      le_min dayPositive hasDay, min_le_right _ _⟩]
    rfl

theorem isMotion_addMonths? (date : Date) : IsMotion date.addMonths? where
  lt_of_lt further atEarlier atLater := by
    have earlierMonth := (addMonths?_eq_some_iff.mp atEarlier).1
    have laterMonth := (addMonths?_eq_some_iff.mp atLater).1
    exact lt_of_monthNumber_lt (by omega)
  isSome_of_between above below atLow atHigh := by
    rw [isSome_addMonths?_iff] at *
    omega

@[simp]
theorem addMonths?_zero (date : Date) : date.addMonths? 0 = some date :=
  addMonths?_eq_some_iff.mpr
    ⟨(Int.add_zero _).symm, (min_eq_left date.day_mem.2).symm⟩

end Date

namespace Instant

theorem strictMono_midnight : StrictMono midnight :=
  fun _ _ before => lt_iff.mpr (Or.inl before)

theorem midnight_le (instant : Instant) : midnight instant.date ≤ instant := by
  rw [← not_lt, lt_iff]
  simp [midnight]

/-! ## Seconds -/

/--
The number of seconds from the first day of the year one.  A leap second has the
number of the second that it repeats.
-/
def secondNumber (instant : Instant) : ℤ :=
  instant.date.toDayNumber * secondsPerDay + instant.second

theorem lt_of_secondNumber_lt {earlier later : Instant}
    (before : earlier.secondNumber < later.secondNumber) : earlier < later := by
  have earlierSecond : earlier.second < 86400 := earlier.second_lt
  have laterSecond : later.second < 86400 := later.second_lt
  simp only [secondNumber, secondsPerDay] at before
  rw [lt_iff, Date.lt_iff_toDayNumber_lt]
  by_cases sameDay : earlier.date.toDayNumber = later.date.toDayNumber
  · exact Or.inr ⟨Date.toDayNumber_injective sameDay, Or.inl (by omega)⟩
  · exact Or.inl (by omega)

/--
The number of the second that a move starts at: back from a leap second, the
next one.
-/
def departure (instant : Instant) (seconds : ℤ) : ℤ :=
  instant.secondNumber + if instant.isLeap && seconds < 0 then 1 else 0

theorem departure_mem (instant : Instant) (seconds : ℤ) :
    instant.secondNumber ≤ instant.departure seconds ∧
      instant.departure seconds ≤ instant.secondNumber + 1 := by
  unfold departure
  split <;> omega

theorem departure_of_nonneg (instant : Instant) {seconds : ℤ}
    (forward : 0 ≤ seconds) :
    instant.departure seconds = instant.secondNumber := by
  simp [departure, not_lt.mpr forward]

theorem departure_of_neg (instant : Instant) {seconds other : ℤ}
    (back : seconds < 0)
    (otherBack : other < 0) :
    instant.departure seconds = instant.departure other := by
  simp [departure, back, otherBack]

theorem of?_eq_some_iff {date : Date} {second nanosecond : ℕ}
    {instant : Instant} :
    of? date second nanosecond = some instant ↔
      instant.date = date ∧ instant.second = second ∧
        instant.nanosecond = nanosecond := by
  constructor
  · exact of?_eq_some
  · rintro ⟨rfl, rfl, rfl⟩
    rw [of?,
      dif_pos ⟨instant.second_lt, instant.nanosecond_lt, instant.leap_second⟩]

/-- A move ends at the second counted, outside of leap seconds. -/
theorem addSeconds?_eq_some_iff {instant other : Instant} {seconds : ℤ}
    (moves : seconds ≠ 0) :
    instant.addSeconds? seconds = some other ↔
      other.secondNumber = instant.departure seconds + seconds ∧
        other.nanosecond = instant.nanosecond % nanosecondsPerSecond := by
  have otherSecond : other.second < 86400 := other.second_lt
  have start : instant.departure seconds = instant.date.toDayNumber * 86400 +
      if instant.isLeap && seconds < 0 then (instant.second : ℤ) + 1
      else instant.second := by
    simp only [departure, secondNumber, secondsPerDay]
    split <;> omega
  simp only [addSeconds?, if_neg moves]
  rw [start]
  generalize (if instant.isLeap && seconds < 0 then (instant.second : ℤ) + 1
    else instant.second) = second
  constructor
  · intro moved
    split at moved
    · next date reached =>
        obtain ⟨rfl, sameSecond, sameNanosecond⟩ := of?_eq_some moved
        have days := Date.toDayNumber_of_addDays? reached
        simp only [secondsPerDay] at days sameSecond
        simp only [secondNumber, secondsPerDay]
        exact ⟨by omega, sameNanosecond⟩
    · cases moved
  · rintro ⟨counted, fraction⟩
    simp only [secondNumber, secondsPerDay] at counted
    have reached : instant.date.addDays? ((second + seconds) / secondsPerDay) =
        some other.date := by
      rw [Date.addDays?_eq_some_iff]
      simp only [secondsPerDay]
      omega
    rw [reached, of?_eq_some_iff]
    refine ⟨rfl, ?_, fraction⟩
    simp only [secondsPerDay]
    omega

theorem isSome_addSeconds?_iff {instant : Instant} {seconds : ℤ}
    (moves : seconds ≠ 0) :
    (instant.addSeconds? seconds).isSome = true ↔
      (⊥ : Date).toDayNumber * secondsPerDay ≤
        instant.departure seconds + seconds ∧
        instant.departure seconds + seconds <
          ((⊤ : Date).toDayNumber + 1) * secondsPerDay := by
  generalize counted : instant.departure seconds + seconds = number
  constructor
  · intro possible
    obtain ⟨other, moved⟩ := Option.isSome_iff_exists.mp possible
    have reached := ((addSeconds?_eq_some_iff moves).mp moved).1
    have lower : (⊥ : Date).toDayNumber ≤ _ := other.date.toDayNumber_first_le
    have upper : _ ≤ (⊤ : Date).toDayNumber := other.date.toDayNumber_le_last
    have inDay := other.second_lt
    simp only [secondNumber, secondsPerDay] at reached inDay ⊢
    omega
  · rintro ⟨lower, upper⟩
    simp only [secondsPerDay] at lower upper
    obtain ⟨date, dated⟩ :
        ∃ date, Date.ofDayNumber? (number / 86400) = some date :=
      Option.isSome_iff_exists.mp (Date.isSome_ofDayNumber?_iff.mpr (by omega))
    have dayNumber := Date.toDayNumber_of_ofDayNumber? dated
    have inSecond :
        instant.nanosecond % nanosecondsPerSecond < nanosecondsPerSecond :=
      Nat.mod_lt _ (by decide)
    have inDay : (number % 86400).toNat < secondsPerDay := by
      simp only [secondsPerDay]
      omega
    obtain ⟨other, timed⟩ :=
      Option.ne_none_iff_exists'.mp (of?_ne_none date inDay inSecond)
    obtain ⟨rfl, sameSecond, fraction⟩ := of?_eq_some timed
    refine Option.isSome_iff_exists.mpr
      ⟨other, (addSeconds?_eq_some_iff moves).mpr ⟨?_, fraction⟩⟩
    simp only [secondNumber, secondsPerDay]
    omega

/-- Staying is possible, and leaves a leap second as it is. -/
@[simp]
theorem addSeconds?_zero (instant : Instant) :
    instant.addSeconds? 0 = some instant := by
  simp [addSeconds?]

/--
Back from a leap second, a move ends before it, even if it is a single second
long.
-/
theorem lt_of_addSeconds?_neg {instant earlier : Instant} {seconds : ℤ}
    (back : seconds < 0)
    (moved : instant.addSeconds? seconds = some earlier) :
    earlier < instant := by
  obtain ⟨counted, fraction⟩ := (addSeconds?_eq_some_iff back.ne).mp moved
  by_cases sameNumber : earlier.secondNumber = instant.secondNumber
  · have inLeap : instant.isLeap = true := by
      by_contra notLeap
      simp [departure, notLeap] at counted
      omega
    have inDay : earlier.second < 86400 := earlier.second_lt
    have instantInDay : instant.second < 86400 := instant.second_lt
    simp only [secondNumber, secondsPerDay] at sameNumber
    have shorter : earlier.nanosecond < instant.nanosecond := by
      have started : nanosecondsPerSecond ≤ instant.nanosecond :=
        of_decide_eq_true inLeap
      have inSecond :=
        Nat.mod_lt instant.nanosecond (show 0 < nanosecondsPerSecond by decide)
      omega
    rw [lt_iff]
    exact Or.inr
      ⟨Date.toDayNumber_injective (by omega), Or.inr ⟨by omega, shorter⟩⟩
  · apply lt_of_secondNumber_lt
    have := instant.departure_mem seconds
    omega

/--
A longer move ends later.  Staying is a case apart, since it alone can end in a
leap second.
-/
theorem lt_of_addSeconds?_lt {instant earlier later : Instant} {fewer more : ℤ}
    (further : fewer < more)
    (atEarlier : instant.addSeconds? fewer = some earlier)
    (atLater : instant.addSeconds? more = some later) : earlier < later := by
  by_cases fewerStays : fewer = 0
  · subst fewerStays
    cases (addSeconds?_zero instant).symm.trans atEarlier
    exact lt_of_addSeconds? further atLater
  by_cases moreStays : more = 0
  · subst moreStays
    cases (addSeconds?_zero instant).symm.trans atLater
    exact lt_of_addSeconds?_neg further atEarlier
  · have atFewer := ((addSeconds?_eq_some_iff fewerStays).mp atEarlier).1
    have atMore := ((addSeconds?_eq_some_iff moreStays).mp atLater).1
    have fewerStart := instant.departure_mem fewer
    apply lt_of_secondNumber_lt
    rcases lt_or_ge more 0 with back | forward
    · rw [instant.departure_of_neg (further.trans back) back] at atFewer
      omega
    · rw [instant.departure_of_nonneg forward] at atMore
      rcases lt_or_ge fewer 0 with apart | alike
      · omega
      · rw [instant.departure_of_nonneg alike] at atFewer
        omega

/--
A move that stops before the start or the end of the calendar is possible.
-/
theorem isSome_addSeconds?_of_between {instant : Instant} {low middle high : ℤ}
    (above : low ≤ middle) (below : middle ≤ high)
    (atLow : (instant.addSeconds? low).isSome = true)
    (atHigh : (instant.addSeconds? high).isSome = true) :
    (instant.addSeconds? middle).isSome = true := by
  by_cases stays : middle = 0
  · rw [stays, addSeconds?_zero]
    rfl
  have lowest : (⊥ : Date).toDayNumber ≤ _ := instant.date.toDayNumber_first_le
  have highest : _ ≤ (⊤ : Date).toDayNumber := instant.date.toDayNumber_le_last
  have inDay := instant.second_lt
  have here :
      instant.secondNumber =
        instant.date.toDayNumber * secondsPerDay + instant.second :=
    rfl
  rw [isSome_addSeconds?_iff stays]
  simp only [secondsPerDay] at *
  rcases lt_or_ge middle 0 with back | forward
  · rw [isSome_addSeconds?_iff (by omega),
      instant.departure_of_neg (by omega) back] at atLow
    have := instant.departure_mem middle
    simp only [secondsPerDay] at atLow
    omega
  · rw [isSome_addSeconds?_iff (by omega),
      instant.departure_of_nonneg (by omega)] at atHigh
    rw [instant.departure_of_nonneg forward]
    simp only [secondsPerDay] at atHigh
    omega

theorem isMotion_addSeconds? (instant : Instant) :
    IsMotion instant.addSeconds? where
  lt_of_lt := lt_of_addSeconds?_lt
  isSome_of_between := isSome_addSeconds?_of_between

end Instant

end SearchPhrase
