import Mathlib.Order.Bounds.Basic
import SearchPhrase.Proofs.Calendar.DistanceReading

/-!
# Days of the week

A text that names a day of the week stands for the latest such day up to the
reference.  The day is found by counting back at most six days, so it can lie
before the first day of the calendar, and the days of the week are therefore
those of all day numbers here.

The main statement is that such a day before the calendar is the only fault of
reading: none of the computations with words that are taken to fit leaves its
word, for any text and any reference.
-/

namespace SearchPhrase

/-! ## Steps in words -/

theorem orOverflow_bind {α β : Type} {found : Option α} {result : α}
    (fits : found = some result)
    (next : α → Except CalendarFault β) :
    (orOverflow found >>= next) = next result := by
  rw [fits]
  rfl

theorem Numeral.toInt_ofNat_mod_seven (word : UInt32) :
    (Int64.ofNat (word % 7).toNat).toInt = (word.toNat : ℤ) % 7 := by
  have remainder : (word % 7).toNat = word.toNat % 7 := UInt32.toNat_mod word 7
  rw [Int64.toInt_ofNat_of_lt (by omega), remainder, Int.natCast_emod]
  rfl

/-- A duration of at most as many days as the seconds of a duration allow. -/
theorem Duration.exists_ofDays {count : Int64}
    (few : count.toInt.natAbs ≤ 106751991167) :
    ∃ duration, ofUnits? secondsPerDay count = some duration ∧
      duration.days = count.toInt := by
  have inRange : -mostSeconds ≤ count.toInt * secondsPerDay ∧
      count.toInt * secondsPerDay ≤ mostSeconds := by
    rw [mostSeconds_eq]
    simp only [secondsPerDay]
    omega
  exact ⟨⟨_, inRange⟩, ofUnits?_eq_some_iff.mpr rfl,
    Int.mul_tdiv_cancel _ (by decide)⟩

/-! ## Days of the week of day numbers -/

namespace Weekday

/-- The day of the week of a day number, in the calendar or beyond it. -/
def ofDayNumber (number : ℤ) : Weekday :=
  all.getD (number % 7).toNat .monday

theorem sinceMonday_ofDayNumber (number : ℤ) :
    ((ofDayNumber number).sinceMonday : ℤ) = number % 7 := by
  have remainder : (number % 7).toNat < 7 := by omega
  have listed : ∀ days < 7, (all.getD days .monday).sinceMonday = days := by
    decide
  rw [ofDayNumber, listed _ remainder]
  omega

theorem sinceMonday_injective : Function.Injective sinceMonday := by
  intro weekday other
  cases weekday <;> cases other <;> simp [sinceMonday]

theorem ofDayNumber_eq_iff {number : ℤ} {weekday : Weekday} :
    ofDayNumber number = weekday ↔ number % 7 = weekday.sinceMonday := by
  rw [← sinceMonday_ofDayNumber, Int.natCast_inj, sinceMonday_injective.eq_iff]

/-- The day of the week that comes after another. -/
def next : Weekday → Weekday
  | .monday => .tuesday
  | .tuesday => .wednesday
  | .wednesday => .thursday
  | .thursday => .friday
  | .friday => .saturday
  | .saturday => .sunday
  | .sunday => .monday

theorem ofDayNumber_succ (number : ℤ) :
    ofDayNumber (number + 1) = (ofDayNumber number).next := by
  have today := sinceMonday_ofDayNumber number
  rw [ofDayNumber_eq_iff]
  cases named : ofDayNumber number <;> rw [named] at today <;>
    simp only [next, sinceMonday] at today ⊢ <;> omega

/-! ## The latest day of a name -/

/--
The numbers of the days with a given name up to a date, also before the
calendar.
-/
def daysUntil (weekday : Weekday) (date : Date) : Set ℤ :=
  {number | number ≤ date.toDayNumber ∧ ofDayNumber number = weekday}

/-- The days back from a date to the latest day with a given name. -/
def daysBack (weekday : Weekday) (date : Date) : ℤ :=
  (date.toDayNumber - weekday.sinceMonday) % 7

theorem sinceMonday_lt (weekday : Weekday) : weekday.sinceMonday < 7 := by
  cases weekday <;> decide

theorem isGreatest_sub_daysBack (weekday : Weekday) (date : Date) :
    IsGreatest (weekday.daysUntil date)
      (date.toDayNumber - weekday.daysBack date) := by
  have inWeek := weekday.sinceMonday_lt
  constructor
  · refine ⟨?_, ofDayNumber_eq_iff.mpr ?_⟩ <;> simp only [daysBack] <;> omega
  · rintro number ⟨upTo, named⟩
    rw [ofDayNumber_eq_iff] at named
    simp only [daysBack]
    omega

/-- The latest day with a name is the only one in the week up to a date. -/
theorem isGreatest_daysUntil_iff {weekday : Weekday} {date : Date}
    {number : ℤ} :
    IsGreatest (weekday.daysUntil date) number ↔
      ofDayNumber number = weekday ∧ number ≤ date.toDayNumber ∧
        date.toDayNumber ≤ number + 6 := by
  have greatest := weekday.isGreatest_sub_daysBack date
  have inWeek := weekday.sinceMonday_lt
  constructor
  · intro alsoGreatest
    have same := alsoGreatest.unique greatest
    refine ⟨alsoGreatest.1.2, alsoGreatest.1.1, ?_⟩
    simp only [daysBack] at same
    omega
  · rintro ⟨named, upTo, near⟩
    have latest := greatest.2 ⟨upTo, named⟩
    rw [ofDayNumber_eq_iff] at named
    have same : number = date.toDayNumber - weekday.daysBack date := by
      simp only [daysBack] at latest ⊢
      omega
    rwa [same]

end Weekday

namespace Date

/-- The day of the week of a date. -/
def weekday (date : Date) : Weekday :=
  .ofDayNumber date.toDayNumber

/-- The days of the week of one date and the next come one after the other. -/
theorem weekday_of_addDays?_one {date following : Date}
    (follows : date.addDays? 1 = some following) :
    following.weekday = date.weekday.next := by
  rw [weekday, addDays?_eq_some_iff.mp follows]
  exact Weekday.ofDayNumber_succ date.toDayNumber

example : ((of? 2024 3 13).get rfl).weekday = .wednesday := by decide

/-- Counting back to a day of the week fits in words, whatever the date. -/
theorem mostRecent_eq (date : Date) (weekday : Weekday) :
    date.mostRecent weekday =
      match date.addDays? (-weekday.daysBack date) with
      | some recent => .ok recent
      | none => .error .beforeFirstDay := by
  have inWeek := weekday.sinceMonday_lt
  have counted : (date.sinceMonday : ℤ) = date.toDayNumber % 7 := by
    rw [sinceMonday]
    omega
  obtain ⟨ahead, aheadFits, aheadHeld⟩ := Numeral.exists_uint32?
    (show (0 : ℤ) ≤ date.sinceMonday + 7 by omega) (by omega)
  obtain ⟨back, backFits, backHeld⟩ := Numeral.exists_uint32?
    (show (0 : ℤ) ≤ ahead.toNat - weekday.sinceMonday by omega) (by omega)
  have days : (Int64.ofNat (back % 7).toNat).toInt = weekday.daysBack date := by
    rw [Numeral.toInt_ofNat_mod_seven, Weekday.daysBack]
    omega
  obtain ⟨duration, measured, whole⟩ := Duration.exists_ofDays
    (show (Int64.ofNat (back % 7).toNat).toInt.natAbs ≤ 106751991167 by
      rw [days, Weekday.daysBack]
      omega)
  rw [mostRecent, orOverflow_bind aheadFits, orOverflow_bind backFits,
    orOverflow_bind measured, subDuration?, whole, days]
  rfl

theorem mostRecent_eq_ok_iff {date recent : Date} {weekday : Weekday} :
    date.mostRecent weekday = .ok recent ↔
      IsGreatest (weekday.daysUntil date) recent.toDayNumber := by
  have greatest := weekday.isGreatest_sub_daysBack date
  have found : date.mostRecent weekday = .ok recent ↔
      date.addDays? (-weekday.daysBack date) = some recent := by
    rw [mostRecent_eq]
    cases date.addDays? (-weekday.daysBack date) <;> simp
  rw [found, addDays?_eq_some_iff, ← Int.sub_eq_add_neg]
  constructor
  · intro number
    rwa [number]
  · exact fun alsoGreatest => alsoGreatest.unique greatest

/--
Counting back to a day of the week fails only if that day lies before the
calendar.
-/
theorem mostRecent_eq_error_iff {date : Date} {weekday : Weekday}
    {fault : CalendarFault} :
    date.mostRecent weekday = .error fault ↔
      fault = .beforeFirstDay ∧
        ∃ latest, IsGreatest (weekday.daysUntil date) latest ∧
        latest < (⊥ : Date).toDayNumber := by
  have greatest := weekday.isGreatest_sub_daysBack date
  have inCalendar := date.toDayNumber_mem
  have reaches : date.addDays? (-weekday.daysBack date) = none ↔
      date.toDayNumber - weekday.daysBack date < (⊥ : Date).toDayNumber := by
    rw [← Option.not_isSome_iff_eq_none, isSome_addDays?_iff, toDayNumber_top]
    have upTo := greatest.1.1
    omega
  have failed : date.mostRecent weekday = .error fault ↔
      fault = .beforeFirstDay ∧
        date.addDays? (-weekday.daysBack date) = none := by
    rw [mostRecent_eq]
    cases date.addDays? (-weekday.daysBack date) <;> simp [eq_comm]
  rw [failed, reaches]
  refine and_congr_right fun _ => ⟨fun before => ⟨_, greatest, before⟩, ?_⟩
  rintro ⟨latest, alsoGreatest, before⟩
  rwa [← alsoGreatest.unique greatest]

end Date

/-! ## Names of days of the week -/

namespace Weekday

/--
A text names a day of the week in full or by three letters, with its letters in
any case.
-/
def IsNamedBy (weekday : Weekday) (text : List Char) : Prop :=
  text.map Char.toLower = weekday.name.toList ∨
    text.map Char.toLower = weekday.shortName.toList

theorem ofName?_eq_some_iff {text : List Char} {weekday : Weekday} :
    ofName? text = some weekday ↔ weekday.IsNamedBy text := by
  constructor
  · intro found
    simpa [IsNamedBy, Text.equalsIgnoringCase] using List.find?_some found
  · rintro (full | short)
    · simp only [ofName?, Text.equalsIgnoringCase, full]
      cases weekday <;> rfl
    · simp only [ofName?, Text.equalsIgnoringCase, short]
      cases weekday <;> rfl

end Weekday

theorem Weekday.all_isDigit_of_isNamedBy {text : List Char} {weekday : Weekday}
    (named : weekday.IsNamedBy text) : text.all Char.isDigit = false := by
  rw [Bool.eq_false_iff]
  intro digits
  have lowered : (text.map Char.toLower).all Char.isDigit = true := by
    rw [List.all_map, List.all_eq_true]
    intro character member
    have digit := List.all_eq_true.mp digits character member
    show character.toLower.isDigit = true
    rwa [Text.toLower_of_isDigit digit]
  rcases named with full | short
  · rw [full] at lowered
    cases weekday <;> cases lowered
  · rw [short] at lowered
    cases weekday <;> cases lowered

theorem Text.map_lowerCase {text keyword : List Char}
    (lowered : text.map Char.toLower = keyword)
    (plain : '\u212a' ∉ keyword) : text.map lowerCase = keyword := by
  rw [← lowered]
  apply List.map_congr_left
  intro character member
  refine if_neg fun isKelvin => plain ?_
  rw [← lowered, List.mem_map]
  exact ⟨character, member, by rw [beq_iff_eq.mp isKelvin]; rfl⟩

namespace TimeExpression

theorem dayName?_ne_weekday (text : List Char) (weekday : Weekday) :
    dayName? text ≠ some (.weekday weekday) := by
  unfold dayName?
  split_ifs <;> simp

theorem dayName?_eq_none_of_isNamedBy {text : List Char} {weekday : Weekday}
    (named : weekday.IsNamedBy text) : dayName? text = none := by
  rcases named with full | short
  · have lowered := Text.map_lowerCase full (by cases weekday <;> decide)
    simp only [dayName?, Text.lowersTo, lowered]
    cases weekday <;> rfl
  · have lowered := Text.map_lowerCase short (by cases weekday <;> decide)
    simp only [dayName?, Text.lowersTo, lowered]
    cases weekday <;> rfl

/--
A text is read as a day of the week if it names one, apart from blanks at its
ends.
-/
theorem ofText?_eq_some_weekday_iff {text : String} {weekday : Weekday} :
    ofText? text = some (.weekday weekday) ↔
      weekday.IsNamedBy (Text.trim text.toList) := by
  rw [← Weekday.ofName?_eq_some_iff]
  constructor
  · intro found
    simp only [ofText?, Option.ite_none_left_eq_some,
      Option.orElse_eq_some] at found
    rcases found.2 with day | ⟨-, named | ⟨-, distance | ⟨-, written⟩⟩⟩
    · exact absurd day (dayName?_ne_weekday _ weekday)
    · simpa using named
    · unfold distance? at distance
      split at distance <;> simp at distance
    · simp at written
  · intro found
    have named := Weekday.ofName?_eq_some_iff.mp found
    simp only [ofText?, Weekday.all_isDigit_of_isNamedBy named,
      dayName?_eq_none_of_isNamedBy named, found]
    rfl

theorem resolve_eq_error_iff {reference : Instant} {expression : TimeExpression}
    {fault : CalendarFault} :
    expression.resolve reference = .error fault ↔
      ∃ weekday, expression = .weekday weekday ∧
        reference.date.mostRecent weekday = .error fault := by
  cases expression with
  | weekday named =>
      rw [resolve]
      cases found : reference.date.mostRecent named <;> simp [Except.map, found]
  | distance amount unit direction => simp [resolve_distance]
  | _ => simp [resolve]

theorem read_eq_error_iff {reference : Instant} {text : String}
    {fault : CalendarFault} :
    read reference text = .error fault ↔
      ∃ weekday : Weekday, weekday.IsNamedBy (Text.trim text.toList) ∧
        reference.date.mostRecent weekday = .error fault := by
  simp only [← ofText?_eq_some_weekday_iff]
  cases found : ofText? text with
  | none => simp [read, found]
  | some expression =>
      have resolved : read reference text = expression.resolve reference := by
        rw [read, found]
      simp [resolved, resolve_eq_error_iff]

theorem read_of_isNamedBy (reference : Instant)
    {text : String} {weekday : Weekday}
    (named : weekday.IsNamedBy (Text.trim text.toList)) :
    read reference text =
      (reference.date.mostRecent weekday).map fun date =>
        some (.midnight date) := by
  rw [read, ofText?_eq_some_weekday_iff.mpr named]
  rfl

/--
Reading fails in one case only: the text names a day of the week, and the latest
such day up to the reference lies before the calendar.  No text makes a number
leave its word.  Wherever the name of a day of the week does not fail, it is
read as the start of that day, the only one of its name among the reference and
the six days before it.
-/
theorem fault_iff_weekday_before_calendar (reference : Instant)
    (text : String) :
    (∀ fault, read reference text = .error fault ↔
      fault = .beforeFirstDay ∧ ∃ (weekday : Weekday) (latest : ℤ),
        weekday.IsNamedBy (Text.trim text.toList) ∧
          IsGreatest (weekday.daysUntil reference.date) latest ∧
            latest < (⊥ : Date).toDayNumber) ∧
    ∀ weekday : Weekday, weekday.IsNamedBy (Text.trim text.toList) →
      (∃ fault, read reference text = .error fault) ∨
      ∃ date, read reference text = .ok (some (.midnight date)) ∧
        ∀ other : Date, (other.weekday = weekday ∧ other ≤ reference.date ∧
          reference.date.toDayNumber ≤ other.toDayNumber + 6) ↔
            other = date := by
  constructor
  · intro fault
    simp only [read_eq_error_iff, Date.mostRecent_eq_error_iff]
    constructor
    · rintro ⟨weekday, named, rfl, latest, greatest, before⟩
      exact ⟨rfl, weekday, latest, named, greatest, before⟩
    · rintro ⟨rfl, weekday, latest, named, greatest, before⟩
      exact ⟨weekday, named, rfl, latest, greatest, before⟩
  · intro weekday named
    rw [read_of_isNamedBy reference named]
    cases recent : reference.date.mostRecent weekday with
    | error fault => exact Or.inl ⟨fault, rfl⟩
    | ok date =>
        refine Or.inr ⟨date, rfl, fun other => ?_⟩
        have greatest := Date.mostRecent_eq_ok_iff.mp recent
        rw [Date.le_iff_toDayNumber_le, Date.weekday,
          ← Weekday.isGreatest_daysUntil_iff]
        constructor
        · exact fun alsoGreatest =>
            Date.toDayNumber_injective (alsoGreatest.unique greatest)
        · rintro rfl
          exact greatest

/--
The calendar starts on a Thursday: the Wednesday before fails, and Thursday is
the first day.
-/
theorem fault_iff_weekday_before_calendar_first_day :
    read (.midnight ⊥) " WED " = .error .beforeFirstDay ∧
      read (.midnight ⊥) "Thursday" = .ok (some (.midnight ⊥)) := by
  have latest : IsGreatest (Weekday.daysUntil .wednesday ⊥) (-95746131) :=
    Weekday.isGreatest_daysUntil_iff.mpr (by decide)
  have named : Weekday.IsNamedBy .thursday (Text.trim "Thursday".toList) :=
    Or.inl rfl
  have itself : (Instant.midnight ⊥).date.mostRecent .thursday = .ok ⊥ :=
    Date.mostRecent_eq_ok_iff.mpr
      (Weekday.isGreatest_daysUntil_iff.mpr (by decide))
  have wednesday :=
    (fault_iff_weekday_before_calendar (.midnight ⊥) " WED ").1 .beforeFirstDay
  have thursday :=
    (fault_iff_weekday_before_calendar (.midnight ⊥) "Thursday").2
      .thursday named
  refine ⟨wednesday.mpr ⟨rfl, .wednesday, _, Or.inr rfl, latest, by decide⟩, ?_⟩
  rcases thursday with ⟨fault, failed⟩ | ⟨date, isRead, unique⟩
  · rw [read_of_isNamedBy (.midnight ⊥) named, itself] at failed
    cases failed
  · rw [isRead, (unique ⊥).mp (by decide)]

end TimeExpression

end SearchPhrase
