import SearchPhrase.Calendar.TimeExpression
import SearchPhrase.Proofs.Calendar.Motion

/-!
# Distances

The amount of a distance is a word, and so are the numbers of days, seconds and
months that are computed from it.  The words have limits, which differ from unit
to unit, but all of them lie outside the calendar: an amount that is refused for
its size also leads out of the calendar.  Where the computation does not provide
for a number that leaves its word, no amount makes it leave.  A distance
therefore leads where exact numbers lead.
-/

namespace SearchPhrase

/-! ## The extent of the calendar -/

namespace Date

theorem toDayNumber_bot : (⊥ : Date).toDayNumber = -95746130 := by
  decide

theorem toDayNumber_top : (⊤ : Date).toDayNumber = 95745398 := by
  decide

theorem toDayNumber_mem (date : Date) :
    -95746130 ≤ date.toDayNumber ∧ date.toDayNumber ≤ 95745398 := by
  rw [← toDayNumber_bot, ← toDayNumber_top]
  exact ⟨date.toDayNumber_first_le, date.toDayNumber_le_last⟩

theorem addDays?_eq_none (date : Date) {days : ℤ}
    (far : 200000000 ≤ days.natAbs) :
    date.addDays? days = none := by
  cases moved : date.addDays? days with
  | none => rfl
  | some other =>
      have counted := toDayNumber_of_addDays? moved
      have here := date.toDayNumber_mem
      have there := other.toDayNumber_mem
      omega

theorem addMonths?_eq_none (date : Date) {months : ℤ}
    (far : 7000000 ≤ months.natAbs) :
    date.addMonths? months = none := by
  cases moved : date.addMonths? months with
  | none => rfl
  | some other =>
      have counted := (addMonths?_eq_some_iff.mp moved).1
      have here := date.year_mem
      have there := other.year_mem
      have hereMonth := date.month_mem
      have thereMonth := other.month_mem
      simp only [monthNumber, firstYear, lastYear] at *
      omega

end Date

theorem Instant.addSeconds?_eq_none (instant : Instant) {seconds : ℤ}
    (far : 20000000000000 ≤ seconds.natAbs) :
    instant.addSeconds? seconds = none := by
  cases moved : instant.addSeconds? seconds with
  | none => rfl
  | some other =>
      have counted := ((addSeconds?_eq_some_iff (by omega)).mp moved).1
      have start := instant.departure_mem seconds
      have here := instant.date.toDayNumber_mem
      have there := other.date.toDayNumber_mem
      have hereSecond := instant.second_lt
      have thereSecond := other.second_lt
      simp only [secondNumber, secondsPerDay] at *
      omega

/-! ## Words -/

namespace Numeral

theorem int64_mem (word : Int64) :
    -9223372036854775808 ≤ word.toInt ∧ word.toInt ≤ 9223372036854775807 :=
  ⟨word.minValue_le_toInt, word.toInt_le⟩

/-- A number that fits is held by a word. -/
theorem exists_int64? {number : ℤ} (lower : -9223372036854775808 ≤ number)
    (upper : number ≤ 9223372036854775807) :
    ∃ word, int64? number = some word ∧ word.toInt = number := by
  have fits : int64? number = some (Int64.ofInt number) := if_pos ⟨lower, upper⟩
  exact ⟨_, fits, int64?_eq_some_iff.mp fits⟩

theorem exists_uint32? {number : ℤ} (nonneg : 0 ≤ number)
    (upper : number < 4294967296) :
    ∃ word, uint32? number = some word ∧ (word.toNat : ℤ) = number := by
  have fits : uint32? number = some (.ofNat number.toNat) :=
    if_pos ⟨nonneg, upper⟩
  exact ⟨_, fits, uint32?_eq_some_iff.mp fits⟩

theorem lt_of_int64?_eq_none {number : ℤ} (nonneg : 0 ≤ number)
    (refused : int64? number = none) : 9223372036854775807 < number := by
  by_contra small
  obtain ⟨word, fits, -⟩ :=
    exists_int64? (show -9223372036854775808 ≤ number by omega) (by omega)
  rw [refused] at fits
  cases fits

end Numeral

namespace Duration

theorem mostSeconds_eq : mostSeconds = 9223372036854775 := by
  decide

theorem ofUnits?_eq_some_iff {length : ℤ} {count : Int64}
    {duration : Duration} :
    ofUnits? length count = some duration ↔
      duration.seconds = count.toInt * length := by
  have inRange := duration.seconds_mem
  simp only [ofUnits?, Option.bind_eq_some_iff, Numeral.int64?_eq_some_iff]
  constructor
  · rintro ⟨seconds, product, found⟩
    unfold ofSeconds? at found
    split at found
    · cases found
      exact product
    · cases found
  · intro product
    have most := mostSeconds_eq
    obtain ⟨seconds, -, held⟩ := Numeral.exists_int64?
      (show -9223372036854775808 ≤ duration.seconds by omega) (by omega)
    refine ⟨seconds, held.trans product, ?_⟩
    simp only [held]
    rw [ofSeconds?, dif_pos inRange]

/--
A step that gives nothing for long times does not notice that durations have a
limit.
-/
theorem ofUnits?_bind {α : Type} {step : ℤ → Option α}
    (limited :
      ∀ seconds : ℤ, mostSeconds < seconds.natAbs → step seconds = none)
    (length : ℤ) (count : Int64) :
    ((ofUnits? length count).bind fun duration => step duration.seconds) =
      step (count.toInt * length) := by
  cases found : ofUnits? length count with
  | some duration => rw [Option.bind_some, ofUnits?_eq_some_iff.mp found]
  | none =>
      rw [Option.bind_none, limited]
      by_contra short
      have inRange : -mostSeconds ≤ count.toInt * length ∧
          count.toInt * length ≤ mostSeconds := by omega
      have fits : ofUnits? length count = some ⟨_, inRange⟩ :=
        ofUnits?_eq_some_iff.mpr rfl
      rw [found] at fits
      cases fits

end Duration

theorem TimeDirection.natAbs_sign_mul (direction : TimeDirection) (amount : ℤ) :
    (direction.sign * amount).natAbs = amount.natAbs := by
  cases direction <;> simp [sign]

/-- An amount that is not negative can be turned to either direction. -/
theorem TimeDirection.signed_eq (direction : TimeDirection) {amount : Int64}
    (nonneg : 0 ≤ amount.toInt) :
    ∃ moved, direction.signed amount = .ok moved ∧
      moved.toInt = direction.sign * amount.toInt := by
  have inWord := Numeral.int64_mem amount
  obtain ⟨moved, fits, held⟩ : ∃ moved,
      Numeral.int64? (direction.sign * amount.toInt) = some moved ∧
        moved.toInt = direction.sign * amount.toInt := by
    cases direction <;> exact Numeral.exists_int64? (by simp only [sign]; omega)
      (by simp only [sign]; omega)
  refine ⟨moved, ?_, held⟩
  rw [signed, fits]
  rfl

namespace TimeExpression

/-! ## Exact distances -/

/--
The instant a number of units away, counted exactly and negative towards the
past.
-/
def exactMove? (reference : Instant) (unit : TimeUnit) (amount : ℤ) :
    Option Instant :=
  match unit with
  | .minute => reference.addSeconds? (60 * amount)
  | .hour => reference.addSeconds? (3600 * amount)
  | .day => (reference.date.addDays? amount).map .midnight
  | .week => (reference.date.addDays? (7 * amount)).map .midnight
  | .month => (reference.date.addMonths? amount).map .midnight
  | .year => (reference.date.addMonths? (12 * amount)).map .midnight

/-- No unit is so short that a long distance in it stays in the calendar. -/
theorem exactMove?_eq_none (reference : Instant) (unit : TimeUnit) {amount : ℤ}
    (far : 1000000000000 ≤ amount.natAbs) :
    exactMove? reference unit amount = none := by
  cases unit with
  | minute => exact reference.addSeconds?_eq_none (by omega)
  | hour => exact reference.addSeconds?_eq_none (by omega)
  | day =>
      have gone :=
        reference.date.addDays?_eq_none
          (show 200000000 ≤ amount.natAbs by omega)
      rw [exactMove?, gone, Option.map_none]
  | week =>
      have gone :=
        reference.date.addDays?_eq_none
          (show 200000000 ≤ (7 * amount).natAbs by omega)
      rw [exactMove?, gone, Option.map_none]
  | month =>
      have gone :=
        reference.date.addMonths?_eq_none
          (show 7000000 ≤ amount.natAbs by omega)
      rw [exactMove?, gone, Option.map_none]
  | year =>
      have gone :=
        reference.date.addMonths?_eq_none
          (show 7000000 ≤ (12 * amount).natAbs by omega)
      rw [exactMove?, gone, Option.map_none]

section Words

variable (reference : Instant) (direction : TimeDirection) {amount : Int64}

theorem moveClock_eq (nonneg : 0 ≤ amount.toInt) (length : ℤ) :
    moveClock reference direction length amount =
      .ok
        (reference.addSeconds? (length * (direction.sign * amount.toInt))) := by
  obtain ⟨moved, fits, held⟩ := direction.signed_eq nonneg
  have limited (seconds : ℤ) (long : Duration.mostSeconds < seconds.natAbs) :
      reference.addSeconds? seconds = none := by
    rw [Duration.mostSeconds_eq] at long
    exact reference.addSeconds?_eq_none (by omega)
  have unlimited := Duration.ofUnits?_bind limited length moved
  rw [held, Int.mul_comm] at unlimited
  rw [← unlimited, moveClock, fits]
  rfl

theorem moveDays_eq (nonneg : 0 ≤ amount.toInt) :
    moveDays reference direction amount =
      .ok
        ((reference.date.addDays? (direction.sign * amount.toInt)).map
          .midnight) := by
  obtain ⟨moved, fits, held⟩ := direction.signed_eq nonneg
  have limited (seconds : ℤ) (long : Duration.mostSeconds < seconds.natAbs) :
      reference.date.addDays? (seconds.tdiv secondsPerDay) = none := by
    rw [Duration.mostSeconds_eq] at long
    apply reference.date.addDays?_eq_none
    have wholeDays : 200000000 ≤ seconds.natAbs / 86400 := by omega
    rwa [Int.natAbs_tdiv]
  have unlimited := Duration.ofUnits?_bind limited secondsPerDay moved
  rw [Int.mul_tdiv_cancel _ (by decide), held] at unlimited
  rw [← unlimited, moveDays, fits]
  rfl

theorem moveMonths?_eq (nonneg : 0 ≤ amount.toInt) :
    moveMonths? reference direction amount =
      (reference.date.addMonths? (direction.sign * amount.toInt)).map
        .midnight := by
  unfold moveMonths?
  split
  · next months held => rw [Numeral.uint32?_eq_some_iff.mp held]
  · next large =>
      have far : 7000000 ≤ (direction.sign * amount.toInt).natAbs := by
        rw [direction.natAbs_sign_mul]
        by_contra near
        obtain ⟨months, fits, -⟩ := Numeral.exists_uint32? nonneg (by omega)
        rw [large] at fits
        cases fits
      rw [reference.date.addMonths?_eq_none far, Option.map_none]

/--
An amount that leaves its word, even if multiplied first, leads out of the
calendar.
-/
theorem exactMove?_of_int64?_eq_none (unit : TimeUnit) {number factor : ℤ}
    (nonneg : 0 ≤ number)
    (large : Numeral.int64? (number * factor) = none) (positive : 0 < factor)
    (small : factor ≤ 12) :
    exactMove? reference unit (direction.sign * number) = none := by
  have beyond :=
    Numeral.lt_of_int64?_eq_none (Int.mul_nonneg nonneg positive.le) large
  have atMost := Int.mul_le_mul_of_nonneg_left small nonneg
  apply exactMove?_eq_none
  rw [direction.natAbs_sign_mul]
  omega

/-- Moving by an amount in a word is moving by the amount. -/
theorem move_eq (nonneg : 0 ≤ amount.toInt) (unit : TimeUnit) :
    move reference direction amount unit =
      .ok (exactMove? reference unit (direction.sign * amount.toInt)) := by
  have turned (factor : ℤ) : direction.sign * (amount.toInt * factor) =
      factor * (direction.sign * amount.toInt) := by
    rw [Int.mul_comm factor, Int.mul_assoc]
  cases unit with
  | minute => exact moveClock_eq reference direction nonneg 60
  | hour => exact moveClock_eq reference direction nonneg 3600
  | day => exact moveDays_eq reference direction nonneg
  | week =>
      rw [move]
      split
      · next days held =>
          have product := Numeral.int64?_eq_some_iff.mp held
          rw [moveDays_eq reference direction (by omega), product, turned]
          rfl
      · next large =>
          rw [exactMove?_of_int64?_eq_none reference direction .week nonneg
            large (by decide) (by decide)]
          rfl
  | month =>
      exact congrArg Except.ok (moveMonths?_eq reference direction nonneg)
  | year =>
      rw [move]
      cases held : Numeral.int64? (amount.toInt * 12) with
      | some months =>
          have product := Numeral.int64?_eq_some_iff.mp held
          rw [Option.bind_some, moveMonths?_eq reference direction (by omega),
            product, turned]
          rfl
      | none =>
          rw [exactMove?_of_int64?_eq_none reference direction .year nonneg held
            (by decide) (by decide)]
          rfl

end Words

/-- A distance leads where it leads in exact numbers, whatever its amount. -/
theorem resolve_distance (reference : Instant) (amount : ℕ) (unit : TimeUnit)
    (direction : TimeDirection) :
    resolve reference (.distance amount unit direction) =
      .ok (exactMove? reference unit (direction.sign * amount)) := by
  rw [resolve]
  split
  · next word held =>
      have same := Numeral.int64?_eq_some_iff.mp held
      rw [move_eq reference direction (by omega), same]
  · next large =>
      rw [← Int.mul_one amount] at large
      rw [exactMove?_of_int64?_eq_none reference direction unit
        (Int.natCast_nonneg amount) large (by decide) (by decide)]

/-! ## The order of distances -/

/-- Distances in any unit lead later the more they lie ahead. -/
theorem isMotion_exactMove? (reference : Instant) (unit : TimeUnit) :
    IsMotion (exactMove? reference unit) := by
  cases unit with
  | minute => exact reference.isMotion_addSeconds?.scale (by decide)
  | hour => exact reference.isMotion_addSeconds?.scale (by decide)
  | day =>
      exact reference.date.isMotion_addDays?.map Instant.strictMono_midnight
  | week =>
      exact (reference.date.isMotion_addDays?.scale (by decide)).map
        Instant.strictMono_midnight
  | month =>
      exact reference.date.isMotion_addMonths?.map Instant.strictMono_midnight
  | year =>
      exact (reference.date.isMotion_addMonths?.scale (by decide)).map
        Instant.strictMono_midnight

/-- A distance of nothing leads to the reference, or to the start of its day. -/
theorem exactMove?_zero (reference : Instant) (unit : TimeUnit) :
    exactMove? reference unit 0 =
      some
        (if unit = .minute ∨ unit = .hour then reference
        else .midnight reference.date) := by
  cases unit <;> simp [exactMove?]

end TimeExpression

end SearchPhrase
