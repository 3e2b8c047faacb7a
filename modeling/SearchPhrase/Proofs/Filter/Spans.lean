import SearchPhrase.Proofs.Filter.Verdict

/-!
# Tests by spans of time

A value of a temporal field denotes a span of time, which starts at the instant
that the value writes and ends before another one: a day for fields of days, and
a minute, an hour or a day for fields of instants.  Each operator asks how a
time lies to the span.  The tests of the operators are built in different ways,
with bounds that are moved to the end of the span.  The main statement is that
they fit together: every time is before the span, in it or after it, and is in
only one of these three places.
-/

namespace SearchPhrase

namespace Comparison

/-- The operators that compare times. -/
def ordering : List Comparison :=
  [.less, .equal, .greater, .lessOrEqual, .greaterOrEqual]

/--
Whether an operator relates a value to the span from a start to before a stop.
-/
def relatesToSpan {α : Type} [LinearOrder α] (value start stop : α) :
    Comparison → Bool
  | .less => value < start
  | .equal => start ≤ value && value < stop
  | .different => !(start ≤ value && value < stop)
  | .greater => stop ≤ value
  | .lessOrEqual => value < stop
  | .greaterOrEqual => start ≤ value
  | .like | .unlike => false

/-- The verdicts of the operators on one value fit together. -/
structure Coherent (holds : Comparison → Bool) : Prop where
  exactly_one : [holds .less, holds .equal, holds .greater].count true = 1
  lessOrEqual : holds .lessOrEqual = (holds .less || holds .equal)
  greaterOrEqual : holds .greaterOrEqual = (holds .equal || holds .greater)

/-- A value lies before a span, in it or after it. -/
theorem coherent_relatesToSpan
    {α : Type} [LinearOrder α] (value : α) {start stop : α}
    (ordered : start ≤ stop) :
    Coherent (relatesToSpan value start stop) := by
  rcases lt_or_ge value start with before | started
  · have notStarted : ¬ start ≤ value := not_le_of_gt before
    have notOver : value < stop := lt_of_lt_of_le before ordered
    constructor <;>
      simp [relatesToSpan, before, notStarted, notOver, not_le_of_gt notOver]
  · rcases lt_or_ge value stop with within | past
    · constructor <;>
        simp [relatesToSpan, started, within, not_lt_of_ge started,
          not_le_of_gt within]
    · constructor <;>
        simp [relatesToSpan, started, past, not_lt_of_ge started,
          not_lt_of_ge past]

end Comparison

namespace FieldTest

/-- The tests of a field by the operators give coherent verdicts on a value. -/
def Coherent (field : Field) (tests : Comparison → FieldTest)
    (value : RecordValue) : Prop :=
  ∃ holds : Comparison → Bool,
    Comparison.Coherent holds ∧
      ∀ operator ∈ Comparison.ordering,
        (tests operator).filter.verdict? field value = some (holds operator)

/--
The tests of a field ask how the stored values lie to a span with a given start.
-/
def CompareWithSpan {α : Type} [LinearOrder α] (field : Field)
    (tests : Comparison → FieldTest)
    (stored : α → RecordValue) (start : α) : Prop :=
  ∃ stop, start < stop ∧
    ∀ value, ∀ operator ∈ Comparison.ordering,
      (tests operator).filter.verdict? field (stored value) =
        some (operator.relatesToSpan value start stop)

/--
Tests that compare with a span are coherent, and its start is equal to it.
-/
theorem CompareWithSpan.coherent
    {α : Type} [LinearOrder α] {field : Field} {tests : Comparison → FieldTest}
    {stored : α → RecordValue} {start : α}
    (compare : CompareWithSpan field tests stored start) :
    (∀ value, Coherent field tests (stored value)) ∧
      (tests .equal).filter.verdict? field (stored start) = some true := by
  obtain ⟨stop, later, verdicts⟩ := compare
  constructor
  · intro value
    exact ⟨_, Comparison.coherent_relatesToSpan value later.le, verdicts value⟩
  · rw [verdicts start .equal (by decide)]
    simp [Comparison.relatesToSpan, later]

/-! ## Fields of days -/

theorem addDays?_of_nextDay {date next : Date}
    (following : nextDay date = .ok next) :
    date.addDays? 1 = some next := by
  unfold nextDay at following
  split at following
  · next found =>
      cases following
      exact found
  · cases following

/-- The test of a field of days asks how a date lies to a day. -/
theorem verdict?_of_day
    {field : Field} {operator : Comparison} {date next : Date}
    {test : FieldTest}
    (listed : operator ∈ Comparison.ordering)
    (following : nextDay date = .ok next)
    (tested : day field operator date = .ok test) (stored : Date) :
    test.filter.verdict? field (.ofDate stored) =
      some (operator.relatesToSpan stored date next) := by
  have sameDay : stored = date ↔ date ≤ stored ∧ stored < next := by
    rw [Date.lt_next_iff (addDays?_of_nextDay following), and_comm,
      ← le_antisymm_iff]
  simp only [Comparison.ordering, List.mem_cons, List.not_mem_nil,
    or_false] at listed
  rcases listed with rfl | rfl | rfl | rfl | rfl
  · cases tested
    exact verdict?_comparison field (.ofDate stored) .less (.date date)
  · cases tested
    rw [verdict?_comparison, RecordValue.satisfies_ofDate]
    simp only [Comparison.relates, Comparison.relatesToSpan, sameDay,
      Bool.decide_and]
  · rw [day, following] at tested
    cases tested
    exact verdict?_comparison field (.ofDate stored) .greaterOrEqual
      (.date next)
  · rw [day, following] at tested
    cases tested
    exact verdict?_comparison field (.ofDate stored) .less (.date next)
  · cases tested
    exact verdict?_comparison field (.ofDate stored) .greaterOrEqual
      (.date date)

/-- The tests of a field of days ask how a date lies to one day. -/
theorem compareWithSpan_day
    {field : Field} {date : Date} {tests : Comparison → FieldTest}
    (tested :
      ∀ operator ∈ Comparison.ordering,
        day field operator date = .ok (tests operator)) :
    CompareWithSpan field tests RecordValue.ofDate date := by
  have after : day field .greater date = .ok (tests .greater) :=
    tested .greater (by decide)
  obtain ⟨next, following, -⟩ := map_eq_ok after
  refine ⟨next, ?_, ?_⟩
  · exact (Date.lt_next_iff (addDays?_of_nextDay following)).mpr (le_refl date)
  · intro stored operator listed
    exact verdict?_of_day listed following (tested operator listed) stored

/-! ## Fields of instants -/

theorem spanSeconds_pos (value : String) (instant : Instant) :
    0 < spanSeconds value instant := by
  unfold spanSeconds
  split
  · decide
  · split <;> decide

/--
The test of a field of instants asks how an instant lies to a span of time.
-/
theorem verdict?_of_span
    {field : Field} {operator : Comparison} {value : String}
    {start stop : Instant}
    {test : FieldTest} (listed : operator ∈ Comparison.ordering)
    (ended : start.addSeconds? (spanSeconds value start) = some stop)
    (tested : span field operator value start = .ok test) (stored : Instant) :
    test.filter.verdict? field (.ofInstant stored) =
      some (operator.relatesToSpan stored start stop) := by
  simp only [span, ended] at tested
  simp only [Comparison.ordering, List.mem_cons, List.not_mem_nil,
    or_false] at listed
  rcases listed with rfl | rfl | rfl | rfl | rfl
  · cases tested
    exact verdict?_comparison field (.ofInstant stored) .less (.timestamp start)
  · cases tested
    exact verdict?_within field (.ofInstant stored) start stop
  · cases tested
    exact verdict?_comparison field (.ofInstant stored) .greaterOrEqual
      (.timestamp stop)
  · cases tested
    exact verdict?_comparison field (.ofInstant stored) .less (.timestamp stop)
  · cases tested
    exact verdict?_comparison field (.ofInstant stored) .greaterOrEqual
      (.timestamp start)

/--
The tests of a field of instants ask how an instant lies to one span of time.
-/
theorem compareWithSpan_span
    {field : Field} {value : String} {start : Instant}
    {tests : Comparison → FieldTest} (tested : ∀ operator ∈ Comparison.ordering,
      span field operator value start = .ok (tests operator)) :
    CompareWithSpan field tests RecordValue.ofInstant start := by
  cases ended : start.addSeconds? (spanSeconds value start) with
  | none =>
      have before := tested .less (by decide)
      simp only [span, ended] at before
      cases before
  | some stop =>
      refine ⟨stop,
        Instant.lt_of_addSeconds? (spanSeconds_pos value start) ended, ?_⟩
      intro stored operator listed
      exact verdict?_of_span listed ended (tested operator listed) stored

/-! ## Temporal fields -/

/--
Inversion of a temporal test: the instant that the value writes, and the test by
it.
-/
theorem temporal_eq_ok
    {reference : Instant} {field : Field} {operator : Comparison}
    {value : String}
    {test : FieldTest}
    (tested : temporal reference field operator value = .ok (some test)) :
    ∃ instant, TimeExpression.read reference value = .ok (some instant) ∧
      (field.type.isDay = true → day field operator instant.date = .ok test) ∧
      (field.type.isDay = false →
        span field operator value instant = .ok test) := by
  unfold temporal at tested
  split at tested
  · cases tested
  · cases tested
  · next instant written =>
      refine ⟨instant, written, ?_, ?_⟩
      · intro isDay
        rw [if_pos isDay] at tested
        exact map_some_eq_ok tested
      · intro notDay
        rw [if_neg (by simp [notDay])] at tested
        exact map_some_eq_ok tested

/--
The tests of a temporal field by one value are coherent, whatever date or
instant is stored.  The time that the value writes is equal to it.  All five
tests are built from that time.
-/
theorem temporal_tests_coherent
    {reference : Instant} {field : Field} {value : String}
    {tests : Comparison → FieldTest} (tested : ∀ operator ∈ Comparison.ordering,
      temporal reference field operator value = .ok (some (tests operator))) :
    ∃ instant, TimeExpression.read reference value = .ok (some instant) ∧
      (field.type.isDay = true →
        (∀ stored : Date, Coherent field tests (.ofDate stored)) ∧
          (tests .equal).filter.verdict? field (.ofDate instant.date) =
            some true) ∧
      (field.type.isDay = false →
        (∀ stored : Instant, Coherent field tests (.ofInstant stored)) ∧
          (tests .equal).filter.verdict? field (.ofInstant instant) =
            some true) := by
  obtain ⟨instant, written, -, -⟩ := temporal_eq_ok (tested .equal (by decide))
  have built : ∀ operator ∈ Comparison.ordering,
      (field.type.isDay = true →
        day field operator instant.date = .ok (tests operator)) ∧
      (field.type.isDay = false →
        span field operator value instant = .ok (tests operator)) := by
    intro operator listed
    obtain ⟨other, same, onDay, onInstant⟩ :=
      temporal_eq_ok (tested operator listed)
    cases written.symm.trans same
    exact ⟨onDay, onInstant⟩
  refine ⟨instant, written, ?_, ?_⟩
  · intro isDay
    apply CompareWithSpan.coherent
    apply compareWithSpan_day
    intro operator listed
    exact (built operator listed).1 isDay
  · intro notDay
    apply CompareWithSpan.coherent
    apply compareWithSpan_span
    intro operator listed
    exact (built operator listed).2 notDay

/-- The field of the inventory that holds instants. -/
def updatedField : Field where
  name := "updated"
  type := .timestamp
  onlyExplicit := true

/-- Five minutes after the start of the day of the inventory. -/
def fiveMinutesIn : Instant :=
  (Instant.ofClock? Catalog.inventoryDay.date 0 5 0 0).get rfl

/-- The end of the first minute of the day of the inventory. -/
def oneMinuteIn : Instant :=
  (Instant.ofClock? Catalog.inventoryDay.date 0 1 0 0).get rfl

/-- The tests of the field by the first minute of the day. -/
def firstMinuteTests : Comparison → FieldTest
  | .less => comparison updatedField .less (.timestamp Catalog.inventoryDay)
  | .lessOrEqual => comparison updatedField .less (.timestamp oneMinuteIn)
  | .greater => comparison updatedField .greaterOrEqual (.timestamp oneMinuteIn)
  | .greaterOrEqual =>
      comparison updatedField .greaterOrEqual (.timestamp Catalog.inventoryDay)
  | _ => within updatedField Catalog.inventoryDay oneMinuteIn

/--
A distance in minutes denotes a minute even if it leads to the start of a day.
-/
theorem temporal_tests_coherent_updated :
    (∀ operator ∈ Comparison.ordering,
      temporal fiveMinutesIn updatedField operator "5 minutes ago" =
        .ok (some (firstMinuteTests operator))) ∧
      Coherent updatedField firstMinuteTests (.ofInstant oneMinuteIn) := by
  have tested : ∀ operator ∈ Comparison.ordering,
      temporal fiveMinutesIn updatedField operator "5 minutes ago" =
        .ok (some (firstMinuteTests operator)) := by
    intro operator listed
    simp only [Comparison.ordering, List.mem_cons, List.not_mem_nil,
      or_false] at listed
    rcases listed with rfl | rfl | rfl | rfl | rfl <;> rfl
  obtain ⟨instant, -, -, onInstant⟩ := temporal_tests_coherent tested
  exact ⟨tested, (onInstant rfl).1 oneMinuteIn⟩

end FieldTest

end SearchPhrase
