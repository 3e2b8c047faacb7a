import SearchPhrase.Proofs.Calendar.DistanceReading
import SearchPhrase.Proofs.Filter.Spans

/-!
# Spans of a minute

A value of a field of instants denotes a minute if it is a distance in minutes
to the past, and otherwise an hour or a day.  Such values are recognised by a
pattern of their own.  It matches the texts that the pattern of distances
matches, in minutes and to the past, with blanks around them.  The span
therefore is a minute for exactly the values that are read as such distances.
-/

namespace SearchPhrase

namespace TimeExpression

open WrittenDistance (relative minutesAgo pattern)

/-! ## The two patterns -/

theorem isMinutesAgo_iff {text : String} :
    isMinutesAgo text = true ↔
      ∃ digits, WrittenDistance.ofText? text.toList =
        some ⟨digits, .minute, .ago⟩ := by
  unfold isMinutesAgo
  split
  · next digits found => exact iff_of_true rfl ⟨digits, found⟩
  · next other =>
      refine iff_of_false Bool.false_ne_true ?_
      rintro ⟨digits, found⟩
      exact other digits found

theorem isMinutesAgo_iff_relative {text : String} :
    isMinutesAgo text = true ↔ Text.trim text.toList ∈ relative .minute .ago :=
  isMinutesAgo_iff.trans WrittenDistance.exists_ofText?_iff

theorem isMinutesAgo_iff_minutesAgo {text : String} :
    isMinutesAgo text = true ↔ text.toList ∈ minutesAgo := by
  rw [isMinutesAgo_iff_relative, ← WrittenDistance.padded_relative_minute_ago]
  exact (WrittenDistance.mem_padded_iff_trim
    (WrittenDistance.isTrimmed_of_mem_pattern fun _ run => run)).symm

/--
A distance in minutes to the past is read as the reference that many minutes
back.
-/
theorem exists_digits_of_isMinutesAgo {text : String}
    (holds : isMinutesAgo text = true) :
    ∃ digits, Text.trim text.toList ∈ pattern {digits} .minute .ago ∧
      ∀ reference instant, read reference text = .ok (some instant) ↔
        ∃ minutes : ℕ, Text.IsNumeral digits minutes ∧
          reference.addSeconds? (-(60 * minutes)) = some instant := by
  obtain ⟨digits, found⟩ := isMinutesAgo_iff.mp holds
  refine ⟨digits, (WrittenDistance.ofText?_eq_some_iff_trim.mp found).2, ?_⟩
  intro reference instant
  rw [read_of_distance reference found, Except.ok.injEq,
    Option.bind_eq_some_iff]
  simp only [Text.nat?_eq_some_iff, exactMove?, TimeDirection.sign,
    Int.neg_one_mul, Int.mul_neg]

end TimeExpression

namespace FieldTest

open TimeExpression (isMinutesAgo read)
open WrittenDistance (relative minutesAgo)

/-! ## Tests by a span -/

/--
The test of a field by the span from a start to an end, if the end is in the
calendar.
-/
def bySpan (field : Field) (operator : Comparison) (value : String)
    (start : Instant) :
    Option Instant → Except SearchError (Option FieldTest)
  | none => .error (.outOfRange value)
  | some stop =>
      .ok (some (match operator with
        | .equal | .different => within field start stop
        | .greater =>
            FieldTest.comparison field .greaterOrEqual (.timestamp stop)
        | .lessOrEqual => FieldTest.comparison field .less (.timestamp stop)
        | _ => FieldTest.comparison field operator (.timestamp start)))

theorem temporal_eq_bySpan {reference start : Instant} {field : Field}
    {value : String}
    (notDay : field.type.isDay = false)
    (isRead : read reference value = .ok (some start)) (operator : Comparison) :
    temporal reference field operator value =
      bySpan field operator value start
        (start.addSeconds? (spanSeconds value start)) := by
  simp only [temporal, isRead, notDay, Bool.false_eq_true, if_false, span]
  cases start.addSeconds? (spanSeconds value start) <;> rfl

theorem spanSeconds_of_not_isMinutesAgo {value : String}
    (fails : isMinutesAgo value = false)
    (start : Instant) : 60 < spanSeconds value start := by
  simp only [spanSeconds, fails, Bool.false_eq_true, if_false]
  split <;> decide

/--
The two patterns for distances in minutes to the past agree: a text matches the
one that has blanks around it exactly if it matches the pattern of distances
without its blanks.  Such a text is read, from any reference, as the instant
that lies back by the minutes that it writes.  For a field of instants it
denotes the span of a minute from there, and every other time denotes a longer
span.
-/
theorem minutes_denote_minute_spans (text : String) :
    (isMinutesAgo text = true ↔ text.toList ∈ minutesAgo) ∧
    (isMinutesAgo text = true ↔ Text.trim text.toList ∈ relative .minute .ago) ∧
    (isMinutesAgo text = true →
      ∃ digits, Text.trim text.toList ∈
        WrittenDistance.pattern {digits} .minute .ago ∧
        ∀ reference instant, read reference text = .ok (some instant) ↔
          ∃ minutes : ℕ, Text.IsNumeral digits minutes ∧
            reference.addSeconds? (-(60 * minutes)) = some instant) ∧
    ∀ reference start (field : Field), field.type.isDay = false →
      read reference text = .ok (some start) →
        (isMinutesAgo text = true → ∀ operator,
          temporal reference field operator text =
            bySpan field operator text start (start.addSeconds? 60)) ∧
        (isMinutesAgo text = false → ∃ seconds, 60 < seconds ∧ ∀ operator,
          temporal reference field operator text =
            bySpan field operator text start (start.addSeconds? seconds)) := by
  refine ⟨TimeExpression.isMinutesAgo_iff_minutesAgo,
    TimeExpression.isMinutesAgo_iff_relative,
    TimeExpression.exists_digits_of_isMinutesAgo, ?_⟩
  intro reference start field notDay isRead
  have tested := temporal_eq_bySpan notDay isRead
  constructor
  · intro holds operator
    rw [tested, spanSeconds, if_pos holds]
  · intro fails
    exact ⟨_, spanSeconds_of_not_isMinutesAgo fails start, tested⟩

/-- The long s is an s in any case, so minutes may be written with it. -/
theorem minutes_denote_minute_spans_long_s :
    isMinutesAgo " 5 MINUTE\u017f ago" = true ∧
      read fiveMinutesIn " 5 MINUTE\u017f ago" =
        .ok (some Catalog.inventoryDay) ∧
      temporal fiveMinutesIn updatedField .equal " 5 MINUTE\u017f ago" =
        .ok (some (within updatedField Catalog.inventoryDay oneMinuteIn)) := by
  have holds : isMinutesAgo " 5 MINUTE\u017f ago" = true := rfl
  have isRead :
      read fiveMinutesIn " 5 MINUTE\u017f ago" =
        .ok (some Catalog.inventoryDay) := rfl
  obtain ⟨-, -, -, spans⟩ := minutes_denote_minute_spans " 5 MINUTE\u017f ago"
  refine ⟨holds, isRead, ?_⟩
  rw [(spans fiveMinutesIn Catalog.inventoryDay updatedField rfl isRead).1
    holds .equal]
  rfl

end FieldTest

end SearchPhrase
