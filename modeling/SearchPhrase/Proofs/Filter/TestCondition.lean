import SearchPhrase.Proofs.Filter.Condition

/-!
# Conditions of tests

Testing a field gives a filter, whatever the type of the field is.  This module
says which condition that filter writes: one comparison, which enumerated fields
put in a group or deny, or the range in which an instant lies.
-/

namespace SearchPhrase

namespace FieldTest

/-! ## Tests without a journal -/

/--
The test of a field by an operator and a value, with times relative to a
reference; none if the value is no time.
-/
def of (reference : Instant) (field : Field) (operator : Comparison)
    (value : String) :
    Except SearchError (Option FieldTest) :=
  match checkOperator field operator with
  | .error error => .error error
  | .ok () =>
      match TestKind.of field operator with
      | .enumerated => (enumerated field operator value).map some
      | .temporal => temporal reference field operator value
      | .pattern => (pattern field operator value).map some
      | .generic => (generic field operator value).map some

/-- The test of a field by one comparison in a group, which may be denied. -/
def grouped (field : Field) (operator : Comparison) (parameter : Parameter)
    (denied : Bool) : FieldTest where
  field := field.name
  operator := operator
  filter :=
    let text := "(" ++ comparisonText field operator ++ ")"
    ⟨if denied then "NOT " ++ text else text, [parameter]⟩

/-- The forms that a test of a field can have. -/
inductive Tests (field : Field) : FieldTest → Prop where
  | comparison (operator : Comparison) (parameter : Parameter) :
      Tests field (FieldTest.comparison field operator parameter)
  | grouped (operator : Comparison) (parameter : Parameter) (denied : Bool) :
      Tests field (FieldTest.grouped field operator parameter denied)
  | within (start stop : Instant) :
      Tests field (FieldTest.within field start stop)

theorem map_eq_ok
    {α β : Type} {outcome : Except SearchError α} {function : α → β}
    {result : β} (mapped : outcome.map function = .ok result) :
    ∃ value, outcome = .ok value ∧ function value = result := by
  cases outcome with
  | error error => cases mapped
  | ok value =>
      cases mapped
      exact ⟨value, rfl, rfl⟩

theorem map_some_eq_ok
    {α : Type} {outcome : Except SearchError α} {result : α}
    (mapped : outcome.map some = .ok (some result)) :
    outcome = .ok result := by
  obtain ⟨value, succeeded, same⟩ := map_eq_ok mapped
  rw [succeeded, Option.some.inj same]

section Forms

variable {reference : Instant} {field : Field} {operator : Comparison}
  {value : String} {test : FieldTest}

theorem tests_enumerated (tested : enumerated field operator value = .ok test) :
    Tests field test := by
  unfold enumerated at tested
  split at tested
  · cases tested
  · split at tested
    · cases tested
      exact .grouped _ _ _
    · cases tested

theorem tests_pattern (tested : pattern field operator value = .ok test) :
    Tests field test := by
  unfold pattern at tested
  split at tested
  · cases tested
  · cases tested
    exact .comparison _ _

theorem tests_generic (tested : generic field operator value = .ok test) :
    Tests field test := by
  unfold generic at tested
  split at tested
  · split at tested
    · cases tested
      exact .comparison _ _
    · cases tested
  · cases tested
    exact .comparison _ _

theorem tests_day {date : Date} (tested : day field operator date = .ok test) :
    Tests field test := by
  unfold day at tested
  split at tested
  · obtain ⟨next, -, rfl⟩ := map_eq_ok tested
    exact .comparison _ _
  · obtain ⟨next, -, rfl⟩ := map_eq_ok tested
    exact .comparison _ _
  · cases tested
    exact .comparison _ _

theorem tests_span {start : Instant}
    (tested : span field operator value start = .ok test) :
    Tests field test := by
  unfold span at tested
  split at tested
  · cases tested
  · cases tested
    split
    · exact .within _ _
    · exact .within _ _
    · exact .comparison _ _
    · exact .comparison _ _
    · exact .comparison _ _

theorem tests_temporal
    (tested : temporal reference field operator value = .ok (some test)) :
    Tests field test := by
  unfold temporal at tested
  split at tested
  · cases tested
  · cases tested
  · obtain ⟨found, foundTest, same⟩ := map_eq_ok tested
    cases same
    split at foundTest
    · exact tests_day foundTest
    · exact tests_span foundTest

/-- Every test of a field has one of the forms. -/
theorem tests_of
    (tested : of reference field operator value = .ok (some test)) :
    Tests field test := by
  unfold of at tested
  split at tested
  · cases tested
  · split at tested
    · obtain ⟨found, foundTest, same⟩ := map_eq_ok tested
      cases same
      exact tests_enumerated foundTest
    · exact tests_temporal tested
    · obtain ⟨found, foundTest, same⟩ := map_eq_ok tested
      cases same
      exact tests_pattern foundTest
    · obtain ⟨found, foundTest, same⟩ := map_eq_ok tested
      cases same
      exact tests_generic foundTest

end Forms

/-! ## What a test states -/

/--
The conditions that test the field of a test with the parameters of the test.
-/
def readings (test : FieldTest) : List Condition :=
  if wellShaped : Field.isName test.field = true then
    match test.filter.parameters with
    | [parameter] =>
        let plain := .test ⟨test.field, wellShaped⟩ test.operator parameter
        [plain, .group plain, .denial plain]
    | [start, stop] =>
        if test.operator = .greaterOrEqual then
          [.range ⟨test.field, wellShaped⟩ start stop]
        else []
    | _ => []
  else []

/-- The condition that the filter of a test writes. -/
def condition? (test : FieldTest) : Option Condition :=
  test.readings.find? fun condition => condition.filter = test.filter

theorem notices_of_mem_readings
    {test : FieldTest} {condition : Condition}
    (member : condition ∈ test.readings) :
    condition.notices = test.notices := by
  unfold readings at member
  split at member
  · split at member
    · next parameter parameters =>
        have noted :
            condition.notices =
              Notice.ofTest test.field test.operator [parameter] := by
          simp only [List.mem_cons, List.not_mem_nil, or_false] at member
          rcases member with rfl | rfl | rfl <;> rfl
        rw [noted, FieldTest.notices, parameters]
    · next start stop parameters =>
        split at member
        · next lower =>
            rw [List.mem_singleton.mp member, FieldTest.notices, parameters,
              lower]
            rfl
        · cases member
    · cases member
  · cases member

/-- The condition of a test has the filter and the notices of the test. -/
theorem filter_of_condition?
    {test : FieldTest} {condition : Condition}
    (stated : test.condition? = some condition) :
    condition.filter = test.filter ∧ condition.notices = test.notices := by
  have written := List.find?_some stated
  have member := List.mem_of_find?_eq_some stated
  exact ⟨of_decide_eq_true written, notices_of_mem_readings member⟩

theorem comparisonText_eq
    (field : Field) (wellShaped : Field.isName field.name = true)
    (operator : Comparison) :
    (comparisonText field operator).toList =
      Condition.comparisonCharacters ⟨field.name, wellShaped⟩ operator := by
  simp [comparisonText, Field.selector, Condition.comparisonCharacters,
    FieldName.characters, Condition.filterText_eq_words]

/-- Every test of a field whose name is well shaped states a condition. -/
theorem Tests.exists_condition
    {field : Field} {test : FieldTest} (form : Tests field test)
    (wellShaped : Field.isName field.name = true) :
    ∃ condition, test.condition? = some condition := by
  suffices found :
      ∃ condition ∈ test.readings, condition.filter = test.filter by
    obtain ⟨condition, member, written⟩ := found
    have exists_found :
        (test.readings.find? fun condition =>
          condition.filter = test.filter).isSome := by
      rw [List.find?_isSome]
      exact ⟨condition, member, decide_eq_true written⟩
    exact Option.isSome_iff_exists.mp exists_found
  cases form with
  | comparison operator parameter =>
      refine ⟨.test ⟨field.name, wellShaped⟩ operator parameter, ?_, ?_⟩
      · simp [readings, FieldTest.comparison, wellShaped]
      · apply Condition.filter_eq
        · simp [Condition.characters, FieldTest.comparison, comparisonText_eq,
            wellShaped]
        · rfl
  | grouped operator parameter denied =>
      cases denied with
      | false =>
          refine ⟨.group (.test ⟨field.name, wellShaped⟩ operator parameter),
            ?_, ?_⟩
          · simp [readings, FieldTest.grouped, wellShaped]
          · apply Condition.filter_eq
            · simp [Condition.characters, Condition.opening, FieldTest.grouped,
                comparisonText_eq, wellShaped]
            · rfl
      | true =>
          refine ⟨.denial (.test ⟨field.name, wellShaped⟩ operator parameter),
            ?_, ?_⟩
          · simp [readings, FieldTest.grouped, wellShaped]
          · apply Condition.filter_eq
            · simp [Condition.characters, Condition.opening, FieldTest.grouped,
                comparisonText_eq, wellShaped]
            · rfl
  | within start stop =>
      refine
        ⟨.range ⟨field.name, wellShaped⟩ (.timestamp start) (.timestamp stop),
          ?_, ?_⟩
      · simp [readings, FieldTest.within, wellShaped]
      · apply Condition.filter_eq
        · simp [Condition.characters, Junction.characters,
            Connective.filterText, FieldTest.within, comparisonText_eq,
            wellShaped]
        · rfl

end FieldTest

end SearchPhrase
