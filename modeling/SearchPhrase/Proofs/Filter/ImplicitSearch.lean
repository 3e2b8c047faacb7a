import SearchPhrase.Proofs.Filter.Report

/-!
# Searches without a field

An operator and a value without a field search the default fields that fit the
value.  Textual fields are chosen by the operator.  Fields of numbers and of
times are chosen by the value alone, although they accept no pattern operator.
A pattern with a value that is a number or a time is therefore refused as a
whole where a default field of that type exists, also if textual fields accept
it.

The module first says for which reasons the test of a field fails.
-/

namespace SearchPhrase

/-! ## Tests that fail -/

namespace TestKind

theorem isEnumerated_of_eq
    {field : Field} {operator : Comparison}
    (kind : TestKind.of field operator = .enumerated) :
    field.isEnumerated = true := by
  grind [TestKind.of]

theorem isTemporal_of_eq
    {field : Field} {operator : Comparison}
    (kind : TestKind.of field operator = .temporal) :
    field.type.isTemporal = true := by
  grind [TestKind.of]

end TestKind

namespace FieldTest

theorem checkOperator_eq_ok_iff {field : Field} {operator : Comparison} :
    checkOperator field operator = .ok () ↔
      (operator.isPattern = true → field.type.isTextual = true) := by
  unfold checkOperator
  cases operator.isPattern <;> cases field.type.isTextual <;> simp

theorem checkOperator_of_not_isTextual
    {field : Field} {operator : Comparison}
    (pattern : operator.isPattern = true)
    (notTextual : field.type.isTextual = false) :
    checkOperator field operator =
      .error (.patternOperator operator field.name field.type) := by
  simp [checkOperator, pattern, notTextual]

/--
The reasons for which the test of a field by an operator and a value fails.
-/
inductive Refused (reference : Instant) (field : Field) (operator : Comparison)
    (value : String) : SearchError → Prop where
  | operator
      (pattern : operator.isPattern = true)
      (notTextual : field.type.isTextual = false) :
      Refused reference field operator value
        (.patternOperator operator field.name field.type)
  | unlisted
      (enumerated : field.isEnumerated = true)
      (unlisted : field.stored? value = none) :
      Refused reference field operator value (.unlistedValue value field.name)
  | notEquality
      (enumerated : field.isEnumerated = true)
      (notEqual : operator ≠ .equal) (notDifferent : operator ≠ .different) :
      Refused reference field operator value
        (.enumeratedOperator operator field.name)
  | notNumber
      (numerical : field.type.isNumerical = true)
      (unread : Numeral.integer? value = none) :
      Refused reference field operator value
        (.notNumber value field.name field.type)
  | lastDay {instant : Instant}
      (days : field.type.isDay = true)
      (read : TimeExpression.read reference value = .ok (some instant))
      (shifted : operator = .greater ∨ operator = .lessOrEqual)
      (last : instant.date.addDays? 1 = none) :
      Refused reference field operator value (.outOfRange instant.date.render)
  | lastSpan {instant : Instant}
      (instants : field.type.isInstant = true)
      (read : TimeExpression.read reference value = .ok (some instant))
      (last : instant.addSeconds? (spanSeconds value instant) = none) :
      Refused reference field operator value (.outOfRange value)
  | calendar {fault : CalendarFault}
      (temporal : field.type.isTemporal = true)
      (faulty : TimeExpression.read reference value = .error fault) :
      Refused reference field operator value (.calendar fault)

section Refusals

variable {reference : Instant} {field : Field} {operator : Comparison}
  {value : String} {error : SearchError}

theorem refused_enumerated
    (isEnumerated : field.isEnumerated = true)
    (failed : enumerated field operator value = .error error) :
    Refused reference field operator value error := by
  unfold enumerated at failed
  split at failed
  · next unlisted =>
      cases failed
      exact .unlisted isEnumerated unlisted
  · split at failed
    · cases failed
    · next notEquality =>
        cases failed
        simp only [Bool.or_eq_true, beq_iff_eq, not_or] at notEquality
        exact .notEquality isEnumerated notEquality.1 notEquality.2

theorem refused_generic (failed : generic field operator value = .error error) :
    Refused reference field operator value error := by
  unfold generic at failed
  split at failed
  · next numerical =>
      split at failed
      · cases failed
      · next unread =>
          cases failed
          exact .notNumber numerical unread
  · cases failed

theorem map_eq_error
    {α β : Type} {outcome : Except SearchError α} {function : α → β}
    {error : SearchError}
    (mapped : outcome.map function = .error error) :
    outcome = .error error := by
  cases outcome with
  | error cause =>
      cases mapped
      rfl
  | ok result => cases mapped

theorem nextDay_eq_error {date : Date} (failed : nextDay date = .error error) :
    date.addDays? 1 = none ∧ error = .outOfRange date.render := by
  unfold nextDay at failed
  split at failed
  · cases failed
  · next last =>
      cases failed
      exact ⟨last, rfl⟩

theorem refused_temporal
    (isTemporal : field.type.isTemporal = true)
    (failed : temporal reference field operator value = .error error) :
    Refused reference field operator value error := by
  unfold temporal at failed
  split at failed
  · next fault faulty =>
      cases failed
      exact .calendar isTemporal faulty
  · cases failed
  · next instant read =>
      have failed := map_eq_error failed
      split at failed
      · next days =>
          unfold day at failed
          split at failed
          · obtain ⟨last, rfl⟩ := nextDay_eq_error (map_eq_error failed)
            exact .lastDay days read (Or.inl rfl) last
          · obtain ⟨last, rfl⟩ := nextDay_eq_error (map_eq_error failed)
            exact .lastDay days read (Or.inr rfl) last
          · cases failed
      · next notDays =>
          have instants : field.type.isInstant = true := by
            simpa [FieldType.isTemporal, notDays] using isTemporal
          unfold span at failed
          split at failed
          · next last =>
              cases failed
              exact .lastSpan instants read last
          · cases failed

/-- The test of a field fails only for one of the reasons. -/
theorem refused_of (failed : of reference field operator value = .error error) :
    Refused reference field operator value error := by
  unfold of at failed
  split at failed
  · next checked =>
      cases failed
      unfold checkOperator at checked
      split at checked
      · next refused =>
          cases checked
          simp only [Bool.and_eq_true, Bool.not_eq_true'] at refused
          exact .operator refused.1 refused.2
      · cases checked
  · next allowed =>
      split at failed
      · next kind =>
          exact refused_enumerated (TestKind.isEnumerated_of_eq kind)
            (map_eq_error failed)
      · next kind =>
          exact refused_temporal (TestKind.isTemporal_of_eq kind) failed
      · next kind =>
          have failed := map_eq_error failed
          simp [pattern, allowed] at failed
      · exact refused_generic (map_eq_error failed)

end Refusals

end FieldTest

/-! ## Candidates -/

/--
The field is one of numbers and the value a number that fits, or one of times
and a time.
-/
def Field.FitsValue (field : Field) (reference : Instant)
    (value : String) : Prop :=
  field.type.isNumerical = true ∧ Numeral.isShapedAsNumber value = true ∧
      (Numeral.integer? value).isSome = true ∨
    field.type.isTemporal = true ∧
      ∃ instant, TimeExpression.read reference value = .ok (some instant)

theorem Field.FitsValue.not_isTextual
    {field : Field} {reference : Instant} {value : String}
    (fits : field.FitsValue reference value) :
    field.type.isTextual = false := by
  rcases fits with ⟨numerical, -⟩ | ⟨temporal, -⟩
  · cases type : field.type <;>
      simp_all [FieldType.isNumerical, FieldType.isTextual]
  · cases type : field.type <;>
      simp_all [FieldType.isTemporal, FieldType.isDay, FieldType.isInstant,
        FieldType.isTextual]

theorem Field.report_fails_iff
    {field : Field} {reference : Instant} {operator : Comparison}
    {value : String} {error : SearchError} :
    (field.report reference operator value).outcome = .error error ↔
      FieldTest.of reference field operator value = .error error := by
  rw [report]
  cases FieldTest.of reference field operator value <;>
    simp [Report.ofTest, Report.ofExcept]

/-- A textual field that is not enumerated is tested by every pattern. -/
theorem Field.report_pattern
    {field : Field} {reference : Instant} {operator : Comparison}
    {value : String} (notEnumerated : field.isEnumerated = false)
    (textual : field.type.isTextual = true)
    (pattern : operator.isPattern = true) :
    ∃ filter, (field.report reference operator value).outcome = .ok filter := by
  have checked : FieldTest.checkOperator field operator = .ok () :=
    FieldTest.checkOperator_eq_ok_iff.mpr fun _ => textual
  have kind : TestKind.of field operator = .pattern := by
    have notTemporal : field.type.isTemporal = false := by
      cases type : field.type <;> simp_all [FieldType.isTextual] <;> rfl
    simp [TestKind.of, notEnumerated, notTemporal, textual, pattern]
  simp [report, FieldTest.of, checked, kind, FieldTest.pattern, Except.map,
    Report.ofTest]

namespace Catalog

section Choice

variable {catalog : Catalog} {reference : Instant} {value : String}
  {operator : Option Comparison} {fields : List Field}

/--
The candidates are chosen by the operator among textual fields, and else by the
value.
-/
theorem mem_candidates_iff
    (found : catalog.candidates reference value operator = .ok fields)
    {field : Field} :
    field ∈ fields ↔
      field ∈ catalog.defaultFields ∧ field.isEnumerated = false ∧
        (field.type.isTextual = true ∧
            (∀ given ∈ operator,
              given = .equal ∨ given = .different ∨ given.isPattern = true) ∨
          field.FitsValue reference value) := by
  unfold candidates at found
  split at found
  · cases found
  · next instant read =>
      cases found
      have timed :
          (∃ written, TimeExpression.read reference value =
            .ok (some written)) ↔
            instant.isSome = true := by
        rw [read, Option.isSome_iff_exists]
        simp
      have textual :
          (operator.all fun given =>
              given == .equal || given == .different || given.isPattern) =
                true ↔
            ∀ given ∈ operator,
              given = .equal ∨ given = .different ∨ given.isPattern = true := by
        simp [Option.all_eq_true, or_assoc]
      simp only [List.mem_filter, Field.FitsValue, timed, ← textual]
      cases field.type <;>
        simp [FieldType.isTextual, FieldType.isNumerical, FieldType.isTemporal,
          FieldType.isDay, FieldType.isInstant]

theorem searchReport_of_candidates
    (found : catalog.candidates reference value operator = .ok fields) :
    catalog.searchReport reference value operator =
      (Report.inOrder (fields.map fun field =>
        field.report reference (operator.getD field.implicitOperator)
          value)).map
          (Filter.join Connective.or.filterText) := by
  rw [searchReport, found]
  rfl

end Choice

variable {catalog : Catalog} {reference : Instant} {value : String}
  {operator : Comparison} {fields : List Field}

/--
All candidates accept the operator unless it is a pattern and a field fits the
value.
-/
theorem candidates_accept_iff
    (found : catalog.candidates reference value (some operator) = .ok fields) :
    (∀ field ∈ fields, FieldTest.checkOperator field operator = .ok ()) ↔
      (operator.isPattern = true → ∀ field ∈ catalog.defaultFields,
        field.isEnumerated = false → ¬ field.FitsValue reference value) := by
  simp only [FieldTest.checkOperator_eq_ok_iff]
  constructor
  · intro accept pattern field isDefault notEnumerated fits
    have candidate : field ∈ fields :=
      (mem_candidates_iff found).mpr ⟨isDefault, notEnumerated, Or.inr fits⟩
    have textual := accept field candidate pattern
    rw [fits.not_isTextual] at textual
    exact Bool.noConfusion textual
  · intro noneFits field member pattern
    rcases (mem_candidates_iff found).mp member with
      ⟨isDefault, notEnumerated, chosen⟩
    rcases chosen with ⟨textual, -⟩ | fits
    · exact textual
    · exact absurd fits (noneFits pattern field isDefault notEnumerated)

/-! ## Searches that are refused -/

theorem searchReport_eq
    (found : catalog.candidates reference value (some operator) = .ok fields) :
    catalog.searchReport reference value (some operator) =
      (Report.inOrder
        (fields.map fun field => field.report reference operator value)).map
        (Filter.join Connective.or.filterText) :=
  searchReport_of_candidates found

/--
The first candidate that is not textual refuses a pattern for the whole search.
-/
theorem searchReport_of_refusing
    {before rest : List Field} {refusing : Field}
    (found : catalog.candidates reference value (some operator) =
      .ok (before ++ refusing :: rest))
    (pattern : operator.isPattern = true)
    (textual : ∀ field ∈ before, field.type.isTextual = true)
    (notTextual : refusing.type.isTextual = false) :
    (catalog.searchReport reference value (some operator)).outcome =
      .error (.patternOperator operator refusing.name refusing.type) := by
  have succeed :
      ∀ report ∈ before.map fun field => field.report reference operator value,
      ∃ filter, report.outcome = .ok filter := by
    intro report reported
    obtain ⟨field, inBefore, rfl⟩ := List.mem_map.mp reported
    have candidate :=
      (mem_candidates_iff found).mp (List.mem_append_left _ inBefore)
    exact Field.report_pattern candidate.2.1 (textual field inBefore) pattern
  have fails : (refusing.report reference operator value).outcome =
      .error (.patternOperator operator refusing.name refusing.type) := by
    rw [Field.report_fails_iff, FieldTest.of,
      FieldTest.checkOperator_of_not_isTextual pattern notTextual]
  rw [searchReport_eq found, Report.map_outcome_eq_error, List.map_append,
    List.map_cons, Report.inOrder_of_first_error succeed fails]

/--
A search is refused for its operator if a candidate does not accept the
operator.  No other reason for which a test fails has this error.
-/
theorem searchReport_refused_iff
    (found : catalog.candidates reference value (some operator) = .ok fields) :
    (∃ name type,
      (catalog.searchReport reference value (some operator)).outcome =
        .error (.patternOperator operator name type)) ↔
      ∃ field ∈ fields, FieldTest.checkOperator field operator ≠ .ok () := by
  constructor
  · rintro ⟨name, type, failed⟩
    rw [searchReport_eq found, Report.map_outcome_eq_error] at failed
    obtain ⟨report, member, fails⟩ := Report.exists_of_inOrder_error failed
    obtain ⟨field, candidate, rfl⟩ := List.mem_map.mp member
    cases FieldTest.refused_of (Field.report_fails_iff.mp fails) with
    | operator pattern notTextual =>
        refine ⟨field, candidate, ?_⟩
        rw [FieldTest.checkOperator_of_not_isTextual pattern notTextual]
        exact nofun
  · rintro ⟨field, candidate, refused⟩
    rw [Ne, FieldTest.checkOperator_eq_ok_iff, Classical.not_imp,
      Bool.not_eq_true] at refused
    have someFound :
        (fields.find? fun field => !field.type.isTextual).isSome = true :=
      List.find?_isSome.mpr ⟨field, candidate, by simp [refused.2]⟩
    obtain ⟨first, firstFound⟩ := Option.isSome_iff_exists.mp someFound
    obtain ⟨notTextual, before, rest, rfl, textual⟩ :=
      List.find?_eq_some_iff_append.mp firstFound
    exact ⟨first.name, first.type,
      searchReport_of_refusing found refused.1 (by simpa using textual)
        (by simpa using notTextual)⟩

end Catalog

/--
The default fields that a search without a field chooses accept its operator,
unless the operator is a pattern and a default field of numbers or times fits
the value.  Then the search is refused as a whole, even if textual fields accept
the operator.
-/
theorem Tree.search_accepts_operator_iff
    {catalog : Catalog} {clock : Instant} {journal : Journal} {value : String}
    {operator : Comparison} {fields : List Field}
    (found :
      catalog.candidates (journal.reference catalog clock) value
          (some operator) =
        .ok fields) :
    ((∀ field ∈ fields, FieldTest.checkOperator field operator = .ok ()) ↔
      (operator.isPattern = true → ∀ field ∈ catalog.defaultFields,
        field.isEnumerated = false →
          ¬ field.FitsValue (journal.reference catalog clock) value)) ∧
    ((∃ name type after,
        (comparison operator [.leaf value]).compile catalog clock journal =
          .error (.patternOperator operator name type) after) ↔
      ∃ field ∈ fields, FieldTest.checkOperator field operator ≠ .ok ()) := by
  refine ⟨Catalog.candidates_accept_iff found, ?_⟩
  rw [← Catalog.searchReport_refused_iff found]
  simp only [(does_compile (comparison operator [.leaf value])).fails_iff rfl,
    report, comparisonReport]

/--
The inventory chooses a textual field and a field of numbers for a number.
-/
theorem Tree.search_accepts_operator_iff_number :
    ∃ name memory, Catalog.inventory.Registered ∧
      Catalog.inventory.candidates Catalog.inventoryDay "4" (some .like) =
        .ok [name, memory] ∧
      FieldTest.checkOperator name .like = .ok () ∧
      FieldTest.checkOperator memory .like ≠ .ok () ∧
      ∃ refusedName type after,
        (comparison .like [.leaf "4"]).compile Catalog.inventory
          Catalog.inventoryDay
            Journal.empty =
          .error (.patternOperator .like refusedName type) after := by
  have found : ∃ name memory,
      Catalog.inventory.candidates
          (Journal.empty.reference Catalog.inventory Catalog.inventoryDay) "4"
          (some .like) =
        .ok [name, memory] ∧
      FieldTest.checkOperator name .like = .ok () ∧
      FieldTest.checkOperator memory .like ≠ .ok () :=
    ⟨_, _, rfl, rfl, nofun⟩
  obtain ⟨name, memory, found, accepted, refused⟩ := found
  refine ⟨name, memory, Catalog.registered_inventory, found, accepted, refused,
    ?_⟩
  exact (search_accepts_operator_iff found).2.mpr ⟨memory, by simp, refused⟩

end SearchPhrase
