import SearchPhrase.Filter.QueryString
import SearchPhrase.Proofs.Filter.Inequality
import SearchPhrase.Proofs.Filter.SearchOutcome

/-!
# Operators to offer

For a field that does not list its operators, those of its kind are offered.
What a field is then compared by is decided in other places: by the check of
patterns, by the kind of the test, and by the test itself.  These agree with
what is offered.  A phrase with the token of an offered operator has that
operator, and where the test of a value fails, another value would not have
failed: the value is not listed, is no number, or leads out of the calendar.
-/

namespace SearchPhrase

/-- The token of an operator is a phrase of one token, the operator. -/
theorem Token.ofPhrase_token (operator : Comparison) :
    ofPhrase operator.token =
      .ok [⟨.comparison operator, 0, operator.token.utf8ByteSize⟩] := by
  cases operator <;> rfl

namespace FieldType

theorem not_isTextual_of_isNumerical {type : FieldType} :
    type.isNumerical = true → type.isTextual = false := by
  cases type <;> decide

theorem not_isTextual_of_isTemporal {type : FieldType} :
    type.isTemporal = true → type.isTextual = false := by
  cases type <;> decide

end FieldType

namespace Field

variable {field : Field} {operator : Comparison} {value : String}
  {reference : Instant}

/-! ## What is offered -/

theorem equal_mem_offeredOperators (unrestricted : field.operators = none) :
    .equal ∈ field.offeredOperators := by
  simp only [offeredOperators, unrestricted]
  split
  · simp
  · split
    · simp
    · split <;> simp

theorem equality_of_offered
    (unrestricted : field.operators = none)
    (enumerated : field.isEnumerated = true)
    (offered : operator ∈ field.offeredOperators) :
    operator = .equal ∨ operator = .different := by
  simpa [offeredOperators, unrestricted, enumerated] using offered

/-- Patterns are offered for textual fields only. -/
theorem not_isPattern_of_offered
    (unrestricted : field.operators = none)
    (notTextual : field.type.isTextual = false)
    (offered : operator ∈ field.offeredOperators) :
    operator.isPattern = false := by
  simp only [offeredOperators, unrestricted, notTextual] at offered
  cases operator with
  | like | unlike =>
      split at offered
      · simp at offered
      · split at offered <;> simp at offered
  | _ => rfl

/-! ## Values that are refused -/

/--
The test of a temporal field by a value leaves the calendar: the value is a day
before the first date, or what is compared with is the day after the last date,
or the span of time that the value denotes ends after the last date.
-/
inductive LeavesCalendar (field : Field) (reference : Instant)
    (operator : Comparison) (value : String) : Prop where
  | start {fault : CalendarFault}
      (faulty : TimeExpression.read reference value = .error fault)
  | nextDay {instant : Instant}
      (days : field.type.isDay = true)
      (shifted : operator = .greater ∨ operator = .lessOrEqual)
      (read : TimeExpression.read reference value = .ok (some instant))
      (last : instant.date.addDays? 1 = none)
  | spanEnd {instant : Instant}
      (instants : field.type.isInstant = true)
      (read : TimeExpression.read reference value = .ok (some instant))
      (last : instant.addSeconds? (FieldTest.spanSeconds value instant) = none)

theorem test_fails_iff_unlisted
    (enumerated : field.isEnumerated = true)
    (equality : operator = .equal ∨ operator = .different) :
    (∃ error, FieldTest.of reference field operator value = .error error) ↔
      field.stored? value = none := by
  have plain : operator.isPattern = false := by
    rcases equality with rfl | rfl <;> rfl
  rw [FieldTest.of_eq_of_not_isPattern plain, if_pos enumerated,
    FieldTest.enumerated]
  cases listed : field.stored? value with
  | none => simp [Except.map]
  | some stored => rcases equality with rfl | rfl <;> simp [Except.map]

theorem test_fails_iff_notNumber
    (notEnumerated : field.isEnumerated = false)
    (numerical : field.type.isNumerical = true)
    (plain : operator.isPattern = false) :
    (∃ error, FieldTest.of reference field operator value = .error error) ↔
      Numeral.integer? value = none := by
  have notTemporal : field.type.isTemporal = false := by
    simp [FieldType.isTemporal_eq, numerical]
  rw [FieldTest.of_eq_of_not_isPattern plain, notEnumerated, notTemporal,
    FieldTest.generic, if_pos numerical]
  cases Numeral.integer? value <;> simp [Except.map]

/--
The test of a temporal field fails exactly if its value leaves the calendar.  A
value that is a time suits the field, and declining it is known to fail.
-/
theorem test_fails_iff_leavesCalendar
    (notEnumerated : field.isEnumerated = false)
    (temporal : field.type.isTemporal = true)
    (plain : operator.isPattern = false) :
    (∃ error, FieldTest.of reference field operator value = .error error) ↔
      field.LeavesCalendar reference operator value := by
  have notNumerical : field.type.isNumerical = false := by
    simp_all [FieldType.isTemporal_eq]
  constructor
  · rintro ⟨error, failed⟩
    cases FieldTest.refused_of failed with
    | operator pattern _ => simp [plain] at pattern
    | unlisted enumerated _ => simp [notEnumerated] at enumerated
    | notEquality enumerated _ _ => simp [notEnumerated] at enumerated
    | notNumber numerical _ => simp [notNumerical] at numerical
    | lastDay days read shifted last => exact .nextDay days shifted read last
    | lastSpan instants read last => exact .spanEnd instants read last
    | calendar _ faulty => exact .start faulty
  · intro leaves
    have suits {instant : Instant}
        (read : TimeExpression.read reference value = .ok (some instant)) :
        field.Suits reference value :=
      ⟨notEnumerated, Or.inr (Or.inr ⟨temporal, instant, read⟩)⟩
    cases leaves with
    | start faulty =>
        rw [FieldTest.of_eq_of_not_isPattern plain, notEnumerated,
          if_neg Bool.false_ne_true, if_pos temporal, FieldTest.temporal,
          faulty]
        exact ⟨_, rfl⟩
    | nextDay days shifted read last =>
        exact (suits read).fails_of_declines
          (.lastDay days shifted read (Date.addDays?_one_eq_none_iff.mp last))
    | spanEnd instants read last =>
        obtain ⟨lastDate, past⟩ :=
          FieldTest.addSeconds?_spanSeconds_eq_none_iff.mp last
        exact (suits read).fails_of_declines
          (.lastSpan instants read lastDate past)

/--
A textual field without a list of values is tested by every operator and value.
-/
theorem exists_test_of_isTextual
    (notEnumerated : field.isEnumerated = false)
    (textual : field.type.isTextual = true) :
    ∃ test, FieldTest.of reference field operator value = .ok (some test) := by
  have suits : field.Suits reference value := ⟨notEnumerated, Or.inl textual⟩
  apply suits.exists_test
  have notTemporal : field.type.isTemporal = false := by
    simp [FieldType.isTemporal_eq, textual]
  rintro (⟨_, notTextual⟩ | ⟨days, _, _, _⟩ | ⟨instants, _, _, _⟩)
  · simp [textual] at notTextual
  · simp [FieldType.isTemporal, days] at notTemporal
  · simp [FieldType.isTemporal, instants] at notTemporal

end Field

namespace SearchM

variable {catalog : Catalog} {clock : Instant} {journal : Journal}
  {field : Field} {operator : Comparison} {value : String}

/--
A field is refused where its test fails, relative to the reference of the
journal.
-/
theorem testField_fails_iff :
    (∃ error after, testField catalog clock field operator value journal =
      .error error after) ↔
      ∃ error,
        FieldTest.of (journal.reference catalog clock) field operator value =
          .error error := by
  have reported (error : SearchError) :
      (∃ after, testField catalog clock field operator value journal =
        .error error after) ↔ _ :=
    (does_testField field operator value).fails_iff rfl
  simp only [reported, Field.report_fails_iff]

/-- The filter of a test is given where the test is made. -/
theorem exists_testField_eq_ok {test : FieldTest}
    (tested :
      FieldTest.of (journal.reference catalog clock) field operator value =
        .ok (some test)) :
    ∃ after, testField catalog clock field operator value journal =
      .ok (some test.filter) after := by
  have does : Does catalog clock (journal.reference catalog clock)
      (testField catalog clock field operator value) _ :=
    does_testField field operator value
  obtain ⟨after, ran, -⟩ := @does journal rfl
  refine ⟨after, ?_⟩
  rw [ran, Field.report, tested]
  rfl

end SearchM

namespace Catalog

/--
Every operator that is offered for a field is one by which the field is
compared.  Its token is read as the operator, and a test by it fails for a
reason of the value only.
-/
theorem offered_operators_compare
    {catalog : Catalog} {name : String} {field : Field}
    (reached : catalog.field? name = some field)
    (unrestricted : field.operators = none) :
    ∃ tokens, catalog.operatorTokens name = .ok tokens ∧ "=" ∈ tokens ∧
      ∀ token ∈ tokens, ∃ operator,
        Token.ofPhrase token =
          .ok [⟨.comparison operator, 0, token.utf8ByteSize⟩] ∧
        ∀ clock journal value,
          let run :=
            SearchM.testField catalog clock field operator value journal
          let fails := ∃ error after, run = .error error after
          (field.isEnumerated = true → (fails ↔ field.stored? value = none)) ∧
          (field.isEnumerated = false →
            (field.type.isNumerical = true →
              (fails ↔ Numeral.integer? value = none)) ∧
            (field.type.isTemporal = true →
              (fails ↔
                field.LeavesCalendar (journal.reference catalog clock) operator
                  value)) ∧
            (field.type.isTextual = true →
              ∃ filter after, run = .ok (some filter) after)) := by
  refine ⟨field.offeredOperators.map Comparison.token, ?_, ?_, ?_⟩
  · rw [operatorTokens, reached]
  · exact List.mem_map.mpr
      ⟨.equal, Field.equal_mem_offeredOperators unrestricted, rfl⟩
  · intro token member
    obtain ⟨operator, offered, rfl⟩ := List.mem_map.mp member
    refine ⟨operator, Token.ofPhrase_token operator,
      fun clock journal value => ?_⟩
    simp only [SearchM.testField_fails_iff]
    refine ⟨fun enumerated => ?_, fun notEnumerated => ⟨fun numerical => ?_,
      fun temporal => ?_, fun textual => ?_⟩⟩
    · exact Field.test_fails_iff_unlisted enumerated
        (Field.equality_of_offered unrestricted enumerated offered)
    · have notTextual := FieldType.not_isTextual_of_isNumerical numerical
      exact Field.test_fails_iff_notNumber notEnumerated numerical
        (Field.not_isPattern_of_offered unrestricted notTextual offered)
    · have notTextual := FieldType.not_isTextual_of_isTemporal temporal
      exact Field.test_fails_iff_leavesCalendar notEnumerated temporal
        (Field.not_isPattern_of_offered unrestricted notTextual offered)
    · obtain ⟨test, tested⟩ :=
        Field.exists_test_of_isTextual notEnumerated textual
      exact ⟨_, SearchM.exists_testField_eq_ok tested⟩

/-- Days of which the last one of the calendar is today. -/
def lastDays : Catalog where
  fields := [{ name := "due", type := .date }]
  reference := some (.midnight Date.last)

/--
Days after the last date cannot be asked for, but both operators are offered
rightly.
-/
theorem offered_operators_compare_last_day :
    let field : Field := { name := "due", type := .date }
    let run (operator : Comparison) :=
      SearchM.testField lastDays Catalog.inventoryDay field operator "today"
        Journal.empty
    lastDays.field? "due" = some field ∧
      lastDays.operatorTokens "due" = .ok ["=", ">", "<", "<=", ">="] ∧
      Token.ofPhrase ">" = .ok [⟨.comparison .greater, 0, 1⟩] ∧
      (∃ error after, run .greater = .error error after) ∧
      ¬ ∃ error after, run .less = .error error after := by
  intro field run
  have reached : lastDays.field? "due" = some field := rfl
  have read :
      TimeExpression.read (.midnight Date.last) "today" =
        .ok (some (.midnight Date.last)) := rfl
  obtain ⟨tokens, offered, -, compare⟩ := offered_operators_compare reached rfl
  have listed :
      lastDays.operatorTokens "due" = .ok ["=", ">", "<", "<=", ">="] := rfl
  cases listed.symm.trans offered
  obtain ⟨_, written, after⟩ := compare ">" (by simp)
  obtain ⟨_, writtenLess, before⟩ := compare "<" (by simp)
  cases (Token.ofPhrase_token .greater).symm.trans written
  cases (Token.ofPhrase_token .less).symm.trans writtenLess
  refine ⟨reached, listed, written, ?_, ?_⟩
  · have leaves : field.LeavesCalendar (.midnight Date.last) .greater "today" :=
      .nextDay rfl (Or.inl rfl) read rfl
    exact
      (((after Catalog.inventoryDay Journal.empty "today").2 rfl).2.1 rfl).mpr
      leaves
  · intro fails
    have leaves :=
      (((before Catalog.inventoryDay Journal.empty "today").2 rfl).2.1 rfl).mp
        fails
    cases leaves with
    | start faulty => cases read.symm.trans faulty
    | nextDay _ shifted _ _ => simp at shifted
    | spanEnd instants _ _ => cases instants

end Catalog

end SearchPhrase
