import SearchPhrase.Proofs.Filter.Spans
import SearchPhrase.Proofs.Filter.TreeCondition

/-!
# Tests by inequality

A field is tested by inequality in several ways: by the operator of a filter, by
a denied test of a flag, and by a span of time.  The first two deny what the
test by equality says, for every value that may be stored.  A field of instants
is tested by the same span for both operators, so the two tests are one.
-/

namespace SearchPhrase

namespace FieldTest

/-- A test by equality and a test by inequality that denies it. -/
inductive Opposed (field : Field) : FieldTest → FieldTest → Prop where
  | compared (parameter : Parameter) :
      Opposed field (comparison field .equal parameter)
        (comparison field .different parameter)
  | grouped (parameter : Parameter) :
      Opposed field (FieldTest.grouped field .equal parameter false)
        (FieldTest.grouped field .different parameter false)
  | denied (operator : Comparison) (parameter : Parameter) :
      Opposed field (FieldTest.grouped field operator parameter false)
        (FieldTest.grouped field operator parameter true)

section Operators

variable {reference : Instant} {field : Field} {value : String}
  {equalTest differentTest : FieldTest}

/-- Opposed tests give opposite verdicts. -/
theorem Opposed.verdict?_eq (opposed : Opposed field equalTest differentTest)
    (stored : RecordValue) :
    differentTest.filter.verdict? field stored =
      (equalTest.filter.verdict? field stored).map not := by
  cases opposed with
  | compared parameter =>
      rw [verdict?_comparison, verdict?_comparison, stored.satisfies_different,
        Option.map_some]
  | grouped parameter =>
      rw [verdict?_grouped, verdict?_grouped, stored.satisfies_different,
        Bool.false_xor, Bool.false_xor, Option.map_some]
  | denied operator parameter =>
      rw [verdict?_grouped, verdict?_grouped, Bool.true_xor, Bool.false_xor,
        Option.map_some]

/-! ## One kind of test after the other -/

theorem opposed_enumerated
    (equal : enumerated field .equal value = .ok equalTest)
    (different : enumerated field .different value = .ok differentTest) :
    Opposed field equalTest differentTest := by
  unfold enumerated at equal different
  cases listed : field.stored? value with
  | none =>
      rw [listed] at equal
      cases equal
  | some stored =>
      rw [listed] at equal different
      cases stored with
      | flag flag =>
          cases equal
          cases different
          exact .denied _ _
      | integer number =>
          cases equal
          cases different
          exact .grouped (.integer number)
      | text text =>
          cases equal
          cases different
          exact .grouped (.text text)

theorem opposed_generic
    (equal : generic field .equal value = .ok equalTest)
    (different : generic field .different value = .ok differentTest) :
    Opposed field equalTest differentTest := by
  unfold generic at equal different
  split at equal
  · next numerical =>
      rw [if_pos numerical] at different
      split at equal
      · next number read =>
          simp only [read] at different
          cases equal
          cases different
          exact .compared (.integer number)
      · cases equal
  · next notNumerical =>
      rw [if_neg notNumerical] at different
      cases equal
      cases different
      exact .compared (.text value)

theorem opposed_temporal (isDay : field.type.isDay = true)
    (equal : temporal reference field .equal value = .ok (some equalTest))
    (different :
      temporal reference field .different value = .ok (some differentTest)) :
    Opposed field equalTest differentTest := by
  obtain ⟨instant, written, equalDay, -⟩ := temporal_eq_ok equal
  obtain ⟨other, same, differentDay, -⟩ := temporal_eq_ok different
  cases written.symm.trans same
  cases equalDay isDay
  cases differentDay isDay
  exact .compared (.date instant.date)

/--
A field of instants is tested by the same span for equality and for inequality.
-/
theorem eq_of_temporal
    (equal : temporal reference field .equal value = .ok (some equalTest))
    (different :
      temporal reference field .different value = .ok (some differentTest))
    (isInstant : field.type.isInstant = true) :
    differentTest = equalTest := by
  have notDay : field.type.isDay = false := by
    cases type : field.type <;> simp_all [FieldType.isInstant, FieldType.isDay]
  obtain ⟨instant, written, -, equalSpan⟩ := temporal_eq_ok equal
  obtain ⟨other, same, -, differentSpan⟩ := temporal_eq_ok different
  cases written.symm.trans same
  have sameSpan :
      span field .different value instant = span field .equal value instant :=
    rfl
  rw [differentSpan notDay, equalSpan notDay] at sameSpan
  exact Except.ok.inj sameSpan

/-- An operator without patterns leaves the kind of the test to the field. -/
theorem of_eq_of_not_isPattern {operator : Comparison}
    (plain : operator.isPattern = false) :
    of reference field operator value =
      if field.isEnumerated then (enumerated field operator value).map some
      else if field.type.isTemporal then temporal reference field operator value
      else (generic field operator value).map some := by
  have allowed : checkOperator field operator = .ok () := by
    simp [checkOperator, plain]
  rw [of, allowed]
  by_cases isEnumerated : field.isEnumerated = true
  · simp [TestKind.of, isEnumerated]
  · by_cases isTemporal : field.type.isTemporal = true
    · simp [TestKind.of, isEnumerated, isTemporal]
    · simp [TestKind.of, isEnumerated, isTemporal, plain]

/--
The tests are opposed unless they are tests by a span of time; those are the
same test.
-/
theorem opposed_of
    (equal : of reference field .equal value = .ok (some equalTest))
    (different :
      of reference field .different value = .ok (some differentTest)) :
    (field.isEnumerated = true ∨ field.type.isInstant = false →
      Opposed field equalTest differentTest) ∧
    (field.isEnumerated = false → field.type.isInstant = true →
      differentTest = equalTest) := by
  rw [of_eq_of_not_isPattern rfl] at equal different
  by_cases isEnumerated : field.isEnumerated = true
  · rw [if_pos isEnumerated] at equal different
    refine ⟨fun _ =>
      opposed_enumerated (map_some_eq_ok equal) (map_some_eq_ok different), ?_⟩
    intro notEnumerated
    rw [isEnumerated] at notEnumerated
    cases notEnumerated
  · rw [if_neg isEnumerated] at equal different
    by_cases isTemporal : field.type.isTemporal = true
    · rw [if_pos isTemporal] at equal different
      refine ⟨?_, fun _ => eq_of_temporal equal different⟩
      intro kind
      have isDay : field.type.isDay = true := by
        simpa [FieldType.isTemporal, kind.resolve_left isEnumerated] using
          isTemporal
      exact opposed_temporal isDay equal different
    · rw [if_neg isTemporal] at equal different
      refine ⟨fun _ =>
        opposed_generic (map_some_eq_ok equal) (map_some_eq_ok different), ?_⟩
      intro _ isInstant
      simp [FieldType.isTemporal, isInstant] at isTemporal

end Operators

end FieldTest

namespace SearchM

section Inversion

variable {catalog : Catalog} {clock : Instant} {journal after : Journal}

theorem ofExcept_bind_eq_ok
    {α β : Type} {outcome : Except SearchError α} {next : α → SearchM β}
    {result : β}
    (succeeded : (ofExcept outcome >>= next) journal = .ok result after) :
    ∃ value, outcome = .ok value ∧ next value journal = .ok result after := by
  cases outcome with
  | error error => cases succeeded
  | ok value => exact ⟨value, rfl, succeeded⟩

/-- The filter that is given for a noted test is that of the test. -/
theorem ofExcept_record_eq_ok
    {α : Type} {outcome : Except SearchError α} {test? : α → Option FieldTest}
    {filter : Filter}
    (succeeded :
      (ofExcept outcome >>= fun found => record (test? found)) journal =
        .ok (some filter) after) :
    ∃ test, outcome.map test? = .ok (some test) ∧ test.filter = filter := by
  obtain ⟨found, rfl, recorded⟩ := ofExcept_bind_eq_ok succeeded
  cases noted : test? found with
  | none =>
      rw [noted] at recorded
      cases recorded
  | some test =>
      rw [noted] at recorded
      cases recorded
      exact ⟨test, congrArg Except.ok noted, rfl⟩

/--
The filter of a tested field is that of its test, relative to the reference of
the journal.  The reference that is fixed for a journal is the one that it had.
-/
theorem testField_eq_ok
    {field : Field} {operator : Comparison} {value : String} {filter : Filter}
    (tested :
      testField catalog clock field operator value journal =
        .ok (some filter) after) :
    ∃ test,
      FieldTest.of (journal.reference catalog clock) field operator value =
        .ok (some test) ∧ test.filter = filter := by
  obtain ⟨_, allowed, ran⟩ := ofExcept_bind_eq_ok tested
  cases kind : TestKind.of field operator with
  | enumerated =>
      simp only [kind] at ran
      simpa only [FieldTest.of, allowed, kind] using ofExcept_record_eq_ok ran
  | temporal =>
      simp only [kind] at ran
      change (ofExcept
        (FieldTest.temporal (journal.reference catalog clock) field
          operator value)
        >>= fun found => record (id found)) _ = _ at ran
      simpa only [FieldTest.of, allowed, kind, Except.map_id, id_eq] using
        ofExcept_record_eq_ok ran
  | pattern =>
      simp only [kind] at ran
      simpa only [FieldTest.of, allowed, kind] using ofExcept_record_eq_ok ran
  | generic =>
      simp only [kind] at ran
      simpa only [FieldTest.of, allowed, kind] using ofExcept_record_eq_ok ran

end Inversion

end SearchM

/-! ## Equality and inequality -/

/--
The filter for inequality denies the filter for equality, whatever the field
stores, unless the field is a field of instants that is not enumerated.  For
those the two filters are the same.
-/
theorem FieldTest.different_denies_equal
    {catalog : Catalog} {clock otherClock : Instant} {field : Field}
    {value : String}
    {journal otherJournal after otherAfter : Journal}
    {equalFilter differentFilter : Filter}
    (sameReference :
      journal.reference catalog clock =
        otherJournal.reference catalog otherClock)
    (equalTested :
      SearchM.testField catalog clock field .equal value journal =
        .ok (some equalFilter) after)
    (differentTested :
      SearchM.testField catalog otherClock field .different value otherJournal =
        .ok (some differentFilter) otherAfter)
    (stored : RecordValue) :
    ∃ holds, equalFilter.verdict? field stored = some holds ∧
      (field.isEnumerated = true ∨ field.type.isInstant = false →
        differentFilter.verdict? field stored = some !holds) ∧
      (field.isEnumerated = false → field.type.isInstant = true →
        differentFilter = equalFilter) := by
  obtain ⟨equalTest, equal, rfl⟩ := SearchM.testField_eq_ok equalTested
  obtain ⟨differentTest, different, rfl⟩ :=
    SearchM.testField_eq_ok differentTested
  rw [← sameReference] at different
  obtain ⟨opposed, same⟩ := opposed_of equal different
  obtain ⟨holds, equalHolds⟩ := (tests_of equal).exists_verdict stored
  refine ⟨holds, equalHolds, ?_, ?_⟩
  · intro denies
    rw [(opposed denies).verdict?_eq, equalHolds, Option.map_some]
  · intro notEnumerated isInstant
    rw [same notEnumerated isInstant]

/-- The field of the inventory that lists the names of its values. -/
def FieldTest.statusField : Field where
  name := "status"
  type := .integer
  values := [⟨"active", .flag true⟩, ⟨"inactive", .flag false⟩]

/-- A machine whose status is stored as the number five. -/
def RecordValue.five : RecordValue :=
  .ordered (fun parameter =>
    match parameter with
    | .integer value => some value.toInt
    | _ => none) (5 : Int)

/--
A flag of a field of numbers is tested above zero, and inequality denies that.
-/
theorem FieldTest.different_denies_equal_status :
    ∃ after otherAfter,
      SearchM.testField Catalog.inventory Catalog.inventoryDay statusField
        .equal "active"
          Journal.empty =
        .ok (some ⟨"(status[]= > ?)", [.integer 0]⟩) after ∧
      SearchM.testField Catalog.inventory Catalog.inventoryDay statusField
        .different "active"
          Journal.empty =
        .ok (some ⟨"NOT (status[]= > ?)", [.integer 0]⟩) otherAfter ∧
      Filter.verdict? statusField .five ⟨"(status[]= > ?)", [.integer 0]⟩ =
        some true ∧
      Filter.verdict? statusField .five ⟨"NOT (status[]= > ?)", [.integer 0]⟩ =
        some false := by
  have equalTested : ∃ after,
      SearchM.testField Catalog.inventory Catalog.inventoryDay statusField
        .equal "active"
          Journal.empty =
        .ok (some ⟨"(status[]= > ?)", [.integer 0]⟩) after :=
    ⟨_, rfl⟩
  have differentTested : ∃ after,
      SearchM.testField Catalog.inventory Catalog.inventoryDay statusField
        .different "active"
          Journal.empty =
        .ok (some ⟨"NOT (status[]= > ?)", [.integer 0]⟩) after :=
    ⟨_, rfl⟩
  obtain ⟨after, equalTested⟩ := equalTested
  obtain ⟨otherAfter, differentTested⟩ := differentTested
  obtain ⟨holds, equalHolds, denied, -⟩ :=
    different_denies_equal rfl equalTested differentTested .five
  have above :
      Filter.verdict? statusField .five ⟨"(status[]= > ?)", [.integer 0]⟩ =
        some true := by
    decide
  cases equalHolds.symm.trans above
  exact ⟨after, otherAfter, equalTested, differentTested, above,
    denied (Or.inl rfl)⟩

/-- The filter of the machines that were updated on the day of the inventory. -/
def FieldTest.todayFilter : Filter where
  text := "updated[]= >= ?&updated[]= < ?"
  parameters :=
    [.timestamp Catalog.inventoryDay, .timestamp Catalog.inventoryNextDay]

/--
For a field of instants, equality and inequality hold of the same instant.
-/
theorem FieldTest.different_holds_with_equal :
    Catalog.inventory.Registered ∧ updatedField ∈ Catalog.inventory.fields ∧
      ∃ after otherAfter,
        SearchM.testField Catalog.inventory Catalog.inventoryDay updatedField
          .equal "today"
            Journal.empty = .ok (some todayFilter) after ∧
        SearchM.testField Catalog.inventory Catalog.inventoryDay updatedField
          .different "today"
            Journal.empty = .ok (some todayFilter) otherAfter ∧
        todayFilter.verdict? updatedField (.ofInstant Catalog.inventoryDay) =
          some true :=
  ⟨Catalog.registered_inventory, by decide, _, _, rfl, rfl, by decide⟩

end SearchPhrase
