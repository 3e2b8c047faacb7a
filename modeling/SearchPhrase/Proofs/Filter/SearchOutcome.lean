import Mathlib.Data.List.Forall2
import SearchPhrase.Proofs.Calendar.Range
import SearchPhrase.Proofs.Filter.ImplicitSearch
import SearchPhrase.Proofs.Filter.Spans

/-!
# Outcomes of searches without a field

A value that is searched in the default fields is read to choose the fields, and
read again to test each of them.  The readings agree: a field that is chosen is
never left without a test, and its value is never refused for not being a
number.  What remains are operators that the field does not take, and times at
the end of the calendar.  A search therefore fails for one of these reasons, or
it tests all the fields that it chose.
-/

namespace SearchPhrase

/-! ## Tests of fields that suit a value -/

/--
The field may be chosen for a value: it lists no values, and is textual or fits
the value.
-/
structure Field.Suits (field : Field) (reference : Instant) (value : String) :
    Prop where
  notEnumerated : field.isEnumerated = false
  textualOrFits : field.type.isTextual = true ∨ field.FitsValue reference value

/--
The test of a field by a value goes wrong: a pattern for a field that is not
textual, a bound after the last date, or a span of time that ends after the last
date.
-/
inductive Field.Declines (field : Field) (reference : Instant)
    (operator : Comparison) (value : String) : Prop where
  | pattern
      (pattern : operator = .like ∨ operator = .unlike)
      (notTextual : field.type.isTextual = false)
  | lastDay {instant : Instant}
      (days : field.type.isDay = true)
      (shifted : operator = .greater ∨ operator = .lessOrEqual)
      (read : TimeExpression.read reference value = .ok (some instant))
      (last : instant.date = ⊤)
  | lastSpan {instant : Instant}
      (instants : field.type.isInstant = true)
      (read : TimeExpression.read reference value = .ok (some instant))
      (last : instant.date = ⊤)
      (past :
        secondsPerDay ≤ instant.second + FieldTest.spanSeconds value instant)

theorem Comparison.isPattern_iff {operator : Comparison} :
    operator.isPattern = true ↔ operator = .like ∨ operator = .unlike := by
  cases operator <;> simp [isPattern]

namespace FieldType

theorem isTemporal_eq (type : FieldType) :
    type.isTemporal = !(type.isTextual || type.isNumerical) := by
  cases type <;> rfl

theorem isNumerical_of_isTextual {type : FieldType} :
    type.isTextual = true → type.isNumerical = false := by
  cases type <;> decide

theorem isDay_of_isInstant {type : FieldType} :
    type.isInstant = true → type.isDay = false := by
  cases type <;> decide

end FieldType

namespace FieldTest

theorem spanSeconds_le (value : String) (instant : Instant) :
    spanSeconds value instant ≤ secondsPerDay := by
  unfold spanSeconds
  split
  · decide
  · split <;> decide

theorem addSeconds?_spanSeconds_eq_none_iff
    {value : String} {instant : Instant} :
    instant.addSeconds? (spanSeconds value instant) = none ↔
      instant.date = ⊤ ∧
        secondsPerDay ≤ instant.second + spanSeconds value instant :=
  Instant.addSeconds?_eq_none_iff (spanSeconds_pos value instant)
    (spanSeconds_le value instant)

theorem map_some_ne_ok_none {α : Type} (outcome : Except SearchError α) :
    outcome.map some ≠ .ok none := by
  cases outcome <;> exact nofun

section Suited

variable {reference : Instant} {field : Field} {operator : Comparison}
  {value : String}

/--
No day follows the last date, from which on or before which a field could be.
-/
theorem day_of_last
    (shifted : operator = .greater ∨ operator = .lessOrEqual) {date : Date}
    (last : date = ⊤) :
    day field operator date = .error (.outOfRange date.render) := by
  have stuck : nextDay date = .error (.outOfRange date.render) := by
    unfold nextDay
    rw [Date.addDays?_one_eq_none_iff.mpr last]
  rcases shifted with rfl | rfl
  · rw [day, stuck, Except.map]
  · rw [day, stuck, Except.map]

/-- There is no test only where a temporal field has a value that is no time. -/
theorem of_eq_ok_none
    (untested : of reference field operator value = .ok none) :
    field.type.isTemporal = true ∧
      TimeExpression.read reference value = .ok none := by
  unfold of at untested
  split at untested
  · cases untested
  · split at untested
    · exact absurd untested (map_some_ne_ok_none _)
    · next kind =>
        refine ⟨TestKind.isTemporal_of_eq kind, ?_⟩
        unfold temporal at untested
        split at untested
        · cases untested
        · next unread => exact unread
        · exact absurd untested (map_some_ne_ok_none _)
    · exact absurd untested (map_some_ne_ok_none _)
    · exact absurd untested (map_some_ne_ok_none _)

end Suited

end FieldTest

namespace Field

variable {field : Field} {reference : Instant} {operator : Comparison}
  {value : String}

theorem Suits.exists_read
    (suits : field.Suits reference value)
    (temporal : field.type.isTemporal = true) :
    ∃ instant, TimeExpression.read reference value = .ok (some instant) := by
  rcases suits.textualOrFits with textual | ⟨numerical, -⟩ | ⟨-, read⟩
  · simp [FieldType.isTemporal_eq, textual] at temporal
  · simp [FieldType.isTemporal_eq, numerical] at temporal
  · exact read

theorem Suits.exists_integer
    (suits : field.Suits reference value)
    (numerical : field.type.isNumerical = true) :
    ∃ number, Numeral.integer? value = some number := by
  rcases suits.textualOrFits with textual | ⟨-, -, read⟩ | ⟨temporal, -⟩
  · simp [FieldType.isNumerical_of_isTextual textual] at numerical
  · exact Option.isSome_iff_exists.mp read
  · simp [FieldType.isTemporal_eq, numerical] at temporal

/--
Of the reasons for which a test fails, those remain that concern the limits of
the field.
-/
theorem Suits.declines_of_refused
    (suits : field.Suits reference value) {error : SearchError}
    (refused : FieldTest.Refused reference field operator value error) :
    field.Declines reference operator value := by
  cases refused with
  | operator pattern notTextual =>
      exact .pattern (Comparison.isPattern_iff.mp pattern) notTextual
  | unlisted enumerated _ => simp [suits.notEnumerated] at enumerated
  | notEquality enumerated _ _ => simp [suits.notEnumerated] at enumerated
  | notNumber numerical unread =>
      obtain ⟨number, read⟩ := suits.exists_integer numerical
      simp [read] at unread
  | lastDay days read shifted last =>
      exact .lastDay days shifted read (Date.addDays?_one_eq_none_iff.mp last)
  | lastSpan instants read last =>
      obtain ⟨lastDate, past⟩ :=
        FieldTest.addSeconds?_spanSeconds_eq_none_iff.mp last
      exact .lastSpan instants read lastDate past
  | calendar temporal faulty =>
      obtain ⟨instant, read⟩ := suits.exists_read temporal
      simp [read] at faulty

/-- A field that suits the value and does not decline it is tested. -/
theorem Suits.exists_test
    (suits : field.Suits reference value)
    (accepts : ¬ field.Declines reference operator value) :
    ∃ test, FieldTest.of reference field operator value = .ok (some test) := by
  cases tested : FieldTest.of reference field operator value with
  | error error =>
      exact absurd
        (suits.declines_of_refused (FieldTest.refused_of tested)) accepts
  | ok test? =>
      cases test? with
      | none =>
          obtain ⟨temporal, unread⟩ := FieldTest.of_eq_ok_none tested
          obtain ⟨instant, read⟩ := suits.exists_read temporal
          simp [read] at unread
      | some test => exact ⟨test, rfl⟩

theorem Suits.of_temporal
    (suits : field.Suits reference value)
    (temporal : field.type.isTemporal = true)
    (accepted : FieldTest.checkOperator field operator = .ok ()) :
    FieldTest.of reference field operator value =
      FieldTest.temporal reference field operator value := by
  have kind : TestKind.of field operator = .temporal := by
    simp [TestKind.of, suits.notEnumerated, temporal]
  simp [FieldTest.of, accepted, kind]

/-- A field that suits the value and declines it is not tested. -/
theorem Suits.fails_of_declines
    (suits : field.Suits reference value)
    (declines : field.Declines reference operator value) :
    ∃ error, FieldTest.of reference field operator value = .error error := by
  cases checked : FieldTest.checkOperator field operator with
  | error error => exact ⟨error, by simp [FieldTest.of, checked]⟩
  | ok _ =>
      cases declines with
      | pattern pattern notTextual =>
          rw [FieldTest.checkOperator_of_not_isTextual
            (Comparison.isPattern_iff.mpr pattern) notTextual] at checked
          cases checked
      | lastDay days shifted read last =>
          rw [suits.of_temporal (by simp [FieldType.isTemporal, days]) checked]
          simp [FieldTest.temporal, read, days,
            FieldTest.day_of_last shifted last, Except.map]
      | lastSpan instants read last past =>
          have notDays := FieldType.isDay_of_isInstant instants
          have stuck :=
            FieldTest.addSeconds?_spanSeconds_eq_none_iff.mpr ⟨last, past⟩
          rw [suits.of_temporal (by simp [FieldType.isTemporal, instants])
            checked]
          simp [FieldTest.temporal, read, notDays, FieldTest.span, stuck,
            Except.map]

theorem Suits.fails_iff (suits : field.Suits reference value) :
    (∃ error, FieldTest.of reference field operator value = .error error) ↔
      field.Declines reference operator value := by
  constructor
  · rintro ⟨error, failed⟩
    exact suits.declines_of_refused (FieldTest.refused_of failed)
  · exact suits.fails_of_declines

end Field

/-! ## One test for each field -/

/-- The field of a notice of one. -/
def Notice.key? : Notice → Option String
  | .key field => some field
  | _ => none

namespace FieldTest

/--
Tests of fields by a value, one for each, by the operator given or by that of
the field.
-/
def OneEach (reference : Instant) (operator : Option Comparison)
    (value : String) :
    List Field → List FieldTest → Prop :=
  List.Forall₂ fun field test =>
    of reference field (operator.getD field.implicitOperator) value =
      .ok (some test)

/-- The filter that one of the tests holds; none if there are no tests. -/
def alternatives : List FieldTest → Option Filter
  | [] => none
  | first :: rest =>
      some
        (Filter.followedBy Connective.or.filterText first.filter
          (rest.map filter))

theorem keys_notices (test : FieldTest) :
    test.notices.filterMap Notice.key? = [test.field] := by
  simp [notices, Notice.ofTest, Notice.key?]

theorem Tests.field_eq {field : Field} {test : FieldTest}
    (form : Tests field test) :
    test.field = field.name := by
  cases form <;> rfl

theorem Tests.isEmpty_filter {field : Field} {test : FieldTest}
    (form : Tests field test) :
    test.filter.isEmpty = false := by
  cases form with
  | comparison operator parameter =>
      simp [FieldTest.comparison, comparisonText, Filter.isEmpty]
  | grouped operator parameter denied =>
      cases denied <;> simp [FieldTest.grouped, Filter.isEmpty]
  | within start stop =>
      simp [FieldTest.within, comparisonText, Filter.isEmpty]

namespace OneEach

variable {reference : Instant} {operator : Option Comparison} {value : String}
  {fields : List Field} {tests : List FieldTest}

/-- The tests are noted in order, and their filters are given in order. -/
theorem inOrder_eq (tested : OneEach reference operator value fields tests) :
    Report.inOrder (fields.map fun field =>
        field.report reference (operator.getD field.implicitOperator) value) =
      ⟨.ok (tests.map filter), tests.flatMap notices⟩ := by
  induction tested with
  | nil => rfl
  | cons found _ ih =>
      rw [List.map_cons, Report.inOrder, ih, Field.report, found]
      simp [Report.ofTest, Report.bind, Report.map, Except.map]

/-- No test is lost where the filters are joined. -/
theorem join_eq (tested : OneEach reference operator value fields tests) :
    Filter.join Connective.or.filterText (tests.map filter) =
      alternatives tests := by
  have kept :
      (tests.map filter).filter (fun filter => !filter.isEmpty) =
        tests.map filter := by
    rw [List.filter_eq_self]
    induction tested with
    | nil => simp
    | cons found _ ih => simpa [(tests_of found).isEmpty_filter] using ih
  rw [Filter.join, kept]
  cases tests <;> rfl

theorem keys_eq (tested : OneEach reference operator value fields tests) :
    (tests.flatMap notices).filterMap Notice.key? = fields.map Field.name := by
  induction tested with
  | nil => rfl
  | cons found _ ih =>
      simp [keys_notices, (tests_of found).field_eq, ih]

theorem alternatives_eq_none_iff
    (tested : OneEach reference operator value fields tests) :
    alternatives tests = none ↔ fields = [] := by
  cases tested <;> simp [alternatives]

end OneEach

/-- Fields that all suit a value and do not decline it have a test each. -/
theorem exists_oneEach
    {reference : Instant} {operator : Option Comparison} {value : String}
    {fields : List Field} (suit : ∀ field ∈ fields, field.Suits reference value)
    (accept : ∀ field ∈ fields,
      ¬ field.Declines reference (operator.getD field.implicitOperator) value) :
    ∃ tests, OneEach reference operator value fields tests := by
  induction fields with
  | nil => exact ⟨[], .nil⟩
  | cons field rest ih =>
      rw [List.forall_mem_cons] at suit accept
      obtain ⟨test, tested⟩ := suit.1.exists_test accept.1
      obtain ⟨others, testedOthers⟩ := ih suit.2 accept.2
      exact ⟨test :: others, .cons tested testedOthers⟩

end FieldTest

/-! ## Searches -/

namespace Catalog

variable {catalog : Catalog} {reference : Instant} {value : String}
  {operator : Option Comparison} {fields : List Field}

theorem suits_of_mem_candidates
    (found : catalog.candidates reference value operator = .ok fields) :
    ∀ field ∈ fields, field.Suits reference value := by
  intro field member
  obtain ⟨-, notEnumerated, chosen⟩ := (mem_candidates_iff found).mp member
  exact ⟨notEnumerated, chosen.imp And.left id⟩

/-- A search fails if one of the fields that it chose declines the value. -/
theorem searchReport_fails_iff
    (found : catalog.candidates reference value operator = .ok fields) :
    (∃ error, (catalog.searchReport reference value operator).outcome =
      .error error) ↔
      ∃ field ∈ fields,
        field.Declines reference (operator.getD field.implicitOperator)
          value := by
  simp only [searchReport_of_candidates found, Report.map_outcome_eq_error,
    Report.inOrder_fails_iff, List.mem_map]
  constructor
  · rintro ⟨_, ⟨field, member, rfl⟩, error, failed⟩
    have suits := suits_of_mem_candidates found field member
    exact ⟨field, member,
      suits.fails_iff.mp ⟨error, Field.report_fails_iff.mp failed⟩⟩
  · rintro ⟨field, member, declines⟩
    have suits := suits_of_mem_candidates found field member
    obtain ⟨error, failed⟩ := suits.fails_iff.mpr declines
    exact ⟨_, ⟨field, member, rfl⟩, error, Field.report_fails_iff.mpr failed⟩

theorem searchReport_of_oneEach
    (found : catalog.candidates reference value operator = .ok fields)
    {tests : List FieldTest}
    (tested : FieldTest.OneEach reference operator value fields tests) :
    catalog.searchReport reference value operator =
      ⟨.ok (FieldTest.alternatives tests),
        tests.flatMap FieldTest.notices⟩ := by
  rw [searchReport_of_candidates found, tested.inOrder_eq, Report.map,
    ← tested.join_eq]
  rfl

end Catalog

namespace Tree

/--
A tree searches the default fields for a value, with an operator or without one.
-/
inductive Searches (catalog : Catalog) (value : String) :
    Option Comparison → Tree → Prop
  | comparison (operator : Comparison) :
      Searches catalog value (some operator)
        (.comparison operator [.leaf value])
  | leaf (noTrueName : ∀ field ∈ catalog.field? value, field.trueName? = none) :
      Searches catalog value none (.leaf value)

theorem Searches.report_eq
    {catalog : Catalog} {value : String} {operator : Option Comparison}
    {tree : Tree}
    (searches : Searches catalog value operator tree) (reference : Instant) :
    tree.report catalog reference =
      catalog.searchReport reference value operator := by
  cases searches with
  | comparison operator => rw [report, comparisonReport]
  | leaf noTrueName =>
      rw [report, leafReport]
      cases reached : catalog.field? value with
      | none => rfl
      | some field => simp only [noTrueName field reached]

/--
The outcome of a search without a field.  If the value cannot be resolved as a
time, the search fails with that fault.  Otherwise it fails if one of the fields
that are chosen declines the value.  If none does, the search gives one test for
each of them, in order: the filter joins all the tests, the journal notes them
all and hence the names of the fields, and there is no filter only if no field
was chosen.
-/
theorem search_tests_chosen_fields
    {catalog : Catalog} {reference : Instant}
    (pinned : catalog.reference = some reference)
    (clock : Instant) (journal : Journal)
    (anchored : journal.anchor = none ∨ journal.anchor = some reference)
    {value : String} {operator : Option Comparison} {tree : Tree}
    (searches : Searches catalog value operator tree) :
    let run := SearchM.ending (tree.compile catalog clock) journal
    match catalog.candidates reference value operator with
    | .error fault => run = ⟨.error (.calendar fault), journal.notices⟩
    | .ok fields =>
        ((∃ error, run.outcome = .error error) ↔
          ∃ field ∈ fields,
            field.Declines reference (operator.getD field.implicitOperator)
              value) ∧
        ((∀ field ∈ fields,
            ¬ field.Declines reference (operator.getD field.implicitOperator)
              value) →
          ∃ tests, FieldTest.OneEach reference operator value fields tests ∧
            run.outcome = .ok (FieldTest.alternatives tests) ∧
            run.notices = journal.notices ++ tests.flatMap FieldTest.notices ∧
            run.notices.filterMap Notice.key? =
              journal.notices.filterMap Notice.key? ++ fields.map Field.name ∧
            (run.outcome = .ok none ↔ fields = [])) := by
  simp only [ending_of_pinned pinned anchored, searches.report_eq]
  split
  · next fault unread =>
      rw [Catalog.searchReport, unread]
      simp [Report.ofExcept, Report.bind, Except.mapError]
  · next fields found =>
      refine ⟨Catalog.searchReport_fails_iff found, ?_⟩
      intro accept
      obtain ⟨tests, tested⟩ :=
        FieldTest.exists_oneEach (Catalog.suits_of_mem_candidates found) accept
      refine ⟨tests, tested, ?_⟩
      simp only [Catalog.searchReport_of_oneEach found tested,
        List.filterMap_append, tested.keys_eq, Except.ok.injEq,
        tested.alternatives_eq_none_iff, true_and]

/-- A field of texts. -/
def titleField : Field where
  name := "title"
  type := .string

/-- A field of days that are searched up to a date if no operator is given. -/
def dueField : Field where
  name := "due"
  type := .date
  defaultOperator := some .lessOrEqual

/-- A catalog that is pinned to the last date. -/
def lastAgenda : Catalog where
  fields := [titleField, dueField]
  reference := some (.midnight Date.last)

/--
On the last date, no day follows up to which the field of days could be
searched.  Days before today can be searched, and the field of texts is not
chosen for that.
-/
theorem search_tests_chosen_fields_last_day :
    let today := Instant.midnight Date.last
    let run (tree : Tree) :=
      SearchM.ending (tree.compile lastAgenda Catalog.inventoryDay)
        Journal.empty
    lastAgenda.Registered ∧ lastAgenda.reference = some today ∧
      Searches lastAgenda "today" none (.leaf "today") ∧
      lastAgenda.candidates today "today" none = .ok [titleField, dueField] ∧
      dueField.Declines today .lessOrEqual "today" ∧
      (∃ error, (run (.leaf "today")).outcome = .error error) ∧
      lastAgenda.candidates today "today" (some .less) = .ok [dueField] ∧
      ¬ dueField.Declines today .less "today" ∧
      (run (.comparison .less [.leaf "today"])).notices.filterMap Notice.key? =
        ["due"] ∧
      (run (.comparison .less [.leaf "today"])).outcome ≠ .ok none := by
  intro today run
  have added :
      Catalog.ofFields [titleField, dueField] =
        .ok ⟨[titleField, dueField], none⟩ :=
    rfl
  have pinned : lastAgenda.reference = some today := rfl
  have bare : Searches lastAgenda "today" none (.leaf "today") :=
    .leaf (by decide)
  have both :
      lastAgenda.candidates today "today" none = .ok [titleField, dueField] :=
    rfl
  have read : TimeExpression.read today "today" = .ok (some today) := rfl
  have declines : dueField.Declines today .lessOrEqual "today" :=
    .lastDay rfl (Or.inr rfl) read rfl
  have failing :=
    search_tests_chosen_fields pinned Catalog.inventoryDay Journal.empty
      (Or.inl rfl) bare
  have one :
      lastAgenda.candidates today "today" (some .less) = .ok [dueField] := rfl
  have accepts : ¬ dueField.Declines today .less "today" := by
    rintro (⟨pattern, _⟩ | ⟨_, shifted, _, _⟩ | ⟨instants, _, _, _⟩)
    · simp at pattern
    · simp at shifted
    · cases instants
  have earlier :
      Searches lastAgenda "today" (some .less)
        (.comparison .less [.leaf "today"]) :=
    .comparison .less
  have tested :=
    search_tests_chosen_fields pinned Catalog.inventoryDay Journal.empty
      (Or.inl rfl) earlier
  simp only [both] at failing
  simp only [one] at tested
  obtain ⟨tests, -, -, -, keys, nothing⟩ := tested.2 (by simpa using accepts)
  refine ⟨(Catalog.registered_ofFields added).pinned today, pinned, bare, both,
    declines, ?_, one, accepts, keys, ?_⟩
  · exact failing.1.mpr ⟨dueField, by simp, declines⟩
  · rw [Ne, nothing]
    exact List.cons_ne_nil _ _

end Tree

end SearchPhrase
