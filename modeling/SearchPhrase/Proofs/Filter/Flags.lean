import SearchPhrase.Proofs.Filter.Inequality
import SearchPhrase.Proofs.Schema.Acceptance

/-!
# Fields that are true or false

A leaf that names a field with a value for true asks whether the field is true.
It is compiled on a way of its own: the name of the value is looked up by what
is stored for it, and then again by its name.  In a registered catalog the names
of the values of a field are distinct, so both look-ups find the same value, and
the leaf is the comparison of the field with that name.  No other value of the
field has the test that is made.
-/

namespace SearchPhrase

/-! ## Values by their names -/

namespace Field

variable {field : Field} {name : String} {stored : StoredValue}

/--
Where names are distinct, what is stored for a name is what is listed with it.
-/
theorem stored?_eq_some_iff
    (distinct : (field.values.map NamedValue.name).Nodup) :
    field.stored? name = some stored ↔ ⟨name, stored⟩ ∈ field.values := by
  constructor
  · intro listed
    obtain ⟨value, found, rfl⟩ := Option.map_eq_some_iff.mp listed
    have named : value.name = name := by simpa using List.find?_some found
    rw [← named]
    exact List.mem_of_find?_eq_some found
  · intro member
    have named :
        (field.values.find? fun value => value.name == name).isSome := by
      rw [List.find?_isSome]
      exact ⟨_, member, by simp⟩
    obtain ⟨first, found⟩ := Option.isSome_iff_exists.mp named
    have sameName : first.name = name := by simpa using List.find?_some found
    have same : first = ⟨name, stored⟩ :=
      List.inj_on_of_nodup_map distinct (List.mem_of_find?_eq_some found) member
        sameName
    rw [stored?, found, same, Option.map_some]

/-- True is stored for the value that is named as the one for true. -/
theorem stored?_of_trueName? (sound : field.Sound)
    (named : field.trueName? = some name) :
    field.stored? name = some (.flag true) := by
  obtain ⟨value, found, rfl⟩ := Option.map_eq_some_iff.mp named
  have isTrue : value.stored = .flag true := by
    simpa using List.find?_some found
  rw [stored?_eq_some_iff sound.2.2, ← isTrue]
  exact List.mem_of_find?_eq_some found

theorem isEnumerated_of_stored? (listed : field.stored? name = some stored) :
    field.isEnumerated = true := by
  obtain ⟨value, found, -⟩ := Option.map_eq_some_iff.mp listed
  have nonempty := List.ne_nil_of_mem (List.mem_of_find?_eq_some found)
  simpa [isEnumerated] using nonempty

end Field

/-! ## The test for true -/

namespace FieldTest

variable {field : Field} {operator : Comparison} {value : String}
  {test : FieldTest}

/--
The test whether a field is true: above zero if it is one of numbers, and else
not false.
-/
def truth (field : Field) : FieldTest :=
  if field.type.isNumerical then
    ⟨field.name, .greater, ⟨"(" ++ field.name ++ "[]= > ?)", [.integer 0]⟩⟩
  else
    ⟨field.name, .different,
      ⟨"(" ++ field.name ++ "[]= <> ?)", [.boolean false]⟩⟩

theorem truth_eq_grouped (field : Field) :
    truth field =
      grouped field (flagComparison field.type true).1
        (flagComparison field.type true).2
        false := by
  unfold truth flagComparison
  cases field.type.isNumerical <;>
    simp [grouped, comparisonText, Field.selector, Comparison.filterText,
      String.append_assoc]

/--
An enumerated field is tested for equality or inequality with what is stored for
a value.
-/
theorem enumerated_eq_ok (tested : enumerated field operator value = .ok test) :
    ∃ stored, field.stored? value = some stored ∧
      (operator = .equal ∨ operator = .different) ∧
      test = grouped field (storedComparison field operator stored).2.1
        (storedComparison field operator stored).2.2
        (storedComparison field operator stored).1 := by
  unfold enumerated at tested
  split at tested
  · cases tested
  · next stored listed =>
      split at tested
      · next equality =>
          cases tested
          exact ⟨stored, listed, by simpa using equality, rfl⟩
      · cases tested

theorem enumerated_of_flag (listed : field.stored? value = some (.flag true)) :
    enumerated field .equal value = .ok (truth field) := by
  rw [truth_eq_grouped, enumerated, listed]
  rfl

/--
Of all operators and values, only equality with a value for true gives the test
for true.  A number or text that is stored is compared with itself, and a flag
with zero or false.
-/
theorem eq_flag_of_filter_eq
    (tested : enumerated field operator value = .ok test)
    (same : test.filter = (truth field).filter) :
    operator = .equal ∧ field.stored? value = some (.flag true) := by
  obtain ⟨stored, listed, equality, rfl⟩ := enumerated_eq_ok tested
  rw [truth_eq_grouped, filter_grouped, filter_grouped] at same
  have asserted := Assertion.filter_injective field same
  rw [listed]
  cases stored with
  | flag flag =>
      cases type : field.type.isNumerical <;> cases flag <;>
        rcases equality with rfl | rfl <;>
        simp_all [storedComparison, flagComparison]
  | integer number =>
      cases type : field.type.isNumerical <;>
        rcases equality with rfl | rfl <;>
        simp_all [storedComparison, flagComparison]
  | text text =>
      cases type : field.type.isNumerical <;>
        simp_all [storedComparison, flagComparison]

end FieldTest

/-! ## Leaves and comparisons -/

namespace SearchM

variable {catalog : Catalog} {clock : Instant} {field : Field}
  {operator : Comparison}
  {value : String} {journal after : Journal} {filter : Filter}

/-- A value for true is tested by the test for true, which is noted. -/
theorem testField_of_flag (listed : field.stored? value = some (.flag true)) :
    testField catalog clock field .equal value =
      record (some (FieldTest.truth field)) := by
  have kind : TestKind.of field .equal = .enumerated := by
    simp [TestKind.of, Field.isEnumerated_of_stored? listed]
  have checked : FieldTest.checkOperator field .equal = .ok () := rfl
  unfold testField
  rw [checked, kind, FieldTest.enumerated_of_flag listed]
  rfl

/--
The filter of the test for true is given for no other comparison of the field.
-/
theorem eq_flag_of_testField
    (isEnumerated : field.isEnumerated = true)
    (tested : testField catalog clock field operator value journal =
      .ok (some (FieldTest.truth field).filter) after) :
    operator = .equal ∧ field.stored? value = some (.flag true) := by
  obtain ⟨test, found, same⟩ := testField_eq_ok tested
  have kind : TestKind.of field operator = .enumerated := by
    simp [TestKind.of, isEnumerated]
  unfold FieldTest.of at found
  split at found
  · cases found
  · rw [kind] at found
    exact FieldTest.eq_flag_of_filter_eq (FieldTest.map_some_eq_ok found) same

end SearchM

namespace Tree

/--
A leaf that reaches a field with a value for true compiles to the test for true,
as the comparison of the field with that value does.  Comparisons of the field
with other values, or by other operators, have other filters.
-/
theorem compile_flag_leaf
    {catalog : Catalog} (registered : catalog.Registered)
    {text name : String} {field : Field}
    (reached : catalog.field? text = some field)
    (named : field.trueName? = some name)
    (clock : Instant) (journal : Journal) :
    let run (tree : Tree) := tree.compile catalog clock journal
    let test := FieldTest.truth field
    run (.leaf text) = .ok (some test.filter) (journal.append test.notices) ∧
      run (.comparison .equal [.leaf text, .leaf name]) = run (.leaf text) ∧
      ∀ operator value,
        (∃ after, run (.comparison operator [.leaf text, .leaf value]) =
          .ok (some test.filter) after) ↔
        operator = .equal ∧ field.stored? value = some (.flag true) := by
  have sound := registered.sound (Catalog.mem_fields_of_field? reached)
  have listed := Field.stored?_of_trueName? sound named
  have compared (operator : Comparison) (value : String) :
      (comparison operator [.leaf text, .leaf value]).compile catalog clock
          journal =
        SearchM.testField catalog clock field operator value journal := by
    rw [compile, SearchM.comparison, reached]
  have alone :
      (leaf text).compile catalog clock journal =
        .ok (some (FieldTest.truth field).filter)
          (journal.append (FieldTest.truth field).notices) := by
    simp only [compile, SearchM.leaf, reached, named,
      FieldTest.enumerated_of_flag listed]
    rfl
  simp only [compared, alone, true_and]
  refine ⟨?_, fun operator value => ⟨?_, ?_⟩⟩
  · rw [SearchM.testField_of_flag listed]
    rfl
  · rintro ⟨after, tested⟩
    exact SearchM.eq_flag_of_testField
      (Field.isEnumerated_of_stored? listed) tested
  · rintro ⟨rfl, alsoListed⟩
    rw [SearchM.testField_of_flag alsoListed]
    exact ⟨_, rfl⟩

/--
The status of a machine, by a name that reaches it through a dot, is tested
above zero.
-/
theorem compile_flag_leaf_status :
    let run (tree : Tree) :=
      tree.compile Catalog.inventory Catalog.inventoryDay Journal.empty
    let filter : Filter := ⟨"(status[]= > ?)", [.integer 0]⟩
    Catalog.inventory.Registered ∧
      Catalog.inventory.field? "status.now" = some FieldTest.statusField ∧
      FieldTest.statusField.trueName? = some "active" ∧
      run (.leaf "status.now") =
        .ok (some filter)
          ⟨[.key "status", .operator .greater, .parameter (.integer 0)], none⟩ ∧
      run (.comparison .equal [.leaf "status.now", .leaf "active"]) =
        run (.leaf "status.now") ∧
      ¬ ∃ after,
        run (.comparison .equal [.leaf "status.now", .leaf "inactive"]) =
          .ok (some filter) after := by
  have reached :
      Catalog.inventory.field? "status.now" = some FieldTest.statusField := by
    decide
  have named : FieldTest.statusField.trueName? = some "active" := by decide
  obtain ⟨alone, compared, only⟩ :=
    compile_flag_leaf Catalog.registered_inventory reached named
      Catalog.inventoryDay Journal.empty
  refine ⟨Catalog.registered_inventory, reached, named, alone, compared, ?_⟩
  intro same
  exact absurd ((only .equal "inactive").mp same).2 (by decide)

end Tree

end SearchPhrase
