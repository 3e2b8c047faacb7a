import SearchPhrase.Filter.QueryString
import SearchPhrase.Proofs.Filter.TestCondition

/-!
# Conditions of search trees

A search tree that compiles states a condition, or none if nothing in it
restricts the search.  The condition is found from the tree alone, without a
journal.  The main lemma says that compiling gives the filter of that condition
and notes exactly its tests.  The placeholders of the filter and the parameters
in the journal therefore agree, whatever the journal held before.
-/

namespace SearchPhrase

/-! ## The condition of a tree -/

/-- The condition of the test of a field, if there is a test. -/
def Field.condition? (field : Field) (reference : Instant)
    (operator : Comparison) (value : String) : Option Condition :=
  match FieldTest.of reference field operator value with
  | .ok (some test) => test.condition?
  | _ => none

/-- The condition that a default field has a value. -/
def Catalog.searchCondition? (catalog : Catalog) (reference : Instant)
    (value : String) (operator : Option Comparison) : Option Condition :=
  match catalog.candidates reference value operator with
  | .ok fields =>
      Condition.join .or (fields.flatMap fun field =>
        (field.condition? reference (operator.getD field.implicitOperator)
          value).toList)
  | .error _ => none

namespace Tree

/-- The condition of a leaf. -/
def leafCondition? (catalog : Catalog) (reference : Instant) (value : String) :
    Option Condition :=
  match catalog.field? value with
  | some field =>
      match field.trueName? with
      | some name =>
          match FieldTest.enumerated field .equal name with
          | .ok test => test.condition?
          | .error _ => none
      | none => catalog.searchCondition? reference value none
  | none => catalog.searchCondition? reference value none

/-- The condition of a comparison. -/
def comparisonCondition? (catalog : Catalog) (reference : Instant)
    (operator : Comparison) : List Tree → Option Condition
  | [.leaf value] => catalog.searchCondition? reference value (some operator)
  | [.leaf name, .leaf value] =>
      match catalog.field? name with
      | some field => field.condition? reference operator value
      | none => none
  | _ => none

mutual

/--
The condition that a tree states; none if nothing in it restricts the search.
-/
def condition? (catalog : Catalog) (reference : Instant) :
    Tree → Option Condition
  | .leaf value => leafCondition? catalog reference value
  | .comparison operator operands =>
      comparisonCondition? catalog reference operator operands
  | .connection connective operands =>
      Condition.connect connective (conditions catalog reference operands)

/-- The conditions that trees state, from left to right. -/
def conditions (catalog : Catalog) (reference : Instant) :
    List Tree → List Condition
  | [] => []
  | tree :: rest =>
      (condition? catalog reference tree).toList ++
        conditions catalog reference rest

end

end Tree

/-! ## Operations on journals -/

/-- The instant to which times in a journal are relative, fixed or not. -/
def Journal.reference (catalog : Catalog) (clock : Instant)
    (journal : Journal) : Instant :=
  journal.anchor.getD (catalog.anchor clock)

namespace SearchM

/--
From every journal with a given reference, an operation that succeeds gives the
result, notes the notices and keeps the reference.
-/
def Yields (catalog : Catalog) (clock reference : Instant) {α : Type}
    (operation : SearchM α) (result : α) (notices : List Notice) : Prop :=
  ∀ ⦃journal value after⦄,
    journal.reference catalog clock = reference →
    operation journal = .ok value after →
      value = result ∧ after.notices = journal.notices ++ notices ∧
        after.reference catalog clock = reference

variable {catalog : Catalog} {clock reference : Instant}

theorem yields_pure {α : Type} (result : α) :
    Yields catalog clock reference (pure result) result [] := by
  intro journal value after anchored succeeded
  cases succeeded
  exact ⟨rfl, by simp, anchored⟩

theorem Yields.bind
    {α β : Type} {operation : SearchM α} {next : α → SearchM β}
    {first : α} {result : β} {noted more : List Notice}
    (before : Yields catalog clock reference operation first noted)
    (after : Yields catalog clock reference (next first) result more) :
    Yields catalog clock reference (operation >>= next) result
      (noted ++ more) := by
  intro journal value last anchored succeeded
  simp only [Bind.bind, EStateM.bind] at succeeded
  split at succeeded
  · next middle journal' ran =>
      obtain ⟨rfl, notedBefore, anchored'⟩ := before anchored ran
      obtain ⟨same, notedAfter, kept⟩ := after anchored' succeeded
      refine ⟨same, ?_, kept⟩
      rw [notedAfter, notedBefore, List.append_assoc]
  · cases succeeded

/--
An operation after a result that notes nothing; an error needs no further
operation.
-/
theorem yields_ofExcept_bind
    {α β : Type} {outcome : Except SearchError α} {next : α → SearchM β}
    {result : β} {notices : List Notice}
    (after : ∀ value, outcome = .ok value →
      Yields catalog clock reference (next value) result notices) :
    Yields catalog clock reference (ofExcept outcome >>= next) result
      notices := by
  cases outcome with
  | error error =>
      intro journal value last anchored succeeded
      cases succeeded
  | ok value =>
      intro journal value' last anchored succeeded
      exact after value rfl anchored succeeded

theorem yields_error {α : Type} (error : SearchError) (result : α)
    (notices : List Notice) :
    Yields catalog clock reference (ofExcept (.error error)) result
      notices := by
  intro journal value after anchored succeeded
  cases succeeded

theorem yields_anchor :
    Yields catalog clock reference (anchor catalog clock) reference [] := by
  intro journal value after anchored succeeded
  cases succeeded
  exact ⟨anchored, by simp, anchored⟩

theorem yields_record (test : FieldTest) :
    Yields catalog clock reference (record (some test)) (some test.filter)
      test.notices := by
  intro journal value after anchored succeeded
  cases succeeded
  exact ⟨rfl, rfl, anchored⟩

theorem yields_record_none :
    Yields catalog clock reference (record none) none [] :=
  yields_pure none

/-! ## Operations that state a condition -/

/--
An operation that succeeds gives the filter of a condition and notes its tests.
-/
def States (catalog : Catalog) (clock reference : Instant)
    (operation : SearchM (Option Filter))
    (condition : Option Condition) : Prop :=
  Yields catalog clock reference operation (condition.map Condition.filter)
    (condition.toList.flatMap Condition.notices)

/--
An operation that succeeds gives the filters of conditions and notes their
tests.
-/
def StatesAll (catalog : Catalog) (clock reference : Instant)
    (operation : SearchM (List Filter)) (conditions : List Condition) : Prop :=
  Yields catalog clock reference operation (conditions.map Condition.filter)
    (conditions.flatMap Condition.notices)

/--
One condition, if there is one, in front of the conditions of a later operation.
-/
theorem States.cons
    {first : SearchM (Option Filter)} {rest : SearchM (List Filter)}
    {condition : Option Condition} {others : List Condition}
    (firstStates : States catalog clock reference first condition)
    (restStates : StatesAll catalog clock reference rest others) :
    StatesAll catalog clock reference
      (do
        let filter ← first
        let filters ← rest
        pure (filter.toList ++ filters))
      (condition.toList ++ others) := by
  have filters :
      (condition.toList ++ others).map Condition.filter =
        (condition.map Condition.filter).toList ++
          others.map Condition.filter := by
    cases condition <;> rfl
  have notices :
      (condition.toList ++ others).flatMap Condition.notices =
        condition.toList.flatMap Condition.notices ++
          (others.flatMap Condition.notices ++ []) := by
    simp
  rw [StatesAll, filters, notices]
  exact Yields.bind firstStates (Yields.bind restStates (yields_pure _))

/-- The conditions of an operation put together as one condition or none. -/
theorem StatesAll.finish
    {operation : SearchM (List Filter)} {conditions : List Condition}
    {combine : List Filter → Option Filter} {condition : Option Condition}
    (stated : StatesAll catalog clock reference operation conditions)
    (written :
      combine (conditions.map Condition.filter) =
        condition.map Condition.filter)
    (noted : condition.toList.flatMap Condition.notices =
      conditions.flatMap Condition.notices) :
    States catalog clock reference
      (operation >>= fun filters => pure (combine filters))
      condition := by
  rw [States, ← written, noted,
    ← List.append_nil (conditions.flatMap Condition.notices)]
  exact Yields.bind stated (yields_pure _)

theorem states_record
    {field : Field} (wellShaped : Field.isName field.name = true)
    {test : FieldTest} (form : FieldTest.Tests field test) :
    States catalog clock reference (record (some test)) test.condition? := by
  obtain ⟨condition, stated⟩ := form.exists_condition wellShaped
  obtain ⟨written, noted⟩ := FieldTest.filter_of_condition? stated
  rw [stated]
  simpa [States, written, noted] using yields_record test

/--
Testing a field states the condition of its test.  Each branch runs the test
that `FieldTest.of` names for the kind of the field.
-/
theorem states_testField
    (field : Field) (wellShaped : Field.isName field.name = true)
    (operator : Comparison) (value : String) :
    States catalog clock reference
      (testField catalog clock field operator value)
      (field.condition? reference operator value) := by
  apply yields_ofExcept_bind
  intro _ allowed
  have recorded :
      ∀ test, FieldTest.of reference field operator value = .ok (some test) →
        States catalog clock reference (record (some test))
          (field.condition? reference operator value) := by
    intro test tested
    simp only [Field.condition?, tested]
    exact states_record wellShaped (FieldTest.tests_of tested)
  split
  · next kind =>
      apply yields_ofExcept_bind
      intro test tested
      exact recorded test
        (by simp [FieldTest.of, allowed, kind, tested, Except.map])
  · next kind =>
      apply yields_anchor.bind
      apply yields_ofExcept_bind
      intro test? tested
      have found : FieldTest.of reference field operator value = .ok test? := by
        simp [FieldTest.of, allowed, kind, tested]
      cases test? with
      | some test => exact recorded test found
      | none =>
          simp only [Field.condition?, found]
          exact yields_record_none
  · next kind =>
      apply yields_ofExcept_bind
      intro test tested
      exact recorded test
        (by simp [FieldTest.of, allowed, kind, tested, Except.map])
  · next kind =>
      apply yields_ofExcept_bind
      intro test tested
      exact recorded test
        (by simp [FieldTest.of, allowed, kind, tested, Except.map])

theorem statesAll_testEach
    (fields : List Field)
    (wellShaped : ∀ field ∈ fields, Field.isName field.name = true)
    (value : String) (operator : Option Comparison) :
    StatesAll catalog clock reference
      (testEach catalog clock value operator fields)
      (fields.flatMap fun field =>
        (field.condition? reference (operator.getD field.implicitOperator)
          value).toList) := by
  induction fields with
  | nil => exact yields_pure []
  | cons field rest ih =>
      refine States.cons
        (states_testField field (wellShaped field List.mem_cons_self) _ value)
        ?_
      exact ih fun other member =>
        wellShaped other (List.mem_cons_of_mem _ member)

/--
Searching the default fields states that one of them has the value.  Fixing the
reference notes nothing, so the notices are those of the tests alone.
-/
theorem states_searchValue
    (registered : catalog.Registered) (value : String)
    (operator : Option Comparison) :
    States catalog clock reference (searchValue catalog clock value operator)
      (catalog.searchCondition? reference value operator) := by
  apply yields_anchor.bind
  apply yields_ofExcept_bind
  intro fields found
  have candidates :
      catalog.candidates reference value operator = .ok fields := by
    cases outcome : catalog.candidates reference value operator with
    | error fault =>
        rw [outcome] at found
        cases found
    | ok others =>
        rw [outcome] at found
        cases found
        rfl
  have wellShaped : ∀ field ∈ fields, Field.isName field.name = true := by
    intro field member
    exact registered.isName_name
      (Catalog.mem_fields_of_mem_candidates candidates member)
  simp only [Catalog.searchCondition?, candidates]
  exact (statesAll_testEach fields wellShaped value operator).finish
    (Condition.join_filter .or _) (Condition.notices_join .or _)

theorem states_leaf (registered : catalog.Registered) (value : String) :
    States catalog clock reference (leaf catalog clock value)
      (Tree.leafCondition? catalog reference value) := by
  unfold leaf Tree.leafCondition?
  cases reached : catalog.field? value with
  | none => exact states_searchValue registered value none
  | some field =>
      cases named : field.trueName? with
      | none =>
          simp only [named]
          exact states_searchValue registered value none
      | some name =>
          simp only [named]
          apply yields_ofExcept_bind
          intro test tested
          simp only [tested]
          exact states_record
            (registered.isName_name (Catalog.mem_fields_of_field? reached))
            (FieldTest.tests_enumerated tested)

theorem states_comparison
    (registered : catalog.Registered) (operator : Comparison)
    (operands : List Tree) :
    States catalog clock reference (comparison catalog clock operator operands)
      (Tree.comparisonCondition? catalog reference operator operands) := by
  unfold comparison
  split
  · exact states_searchValue registered _ (some operator)
  · exact yields_error _ _ _
  · next name value =>
      simp only [Tree.comparisonCondition?]
      cases reached : catalog.field? name with
      | none => exact yields_error _ _ _
      | some field =>
          exact states_testField field
            (registered.isName_name (Catalog.mem_fields_of_field? reached))
            operator value
  · exact yields_error _ _ _
  · exact yields_error _ _ _

end SearchM

/-! ## Compiling trees -/

namespace Tree

variable {catalog : Catalog} {clock reference : Instant}

mutual

/-- Compiling a tree states its condition. -/
theorem states_compile (registered : catalog.Registered) :
    ∀ tree : Tree,
      SearchM.States catalog clock reference (tree.compile catalog clock)
      (tree.condition? catalog reference)
  | .leaf value => by
      rw [compile, condition?]
      exact SearchM.states_leaf registered value
  | .comparison operator operands => by
      rw [compile, condition?]
      exact SearchM.states_comparison registered operator operands
  | .connection connective operands => by
      rw [compile, condition?]
      exact (statesAll_compileAll registered operands).finish
        (Condition.connect_filter connective _)
        (Condition.notices_connect connective _)

theorem statesAll_compileAll (registered : catalog.Registered) :
    ∀ trees : List Tree, SearchM.StatesAll catalog clock reference
      (compileAll catalog clock trees) (conditions catalog reference trees)
  | [] => by
      rw [compileAll, conditions]
      exact SearchM.yields_pure []
  | tree :: rest => by
      rw [compileAll, conditions]
      exact SearchM.States.cons (states_compile registered tree)
        (statesAll_compileAll registered rest)

end

/--
What a successful compilation gives: the filter of the condition of the tree,
and a journal in which the tests of the condition are noted after what was
there.
-/
theorem compile_eq_ok
    (registered : catalog.Registered) {tree : Tree} {journal after : Journal}
    {result : Option Filter}
    (compiled : tree.compile catalog clock journal = .ok result after) :
    let condition := tree.condition? catalog (journal.reference catalog clock)
    result = condition.map Condition.filter ∧
      after.notices = journal.notices ++
        condition.toList.flatMap Condition.notices := by
  obtain ⟨same, noted, -⟩ := states_compile registered tree rfl compiled
  exact ⟨same, noted⟩

/-! ## Placeholders and parameters -/

theorem parameters_of_compile
    (registered : catalog.Registered) {tree : Tree} {journal after : Journal}
    {result : Option Filter}
    (compiled : tree.compile catalog clock journal = .ok result after) :
    after.parameters =
      journal.parameters ++ result.toList.flatMap Filter.parameters := by
  obtain ⟨rfl, noted⟩ := compile_eq_ok registered compiled
  rw [Journal.parameters, noted, List.filterMap_append, Journal.parameters]
  congr 1
  cases tree.condition? catalog (journal.reference catalog clock) with
  | none => rfl
  | some condition => simp [Condition.parameters_notices, Condition.filter]

theorem placeholders_of_compile
    (registered : catalog.Registered) {tree : Tree} {journal after : Journal}
    {filter : Filter}
    (compiled : tree.compile catalog clock journal = .ok (some filter) after) :
    filter.placeholders = filter.parameters.length := by
  obtain ⟨same, -⟩ := compile_eq_ok registered compiled
  obtain ⟨condition, -, rfl⟩ := Option.map_eq_some_iff.mp same.symm
  exact condition.placeholders_filter

/--
Placeholders and parameters agree from every journal.  A compiled filter has a
placeholder for each parameter, and the journal receives exactly its parameters.
A tree without a filter notes nothing.  A query string is therefore assembled
from as many parameters as there are placeholders.
-/
theorem placeholders_match_parameters
    {catalog : Catalog} (registered : catalog.Registered) (clock : Instant)
    (tree : Tree) (journal : Journal) :
    (∀ filter after,
      tree.compile catalog clock journal = .ok (some filter) after →
        filter.placeholders = filter.parameters.length ∧
          after.parameters = journal.parameters ++ filter.parameters) ∧
    (∀ after, tree.compile catalog clock journal = .ok none after →
      after.notices = journal.notices) ∧
    (∀ result after,
      tree.compile catalog clock Journal.empty = .ok result after →
        tree.queryString catalog clock =
            .ok (QueryString.assemble result after.parameters) ∧
          result.elim 0 Filter.placeholders = after.parameters.length) := by
  refine ⟨?_, ?_, ?_⟩
  · intro filter after compiled
    refine ⟨placeholders_of_compile registered compiled, ?_⟩
    simpa using parameters_of_compile registered compiled
  · intro after compiled
    obtain ⟨same, noted⟩ := compile_eq_ok registered compiled
    have none_stated := Option.map_eq_none_iff.mp same.symm
    simpa [none_stated] using noted
  · intro result after compiled
    refine ⟨by rw [queryString, compiled], ?_⟩
    rw [parameters_of_compile registered compiled]
    cases result with
    | none => rfl
    | some filter =>
        simpa [Journal.empty, Journal.parameters] using
          placeholders_of_compile registered compiled

/--
A search of the inventory by an alias, or for what was updated another day.
-/
def inventorySearch : Tree :=
  .connection .or
    [ .comparison .equal [.leaf "hostname", .leaf "a?b"],
      .comparison .different [.leaf "updated", .leaf "today"] ]

/-- The filter of the search of the inventory. -/
def inventoryFilter : Filter where
  text := "name[]= = ? OR updated[]= >= ?&updated[]= < ?"
  parameters :=
    [ .text "a?b", .timestamp Catalog.inventoryDay,
      .timestamp Catalog.inventoryNextDay ]

/-- The parameters of the search are noted after an earlier one. -/
theorem placeholders_match_parameters_inventory :
    Catalog.inventory.Registered ∧ ∃ after,
      inventorySearch.compile Catalog.inventory Catalog.inventoryDay
          { notices := [.parameter (.integer 7)] } =
          .ok (some inventoryFilter) after ∧
        inventoryFilter.placeholders = inventoryFilter.parameters.length ∧
        after.parameters = .integer 7 :: inventoryFilter.parameters := by
  have compiles : ∃ after,
      inventorySearch.compile Catalog.inventory Catalog.inventoryDay
          { notices := [.parameter (.integer 7)] } =
        .ok (some inventoryFilter) after :=
    ⟨_, rfl⟩
  obtain ⟨after, compiled⟩ := compiles
  have agree :=
    placeholders_match_parameters Catalog.registered_inventory
      Catalog.inventoryDay
      inventorySearch { notices := [.parameter (.integer 7)] }
  exact ⟨Catalog.registered_inventory, after, compiled,
    agree.1 inventoryFilter after compiled⟩

end Tree

end SearchPhrase
