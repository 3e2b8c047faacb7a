import SearchPhrase.Proofs.Filter.TreeCondition

/-!
# Reports

Compiling works on a journal, but it reads nothing from the journal except the
instant to which times are relative.  What it does is therefore a report: how it
ends, and what it notes before that.  The report of a tree is found from the
tree and a reference alone.  From every journal with that reference, compiling
the tree ends as reported and notes what is reported, also when it fails.

Operations that run one after the other stop at the first error.  The report of
a connection therefore fails with its leftmost operand that fails, after the
notices of the operands up to that one.
-/

namespace SearchPhrase

/-- How an operation ends, and what it notes before it ends. -/
structure Report (α : Type) where
  outcome : Except SearchError α
  notices : List Notice

namespace Report

variable {α β : Type}

/-- The report of an operation that notes nothing. -/
def ofExcept (outcome : Except SearchError α) : Report α where
  outcome := outcome
  notices := []

/--
The report of a test, if there is one: its filter is given, and it is noted.
-/
def ofTest : Except SearchError (Option FieldTest) → Report (Option Filter)
  | .ok test =>
      { outcome := .ok (test.map FieldTest.filter)
        notices := test.toList.flatMap FieldTest.notices }
  | .error error => ofExcept (.error error)

/-- The report of an operation with its result given to a function. -/
def map (function : α → β) (report : Report α) : Report β where
  outcome := report.outcome.map function
  notices := report.notices

/--
The report of an operation that is followed by another one unless it fails.
-/
def bind (first : Report α) (next : α → Report β) : Report β :=
  match first.outcome with
  | .ok result =>
      { outcome := (next result).outcome
        notices := first.notices ++ (next result).notices }
  | .error error =>
      { outcome := .error error
        notices := first.notices }

/-- The end of a run that is reported, with the journal after it. -/
def result (report : Report α) (after : Journal) :
    EStateM.Result SearchError Journal α :=
  match report.outcome with
  | .ok result => .ok result after
  | .error error => .error error after

/--
The report of operations one after the other, which gives the filters that they
give.
-/
def inOrder : List (Report (Option Filter)) → Report (List Filter)
  | [] => ofExcept (.ok [])
  | first :: rest =>
      first.bind fun filter => (inOrder rest).map (filter.toList ++ ·)

theorem ofExcept_bind_ofTest (outcome : Except SearchError α)
    (test? : α → Option FieldTest) :
    ((ofExcept outcome).bind fun found => ofTest (.ok (test? found))) =
      ofTest (outcome.map test?) := by
  cases outcome <;> rfl

/-! ## The first error -/

theorem bind_of_ok
    {first : Report α} {result : α} (succeeded : first.outcome = .ok result)
    (next : α → Report β) :
    first.bind next =
      ⟨(next result).outcome, first.notices ++ (next result).notices⟩ := by
  simp [bind, succeeded]

theorem bind_of_error
    {first : Report α} {error : SearchError}
    (failed : first.outcome = .error error) (next : α → Report β) :
    first.bind next = ⟨.error error, first.notices⟩ := by
  simp [bind, failed]

theorem bind_ofExcept_ok (report : Report α) (function : α → β) :
    (report.bind fun result => ofExcept (.ok (function result))) =
      report.map function := by
  cases ended : report.outcome with
  | ok result => simp [bind_of_ok ended, ofExcept, map, ended, Except.map]
  | error error => simp [bind_of_error ended, map, ended, Except.map]

theorem map_outcome_eq_error
    {report : Report α} {function : α → β} {error : SearchError} :
    (report.map function).outcome = .error error ↔
      report.outcome = .error error := by
  rw [map]
  cases report.outcome <;> simp [Except.map]

/-- Operations one after the other fail if one of them does. -/
theorem inOrder_fails_iff (reports : List (Report (Option Filter))) :
    (∃ error, (inOrder reports).outcome = .error error) ↔
      ∃ report ∈ reports, ∃ error, report.outcome = .error error := by
  induction reports with
  | nil => simp [inOrder, ofExcept]
  | cons first rest ih =>
      simp only [inOrder, List.mem_cons, exists_eq_or_imp, ← ih]
      cases ended : first.outcome with
      | error error => simp [bind_of_error ended]
      | ok filter => simp [bind_of_ok ended, map_outcome_eq_error]

/-- The error of operations one after the other is that of one of them. -/
theorem exists_of_inOrder_error
    {reports : List (Report (Option Filter))} {error : SearchError}
    (failed : (inOrder reports).outcome = .error error) :
    ∃ report ∈ reports, report.outcome = .error error := by
  induction reports with
  | nil => cases failed
  | cons first rest ih =>
      rw [inOrder] at failed
      cases ended : first.outcome with
      | error cause =>
          rw [bind_of_error ended] at failed
          cases failed
          exact ⟨first, List.mem_cons_self, ended⟩
      | ok filter =>
          rw [bind_of_ok ended] at failed
          obtain ⟨report, member, fails⟩ := ih (map_outcome_eq_error.mp failed)
          exact ⟨report, List.mem_cons_of_mem first member, fails⟩

/--
The leftmost operation that fails gives the error, and what is noted are the
notices of the operations up to it.
-/
theorem inOrder_of_first_error
    {before rest : List (Report (Option Filter))}
    {failing : Report (Option Filter)} {error : SearchError}
    (succeed : ∀ report ∈ before, ∃ filter, report.outcome = .ok filter)
    (fails : failing.outcome = .error error) :
    inOrder (before ++ failing :: rest) =
      ⟨.error error, (before ++ [failing]).flatMap Report.notices⟩ := by
  induction before with
  | nil => simp [inOrder, bind_of_error fails]
  | cons first others ih =>
      rw [List.forall_mem_cons] at succeed
      obtain ⟨filter, succeeded⟩ := succeed.1
      rw [List.cons_append, inOrder, bind_of_ok succeeded, ih succeed.2]
      simp [map, Except.map]

end Report

/-! ## Reports of tests and trees -/

/-- The report of the test of a field. -/
def Field.report (field : Field) (reference : Instant) (operator : Comparison)
    (value : String) : Report (Option Filter) :=
  Report.ofTest (FieldTest.of reference field operator value)

/-- The report of a search of the default fields. -/
def Catalog.searchReport (catalog : Catalog) (reference : Instant)
    (value : String) (operator : Option Comparison) : Report (Option Filter) :=
  (Report.ofExcept
    ((catalog.candidates reference value operator).mapError
      SearchError.calendar)).bind
      fun fields =>
        (Report.inOrder (fields.map fun field =>
          field.report reference (operator.getD field.implicitOperator)
            value)).map
            (Filter.join Connective.or.filterText)

namespace Tree

/-- The report of a leaf. -/
def leafReport (catalog : Catalog) (reference : Instant) (value : String) :
    Report (Option Filter) :=
  match catalog.field? value with
  | some field =>
      match field.trueName? with
      | some name =>
          Report.ofTest ((FieldTest.enumerated field .equal name).map some)
      | none => catalog.searchReport reference value none
  | none => catalog.searchReport reference value none

/-- The report of a comparison. -/
def comparisonReport (catalog : Catalog) (reference : Instant)
    (operator : Comparison) :
    List Tree → Report (Option Filter)
  | [.leaf value] => catalog.searchReport reference value (some operator)
  | [_] => Report.ofExcept (.error .nestedValue)
  | [.leaf name, .leaf value] =>
      match catalog.field? name with
      | some field => field.report reference operator value
      | none => Report.ofExcept (.error (.unknownField name))
  | [_, _] => Report.ofExcept (.error .nestedOperand)
  | operands =>
      Report.ofExcept (.error (.operandCount operator operands.length))

mutual

/-- The report of compiling a tree with times relative to a reference. -/
def report (catalog : Catalog) (reference : Instant) :
    Tree → Report (Option Filter)
  | .leaf value => leafReport catalog reference value
  | .comparison operator operands =>
      comparisonReport catalog reference operator operands
  | .connection connective operands =>
      (Report.inOrder (reports catalog reference operands)).map
        (Filter.connect connective)

/-- The reports of trees, from left to right. -/
def reports (catalog : Catalog) (reference : Instant) :
    List Tree → List (Report (Option Filter))
  | [] => []
  | tree :: rest =>
      report catalog reference tree :: reports catalog reference rest

end

theorem reports_eq_map (catalog : Catalog) (reference : Instant)
    (trees : List Tree) :
    reports catalog reference trees = trees.map (report catalog reference) := by
  induction trees with
  | nil => rfl
  | cons tree rest ih => rw [reports, ih, List.map_cons]

theorem report_connection
    (catalog : Catalog) (reference : Instant) (connective : Connective)
    (operands : List Tree) :
    (connection connective operands).report catalog reference =
      (Report.inOrder (operands.map (report catalog reference))).map
        (Filter.connect connective) := by
  rw [report, reports_eq_map]

/-- A connection fails if one of its operands does. -/
theorem report_connection_fails_iff
    (catalog : Catalog) (reference : Instant) (connective : Connective)
    (operands : List Tree) :
    (∃ error,
      ((connection connective operands).report catalog reference).outcome =
        .error error) ↔
      ∃ operand ∈ operands, ∃ error,
        (operand.report catalog reference).outcome = .error error := by
  simp only [report_connection, Report.map_outcome_eq_error,
    Report.inOrder_fails_iff, List.mem_map]
  constructor
  · rintro ⟨_, ⟨operand, member, rfl⟩, fails⟩
    exact ⟨operand, member, fails⟩
  · rintro ⟨operand, member, fails⟩
    exact ⟨_, ⟨operand, member, rfl⟩, fails⟩

/--
A connection fails with the leftmost operand that fails, after the notices up to
it.
-/
theorem report_connection_of_first_error
    {catalog : Catalog} {reference : Instant} (connective : Connective)
    {before rest : List Tree} {failing : Tree} {error : SearchError}
    (succeed : ∀ operand ∈ before, ∃ filter,
      (operand.report catalog reference).outcome = .ok filter)
    (fails : (failing.report catalog reference).outcome = .error error) :
    (connection connective (before ++ failing :: rest)).report catalog
        reference =
      ⟨.error error, (before ++ [failing]).flatMap fun operand =>
        (operand.report catalog reference).notices⟩ := by
  have reported :
      ∀ single ∈ before.map (report catalog reference),
        ∃ filter, single.outcome = .ok filter := by
    intro single member
    obtain ⟨operand, inBefore, rfl⟩ := List.mem_map.mp member
    exact succeed operand inBefore
  rw [report_connection, List.map_append, List.map_cons,
    Report.inOrder_of_first_error reported fails]
  simp [Report.map, Except.map, List.flatMap_map]

end Tree

/-! ## Operations that do as reported -/

namespace SearchM

/-- How a run from a journal ends, with all that the journal holds then. -/
def ending {α : Type} (operation : SearchM α) (journal : Journal) : Report α :=
  match operation journal with
  | .ok result after => ⟨.ok result, after.notices⟩
  | .error error after => ⟨.error error, after.notices⟩

/--
From every journal with a given reference, an operation ends as reported, notes
what is reported and keeps the reference.
-/
def Does (catalog : Catalog) (clock reference : Instant) {α : Type}
    (operation : SearchM α) (report : Report α) : Prop :=
  ∀ ⦃journal⦄, journal.reference catalog clock = reference → ∃ after,
    operation journal = report.result after ∧
      after.notices = journal.notices ++ report.notices ∧
      after.reference catalog clock = reference

variable {catalog : Catalog} {clock reference : Instant}

theorem Does.ending_eq
    {α : Type} {operation : SearchM α} {report : Report α}
    (does : Does catalog clock reference operation report) {journal : Journal}
    (anchored : journal.reference catalog clock = reference) :
    ending operation journal =
      ⟨report.outcome, journal.notices ++ report.notices⟩ := by
  obtain ⟨after, ended, noted, -⟩ := does anchored
  rw [ending, ended, Report.result, ← noted]
  cases report.outcome <;> rfl

/-- An operation fails with the reported error, if one is reported. -/
theorem Does.fails_iff
    {α : Type} {operation : SearchM α} {report : Report α}
    (does : Does catalog clock reference operation report) {journal : Journal}
    (anchored : journal.reference catalog clock = reference)
    {error : SearchError} :
    (∃ after, operation journal = .error error after) ↔
      report.outcome = .error error := by
  obtain ⟨after, ended, -⟩ := does anchored
  rw [ended, Report.result]
  cases report.outcome <;> simp

theorem does_ofExcept {α : Type} (outcome : Except SearchError α) :
    Does catalog clock reference (ofExcept outcome)
      (Report.ofExcept outcome) := by
  intro journal anchored
  refine ⟨journal, ?_, by simp [Report.ofExcept], anchored⟩
  cases outcome <;> rfl

theorem does_record (test : Option FieldTest) :
    Does catalog clock reference (record test) (Report.ofTest (.ok test)) := by
  intro journal anchored
  cases test with
  | none => exact ⟨journal, rfl, by simp [Report.ofTest], anchored⟩
  | some test =>
      exact ⟨journal.append test.notices, rfl,
        by simp [Report.ofTest, Journal.append], anchored⟩

/-- Fixing the reference of a journal gives the reference and notes nothing. -/
theorem Does.after_anchor
    {α : Type} {next : Instant → SearchM α} {report : Report α}
    (does : Does catalog clock reference (next reference) report) :
    Does catalog clock reference (anchor catalog clock >>= next) report := by
  rintro journal rfl
  obtain ⟨after, ran, noted, kept⟩ :=
    @does { journal with anchor := some (journal.reference catalog clock) } rfl
  exact ⟨after, ran, noted, kept⟩

theorem ofExcept_ok_bind {α β : Type} (result : α) (next : α → SearchM β) :
    (ofExcept (.ok result) >>= next) = next result :=
  rfl

theorem does_error_bind {α β : Type} (error : SearchError)
    (next : α → SearchM β) :
    Does catalog clock reference (ofExcept (.error error) >>= next)
      (Report.ofExcept (.error error)) :=
  fun journal anchored => ⟨journal, rfl, by simp [Report.ofExcept], anchored⟩

theorem Does.bind
    {α β : Type} {operation : SearchM α} {next : α → SearchM β}
    {first : Report α} {second : α → Report β}
    (before : Does catalog clock reference operation first)
    (after :
      ∀ result, Does catalog clock reference (next result) (second result)) :
    Does catalog clock reference (operation >>= next) (first.bind second) := by
  intro journal anchored
  obtain ⟨middle, ran, noted, kept⟩ := before anchored
  cases ended : first.outcome with
  | error error =>
      rw [Report.bind_of_error ended]
      refine ⟨middle, ?_, noted, kept⟩
      simp only [Bind.bind, EStateM.bind, ran, Report.result, ended]
  | ok result =>
      obtain ⟨last, continued, notedMore, keptLast⟩ := after result kept
      rw [Report.bind_of_ok ended]
      refine ⟨last, ?_, ?_, keptLast⟩
      · simpa only [Bind.bind, EStateM.bind, ran, Report.result, ended] using
          continued
      · rw [notedMore, noted, List.append_assoc]

theorem Does.map
    {α β : Type} {operation : SearchM α} {report : Report α}
    (does : Does catalog clock reference operation report) (function : α → β) :
    Does catalog clock reference
      (operation >>= fun result => pure (function result))
      (report.map function) := by
  rw [← Report.bind_ofExcept_ok]
  exact does.bind fun result => does_ofExcept (.ok (function result))

/-! ## The compiler does as reported -/

/-- The test that an outcome gives is noted. -/
theorem does_ofExcept_record
    {α : Type} (outcome : Except SearchError α) (test? : α → Option FieldTest) :
    Does catalog clock reference
      (ofExcept outcome >>= fun found => record (test? found))
      (Report.ofTest (outcome.map test?)) := by
  rw [← Report.ofExcept_bind_ofTest]
  exact (does_ofExcept outcome).bind fun found => does_record (test? found)

/--
Testing a field does what its report says.  The reference that a temporal field
fixes is the one that the journal has.
-/
theorem does_testField (field : Field) (operator : Comparison)
    (value : String) :
    Does catalog clock reference (testField catalog clock field operator value)
      (field.report reference operator value) := by
  unfold testField Field.report FieldTest.of
  cases FieldTest.checkOperator field operator with
  | error error => exact does_error_bind error _
  | ok _ =>
      rw [ofExcept_ok_bind]
      cases TestKind.of field operator with
      | enumerated => exact does_ofExcept_record _ some
      | temporal =>
          apply Does.after_anchor
          simpa only [Except.map_id, id_eq] using
            does_ofExcept_record
              (FieldTest.temporal reference field operator value) id
      | pattern => exact does_ofExcept_record _ some
      | generic => exact does_ofExcept_record _ some

theorem does_testEach
    (value : String) (operator : Option Comparison) (fields : List Field) :
    Does catalog clock reference (testEach catalog clock value operator fields)
      (Report.inOrder (fields.map fun field =>
        field.report reference (operator.getD field.implicitOperator)
          value)) := by
  induction fields with
  | nil => exact does_ofExcept (.ok [])
  | cons field rest ih =>
      exact (does_testField field _ value).bind fun filter =>
        ih.map (filter.toList ++ ·)

theorem does_searchValue (value : String) (operator : Option Comparison) :
    Does catalog clock reference (searchValue catalog clock value operator)
      (catalog.searchReport reference value operator) := by
  apply Does.after_anchor
  exact (does_ofExcept _).bind fun fields =>
    (does_testEach value operator fields).map _

theorem does_leaf (value : String) :
    Does catalog clock reference (leaf catalog clock value)
      (Tree.leafReport catalog reference value) := by
  unfold leaf Tree.leafReport
  cases catalog.field? value with
  | none => exact does_searchValue value none
  | some field =>
      cases named : field.trueName? with
      | none =>
          simp only [named]
          exact does_searchValue value none
      | some name =>
          simp only [named]
          exact does_ofExcept_record _ some

theorem does_comparison (operator : Comparison) (operands : List Tree) :
    Does catalog clock reference (comparison catalog clock operator operands)
      (Tree.comparisonReport catalog reference operator operands) := by
  unfold comparison
  split
  · exact does_searchValue _ (some operator)
  · next notLeaf =>
      rw [Tree.comparisonReport]
      · exact does_ofExcept _
      · exact notLeaf
  · next name value =>
      rw [Tree.comparisonReport]
      cases catalog.field? name with
      | none => exact does_ofExcept _
      | some field => exact does_testField field operator value
  · next notLeaves =>
      rw [Tree.comparisonReport]
      · exact does_ofExcept _
      · exact notLeaves
  · next others =>
      rw [Tree.comparisonReport]
      · exact does_ofExcept _
      all_goals assumption

end SearchM

namespace Tree

variable {catalog : Catalog} {clock reference : Instant}

mutual

/-- Compiling a tree does as reported. -/
theorem does_compile : ∀ tree : Tree,
    SearchM.Does catalog clock reference (tree.compile catalog clock)
      (tree.report catalog reference)
  | .leaf value => by
      rw [compile, report]
      exact SearchM.does_leaf value
  | .comparison operator operands => by
      rw [compile, report]
      exact SearchM.does_comparison operator operands
  | .connection connective operands => by
      rw [compile, report]
      exact (does_compileAll operands).map (Filter.connect connective)

theorem does_compileAll : ∀ trees : List Tree,
    SearchM.Does catalog clock reference (compileAll catalog clock trees)
      (Report.inOrder (reports catalog reference trees))
  | [] => by
      rw [compileAll, reports]
      exact SearchM.does_ofExcept (.ok [])
  | tree :: rest => by
      rw [compileAll, reports]
      exact (does_compile tree).bind fun filter =>
        (does_compileAll rest).map (filter.toList ++ ·)

end

/--
A compilation that succeeds is reported, with what it adds to the journal.
-/
theorem report_of_compile
    {tree : Tree} {journal after : Journal} {result : Option Filter}
    (compiled : tree.compile catalog clock journal = .ok result after) :
    let report := tree.report catalog (journal.reference catalog clock)
    report.outcome = .ok result ∧
      after.notices = journal.notices ++ report.notices := by
  have ended : SearchM.ending (tree.compile catalog clock) journal = _ :=
    (does_compile tree).ending_eq rfl
  rw [SearchM.ending, compiled] at ended
  exact ⟨(congrArg Report.outcome ended).symm, congrArg Report.notices ended⟩

/-! ## Independence of the journal -/

/--
The journals of a pinned catalog whose reference is not fixed, or fixed to the
pinned one.
-/
theorem reference_of_pinned
    (pinned : catalog.reference = some reference) {journal : Journal}
    (anchored : journal.anchor = none ∨ journal.anchor = some reference) :
    journal.reference catalog clock = reference := by
  rcases anchored with free | fixed
  · simp [Journal.reference, free, Catalog.anchor, pinned]
  · simp [Journal.reference, fixed]

/-- Compiling a tree on its own ends as reported and notes what is reported. -/
theorem ending_empty (pinned : catalog.reference = some reference)
    (tree : Tree) :
    SearchM.ending (tree.compile catalog clock) Journal.empty =
      tree.report catalog reference :=
  (does_compile tree).ending_eq (reference_of_pinned pinned (Or.inl rfl))

/--
Compiling a tree ends as reported, with what is reported after what was noted
before.
-/
theorem ending_of_pinned
    (pinned : catalog.reference = some reference) {journal : Journal}
    (anchored : journal.anchor = none ∨ journal.anchor = some reference)
    (tree : Tree) :
    SearchM.ending (tree.compile catalog clock) journal =
      ⟨(tree.report catalog reference).outcome,
        journal.notices ++ (tree.report catalog reference).notices⟩ :=
  (does_compile tree).ending_eq (reference_of_pinned pinned anchored)

/--
Compiling does not depend on the journal, and fails leftmost.  From every
journal that is not fixed to another reference, a tree compiles as from the
empty one and notes the same, also when it fails.  A connection fails if an
operand fails on its own, with the error of the leftmost such operand and after
the notices of the operands up to that one.
-/
theorem compile_independent_of_journal
    {catalog : Catalog} {reference : Instant}
    (pinned : catalog.reference = some reference)
    (clock freshClock : Instant) (journal : Journal)
    (anchored : journal.anchor = none ∨ journal.anchor = some reference) :
    let run (tree : Tree) := SearchM.ending (tree.compile catalog clock) journal
    let fresh (tree : Tree) :=
      SearchM.ending (tree.compile catalog freshClock) Journal.empty
    (∀ tree, (run tree).outcome = (fresh tree).outcome ∧
      (run tree).notices = journal.notices ++ (fresh tree).notices) ∧
    ∀ connective operands,
      ((∃ error, (run (.connection connective operands)).outcome =
        .error error) ↔
        ∃ operand ∈ operands, ∃ error, (fresh operand).outcome = .error error) ∧
      ∀ before failing rest error, operands = before ++ failing :: rest →
        (∀ operand ∈ before, ∃ filter, (fresh operand).outcome = .ok filter) →
        (fresh failing).outcome = .error error →
          (run (.connection connective operands)).outcome = .error error ∧
          (run (.connection connective operands)).notices =
            journal.notices ++
              (before ++ [failing]).flatMap fun operand =>
                (fresh operand).notices := by
  have alone (tree : Tree) :
      SearchM.ending (tree.compile catalog freshClock) Journal.empty =
        tree.report catalog reference :=
    ending_empty pinned tree
  have after (tree : Tree) :
      SearchM.ending (tree.compile catalog clock) journal =
        ⟨(tree.report catalog reference).outcome,
          journal.notices ++ (tree.report catalog reference).notices⟩ :=
    (does_compile tree).ending_eq (reference_of_pinned pinned anchored)
  simp only [alone, after]
  refine ⟨fun tree => ⟨trivial, trivial⟩, ?_⟩
  intro connective operands
  refine ⟨report_connection_fails_iff catalog reference connective operands, ?_⟩
  rintro before failing rest error rfl succeed fails
  rw [report_connection_of_first_error connective succeed fails]
  exact ⟨rfl, rfl⟩

/-- A search of the inventory whose second and third operands fail. -/
def refusedSearch : List Tree :=
  [ .comparison .equal [.leaf "name", .leaf "a"],
    .comparison .like [.leaf "memory", .leaf "4"],
    .comparison .equal [.leaf "size", .leaf "1"] ]

/--
The second operand fails after the notices of the first, behind an earlier
notice.
-/
theorem compile_independent_of_journal_inventory :
    let journal : Journal := ⟨[.key "status"], some Catalog.inventoryDay⟩
    let run := SearchM.ending
      ((connection .or refusedSearch).compile Catalog.inventory
        Catalog.inventoryNextDay) journal
    Catalog.inventory.reference = some Catalog.inventoryDay ∧
      run.outcome = .error (.patternOperator .like "memory" .integer) ∧
      run.notices =
        [.key "status", .key "name", .operator .equal,
          .parameter (.text "a")] := by
  have pinned : Catalog.inventory.reference = some Catalog.inventoryDay := rfl
  have independent :=
    compile_independent_of_journal pinned Catalog.inventoryNextDay
      Catalog.inventoryDay
      ⟨[.key "status"], some Catalog.inventoryDay⟩ (Or.inr rfl)
  have first :
      ∀ operand ∈ [comparison .equal [.leaf "name", .leaf "a"]], ∃ filter,
      (SearchM.ending (operand.compile Catalog.inventory Catalog.inventoryDay)
        Journal.empty).outcome = .ok filter := by
    intro operand member
    rw [List.mem_singleton.mp member]
    exact ⟨_, rfl⟩
  exact ⟨pinned, (independent.2 .or refusedSearch).2 _ _ _ _ rfl first rfl⟩

end Tree

end SearchPhrase
