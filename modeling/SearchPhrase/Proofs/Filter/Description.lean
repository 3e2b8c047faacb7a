import SearchPhrase.Proofs.Filter.Report

/-!
# Journals describe filters

A journal notes each test in a block: the name of a field, an operator, and one
parameter, or the two bounds of a range.  The blocks that compiling a tree adds
describe its filter.  The text of the filter has the tests of the blocks in
their order, and between and around them only junctions, denials and brackets
that match.  The operator of a block is the one that the filter writes, which
need not be the one that the tree asks for.
-/

namespace SearchPhrase

/-! ## Blocks of notices -/

/-- What a journal notes about one test. -/
inductive TestNote where
  | comparison (field : String) (operator : Comparison) (parameter : Parameter)
  | range (field : String) (start stop : Parameter)
deriving DecidableEq

namespace TestNote

/-- The name of the field that is tested. -/
def field : TestNote → String
  | .comparison field _ _ => field
  | .range field _ _ => field

/-- The parameters of the test, in order. -/
def parameters : TestNote → List Parameter
  | .comparison _ _ parameter => [parameter]
  | .range _ start stop => [start, stop]

/-- The block that is noted. -/
def notices : TestNote → List Notice
  | .comparison field operator parameter =>
      [.key field, .operator operator, .parameter parameter]
  | .range field start stop =>
      [.key field, .operator .greaterOrEqual, .parameter start, .parameter stop]

/-- The text of the test in a filter. -/
def text : TestNote → String
  | .comparison field operator _ =>
      field ++ "[]= " ++ Condition.words operator ++ " ?"
  | .range field _ _ => field ++ "[]= >= ?&" ++ field ++ "[]= < ?"

theorem key_mem_notices (note : TestNote) : .key note.field ∈ note.notices := by
  cases note <;> exact List.mem_cons_self

theorem parameters_notices (note : TestNote) :
    note.notices.filterMap Notice.parameter? = note.parameters := by
  cases note <;> rfl

end TestNote

/-- The texts that combine the tests of a list of notes in order. -/
inductive Combines : List TestNote → String → Prop where
  | test (note : TestNote) : Combines [note] note.text
  | conjunction {notes others : List TestNote} {left right : String}
      (first : Combines notes left) (second : Combines others right) :
      Combines (notes ++ others) (left ++ "&" ++ right)
  | disjunction {notes others : List TestNote} {left right : String}
      (first : Combines notes left) (second : Combines others right) :
      Combines (notes ++ others) (left ++ " OR " ++ right)
  | denial {notes : List TestNote} {inner : String}
      (denied : Combines notes inner) :
      Combines notes ("NOT (" ++ inner ++ ")")
  | group {notes : List TestNote} {inner : String}
      (grouped : Combines notes inner) :
      Combines notes ("(" ++ inner ++ ")")

/--
Whether the brackets of a text match, where some brackets are open before it.
-/
def Text.bracketsMatch (opened : Nat) : List Char → Bool
  | [] => opened == 0
  | character :: rest =>
      if character == '(' then bracketsMatch (opened + 1) rest
      else if character == ')' then
        opened != 0 && bracketsMatch (opened - 1) rest
      else bracketsMatch opened rest

theorem Text.bracketsMatch_append
    {chunk : List Char} (noOpening : '(' ∉ chunk) (noClosing : ')' ∉ chunk)
    (opened : Nat) (rest : List Char) :
    bracketsMatch opened (chunk ++ rest) = bracketsMatch opened rest := by
  induction chunk with
  | nil => rfl
  | cons character others ih =>
      rw [List.mem_cons, not_or] at noOpening noClosing
      rw [List.cons_append, bracketsMatch, ih noOpening.2 noClosing.2]
      simp [Ne.symm noOpening.1, Ne.symm noClosing.1]

/-! ## The notes of a condition -/

namespace Condition

/-- The notes about the tests of a condition, in order. -/
def notes : Condition → List TestNote
  | .test field operator parameter =>
      [.comparison field.text operator parameter]
  | .range field start stop => [.range field.text start stop]
  | .group inner => inner.notes
  | .denial inner => inner.notes
  | .joined _ left right => left.notes ++ right.notes

theorem notices_eq_flatMap (condition : Condition) :
    condition.notices = condition.notes.flatMap TestNote.notices := by
  induction condition with
  | test field operator parameter => rfl
  | range field start stop => rfl
  | group inner ih => exact ih
  | denial inner ih => exact ih
  | joined junction left right leftIH rightIH =>
      rw [notices, notes, List.flatMap_append, leftIH, rightIH]

theorem parameters_eq_flatMap (condition : Condition) :
    condition.parameters = condition.notes.flatMap TestNote.parameters := by
  rw [← parameters_notices, notices_eq_flatMap, List.filterMap_flatMap]
  congr 1
  funext note
  exact note.parameters_notices

/-- The text of a condition combines its notes. -/
theorem combines_notes (condition : Condition) :
    Combines condition.notes (String.ofList condition.characters) := by
  induction condition with
  | test field operator parameter =>
      have written : String.ofList (test field operator parameter).characters =
          (TestNote.comparison field.text operator parameter).text := by
        rw [← String.toList_inj]
        simp [characters, comparisonCharacters, TestNote.text,
          FieldName.characters]
      rw [written]
      exact .test _
  | range field start stop =>
      have written : String.ofList (range field start stop).characters =
          (TestNote.range field.text start stop).text := by
        rw [← String.toList_inj]
        simp [characters, comparisonCharacters, TestNote.text,
          FieldName.characters, Junction.characters, Condition.words]
      rw [written]
      exact .test _
  | group inner ih =>
      have written : String.ofList inner.group.characters =
          "(" ++ String.ofList inner.characters ++ ")" := by
        rw [← String.toList_inj]
        simp [characters, opening]
      rw [written]
      exact .group ih
  | denial inner ih =>
      have written : String.ofList inner.denial.characters =
          "NOT (" ++ String.ofList inner.characters ++ ")" := by
        rw [← String.toList_inj]
        simp [characters, opening]
      rw [written]
      exact .denial ih
  | joined junction left right leftIH rightIH =>
      have written : String.ofList (joined junction left right).characters =
          String.ofList left.characters ++ junction.connective.filterText ++
            String.ofList right.characters := by
        rw [← String.toList_inj]
        simp [characters, Junction.filterText_connective]
      rw [written]
      cases junction with
      | and => exact .conjunction leftIH rightIH
      | or => exact .disjunction leftIH rightIH

theorem notMem_comparisonCharacters
    (field : FieldName) (operator : Comparison) {bracket : Char}
    (isBracket : bracket = '(' ∨ bracket = ')') :
    bracket ∉ comparisonCharacters field operator := by
  have named : bracket ∉ field.characters := by
    rcases isBracket with rfl | rfl
    · exact field.notMem (by decide)
    · exact field.notMem (by decide)
  have worded : bracket ∉ (words operator).toList := by
    rcases isBracket with rfl | rfl <;> cases operator <;> decide
  rcases isBracket with rfl | rfl <;> simp [comparisonCharacters, named, worded]

/--
The brackets of a condition match, whatever follows it.  Names and operators
hold no brackets, so that only groups and denials open and close.
-/
theorem bracketsMatch_characters (condition : Condition) (opened : Nat)
    (rest : List Char) :
    Text.bracketsMatch opened (condition.characters ++ rest) =
      Text.bracketsMatch opened rest := by
  have compared (field : FieldName) (operator : Comparison) (opened : Nat)
      (rest : List Char) :
      Text.bracketsMatch opened (comparisonCharacters field operator ++ rest) =
        Text.bracketsMatch opened rest :=
    Text.bracketsMatch_append
      (notMem_comparisonCharacters field operator (Or.inl rfl))
      (notMem_comparisonCharacters field operator (Or.inr rfl)) opened rest
  have between (junction : Junction) (opened : Nat) (rest : List Char) :
      Text.bracketsMatch opened (junction.characters ++ rest) =
        Text.bracketsMatch opened rest :=
    Text.bracketsMatch_append (by cases junction <;> decide)
      (by cases junction <;> decide) opened rest
  have opens (denied : Bool) (opened : Nat) (rest : List Char) :
      Text.bracketsMatch opened (opening denied ++ rest) =
        Text.bracketsMatch (opened + 1) rest := by
    cases denied <;> rfl
  have closes (opened : Nat) (rest : List Char) :
      Text.bracketsMatch (opened + 1) (')' :: rest) =
        Text.bracketsMatch opened rest := by
    rfl
  induction condition generalizing opened rest with
  | test field operator parameter => exact compared field operator opened rest
  | range field start stop =>
      simp only [characters, List.append_assoc, compared, between]
  | group inner ih =>
      simp only [characters, List.append_assoc, List.singleton_append, opens,
        ih, closes]
  | denial inner ih =>
      simp only [characters, List.append_assoc, List.singleton_append, opens,
        ih, closes]
  | joined junction left right leftIH rightIH =>
      simp only [characters, List.append_assoc, leftIH, between, rightIH]

end Condition

/-! ## Names in journals -/

/-- Every key among notices is the name of a field of the catalog. -/
def Catalog.Names (catalog : Catalog) (notices : List Notice) : Prop :=
  ∀ name, .key name ∈ notices → ∃ field ∈ catalog.fields, field.name = name

namespace Catalog

variable {catalog : Catalog} {reference : Instant}

theorem names_nil : catalog.Names [] := by
  intro name noted
  cases noted

theorem Names.append
    {earlier later : List Notice} (first : catalog.Names earlier)
    (second : catalog.Names later) :
    catalog.Names (earlier ++ later) := by
  intro name noted
  rcases List.mem_append.mp noted with inEarlier | inLater
  · exact first name inEarlier
  · exact second name inLater

theorem names_notices
    {field : Field} (member : field ∈ catalog.fields)
    {test : FieldTest} (form : FieldTest.Tests field test) :
    catalog.Names test.notices := by
  have named : test.field = field.name := by cases form <;> rfl
  intro name noted
  refine ⟨field, member, ?_⟩
  simpa [FieldTest.notices, Notice.ofTest, named, eq_comm] using noted

theorem names_ofTest
    {field : Field} (member : field ∈ catalog.fields)
    {outcome : Except SearchError (Option FieldTest)}
    (form : ∀ test, outcome = .ok (some test) → FieldTest.Tests field test) :
    catalog.Names (Report.ofTest outcome).notices := by
  match outcome, form with
  | .error error, _ => exact names_nil
  | .ok none, _ => exact names_nil
  | .ok (some test), form =>
      simpa [Report.ofTest] using names_notices member (form test rfl)

theorem names_report
    {field : Field} (member : field ∈ catalog.fields) (operator : Comparison)
    (value : String) :
    catalog.Names (field.report reference operator value).notices :=
  names_ofTest member fun _ tested => FieldTest.tests_of tested

theorem names_inOrder
    {reports : List (Report (Option Filter))}
    (names : ∀ report ∈ reports, catalog.Names report.notices) :
    catalog.Names (Report.inOrder reports).notices := by
  induction reports with
  | nil => exact names_nil
  | cons first rest ih =>
      rw [List.forall_mem_cons] at names
      rw [Report.inOrder]
      cases ended : first.outcome with
      | error error =>
          rw [Report.bind_of_error ended]
          exact names.1
      | ok filter =>
          rw [Report.bind_of_ok ended]
          exact names.1.append (ih names.2)

theorem names_searchReport (value : String) (operator : Option Comparison) :
    catalog.Names (catalog.searchReport reference value operator).notices := by
  rw [searchReport]
  cases found : catalog.candidates reference value operator with
  | error fault => exact names_nil
  | ok fields =>
      apply names_inOrder
      intro report reported
      obtain ⟨field, candidate, rfl⟩ := List.mem_map.mp reported
      exact names_report (mem_fields_of_mem_candidates found candidate) _ value

theorem names_leafReport (value : String) :
    catalog.Names (Tree.leafReport catalog reference value).notices := by
  unfold Tree.leafReport
  split
  · next field reached =>
      split
      · apply names_ofTest (mem_fields_of_field? reached)
        intro test tested
        exact FieldTest.tests_enumerated (FieldTest.map_some_eq_ok tested)
      · exact names_searchReport value none
  · exact names_searchReport value none

theorem names_comparisonReport (operator : Comparison) (operands : List Tree) :
    catalog.Names
      (Tree.comparisonReport catalog reference operator operands).notices := by
  unfold Tree.comparisonReport
  split
  · exact names_searchReport _ (some operator)
  · exact names_nil
  · split
    · next field reached =>
        exact names_report (mem_fields_of_field? reached) operator _
    · exact names_nil
  · exact names_nil
  · exact names_nil

end Catalog

namespace Tree

variable {catalog : Catalog} {reference : Instant}

mutual

/-- Compiling a tree notes fields of the catalog only, also when it fails. -/
theorem names_report :
    ∀ tree : Tree, catalog.Names (tree.report catalog reference).notices
  | .leaf value => by
      rw [report]
      exact Catalog.names_leafReport value
  | .comparison operator operands => by
      rw [report]
      exact Catalog.names_comparisonReport operator operands
  | .connection connective operands => by
      rw [report]
      exact Catalog.names_inOrder (names_reports operands)

theorem names_reports : ∀ trees : List Tree,
    ∀ single ∈ reports catalog reference trees, catalog.Names single.notices
  | [] => by
      rw [reports]
      exact nofun
  | tree :: rest => by
      rw [reports]
      exact List.forall_mem_cons.mpr ⟨names_report tree, names_reports rest⟩

end

/-! ## Filters and their journals -/

/--
The journal describes the filter.  What compiling a tree adds to a journal are
blocks for fields of the catalog, and the text of the filter combines the tests
of these blocks in their order, with brackets that match.
-/
theorem journal_describes_filter
    {catalog : Catalog} (registered : catalog.Registered) {clock : Instant}
    {tree : Tree} {journal after : Journal} {filter : Filter}
    (compiled : tree.compile catalog clock journal = .ok (some filter) after) :
    ∃ notes : List TestNote,
      after.notices = journal.notices ++ notes.flatMap TestNote.notices ∧
      (∀ note ∈ notes, ∃ field ∈ catalog.fields, field.name = note.field) ∧
      filter.parameters = notes.flatMap TestNote.parameters ∧
      Combines notes filter.text ∧
      Text.bracketsMatch 0 filter.text.toList = true := by
  obtain ⟨same, noted⟩ := compile_eq_ok registered compiled
  obtain ⟨condition, stated, rfl⟩ := Option.map_eq_some_iff.mp same.symm
  have added : after.notices = journal.notices ++ condition.notices := by
    simpa [stated] using noted
  have reported : condition.notices =
      (tree.report catalog (journal.reference catalog clock)).notices :=
    List.append_cancel_left (added.symm.trans (report_of_compile compiled).2)
  refine ⟨condition.notes, ?_, ?_, condition.parameters_eq_flatMap,
    condition.combines_notes, ?_⟩
  · rw [added, condition.notices_eq_flatMap]
  · intro note member
    apply names_report tree note.field
    rw [← reported, condition.notices_eq_flatMap]
    exact List.mem_flatMap.mpr ⟨note, member, note.key_mem_notices⟩
  · have matching := condition.bracketsMatch_characters 0 []
    rw [List.append_nil] at matching
    rw [Condition.filter, String.toList_ofList, matching]
    rfl

/--
A search for what is active or was not updated today, asked for by a denial.
-/
def deniedSearch : Tree :=
  .connection .not
    [ .comparison .different [.leaf "status", .leaf "active"],
      .comparison .equal [.leaf "updated", .leaf "today"] ]

/--
The operators that are noted are those of the filter, and not those of the
search.
-/
theorem journal_describes_filter_denied :
    ∃ filter after,
      deniedSearch.compile Catalog.inventory Catalog.inventoryDay
        Journal.empty =
          .ok (some filter) after ∧
        filter.text =
          "NOT (NOT (status[]= > ?)&updated[]= >= ?&updated[]= < ?)" ∧
        after.notices =
          [ .key "status", .operator .greater, .parameter (.integer 0),
            .key "updated", .operator .greaterOrEqual,
            .parameter (.timestamp Catalog.inventoryDay),
            .parameter (.timestamp Catalog.inventoryNextDay) ] ∧
        ∃ notes, after.notices = notes.flatMap TestNote.notices ∧
          Combines notes filter.text := by
  have compiles : ∃ filter after,
      deniedSearch.compile Catalog.inventory Catalog.inventoryDay
        Journal.empty =
          .ok (some filter) after ∧
        filter.text =
          "NOT (NOT (status[]= > ?)&updated[]= >= ?&updated[]= < ?)" ∧
        after.notices =
          [ .key "status", .operator .greater, .parameter (.integer 0),
            .key "updated", .operator .greaterOrEqual,
            .parameter (.timestamp Catalog.inventoryDay),
            .parameter (.timestamp Catalog.inventoryNextDay) ] :=
    ⟨_, _, rfl, rfl, rfl⟩
  obtain ⟨filter, after, compiled, text, noted⟩ := compiles
  obtain ⟨notes, blocks, -, -, combined, -⟩ :=
    journal_describes_filter Catalog.registered_inventory compiled
  exact ⟨filter, after, compiled, text, noted, notes, blocks, combined⟩

end Tree

end SearchPhrase
