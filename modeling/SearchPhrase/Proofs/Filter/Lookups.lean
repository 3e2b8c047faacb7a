import SearchPhrase.Proofs.Filter.Report
import SearchPhrase.Proofs.Schema.Acceptance

/-!
# What compiling looks up

Compiling a tree asks a catalog for two things: which field a name reaches, and
which fields are searched by default.  Names are looked up at leaves that stand
for themselves, and on the left side of comparisons.  Catalogs that answer alike
for the names of a tree and have the same default fields compile it alike.

A field that is searched only where it is named changes neither, unless the tree
looks it up.  Such a field can therefore be added to a schema, at any place in
it, without a change to other searches.
-/

namespace SearchPhrase

namespace Tree

/-- The name that a comparison looks up, if it compares a name with a value. -/
def comparedNames : List Tree → List String
  | [.leaf name, .leaf _] => [name]
  | _ => []

mutual

/-- The names that compiling a tree looks up, from left to right. -/
def lookups : Tree → List String
  | .leaf value => [value]
  | .comparison _ operands => comparedNames operands
  | .connection _ operands => lookupsAll operands

/-- The names that compiling trees looks up, from left to right. -/
def lookupsAll : List Tree → List String
  | [] => []
  | tree :: rest => lookups tree ++ lookupsAll rest

end

/-! ## Catalogs that answer alike -/

section Agreement

variable {catalog other : Catalog} {reference : Instant}

theorem searchReport_congr
    (defaults : catalog.defaultFields = other.defaultFields) (value : String)
    (operator : Option Comparison) :
    catalog.searchReport reference value operator =
      other.searchReport reference value operator := by
  simp only [Catalog.searchReport, Catalog.candidates, defaults]

theorem leafReport_congr
    (defaults : catalog.defaultFields = other.defaultFields) {value : String}
    (agree : catalog.field? value = other.field? value) :
    leafReport catalog reference value = leafReport other reference value := by
  simp only [leafReport, agree, searchReport_congr defaults]

/--
A comparison depends on the default fields and on the fields that it names.
Without a name nothing is looked up: a value is searched for, or the operands
are refused.
-/
theorem comparisonReport_congr
    (defaults : catalog.defaultFields = other.defaultFields)
    (operator : Comparison) {operands : List Tree}
    (agree :
      ∀ name ∈ comparedNames operands,
        catalog.field? name = other.field? name) :
    comparisonReport catalog reference operator operands =
      comparisonReport other reference operator operands := by
  unfold comparedNames at agree
  split at agree
  · next name value =>
      simp only [comparisonReport, agree name List.mem_cons_self]
  · next notNamed =>
      unfold comparisonReport
      split
      · exact searchReport_congr defaults _ _
      · rfl
      · next name value => exact absurd rfl (notNamed name value)
      · rfl
      · rfl

mutual

/--
Catalogs that answer alike for what a tree looks up give it the same report.
-/
theorem report_congr (defaults : catalog.defaultFields = other.defaultFields) :
    ∀ {tree : Tree},
      (∀ name ∈ tree.lookups, catalog.field? name = other.field? name) →
        tree.report catalog reference = tree.report other reference
  | .leaf value, agree => by
      rw [report, report]
      exact leafReport_congr defaults (agree value (by simp [lookups]))
  | .comparison operator operands, agree => by
      rw [report, report]
      exact comparisonReport_congr defaults operator
        (by simpa [lookups] using agree)
  | .connection connective operands, agree => by
      rw [report, report,
        reports_congr defaults (by simpa [lookups] using agree)]

theorem reports_congr (defaults : catalog.defaultFields = other.defaultFields) :
    ∀ {trees : List Tree},
      (∀ name ∈ lookupsAll trees, catalog.field? name = other.field? name) →
        reports catalog reference trees = reports other reference trees
  | [], _ => by rw [reports, reports]
  | tree :: rest, agree => by
      simp only [lookupsAll, List.forall_mem_append] at agree
      rw [reports, reports, report_congr defaults agree.1,
        reports_congr defaults agree.2]

end

end Agreement

end Tree

/-! ## A field that is searched only where it is named -/

/-- A name is one of the field, or its part before the first dot is. -/
def Field.Answers (field : Field) (name : String) : Prop :=
  name ∈ field.names ∨ ∃ stem ∈ field.names, Catalog.stem? name = some stem

instance (field : Field) : DecidablePred field.Answers :=
  fun _ => inferInstanceAs (Decidable (_ ∨ _))

namespace Catalog

variable {before after : List Field} {field : Field}
  {reference : Option Instant}

theorem named?_insert {name : String} (unnamed : name ∉ field.names) :
    named? ⟨before ++ field :: after, reference⟩ name =
      named? ⟨before ++ after, reference⟩ name := by
  have skipped : field.names.contains name = false := by simpa using unnamed
  simp only [named?, List.find?_append, List.find?_cons, skipped]

/--
A name reaches the same field with a further field that it does not concern.
-/
theorem field?_insert {name : String} (unanswered : ¬ field.Answers name) :
    field? ⟨before ++ field :: after, reference⟩ name =
      field? ⟨before ++ after, reference⟩ name := by
  simp only [Field.Answers, not_or, not_exists, not_and] at unanswered
  have stems :
      (stem? name).bind (named? ⟨before ++ field :: after, reference⟩) =
        (stem? name).bind (named? ⟨before ++ after, reference⟩) := by
    apply Option.bind_congr
    intro stem found
    exact named?_insert fun member => unanswered.2 stem member found
  rw [field?, field?, named?_insert unanswered.1, stems]

theorem defaultFields_insert (explicit : field.onlyExplicit = true) :
    defaultFields ⟨before ++ field :: after, reference⟩ =
      defaultFields ⟨before ++ after, reference⟩ := by
  simp [defaultFields, explicit]

end Catalog

/--
A field that is searched only where it is named does not disturb other searches.
If no name that a tree looks up concerns the field, then the tree compiles alike
with the field, wherever it stands in the schema, and without it: from every
journal to the same filter, to none, or to the same error, and with the same
notices.
-/
theorem Tree.compile_ignores_explicit_field
    {before after : List Field} {field : Field} {catalog larger : Catalog}
    (added : Catalog.ofFields (before ++ after) = .ok catalog)
    (extended : Catalog.ofFields (before ++ field :: after) = .ok larger)
    (explicit : field.onlyExplicit = true)
    {tree : Tree} (unanswered : ∀ name ∈ tree.lookups, ¬ field.Answers name)
    (reference clock otherClock : Instant) (journal : Journal) :
    SearchM.ending (tree.compile (larger.pinned reference) clock) journal =
      SearchM.ending (tree.compile (catalog.pinned reference) otherClock)
        journal := by
  obtain ⟨-, rfl⟩ := Catalog.ofFields_eq_ok_iff.mp added
  obtain ⟨-, rfl⟩ := Catalog.ofFields_eq_ok_iff.mp extended
  have anchored (fields : List Field) (clock : Instant) :
      journal.reference (Catalog.pinned ⟨fields, none⟩ reference) clock =
        journal.anchor.getD reference := rfl
  have same :
      tree.report (Catalog.pinned ⟨before ++ field :: after, none⟩ reference)
          (journal.anchor.getD reference) =
        tree.report (Catalog.pinned ⟨before ++ after, none⟩ reference)
          (journal.anchor.getD reference) := by
    apply report_congr (Catalog.defaultFields_insert explicit)
    intro name member
    exact Catalog.field?_insert (unanswered name member)
  rw [(does_compile tree).ending_eq (anchored _ clock),
    (does_compile tree).ending_eq (anchored _ otherClock), same]

/--
A field that no search reaches by default, with a name that searches may hold as
a value.
-/
def secretField : Field where
  name := "secret"
  type := .string
  onlyExplicit := true
  aliases := ["token.secret"]

/--
A search of the inventory in which the name of the field is a value, and the
rest of a name, but no name that is looked up.
-/
def secretSearch : Tree :=
  .connection .or
    [ .comparison .equal [.leaf "hostname.secret", .leaf "secret"],
      .comparison .different [.leaf "secret"],
      .leaf "secretive",
      .comparison .like [.leaf "token", .leaf "secret"] ]

/-- The search compiles up to its last operand with the field as without it. -/
theorem Tree.compile_ignores_explicit_field_secret :
    ∃ larger, Catalog.ofFields
        (Catalog.inventoryFields.take 1 ++ secretField ::
          Catalog.inventoryFields.drop 1) =
          .ok larger ∧
      secretField.onlyExplicit = true ∧
      secretSearch.lookups = ["hostname.secret", "secretive", "token"] ∧
      (∀ name ∈ secretSearch.lookups, ¬ secretField.Answers name) ∧
      let run := SearchM.ending
        (secretSearch.compile (larger.pinned Catalog.inventoryDay)
          Catalog.inventoryNextDay)
        Journal.empty
      run = SearchM.ending
          (secretSearch.compile Catalog.inventory Catalog.inventoryDay)
          Journal.empty ∧
        run.outcome = .error (.unknownField "token") ∧
        run.notices =
          [ .key "name", .operator .equal, .parameter (.text "secret"),
            .key "name", .operator .different, .parameter (.text "secret"),
            .key "name", .operator .like,
            .parameter (.text "%secretive%") ] := by
  have added : Catalog.ofFields
      (Catalog.inventoryFields.take 1 ++ Catalog.inventoryFields.drop 1) =
        .ok ⟨Catalog.inventoryFields, none⟩ := rfl
  have unanswered :
      ∀ name ∈ secretSearch.lookups, ¬ secretField.Answers name := by decide
  refine ⟨_, rfl, rfl, rfl, unanswered, ?_, rfl, rfl⟩
  exact compile_ignores_explicit_field added rfl rfl unanswered
    Catalog.inventoryDay
    Catalog.inventoryNextDay Catalog.inventoryDay Journal.empty

end SearchPhrase
