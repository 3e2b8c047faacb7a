import Mathlib.Data.List.Forall2
import SearchPhrase.Proofs.Filter.Report

/-!
# Names of one field

A field can be named in many ways: by its name, by an alias, or by one of these
with a dot and more behind it.  A comparison looks up the name that it is given,
and from then on only the field counts.  Trees that name the same fields in the
same places are therefore compiled alike, whatever names they use: to the same
filter or error, and with the same notices.

A comparison of operands that are not leaves is refused, however its operands
are written.  It sees no more of its operands than which of them are leaves, and
with which texts.
-/

namespace SearchPhrase

namespace Tree

/-- The text of a leaf. -/
def leaf? : Tree → Option String
  | .leaf value => some value
  | _ => none

/--
The report of a comparison, given the texts of those operands that are leaves.
-/
def leavesReport (catalog : Catalog) (reference : Instant)
    (operator : Comparison) :
    List (Option String) → Report (Option Filter)
  | [some value] => catalog.searchReport reference value (some operator)
  | [none] => Report.ofExcept (.error .nestedValue)
  | [some name, some value] =>
      match catalog.field? name with
      | some field => field.report reference operator value
      | none => Report.ofExcept (.error (.unknownField name))
  | [_, _] => Report.ofExcept (.error .nestedOperand)
  | leaves => Report.ofExcept (.error (.operandCount operator leaves.length))

variable {catalog : Catalog} {reference : Instant}

/-- A comparison sees of its operands only the leaves. -/
theorem comparisonReport_eq (operator : Comparison) (operands : List Tree) :
    comparisonReport catalog reference operator operands =
      leavesReport catalog reference operator (operands.map leaf?) := by
  match operands with
  | [] => rfl
  | [operand] => cases operand <;> rfl
  | [first, second] => cases first <;> cases second <;> rfl
  | first :: second :: third :: rest =>
      simp [comparisonReport, leavesReport]

/-! ## Respelled trees -/

/--
Two trees of one shape that differ only in the names of the fields that they
compare, where both names reach the same field.
-/
inductive Respelled (catalog : Catalog) : Tree → Tree → Prop where
  | leaf (value : String) : Respelled catalog (.leaf value) (.leaf value)
  | comparison (operator : Comparison) {left right : List Tree}
      (operands : List.Forall₂ (Respelled catalog) left right) :
      Respelled catalog (.comparison operator left) (.comparison operator right)
  | renamed (operator : Comparison) {name other : String} {field : Field}
      {left right : Tree} (reached : catalog.field? name = some field)
      (otherReached : catalog.field? other = some field)
      (value : Respelled catalog left right) :
      Respelled catalog (.comparison operator [.leaf name, left])
        (.comparison operator [.leaf other, right])
  | connection (connective : Connective) {left right : List Tree}
      (operands : List.Forall₂ (Respelled catalog) left right) :
      Respelled catalog (.connection connective left)
        (.connection connective right)

theorem Respelled.leaf?_eq {left right : Tree}
    (respelled : Respelled catalog left right) :
    left.leaf? = right.leaf? := by
  cases respelled <;> rfl

theorem Respelled.map_leaf?_eq
    {left right : List Tree}
    (respelled : List.Forall₂ (Respelled catalog) left right) :
    left.map leaf? = right.map leaf? := by
  induction respelled with
  | nil => rfl
  | cons first rest ih => rw [List.map_cons, List.map_cons, first.leaf?_eq, ih]

/--
A comparison of a field depends on the field, and not on the name that reaches
it.
-/
theorem leavesReport_renamed
    (operator : Comparison) {name other : String} {field : Field}
    (reached : catalog.field? name = some field)
    (otherReached : catalog.field? other = some field) (value : Option String) :
    leavesReport catalog reference operator [some name, value] =
      leavesReport catalog reference operator [some other, value] := by
  cases value with
  | none => rfl
  | some value => simp only [leavesReport, reached, otherReached]

mutual

/-- Trees that name the same fields have the same report. -/
theorem Respelled.report_eq :
    ∀ {left right : Tree}, Respelled catalog left right →
      left.report catalog reference = right.report catalog reference
  | _, _, .leaf value => rfl
  | _, _, .comparison operator operands => by
      rw [report, report, comparisonReport_eq, comparisonReport_eq,
        Respelled.map_leaf?_eq operands]
  | _, _, .renamed operator reached otherReached value => by
      rw [report, report, comparisonReport_eq, comparisonReport_eq]
      simp only [List.map_cons, List.map_nil, value.leaf?_eq]
      exact leavesReport_renamed operator reached otherReached _
  | _, _, .connection connective operands => by
      rw [report, report, reports_eq_of_respelled operands]

theorem reports_eq_of_respelled : ∀ {left right : List Tree},
    List.Forall₂ (Respelled catalog) left right →
      reports catalog reference left = reports catalog reference right
  | _, _, .nil => rfl
  | _, _, .cons first rest => by
      rw [reports, reports, first.report_eq, reports_eq_of_respelled rest]

end

/--
Only the fields that are reached matter.  If two trees differ only in the names
by which comparisons reach their fields, then compiling them ends alike from
every journal, at any times: with the same filter, without one, or with the same
error, and with the same notices.
-/
theorem compile_sees_reached_fields
    {catalog : Catalog} {reference : Instant}
    (pinned : catalog.reference = some reference)
    {left right : Tree} (respelled : Respelled catalog left right)
    (clock otherClock : Instant) (journal : Journal)
    (anchored : journal.anchor = none ∨ journal.anchor = some reference) :
    SearchM.ending (left.compile catalog clock) journal =
      SearchM.ending (right.compile catalog otherClock) journal := by
  have ends (tree : Tree) (clock : Instant) :
      SearchM.ending (tree.compile catalog clock) journal =
        ⟨(tree.report catalog reference).outcome,
          journal.notices ++ (tree.report catalog reference).notices⟩ :=
    (does_compile tree).ending_eq (reference_of_pinned pinned anchored)
  rw [ends left clock, ends right otherClock, respelled.report_eq]

/--
A search of the inventory whose last operand fails, by one way to name the
fields.
-/
def spelledSearch (name status : String) : Tree :=
  .connection .or
    [ .connection .not [.comparison .like [.leaf name, .leaf "name"]],
      .comparison .equal [.leaf "active"],
      .comparison .greater [.leaf status, .leaf "active"] ]

theorem respelled_spelledSearch :
    Respelled Catalog.inventory (spelledSearch "hostname.first" "status")
      (spelledSearch "name" "status.code.text") := by
  have named : Respelled Catalog.inventory
      (.comparison .like [.leaf "hostname.first", .leaf "name"])
      (.comparison .like [.leaf "name", .leaf "name"]) :=
    .renamed .like rfl rfl (.leaf "name")
  have kept : Respelled Catalog.inventory (.comparison .equal [.leaf "active"])
      (.comparison .equal [.leaf "active"]) :=
    .comparison .equal (.cons (.leaf "active") .nil)
  have failing : Respelled Catalog.inventory
      (.comparison .greater [.leaf "status", .leaf "active"])
      (.comparison .greater [.leaf "status.code.text", .leaf "active"]) :=
    .renamed .greater rfl rfl (.leaf "active")
  have denied := Respelled.connection .not (.cons named .nil)
  exact .connection .or (.cons denied (.cons kept (.cons failing .nil)))

/--
The error and the notices give the names that the fields have in the inventory.
-/
theorem compile_sees_reached_fields_inventory :
    let journal : Journal := ⟨[.key "memory"], none⟩
    let run := SearchM.ending
      ((spelledSearch "hostname.first" "status").compile Catalog.inventory
        Catalog.inventoryDay) journal
    Catalog.inventory.reference = some Catalog.inventoryDay ∧
      run = SearchM.ending
        ((spelledSearch "name" "status.code.text").compile Catalog.inventory
          Catalog.inventoryNextDay) journal ∧
      run.outcome = .error (.enumeratedOperator .greater "status") ∧
      run.notices =
        [ .key "memory", .key "name", .operator .like,
          .parameter (.text "%name%"), .key "name", .operator .equal,
          .parameter (.text "active") ] := by
  intro journal run
  have pinned : Catalog.inventory.reference = some Catalog.inventoryDay := rfl
  have same :=
    compile_sees_reached_fields pinned respelled_spelledSearch
      Catalog.inventoryDay Catalog.inventoryNextDay journal (Or.inl rfl)
  exact ⟨pinned, same, rfl, rfl⟩

end Tree

end SearchPhrase
