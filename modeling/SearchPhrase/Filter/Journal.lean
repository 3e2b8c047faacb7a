import SearchPhrase.Filter
import SearchPhrase.Filter.SearchError
import SearchPhrase.Schema.Catalog

/-!
# Journals

Building filters leaves a journal.  For each test of a field it notes the name
of the field, the operator of the filter and the parameters, in this order.
The journal also keeps the instant to which times are relative, which is fixed
when it is first needed.

An operation on a journal ends with a result or with an error, and what was
noted before an error stays noted.
-/

namespace SearchPhrase

/-- A note about the test of a field. -/
inductive Notice where
  | key (field : String)
  | operator (operator : Comparison)
  | parameter (value : Parameter)
deriving DecidableEq

/-- The parameter of a notice of one. -/
def Notice.parameter? : Notice → Option Parameter
  | .parameter value => some value
  | _ => none

/--
The notices in order, and the instant to which times are relative, once it is
fixed.
-/
structure Journal where
  notices : List Notice := []
  anchor : Option Instant := none
deriving DecidableEq

namespace Journal

/-- The journal before anything has been noted. -/
def empty : Journal := {}

/-- The parameters that have been noted, in order. -/
def parameters (journal : Journal) : List Parameter :=
  journal.notices.filterMap Notice.parameter?

/-- A journal with further notices at its end. -/
def append (journal : Journal) (notices : List Notice) : Journal :=
  { journal with notices := journal.notices ++ notices }

@[simp]
theorem parameters_append (journal : Journal) (notices : List Notice) :
    (journal.append notices).parameters =
      journal.parameters ++ notices.filterMap Notice.parameter? := by
  simp [parameters, append]

end Journal

/-- The test of a field: a filter, with what is noted about it. -/
structure FieldTest where
  field : String
  operator : Comparison
  filter : Filter
deriving DecidableEq

/-- What is noted about a test with given parameters. -/
def Notice.ofTest (field : String) (operator : Comparison)
    (parameters : List Parameter) :
    List Notice :=
  .key field :: .operator operator :: parameters.map .parameter

/-- What is noted about a test: its field, its operator and its parameters. -/
def FieldTest.notices (test : FieldTest) : List Notice :=
  Notice.ofTest test.field test.operator test.filter.parameters

@[simp]
theorem FieldTest.parameters_notices (test : FieldTest) :
    test.notices.filterMap Notice.parameter? = test.filter.parameters := by
  show (test.filter.parameters.map Notice.parameter).filterMap
    Notice.parameter? = _
  rw [List.filterMap_map]
  exact List.filterMap_some

/-- Operations that note what they do and may fail. -/
abbrev SearchM := EStateM SearchError Journal

namespace SearchM

/-- Note a test, if there is one, and give its filter. -/
def record : Option FieldTest → SearchM (Option Filter)
  | some test =>
      fun journal => .ok (some test.filter) (journal.append test.notices)
  | none => fun journal => .ok none journal

/-- The instant to which times are relative, which is fixed from now on. -/
def anchor (catalog : Catalog) (clock : Instant) : SearchM Instant :=
  fun journal =>
    let instant := journal.anchor.getD (catalog.anchor clock)
    .ok instant { journal with anchor := some instant }

/-- A result or an error that notes nothing. -/
def ofExcept {α : Type} : Except SearchError α → SearchM α
  | .ok result => fun journal => .ok result journal
  | .error error => fun journal => .error error journal

end SearchM

end SearchPhrase
