import SearchPhrase.Filter.FieldTest
import SearchPhrase.Tree

/-!
# Filters of search trees

A search tree is compiled from its leaves up.  A leaf that names a field with a
value for true asks whether the field is true.  Any other leaf, and a
comparison without a field, searches every default field whose type fits the
value.
-/

namespace SearchPhrase

namespace Catalog

/--
The default fields that a value without a field searches.

Textual fields take every value, but only for equality and patterns.  Fields of
numbers take values that are numbers, and temporal fields those that are times.
Enumerated fields are never searched this way.
-/
def candidates (catalog : Catalog) (reference : Instant) (value : String)
    (operator : Option Comparison) : Except CalendarFault (List Field) :=
  match TimeExpression.read reference value with
  | .error fault => .error fault
  | .ok instant =>
      let textual :=
        operator.all fun given =>
          given == .equal || given == .different || given.isPattern
      let numerical :=
        Numeral.isShapedAsNumber value && (Numeral.integer? value).isSome
      .ok (catalog.defaultFields.filter fun field =>
        !field.isEnumerated &&
          (if field.type.isTextual then textual
            else if field.type.isNumerical then numerical
            else instant.isSome))

end Catalog

namespace SearchM

/--
Test each of a list of fields, by the operator given or by that of the field.
-/
def testEach (catalog : Catalog) (clock : Instant) (value : String)
    (operator : Option Comparison) : List Field → SearchM (List Filter)
  | [] => pure []
  | field :: rest => do
      let first ←
        testField catalog clock field
          (operator.getD field.implicitOperator) value
      let others ← testEach catalog clock value operator rest
      pure (first.toList ++ others)

/-- Search the default fields for a value. -/
def searchValue (catalog : Catalog) (clock : Instant) (value : String)
    (operator : Option Comparison) : SearchM (Option Filter) := do
  let reference ← anchor catalog clock
  let fields ←
    ofExcept
      ((catalog.candidates reference value operator).mapError
        SearchError.calendar)
  let filters ← testEach catalog clock value operator fields
  pure (Filter.join Connective.or.filterText filters)

/--
Compile a value on its own.  The name of a field with a value that stands for
true asks for this value; every other text is searched in the default fields.
-/
def leaf (catalog : Catalog) (clock : Instant) (value : String) :
    SearchM (Option Filter) :=
  match catalog.field? value with
  | some field =>
      match field.trueName? with
      | some name => do
          let test ← ofExcept (FieldTest.enumerated field .equal name)
          record (some test)
      | none => searchValue catalog clock value none
  | none => searchValue catalog clock value none

/-- Compile a comparison: of a value, or of a field with a value. -/
def comparison (catalog : Catalog) (clock : Instant) (operator : Comparison) :
    List Tree → SearchM (Option Filter)
  | [.leaf value] => searchValue catalog clock value (some operator)
  | [_] => ofExcept (.error .nestedValue)
  | [.leaf name, .leaf value] =>
      match catalog.field? name with
      | some field => testField catalog clock field operator value
      | none => ofExcept (.error (.unknownField name))
  | [_, _] => ofExcept (.error .nestedOperand)
  | operands => ofExcept (.error (.operandCount operator operands.length))

end SearchM

namespace Tree

mutual

/-- Compile a search tree; none if nothing in it restricts the search. -/
def compile (catalog : Catalog) (clock : Instant) :
    Tree → SearchM (Option Filter)
  | .leaf value => SearchM.leaf catalog clock value
  | .comparison operator operands =>
      SearchM.comparison catalog clock operator operands
  | .connection connective operands => do
      let filters ← compileAll catalog clock operands
      pure (Filter.connect connective filters)

/--
Compile search trees from left to right, leaving out those without a filter.
-/
def compileAll (catalog : Catalog) (clock : Instant) :
    List Tree → SearchM (List Filter)
  | [] => pure []
  | tree :: rest => do
      let first ← compile catalog clock tree
      let others ← compileAll catalog clock rest
      pure (first.toList ++ others)

end

end Tree

end SearchPhrase
