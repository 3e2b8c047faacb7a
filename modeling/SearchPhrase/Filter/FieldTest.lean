import SearchPhrase.Filter.Journal
import SearchPhrase.Numeral

/-!
# Tests of fields

A test compares one field with one value.  There are four kinds of tests:
enumerated fields are compared with what is stored for a value, temporal fields
with a span of time, textual fields with a wildcard pattern, and all fields
with a number or a text.
-/

namespace SearchPhrase

/-- The way in which a field is tested. -/
inductive TestKind where
  | enumerated
  | temporal
  | pattern
  | generic
deriving DecidableEq, Repr

/--
The way in which a field is tested by an operator: enumerated values come first,
then times, then patterns.
-/
def TestKind.of (field : Field) (operator : Comparison) : TestKind :=
  if field.isEnumerated then .enumerated
  else if field.type.isTemporal then .temporal
  else if field.type.isTextual && operator.isPattern then .pattern
  else .generic

namespace FieldTest

/-- The text that compares a field with one parameter. -/
def comparisonText (field : Field) (operator : Comparison) : String :=
  field.selector ++ " " ++ operator.filterText ++ " ?"

/-- The test that compares a field with one parameter. -/
def comparison (field : Field) (operator : Comparison) (parameter : Parameter) :
    FieldTest where
  field := field.name
  operator := operator
  filter := ⟨comparisonText field operator, [parameter]⟩

/-! ## Enumerated fields -/

/--
The test of a flag.  A field of numbers holds a flag if it is above zero, and
any other field if it is not false.
-/
def flagComparison (type : FieldType) (flag : Bool) : Comparison × Parameter :=
  match type.isNumerical, flag with
  | true, true => (.greater, .integer 0)
  | true, false => (.equal, .integer 0)
  | false, true => (.different, .boolean false)
  | false, false => (.equal, .boolean false)

/--
The operator and parameter that compare a field with a stored value, and
whether the comparison is denied.
-/
def storedComparison (field : Field) (operator : Comparison) :
    StoredValue → Bool × Comparison × Parameter
  | .flag flag => (operator == .different, flagComparison field.type flag)
  | .integer value => (false, operator, .integer value)
  | .text value => (false, operator, .text value)

/-- The test of an enumerated field by a value that it lists. -/
def enumerated (field : Field) (operator : Comparison) (value : String) :
    Except SearchError FieldTest :=
  match field.stored? value with
  | none => .error (.unlistedValue value field.name)
  | some stored =>
      if operator == .equal || operator == .different then
        let (denied, target, parameter) :=
          storedComparison field operator stored
        let text := "(" ++ comparisonText field target ++ ")"
        .ok {
          field := field.name
          operator := target
          filter := ⟨if denied then "NOT " ++ text else text, [parameter]⟩ }
      else .error (.enumeratedOperator operator field.name)

/-! ## Textual fields -/

/-- A pattern operator compares textual fields only. -/
def checkOperator (field : Field) (operator : Comparison) :
    Except SearchError Unit :=
  if operator.isPattern && !field.type.isTextual then
    .error (.patternOperator operator field.name field.type)
  else .ok ()

/-- Whether a character of a value stands for any text. -/
def isWildcard (character : Char) : Bool :=
  character == '%' || character == '*'

/--
Write each run of wildcards as one, where the run may have started before.
-/
def collapseWildcards (inRun : Bool) : List Char → List Char
  | [] => []
  | character :: rest =>
      if isWildcard character then
        if inRun then collapseWildcards true rest
        else '%' :: collapseWildcards true rest
      else character :: collapseWildcards false rest

/--
The pattern of a value.  A value without wildcards at its ends may stand
anywhere in a text.
-/
def wildcardPattern (value : List Char) : List Char :=
  if value.head?.any isWildcard || value.getLast?.any isWildcard then
    collapseWildcards false value
  else '%' :: value ++ ['%']

/-- The test of a textual field by a pattern. -/
def pattern (field : Field) (operator : Comparison) (value : String) :
    Except SearchError FieldTest :=
  match checkOperator field operator with
  | .error error => .error error
  | .ok () =>
      .ok (comparison field operator
        (.text (String.ofList (wildcardPattern value.toList))))

/-! ## Numbers and texts -/

/--
The test of a field by a number, or by a text if the field has no numbers.
-/
def generic (field : Field) (operator : Comparison) (value : String) :
    Except SearchError FieldTest :=
  if field.type.isNumerical then
    match Numeral.integer? value with
    | some number => .ok (comparison field operator (.integer number))
    | none => .error (.notNumber value field.name field.type)
  else .ok (comparison field operator (.text value))

/-! ## Temporal fields -/

/--
The day after a date, or an error that names the last day of the calendar.
-/
def nextDay (date : Date) : Except SearchError Date :=
  match date.addDays? 1 with
  | some next => .ok next
  | none => .error (.outOfRange date.render)

/-- The test of a field of days by a date: after it is from the next day on. -/
def day (field : Field) (operator : Comparison) (date : Date) :
    Except SearchError FieldTest :=
  match operator with
  | .greater =>
      (nextDay date).map fun next =>
        comparison field .greaterOrEqual (.date next)
  | .lessOrEqual =>
      (nextDay date).map fun next => comparison field .less (.date next)
  | _ => .ok (comparison field operator (.date date))

/--
The length in seconds of the span that a value denotes: a minute for a distance
in minutes, a day for the start of a day, and else an hour.
-/
def spanSeconds (value : String) (instant : Instant) : Int :=
  if TimeExpression.isMinutesAgo value then 60
  else if instant.isMidnight then 86400
  else 3600

/-- The test that an instant lies in a span of time. -/
def within (field : Field) (start stop : Instant) : FieldTest where
  field := field.name
  operator := .greaterOrEqual
  filter :=
    ⟨comparisonText field .greaterOrEqual ++ Connective.and.filterText ++
        comparisonText field .less,
      [.timestamp start, .timestamp stop]⟩

/--
The test of a field of instants by a span of time: equal is within the span,
after it is from its end on, and up to it is before its end.
-/
def span (field : Field) (operator : Comparison) (value : String)
    (start : Instant) :
    Except SearchError FieldTest :=
  match start.addSeconds? (spanSeconds value start) with
  | none => .error (.outOfRange value)
  | some stop =>
      .ok (match operator with
        | .equal | .different => within field start stop
        | .greater => comparison field .greaterOrEqual (.timestamp stop)
        | .lessOrEqual => comparison field .less (.timestamp stop)
        | _ => comparison field operator (.timestamp start))

/-- The test of a temporal field; none if the value is no time. -/
def temporal (reference : Instant) (field : Field) (operator : Comparison)
    (value : String) : Except SearchError (Option FieldTest) :=
  match TimeExpression.read reference value with
  | .error fault => .error (.calendar fault)
  | .ok none => .ok none
  | .ok (some instant) =>
      (if field.type.isDay then day field operator instant.date
        else span field operator value instant).map some

end FieldTest

namespace SearchM

/-- Test a field: give the filter and note the test. -/
def testField (catalog : Catalog) (clock : Instant) (field : Field)
    (operator : Comparison) (value : String) : SearchM (Option Filter) := do
  ofExcept (FieldTest.checkOperator field operator)
  match TestKind.of field operator with
  | .enumerated =>
      let test ← ofExcept (FieldTest.enumerated field operator value)
      record (some test)
  | .temporal =>
      let reference ← anchor catalog clock
      let test ← ofExcept (FieldTest.temporal reference field operator value)
      record test
  | .pattern =>
      let test ← ofExcept (FieldTest.pattern field operator value)
      record (some test)
  | .generic =>
      let test ← ofExcept (FieldTest.generic field operator value)
      record (some test)

end SearchM

end SearchPhrase
