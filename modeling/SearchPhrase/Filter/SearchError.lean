import SearchPhrase.Calendar.TimeExpression
import SearchPhrase.PhraseError
import SearchPhrase.Schema.Field

/-!
# Errors in searches

A search that no filter expresses is refused with a reason.
-/

namespace SearchPhrase

/-- Why a search has no filter. -/
inductive SearchError where
  /-- The phrase cannot be read. -/
  | phrase (error : PhraseError)
  /-- A comparison names no field. -/
  | unknownField (name : String)
  /-- Operators are asked for, and the name reaches no field. -/
  | unclassifiedField (name : String)
  /-- The operand of a comparison with one operand is not a leaf. -/
  | nestedValue
  /-- An operand of a comparison with two operands is not a leaf. -/
  | nestedOperand
  | operandCount (operator : Comparison) (count : Nat)
  /-- A pattern operator compares a field that is not textual. -/
  | patternOperator (operator : Comparison) (field : String) (type : FieldType)
  /-- An enumerated field does not list the value. -/
  | unlistedValue (value field : String)
  /-- An enumerated field is compared other than for equality. -/
  | enumeratedOperator (operator : Comparison) (field : String)
  | notNumber (value field : String) (type : FieldType)
  /-- The end of a day or of another span lies outside the calendar. -/
  | outOfRange (time : String)
  /-- The value is a time that the calendar cannot resolve. -/
  | calendar (fault : CalendarFault)
deriving DecidableEq, Repr

namespace SearchError

/-- What an error says is wrong with a search. -/
def reason : SearchError → String
  | .phrase error => error.message
  | .unknownField name => "field '" ++ name ++ "' not recognized"
  | .unclassifiedField name =>
      "unsupported field '" ++ name ++ "', it cannot be classified"
  | .nestedValue => "value not a leaf"
  | .nestedOperand => "field name and value must both be leaves"
  | .operandCount operator count =>
      "operator '" ++ operator.token ++ "' takes one or two operands, got " ++
        Nat.repr count
  | .patternOperator operator field type =>
      "operator '" ++ operator.token ++
        "' is only supported on textual fields, '" ++
        field ++ "' is " ++ type.name
  | .unlistedValue value field =>
      "'" ++ value ++ "' is not a valid value for field '" ++ field ++ "'"
  | .enumeratedOperator operator field =>
      "operator '" ++ operator.token ++ "' is not supported for field '" ++
        field ++ "', use '=' or '!='"
  | .notNumber value field type =>
      "value '" ++ value ++ "' is not a number, field '" ++ field ++ "' is " ++
        type.name
  | .outOfRange time => "date '" ++ time ++ "' is out of range"
  | .calendar .beforeFirstDay =>
      "day of the week before the first day of the calendar"
  | .calendar .overflow => "number too large for its word"

/-- The wording of an error as a message. -/
def message (error : SearchError) : String :=
  "query not supported: " ++ error.reason

end SearchError

end SearchPhrase
