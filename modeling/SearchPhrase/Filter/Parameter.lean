import SearchPhrase.Calendar.Instant
import SearchPhrase.Text.FormEncoding

/-!
# Parameters

A filter compares fields with parameters.  A parameter has a literal text, and
the form encoding of that text stands for it in a query string.
-/

namespace SearchPhrase

/-- A value with which a filter compares a field. -/
inductive Parameter where
  | text (value : String)
  | integer (value : Int64)
  | boolean (value : Bool)
  | date (value : Date)
  | timestamp (value : Instant)
deriving DecidableEq

namespace Parameter

/-- The text by which a parameter replaces its placeholder. -/
def literal : Parameter → String
  | .text value => value
  | .integer value => String.ofList (Text.ofInt value.toInt)
  | .boolean true => "true"
  | .boolean false => "false"
  | .date value => value.render
  | .timestamp value => value.render

/-- The text of a parameter in a query string. -/
def encoded (parameter : Parameter) : String :=
  Text.FormEncoding.encode parameter.literal

end Parameter

end SearchPhrase
