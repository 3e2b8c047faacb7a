import SearchPhrase.Comparison

/-!
# Searchable fields

A field has a name and aliases, a type, and settings that say how it may be
searched.  An enumerated field lists its values by name and gives what is
stored for each of them.
-/

namespace SearchPhrase

/-- The type of the values of a field. -/
inductive FieldType where
  | string
  | text
  | integer
  | float
  | decimal
  | date
  | time
  | timestamp
deriving DecidableEq, Repr

namespace FieldType

/-- The types in the order in which names are looked up. -/
def all : List FieldType :=
  [.string, .text, .integer, .float, .decimal, .date, .time, .timestamp]

/-- The name of a type in schema documents. -/
def name : FieldType → String
  | .string => "string"
  | .text => "text"
  | .integer => "integer"
  | .float => "float"
  | .decimal => "decimal"
  | .date => "date"
  | .time => "time"
  | .timestamp => "timestamp"

/-- The type with exactly a given name. -/
def ofName? (text : String) : Option FieldType :=
  all.find? fun type => type.name == text

/-- The type with a given name in any case, where `datetime` is a timestamp. -/
def ofText? (text : String) : Option FieldType :=
  if Text.lowersTo text.toList "datetime" then some .timestamp
  else all.find? fun type => Text.lowersTo text.toList type.name

/-- Whether values of the type are texts, which patterns match. -/
def isTextual : FieldType → Bool
  | .string | .text => true
  | _ => false

/-- Whether values of the type are numbers. -/
def isNumerical : FieldType → Bool
  | .integer | .float | .decimal => true
  | _ => false

/-- Whether values of the type are days. -/
def isDay : FieldType → Bool
  | .date => true
  | _ => false

/-- Whether values of the type are instants. -/
def isInstant : FieldType → Bool
  | .time | .timestamp => true
  | _ => false

/-- Whether values of the type are times. -/
def isTemporal (type : FieldType) : Bool :=
  type.isDay || type.isInstant

@[simp]
theorem ofName?_name (type : FieldType) : ofName? type.name = some type := by
  cases type <;> decide

end FieldType

/-- What is stored for a value of an enumerated field. -/
inductive StoredValue where
  | flag (value : Bool)
  | integer (value : Int64)
  | text (value : String)
deriving DecidableEq

/-- The truth value that is stored, if one is. -/
def StoredValue.flag? : StoredValue → Option Bool
  | .flag value => some value
  | _ => none

/-- A value of an enumerated field: its name and what is stored for it. -/
structure NamedValue where
  name : String
  stored : StoredValue
deriving DecidableEq

/-- A searchable field. -/
structure Field where
  name : String
  type : FieldType
  /-- Whether the field is searched only where a comparison names it. -/
  onlyExplicit : Bool := false
  aliases : List String := []
  /--
  The operators to offer for the field, if they are not those of its type.
  -/
  operators : Option (List Comparison) := none
  /-- The values of an enumerated field; none if the field is not enumerated. -/
  values : List NamedValue := []
  /--
  The operator for values that are searched without one, if it is not that of
  the type.
  -/
  defaultOperator : Option Comparison := none
deriving DecidableEq

namespace Field

/-- The name of a field and its aliases. -/
def names (field : Field) : List String :=
  field.name :: field.aliases

/-- Whether a field lists its values. -/
def isEnumerated (field : Field) : Bool :=
  !field.values.isEmpty

/-- The operator for values that are searched without one. -/
def implicitOperator (field : Field) : Comparison :=
  field.defaultOperator.getD (if field.type.isTextual then .like else .equal)

/-- What is stored for the value with a given name. -/
def stored? (field : Field) (valueName : String) : Option StoredValue :=
  (field.values.find? fun value => value.name == valueName).map
    NamedValue.stored

/-- The name of the first value for which true is stored. -/
def trueName? (field : Field) : Option String :=
  (field.values.find? fun value => value.stored == .flag true).map
    NamedValue.name

/-- The text by which a filter refers to the field. -/
def selector (field : Field) : String :=
  field.name ++ "[]="

/-- The operators to offer for the field. -/
def offeredOperators (field : Field) : List Comparison :=
  match field.operators with
  | some operators => operators
  | none =>
      if field.isEnumerated then [.equal, .different]
      else if field.type.isNumerical then
        [.equal, .greater, .less, .lessOrEqual, .greaterOrEqual, .different]
      else if field.type.isTextual then [.equal, .different, .like, .unlike]
      else [.equal, .greater, .less, .lessOrEqual, .greaterOrEqual]

end Field

end SearchPhrase
