import SearchPhrase.Json.Reader
import SearchPhrase.Numeral
import SearchPhrase.Schema.Catalog

/-!
# Schema documents

A schema document is a record with a list of fields, and a field is a record of
its settings.  Every setting but the name and the type may be absent, and the
two optional ones may be null.
-/

namespace SearchPhrase

/-! ## Writing fields -/

/-- What is stored for a value, as a scalar. -/
def StoredValue.toJson : StoredValue → Json
  | .flag value => .bool value
  | .integer value => .integer value.toInt
  | .text value => .ofText value

/-- A value of an enumerated field as a record. -/
def NamedValue.toJson (value : NamedValue) : Json :=
  .ofMembers [("name", .ofText value.name), ("value", value.stored.toJson)]

/-- An operator by its name. -/
def Comparison.toJson (operator : Comparison) : Json :=
  .ofText operator.name

/-- A field as a record of all its settings. -/
def Field.toJson (field : Field) : Json :=
  .ofMembers
    [ ("name", .ofText field.name),
      ("type", .ofText field.type.name),
      ("only_explicit", .bool field.onlyExplicit),
      ("aliases", .ofList .ofText field.aliases),
      ("operators", .ofOption (.ofList Comparison.toJson) field.operators),
      ("values", .ofList NamedValue.toJson field.values),
      ("default_operator", .ofOption Comparison.toJson field.defaultOperator) ]

/-- The document that lists fields in order. -/
def Schema.toJson (fields : List Field) : Json :=
  .ofMembers [("fields", .ofList Field.toJson fields)]

/-! ## Reading fields -/

/--
The value that a scalar stores: a number must be a whole one of sixty-four bits.
-/
def StoredValue.ofJson? : Json → Option StoredValue
  | .bool value => some (.flag value)
  | .integer value => (Numeral.int64? value).map .integer
  | .text content => content.map .text
  | _ => none

/-- The value of an enumerated field that a record gives. -/
def NamedValue.ofJson? (json : Json) : Option NamedValue :=
  match json.record? ["name", "value"] with
  | some [some name, some stored] => do
      return { name := ← name.text?, stored := ← StoredValue.ofJson? stored }
  | _ => none

/-- The operator that a keyword names. -/
def Comparison.ofJson? (json : Json) : Option Comparison :=
  json.keyword?.bind Comparison.ofName?

/-- The type that a keyword names. -/
def FieldType.ofJson? (json : Json) : Option FieldType :=
  json.keyword?.bind FieldType.ofName?

/-- Decode a setting, or take its default if it is absent. -/
def setting? {α : Type} (decode : Json → Option α) (default : α) :
    Option Json → Option α
  | some json => decode json
  | none => some default

/-- The field that a record gives.  Only the name and the type are required. -/
def Field.ofJson? (json : Json) : Option Field :=
  match json.record? ["name", "type", "only_explicit", "aliases", "operators",
      "values", "default_operator"] with
  | some [some name, some type, onlyExplicit, aliases, operators, values,
      defaultOperator] => do
      return {
        name := ← name.text?
        type := ← FieldType.ofJson? type
        onlyExplicit := ← setting? Json.bool? false onlyExplicit
        aliases := ← setting? (Json.list? Json.text?) [] aliases
        operators :=
          ← setting? (Json.nullable? (Json.list? Comparison.ofJson?)) none
            operators
        values := ← setting? (Json.list? NamedValue.ofJson?) [] values
        defaultOperator :=
          ← setting? (Json.nullable? Comparison.ofJson?) none defaultOperator }
  | _ => none

/-- The fields that a schema document lists. -/
def Schema.fields? (json : Json) : Option (List Field) :=
  match json.record? ["fields"] with
  | some [fields] => setting? (Json.list? Field.ofJson?) [] fields
  | _ => none

namespace Catalog

/-- The catalog of a schema document. -/
def ofJson (json : Json) : Except CatalogError Catalog :=
  match Schema.fields? json with
  | some fields => ofFields fields
  | none => .error .malformedDocument

/-- The catalog of the text of a schema document. -/
def ofText (text : String) : Except CatalogError Catalog :=
  match Json.parse? text with
  | some json => ofJson json
  | none => .error .malformedDocument

end Catalog

end SearchPhrase
