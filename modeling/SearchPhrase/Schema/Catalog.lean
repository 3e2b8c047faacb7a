import SearchPhrase.Calendar.TimeExpression
import SearchPhrase.Schema.Field

/-!
# Catalogs of fields

A catalog collects the fields of a schema in the order of their registration.
A field is registered if its names are well shaped, its enumerated values have
distinct names, and none of its names is taken by a field before it.  A name
that is not taken may still reach a field by what stands before its first dot.
-/

namespace SearchPhrase

/-- What is wrong with the definition of a field. -/
inductive FieldFlaw where
  | malformedName (name : String)
  | unnamedValue
  | repeatedValue (name : String)
deriving DecidableEq, Repr

/-- What a flaw says is wrong with a field. -/
def FieldFlaw.message : FieldFlaw → String
  | .malformedName name =>
      "'" ++ name ++
        "' is not a valid field name, use letters, digits, '_', '-' or '.'"
  | .unnamedValue => "enumerated value names must not be empty"
  | .repeatedValue name => "enumerated value '" ++ name ++ "' is listed twice"

/-- Why a schema gives no catalog. -/
inductive CatalogError where
  | duplicateName (name : String)
  | invalidField (field : String) (flaw : FieldFlaw)
  | malformedDocument
deriving DecidableEq, Repr

/-- Why a schema is refused, as it is reported. -/
def CatalogError.message : CatalogError → String
  | .duplicateName name => "field name '" ++ name ++ "' is already registered"
  | .invalidField field flaw =>
      "invalid definition for field '" ++ field ++ "': " ++ flaw.message
  | .malformedDocument => "malformed schema document"

namespace Field

/-- Whether a character may start a name: an ASCII letter or digit, or `_`. -/
def isNameStart (character : Char) : Bool :=
  character.isAlphanum || character == '_'

/-- Whether a character may continue a name. -/
def isNamePart (character : Char) : Bool :=
  isNameStart character || character == '.' || character == '-'

/-- Whether a text is well shaped as the name of a field. -/
def isName (text : String) : Bool :=
  match text.toList with
  | [] => false
  | first :: rest => isNameStart first && rest.all isNamePart

/-- The first flaw in the names of enumerated values, of which some are seen. -/
def valueFlaw? (seen : List String) : List NamedValue → Option FieldFlaw
  | [] => none
  | value :: rest =>
      if value.name.isEmpty then some .unnamedValue
      else if seen.contains value.name then some (.repeatedValue value.name)
      else valueFlaw? (value.name :: seen) rest

/-- The first flaw of a field: in its names, then in its enumerated values. -/
def flaw? (field : Field) : Option FieldFlaw :=
  match field.names.find? fun name => !isName name with
  | some name => some (.malformedName name)
  | none => valueFlaw? [] field.values

end Field

/--
The fields of a schema, and the instant to which searches are pinned, if any.
-/
structure Catalog where
  fields : List Field := []
  reference : Option Instant := none
deriving DecidableEq

namespace Catalog

/-- The catalog without fields, which is not pinned. -/
def empty : Catalog := {}

/-- The field that has a given name or alias. -/
def named? (catalog : Catalog) (name : String) : Option Field :=
  catalog.fields.find? fun field => field.names.contains name

/-- Whether a field has a given name or alias. -/
def takes (catalog : Catalog) (name : String) : Bool :=
  (catalog.named? name).isSome

/-- The part of a name before its first dot, if it has one. -/
def stem? (name : String) : Option String :=
  if name.toList.contains '.' then
    some
      (String.ofList (name.toList.takeWhile fun character => character != '.'))
  else none

/--
The field that a name reaches: the one that has it, or else the one that has the
part before its first dot.
-/
def field? (catalog : Catalog) (name : String) : Option Field :=
  match catalog.named? name with
  | some field => some field
  | none => (stem? name).bind catalog.named?

/-- The fields that are searched by values without a field, in order. -/
def defaultFields (catalog : Catalog) : List Field :=
  catalog.fields.filter fun field => !field.onlyExplicit

/-- Add a field at the end. -/
def register (catalog : Catalog) (field : Field) :
    Except CatalogError Catalog :=
  match field.flaw? with
  | some flaw => .error (.invalidField field.name flaw)
  | none =>
      match field.names.find? catalog.takes with
      | some name => .error (.duplicateName name)
      | none => .ok { catalog with fields := catalog.fields ++ [field] }

/-- Add fields one after the other; the first error ends it. -/
def registerAll (catalog : Catalog) : List Field → Except CatalogError Catalog
  | [] => .ok catalog
  | field :: rest =>
      match catalog.register field with
      | .ok larger => larger.registerAll rest
      | .error error => .error error

/-- The catalog of a list of fields, registered in order. -/
def ofFields (fields : List Field) : Except CatalogError Catalog :=
  empty.registerAll fields

/-- The catalog with its searches pinned to an instant. -/
def pinned (catalog : Catalog) (reference : Instant) : Catalog :=
  { catalog with reference := some reference }

/--
The instant to which times are relative: the pinned one, or that of the clock.
-/
def anchor (catalog : Catalog) (clock : Instant) : Instant :=
  catalog.reference.getD clock

end Catalog

end SearchPhrase
