/-!
# JSON values

Schema documents are written in JSON.  A value keeps what decoding a schema can
tell apart.  A number without fraction and exponent is an integer, and every
other number is kept as its literal.  A string literal may escape half of a
surrogate pair alone; such a literal is well formed but stands for no text.
-/

namespace SearchPhrase

/--
A JSON value.

Members of an object keep their order and may repeat a name.  The text of a
string literal, and the name of a member, is absent if the literal stands for
no text.
-/
inductive Json where
  | null
  | bool (value : Bool)
  | integer (value : Int)
  | decimal (literal : String)
  | text (content : Option String)
  | array (elements : List Json)
  | object (members : List (Option String × Json))
deriving Inhabited, Repr

namespace Json

/-- The string literal of a text. -/
def ofText (content : String) : Json :=
  .text (some content)

/-- The object with the given member names and values. -/
def ofMembers (members : List (String × Json)) : Json :=
  .object (members.map fun (name, value) => (some name, value))

/-- The value of an optional part, which is null if absent. -/
def ofOption {α : Type} (encode : α → Json) : Option α → Json
  | some part => encode part
  | none => .null

/-- The array of the values of parts, in order. -/
def ofList {α : Type} (encode : α → Json) (parts : List α) : Json :=
  .array (parts.map encode)

/-- The value of the first member of an object with a given name. -/
def member? (name : String) : Json → Option Json
  | .object members =>
      (members.find? fun entry => entry.1 == some name).map Prod.snd
  | _ => none

/-- The text of a string literal, if it stands for one. -/
def text? : Json → Option String
  | .text content => content
  | _ => none

/-- The truth value that a value is. -/
def bool? : Json → Option Bool
  | .bool value => some value
  | _ => none

/-- The integer of a number literal without fraction and exponent. -/
def integer? : Json → Option Int
  | .integer value => some value
  | _ => none

/-- The elements of an array. -/
def array? : Json → Option (List Json)
  | .array elements => some elements
  | _ => none

/-- The elements of an array, each decoded. -/
def list? {α : Type} (decode : Json → Option α) : Json → Option (List α)
  | .array elements => elements.mapM decode
  | _ => none

/-- Decode a value that may be null. -/
def nullable? {α : Type} (decode : Json → Option α) : Json → Option (Option α)
  | .null => some none
  | value => (decode value).map some

/--
The parts of a record with the given member names, in the order of the names.

A record is written as an object or as an array.  An object may have further
members, which are ignored, but none of the record's members twice, and every
member name must be a text.  An array gives the parts in order; parts at its
end may be absent, and there may be no further element.
-/
def record? (names : List String) : Json → Option (List (Option Json))
  | .object members =>
      if members.all (fun entry => entry.1.isSome) &&
          names.all (fun name =>
            members.countP (fun entry => entry.1 == some name) ≤ 1) then
        some (names.map fun name =>
          (members.find? fun entry => entry.1 == some name).map Prod.snd)
      else none
  | .array elements =>
      if elements.length ≤ names.length then
        some (elements.map some ++
          List.replicate (names.length - elements.length) none)
      else none
  | _ => none

/--
The keyword of a value that stands for one of a fixed set of keywords: a string
literal, or an object whose only member has the keyword as name and is null.
-/
def keyword? : Json → Option String
  | .text content => content
  | .object [(name, .null)] => name
  | _ => none

end Json

end SearchPhrase
