import SearchPhrase.Text.Keyword

/-!
# Comparison operators

A comparison relates a field to a value.  Each operator has a name, a token by
which search phrases write it, and the words by which filters write it.  Some
operators have a second token that phrases may use.
-/

namespace SearchPhrase

/-- The relation that a comparison asks for between a field and a value. -/
inductive Comparison where
  | equal
  | different
  | greater
  | greaterOrEqual
  | less
  | lessOrEqual
  | like
  | unlike
deriving DecidableEq, Repr

namespace Comparison

/-- The operators in the order in which names and tokens are looked up. -/
def all : List Comparison :=
  [.equal, .different, .greater, .greaterOrEqual, .less, .lessOrEqual, .like,
    .unlike]

/-- The name of an operator in schema documents. -/
def name : Comparison → String
  | .equal => "eq"
  | .different => "ne"
  | .greater => "gt"
  | .greaterOrEqual => "gte"
  | .less => "lt"
  | .lessOrEqual => "lte"
  | .like => "like"
  | .unlike => "unlike"

/-- The token by which an operator is shown in search phrases. -/
def token : Comparison → String
  | .equal => "="
  | .different => "!="
  | .greater => ">"
  | .greaterOrEqual => ">="
  | .less => "<"
  | .lessOrEqual => "<="
  | .like => "~"
  | .unlike => "!~"

/-- The words by which a filter writes an operator. -/
def filterText : Comparison → String
  | .equal => "="
  | .different => "<>"
  | .greater => ">"
  | .greaterOrEqual => ">="
  | .less => "<"
  | .lessOrEqual => "<="
  | .like => "LIKE"
  | .unlike => "NOT LIKE"

/-- Whether the operator compares with a wildcard pattern. -/
def isPattern : Comparison → Bool
  | .like | .unlike => true
  | _ => false

/-- The operator that a token writes: its own token, or `==` or `<>`. -/
def ofToken? (text : String) : Option Comparison :=
  if text == "==" then some .equal
  else if text == "<>" then some .different
  else all.find? fun operator => operator.token == text

/-- The operator with exactly a given name. -/
def ofName? (text : String) : Option Comparison :=
  all.find? fun operator => operator.name == text

/-- The operator with a given name in any case, or with a given token. -/
def ofText? (text : String) : Option Comparison :=
  match all.find? fun operator => Text.lowersTo text.toList operator.name with
  | some operator => some operator
  | none => ofToken? text

@[simp]
theorem ofToken?_token (operator : Comparison) :
    ofToken? operator.token = some operator := by
  cases operator <;> decide

@[simp]
theorem ofName?_name (operator : Comparison) :
    ofName? operator.name = some operator := by
  cases operator <;> decide

end Comparison

end SearchPhrase
