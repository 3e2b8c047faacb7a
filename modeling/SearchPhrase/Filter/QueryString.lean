import SearchPhrase.Filter.Compilation
import SearchPhrase.Text.Substitution
import SearchPhrase.Tree.Reader

/-!
# Query strings

A filter is sent as a query string: each placeholder is replaced by the encoded
form of its parameter, the equals signs of comparisons are encoded, and blanks
are written as plus signs.
-/

namespace SearchPhrase

namespace QueryString

/--
Put encoded parameters for the placeholders of a text, in order.  A placeholder
without a parameter is removed, and parameters that remain are not used.
-/
def substitute : List Char → List Parameter → List Char
  | [], _ => []
  | character :: rest, parameters =>
      if character == Filter.placeholder then
        match parameters with
        | [] => substitute rest []
        | parameter :: others =>
            parameter.encoded.toList ++ substitute rest others
      else character :: substitute rest parameters

/--
Write each run of blanks as a plus sign, where the run may have started before.
-/
def plusBlanks (inRun : Bool) : List Char → List Char
  | [] => []
  | character :: rest =>
      if Text.isBlank character then
        if inRun then plusBlanks true rest else '+' :: plusBlanks true rest
      else character :: plusBlanks false rest

/-- Encode the equals signs of comparisons, and then the blanks. -/
def normalise (text : List Char) : List Char :=
  plusBlanks false
    (Text.replaceAll "<= " "<%3D+"
      (Text.replaceAll ">= " ">%3D+"
        (Text.replaceAll " = " "+%3D+" text)))

/-- The query string of a filter, or the empty query without one. -/
def assemble (filter : Option Filter) (parameters : List Parameter) : String :=
  match filter with
  | none => "?"
  | some filter =>
      if filter.isEmpty then "?"
      else
        String.ofList
          ('?' :: normalise (substitute filter.text.toList parameters))

end QueryString

/-- The query string of a search tree, compiled with an empty journal. -/
def Tree.queryString (catalog : Catalog) (clock : Instant) (tree : Tree) :
    Except SearchError String :=
  match tree.compile catalog clock Journal.empty with
  | .ok filter journal => .ok (QueryString.assemble filter journal.parameters)
  | .error error _ => .error error

namespace Catalog

/-- The query string of a search phrase; a blank phrase asks for everything. -/
def queryString (catalog : Catalog) (clock : Instant) (phrase : String) :
    Except SearchError String :=
  match Tree.ofPhrase phrase with
  | .error error => .error (.phrase error)
  | .ok none => .ok (QueryString.assemble none [])
  | .ok (some tree) => tree.queryString catalog clock

/-- The tokens of the operators to offer for a name. -/
def operatorTokens (catalog : Catalog) (name : String) :
    Except SearchError (List String) :=
  match catalog.field? name with
  | some field => .ok (field.offeredOperators.map Comparison.token)
  | none => .error (.unclassifiedField name)

end Catalog

end SearchPhrase
