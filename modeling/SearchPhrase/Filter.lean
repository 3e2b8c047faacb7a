import SearchPhrase.Connective
import SearchPhrase.Filter.Parameter

/-!
# Filters

A filter is a text in which question marks stand for parameters, in order.
Filters are joined by connectives; a filter without text takes no part in it.
-/

namespace SearchPhrase

/-- A text with placeholders, and the parameters for them. -/
structure Filter where
  text : String
  parameters : List Parameter
deriving DecidableEq

namespace Filter

/-- The character that stands for a parameter. -/
def placeholder : Char := '?'

/-- The number of placeholders in the text of a filter. -/
def placeholders (filter : Filter) : Nat :=
  filter.text.toList.count placeholder

/-- Whether a filter has no text, so that joining leaves it out. -/
def isEmpty (filter : Filter) : Bool :=
  filter.text.isEmpty

/-- A filter followed by others, with a text in front of each of the others. -/
def followedBy (separator : String) (first : Filter) (rest : List Filter) :
    Filter where
  text :=
    String.ofList (first.text.toList ++
      rest.flatMap fun filter => separator.toList ++ filter.text.toList)
  parameters := first.parameters ++ rest.flatMap Filter.parameters

/--
The filters that have a text, joined by a text between them; none if there are
none.
-/
def join (separator : String) (filters : List Filter) : Option Filter :=
  match filters.filter fun filter => !filter.isEmpty with
  | [] => none
  | first :: rest => some (followedBy separator first rest)

/-- The filter that holds where a given one does not. -/
def negated (filter : Filter) : Filter where
  text := "NOT (" ++ filter.text ++ ")"
  parameters := filter.parameters

/--
The filters of the operands of a connective as one; a negation denies them all
together.
-/
def connect (connective : Connective) (filters : List Filter) : Option Filter :=
  match connective with
  | .not => (join Connective.and.filterText filters).map negated
  | _ => join connective.filterText filters

@[simp]
theorem followedBy_nil (separator : String) (first : Filter) :
    followedBy separator first [] = first := by
  simp [followedBy]

end Filter

end SearchPhrase
