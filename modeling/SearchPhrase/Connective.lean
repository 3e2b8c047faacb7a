/-!
# Connectives

Search trees are joined by conjunction, disjunction and negation.
-/

namespace SearchPhrase

/-- The way in which a search tree joins its operands. -/
inductive Connective where
  | and
  | or
  | not
deriving DecidableEq, Repr

namespace Connective

/-- The keyword by which search phrases write a connective. -/
def name : Connective → String
  | .and => "and"
  | .or => "or"
  | .not => "not"

/-- The text that a filter writes between, or before, joined operands. -/
def filterText : Connective → String
  | .and => "&"
  | .or => " OR "
  | .not => "NOT "

/-- The connective that a keyword in lower case writes. -/
def ofName? (text : String) : Option Connective :=
  [Connective.and, .or, .not].find? fun connective => connective.name == text

@[simp]
theorem ofName?_name (connective : Connective) :
    ofName? connective.name = some connective := by
  cases connective <;> decide

end Connective

end SearchPhrase
