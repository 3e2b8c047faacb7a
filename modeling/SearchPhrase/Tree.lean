import SearchPhrase.Comparison
import SearchPhrase.Connective

/-!
# Search trees

A search tree is what a search phrase asks for: a bare value, a comparison, or
a connection of smaller trees.  Trees that are written in a phrase compare one
or two leaves, but a tree may also be built by hand with any list of operands,
and compiling it then reports what is wrong.
-/

namespace SearchPhrase

/-- What a search phrase asks for. -/
inductive Tree where
  | leaf (value : String)
  | comparison (operator : Comparison) (operands : List Tree)
  | connection (connective : Connective) (operands : List Tree)
deriving Repr

namespace Tree

/--
The connection of a list of operands that a phrase writes, where a single
operand stands for itself.
-/
def joined (connective : Connective) : List Tree → Tree
  | [operand] => operand
  | operands => .connection connective operands

/-- The tree under a given number of negations. -/
def negated : Nat → Tree → Tree
  | 0, tree => tree
  | count + 1, tree => .connection .not [negated count tree]

end Tree

end SearchPhrase
