import SearchPhrase.Token
import SearchPhrase.Tree

/-!
# Reading search trees

A phrase is a disjunction of conjunctions of possibly negated operands.  An
operand is a value, a comparison of a value, a comparison of a field with a
value, or a phrase in parentheses.  Adjacent operands are joined by `and`.

The reader takes one token at a time.  It keeps what has been read at the
current level of parentheses and at each enclosing level, and what may come
next.  A token is refused as soon as no continuation could make a phrase.
-/

namespace SearchPhrase.Tree.Reader

/--
What has been read at one level of parentheses: the finished alternatives, the
operands of the conjunction in progress, both with the latest first, and the
number of negations that await the next operand.
-/
structure Level where
  alternatives : List Tree
  conjuncts : List Tree
  negations : Nat

/-- The level at which nothing has been read. -/
def Level.empty : Level := ⟨[], [], 0⟩

/-- Add an operand under the negations that await it. -/
def Level.add (level : Level) (tree : Tree) : Level :=
  { level with
    conjuncts := tree.negated level.negations :: level.conjuncts
    negations := 0 }

/-- Let a negation await the next operand. -/
def Level.negate (level : Level) : Level :=
  { level with negations := level.negations + 1 }

/-- Finish the conjunction in progress as an alternative. -/
def Level.endAlternative (level : Level) : Level :=
  { alternatives := joined .and level.conjuncts.reverse :: level.alternatives
    conjuncts := []
    negations := 0 }

/-- The tree of a level whose last operand has been read. -/
def Level.tree (level : Level) : Tree :=
  joined .or level.endAlternative.alternatives.reverse

/-- What may come next. -/
inductive Expectation where
  /-- An operand must start. -/
  | operand
  /-- A value has been read, which a comparison operator may follow. -/
  | comparison (left : String)
  /-- A comparison operator has been read, whose value must follow. -/
  | value (left : Option String) (operator : Comparison)
  /-- An operand has been read. -/
  | connective

/-- What has been read of a phrase. -/
structure State where
  level : Level
  enclosing : List Level
  expectation : Expectation

/-- The state before the first token, where an operand must come. -/
def State.initial : State := ⟨.empty, [], .operand⟩

/-- The state after an operand at the current level. -/
def State.add (state : State) (tree : Tree) : State :=
  { state with level := state.level.add tree, expectation := .connective }

/-- Read a token that must start an operand. -/
def State.begin (state : State) : Token.Kind → Except PhraseError.Cause State
  | .value text => .ok { state with expectation := .comparison text }
  | .comparison operator =>
      .ok { state with expectation := .value none operator }
  | .connective .not =>
      .ok { state with level := state.level.negate, expectation := .operand }
  | .opening =>
      .ok { level := .empty, enclosing := state.level :: state.enclosing
            expectation := .operand }
  | .connective .and | .connective .or | .closing => .error .unexpectedToken

/-- Read a token after an operand. -/
def State.proceed (state : State) : Token.Kind → Except PhraseError.Cause State
  | .connective .and => .ok { state with expectation := .operand }
  | .connective .or =>
      .ok
        { state with
          level := state.level.endAlternative
          expectation := .operand }
  | .closing =>
      match state.enclosing with
      | [] => .error .trailingToken
      | outer :: others =>
          .ok { level := outer.add state.level.tree, enclosing := others
                expectation := .connective }
  | kind => state.begin kind

/--
The comparison of a value, or of a field with a value, that a phrase writes.
-/
def written (left : Option String) (operator : Comparison)
    (right : String) : Tree :=
  .comparison operator ((left.toList ++ [right]).map .leaf)

/-- Read a token, if it may come in this state. -/
def State.step (state : State) (kind : Token.Kind) :
    Except PhraseError.Cause State :=
  match state.expectation, kind with
  | .operand, kind => state.begin kind
  | .comparison left, .comparison operator =>
      .ok { state with expectation := .value (some left) operator }
  | .comparison left, kind => (state.add (.leaf left)).proceed kind
  | .value left operator, .value right =>
      .ok (state.add (written left operator right))
  | .value _ _, _ => .error .missingValue
  | .connective, kind => state.proceed kind

/--
Read tokens one after the other; an error points at the token that may not come.
-/
def State.run (state : State) : List Token → Except PhraseError State
  | [] => .ok state
  | token :: rest =>
      match state.step token.kind with
      | .ok next => next.run rest
      | .error cause => .error ⟨cause, token.start⟩

/-- The tree of a level without enclosing parentheses. -/
def State.close (state : State) : Except PhraseError.Cause Tree :=
  match state.enclosing with
  | [] => .ok state.level.tree
  | _ :: _ => .error .missingClosing

/-- The tree that has been read, if the tokens may end here. -/
def State.finish (state : State) : Except PhraseError.Cause Tree :=
  match state.expectation with
  | .operand => .error .unexpectedEnd
  | .value _ _ => .error .missingValue
  | .comparison left => (state.add (.leaf left)).close
  | .connective => state.close

end Reader

/--
The tree that a nonempty list of tokens writes, and none for the empty list.
What is missing at the end is reported at the given offset.
-/
def ofTokens (endOffset : Nat) : List Token → Except PhraseError (Option Tree)
  | [] => .ok none
  | tokens =>
      match Reader.State.initial.run tokens with
      | .error error => .error error
      | .ok state =>
          match state.finish with
          | .ok tree => .ok (some tree)
          | .error cause => .error ⟨cause, endOffset⟩

/-- The tree that a search phrase writes, and none for a blank phrase. -/
def ofPhrase (phrase : String) : Except PhraseError (Option Tree) :=
  match Token.ofPhrase phrase with
  | .ok tokens => ofTokens phrase.utf8ByteSize tokens
  | .error error => .error error

end SearchPhrase.Tree
