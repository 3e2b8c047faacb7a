import SearchPhrase.Json.Lexeme

/-!
# Reading JSON

The reader takes one lexeme at a time.  It keeps the containers that enclose
the current position, each with what has been read of it, and a phase that says
which lexemes may come next.
-/

namespace SearchPhrase.Json

namespace Reader

/-- A container whose next part is in progress, with its latest part first. -/
inductive Frame where
  | element (latest : List Json)
  | member (latest : List (Option String × Json)) (name : Option String)

/-- What has been read at the current position, with the latest part first. -/
inductive Phase where
  /-- A value must start. -/
  | value
  /-- An array has been opened. -/
  | firstElement
  /-- An element has been read. -/
  | afterElement (latest : List Json)
  /-- An object has been opened. -/
  | firstMember
  /-- A comma between members has been read. -/
  | nextMember (latest : List (Option String × Json))
  /-- The name of a member has been read. -/
  | afterName (latest : List (Option String × Json)) (name : Option String)
  /-- A member has been read. -/
  | afterMember (latest : List (Option String × Json))
  /-- The value of the whole text has been read. -/
  | complete (value : Json)

/-- The enclosing containers and the phase of the current position. -/
structure State where
  enclosing : List Frame
  phase : Phase

/-- Put a value that has been read into the innermost container. -/
def State.completed (enclosing : List Frame) (value : Json) : State :=
  match enclosing with
  | [] => ⟨[], .complete value⟩
  | .element latest :: outer => ⟨outer, .afterElement (value :: latest)⟩
  | .member latest name :: outer =>
      ⟨outer, .afterMember ((name, value) :: latest)⟩

/-- Read a lexeme that must start a value. -/
def State.begin (enclosing : List Frame) : Lexeme → Option State
  | .scalar value => some (.completed enclosing value)
  | .text content => some (.completed enclosing (.text content))
  | .mark '[' => some ⟨enclosing, .firstElement⟩
  | .mark '\x7b' => some ⟨enclosing, .firstMember⟩
  | .mark _ => none

/-- Read a lexeme, if the phase allows it. -/
def State.step (state : State) (lexeme : Lexeme) : Option State :=
  match state.phase, lexeme with
  | .value, _ => State.begin state.enclosing lexeme
  | .firstElement, .mark ']' => some (.completed state.enclosing (.array []))
  | .firstElement, _ => State.begin (.element [] :: state.enclosing) lexeme
  | .afterElement latest, .mark ',' =>
      some ⟨.element latest :: state.enclosing, .value⟩
  | .afterElement latest, .mark ']' =>
      some (.completed state.enclosing (.array latest.reverse))
  | .firstMember, .mark '\x7d' => some (.completed state.enclosing (.object []))
  | .firstMember, .text name => some ⟨state.enclosing, .afterName [] name⟩
  | .nextMember latest, .text name =>
      some ⟨state.enclosing, .afterName latest name⟩
  | .afterName latest name, .mark ':' =>
      some ⟨.member latest name :: state.enclosing, .value⟩
  | .afterMember latest, .mark ',' => some ⟨state.enclosing, .nextMember latest⟩
  | .afterMember latest, .mark '\x7d' =>
      some (.completed state.enclosing (.object latest.reverse))
  | _, _ => none

/-- Read lexemes one after the other; the first that is not allowed ends it. -/
def State.run (state : State) : List Lexeme → Option State
  | [] => some state
  | lexeme :: rest =>
      match state.step lexeme with
      | some next => next.run rest
      | none => none

/-- The value that has been read, if it is complete. -/
def State.result (state : State) : Option Json :=
  match state.phase with
  | .complete value => some value
  | _ => none

end Reader

/-- The one value that lexemes write. -/
def ofLexemes? (lexemes : List Lexeme) : Option Json :=
  match Reader.State.run ⟨[], .value⟩ lexemes with
  | some state => state.result
  | none => none

/-- The value that a text writes. -/
def parse? (text : String) : Option Json :=
  match Lexeme.scan .idle text.toList with
  | some lexemes => ofLexemes? lexemes
  | none => none

end SearchPhrase.Json
