import SearchPhrase.Proofs.Json.Literals

/-!
# Reading what has been written

A value that has been written as a text is read back unchanged.  The text of a
value is cut into the lexemes of the value, and the reader puts the value
together from its lexemes, whatever follows.  Numbers other than integers are
kept as their literals, so the literals in a value must be ones that the scanner
takes for such a number.
-/

namespace SearchPhrase.Json

open Lexeme Reader

/-! ## Values and their parts -/

/--
Induction over a value, where a container has the hypothesis for each of its
parts.
-/
@[elab_as_elim]
theorem induction {motive : Json → Prop}
    (null : motive .null) (bool : ∀ value, motive (.bool value))
    (integer : ∀ value, motive (.integer value))
    (decimal : ∀ literal, motive (.decimal literal))
    (text : ∀ content, motive (.text content))
    (array :
      ∀ elements, (∀ element ∈ elements, motive element) →
        motive (.array elements))
    (object :
      ∀ members, (∀ entry ∈ members, motive entry.2) → motive (.object members))
    (json : Json) : motive json :=
  @Json.rec motive (fun elements => ∀ element ∈ elements, motive element)
    (fun members => ∀ entry ∈ members, motive entry.2)
    (fun entry => motive entry.2)
    null bool integer decimal text array object
    (List.forall_mem_nil _)
    (fun _ _ first others => List.forall_mem_cons.mpr ⟨first, others⟩)
    (List.forall_mem_nil _)
    (fun _ _ first others => List.forall_mem_cons.mpr ⟨first, others⟩)
    (fun _ _ value => value) json

/-- A literal that is read as a number with a fraction or an exponent. -/
structure IsDecimal (literal : String) : Prop where
  collected : ∀ character ∈ literal.toList, endsScalar character = false
  read : scalar? literal.toList = some (.decimal literal)

/-- A value in which every literal of a number is read as such a number. -/
inductive Writable : Json → Prop
  | null : Writable .null
  | bool (value : Bool) : Writable (.bool value)
  | integer (value : Int) : Writable (.integer value)
  | decimal {literal : String} (isDecimal : IsDecimal literal) :
      Writable (.decimal literal)
  | text (content : Option String) : Writable (.text content)
  | array {elements : List Json}
      (parts : ∀ element ∈ elements, Writable element) :
      Writable (.array elements)
  | object {members : List (Option String × Json)}
      (parts : ∀ entry ∈ members, Writable entry.2) :
      Writable (.object members)

mutual

/-- The lexemes of a value in front of others. -/
def lexemes : Json → List Lexeme → List Lexeme
  | .null, later => .scalar .null :: later
  | .bool value, later => .scalar (.bool value) :: later
  | .integer value, later => .scalar (.integer value) :: later
  | .decimal literal, later => .scalar (.decimal literal) :: later
  | .text content, later => .text content :: later
  | .array elements, later =>
      .mark '[' :: elementLexemes elements (.mark ']' :: later)
  | .object members, later =>
      .mark '\x7b' :: memberLexemes members (.mark '\x7d' :: later)

/-- The lexemes of elements in front of others, with commas between them. -/
def elementLexemes : List Json → List Lexeme → List Lexeme
  | [], later => later
  | [element], later => element.lexemes later
  | element :: others, later =>
      element.lexemes (.mark ',' :: elementLexemes others later)

/-- The lexemes of members in front of others, with commas between them. -/
def memberLexemes : List (Option String × Json) → List Lexeme → List Lexeme
  | [], later => later
  | [(name, value)], later => .text name :: .mark ':' :: value.lexemes later
  | (name, value) :: others, later =>
      .text name :: .mark ':' ::
        value.lexemes (.mark ',' :: memberLexemes others later)

end

/-! ## From the text to the lexemes -/

theorem ends_cons {character : Char} (ends : endsScalar character = true)
    (rest : List Char) :
    Ends (character :: rest) := by
  rintro _ ⟨⟩
  exact ends

/--
The text of a value is cut into its lexemes, in front of a text that ends a
scalar.
-/
def Scans (json : Json) : Prop :=
  ∀ rest, Ends rest →
    scan .idle (json.write rest) = (scan .idle rest).map json.lexemes

/--
The elements of an array are read one after the other.  A comma ends an element,
even if it is a number.
-/
theorem scan_writeElements
    {elements : List Json} (parts : ∀ element ∈ elements, Scans element)
    {rest : List Char} (ends : Ends rest) :
    scan .idle (writeElements elements rest) =
      (scan .idle rest).map (elementLexemes elements) := by
  induction elements with
  | nil => exact Option.map_id'.symm
  | cons element others ih =>
      obtain ⟨first, later⟩ := List.forall_mem_cons.mp parts
      cases others with
      | nil => exact first rest ends
      | cons next others =>
          have comma :=
            first (',' :: writeElements (next :: others) rest) (ends_cons rfl _)
          rw [scan_cons_of_step rfl, ih later, Option.map_map,
            Option.map_map] at comma
          exact comma

theorem scan_writeMembers
    {members : List (Option String × Json)}
    (parts : ∀ entry ∈ members, Scans entry.2)
    {rest : List Char} (ends : Ends rest) :
    scan .idle (writeMembers members rest) =
      (scan .idle rest).map (memberLexemes members) := by
  induction members with
  | nil => exact Option.map_id'.symm
  | cons entry others ih =>
      obtain ⟨name, value⟩ := entry
      obtain ⟨first, later⟩ := List.forall_mem_cons.mp parts
      have named (text : List Char) :
          scan .idle (textLiteral name ++ ':' :: text) =
            (scan .idle text).map ([.text name, .mark ':'] ++ ·) := by
        rw [scan_textLiteral, scan_cons_of_step rfl, Option.map_map]
        rfl
      cases others with
      | nil =>
          have valued := first rest ends
          exact (named _).trans (by rw [valued, Option.map_map]; rfl)
      | cons next others =>
          have comma :=
            first (',' :: writeMembers (next :: others) rest) (ends_cons rfl _)
          rw [scan_cons_of_step rfl, ih later, Option.map_map,
            Option.map_map] at comma
          exact (named _).trans (by rw [comma, Option.map_map]; rfl)

theorem Writable.scans {json : Json} (writable : json.Writable) :
    json.Scans := by
  induction writable with
  | null =>
      intro rest ends
      exact scan_scalar (by decide) (by simp [endsScalar, isSpace, isMark])
        rfl ends
  | bool value =>
      intro rest ends
      cases value with
      | true =>
          exact scan_scalar (by decide) (by simp [endsScalar, isSpace, isMark])
            rfl ends
      | false =>
          exact scan_scalar (by decide) (by simp [endsScalar, isSpace, isMark])
            rfl ends
  | integer value => exact fun rest ends => scan_ofInt value ends
  | @decimal literal isDecimal =>
      intro rest ends
      have nonempty : literal.toList ≠ [] := by
        intro empty
        have unread : scalar? [] = none := rfl
        have read := isDecimal.read
        rw [empty, unread] at read
        cases read
      exact scan_scalar nonempty isDecimal.collected isDecimal.read ends
  | text content => exact fun rest _ => scan_textLiteral content rest
  | @array elements _ parts =>
      intro rest ends
      change scan .idle ('[' :: writeElements elements (']' :: rest)) = _
      rw [scan_cons_of_step rfl, scan_writeElements parts (ends_cons rfl _),
        scan_cons_of_step rfl, Option.map_map, Option.map_map]
      rfl
  | @object members _ parts =>
      intro rest ends
      change scan .idle ('\x7b' :: writeMembers members ('\x7d' :: rest)) = _
      rw [scan_cons_of_step rfl, scan_writeMembers parts (ends_cons rfl _),
        scan_cons_of_step rfl, Option.map_map, Option.map_map]
      rfl

/-! ## From the lexemes to the value -/

theorem run_cons_of_step
    {state next : State} {lexeme : Lexeme}
    (stepped : state.step lexeme = some next)
    (later : List Lexeme) : state.run (lexeme :: later) = next.run later := by
  rw [State.run, stepped]

/--
The reader puts a value together from its lexemes and goes on with what follows.
-/
def Runs (json : Json) : Prop :=
  ∀ enclosing later,
    State.run ⟨enclosing, .value⟩ (json.lexemes later) =
      State.run (.completed enclosing json) later

/-- No value starts with the bracket that closes an array. -/
theorem run_firstElement
    (element : Json) (others : List Json) (enclosing : List Frame)
    (later : List Lexeme) :
    State.run ⟨enclosing, .firstElement⟩
        (elementLexemes (element :: others) later) =
      State.run ⟨.element [] :: enclosing, .value⟩
        (elementLexemes (element :: others) later) := by
  cases others <;> cases element <;> rfl

theorem run_elementLexemes
    {element : Json} {others : List Json}
    (parts : ∀ part ∈ element :: others, Runs part)
    (latest : List Json) (enclosing : List Frame) (later : List Lexeme) :
    State.run ⟨.element latest :: enclosing, .value⟩
        (elementLexemes (element :: others) (.mark ']' :: later)) =
      State.run
        (.completed enclosing (.array (latest.reverse ++ element :: others)))
        later := by
  induction others generalizing element latest with
  | nil =>
      rw [elementLexemes, parts element List.mem_cons_self, State.completed,
        run_cons_of_step rfl, List.reverse_cons]
  | cons next others ih =>
      obtain ⟨first, rest⟩ := List.forall_mem_cons.mp parts
      have comma := first (.element latest :: enclosing)
        (.mark ',' :: elementLexemes (next :: others) (.mark ']' :: later))
      rw [State.completed, run_cons_of_step rfl, ih rest, List.reverse_cons,
        List.append_assoc]
        at comma
      exact comma

/-- The members are read in any phase in which the name of a member may come. -/
theorem run_memberLexemes
    {entry : Option String × Json} {others : List (Option String × Json)}
    (parts : ∀ part ∈ entry :: others, Runs part.2)
    {phase : Phase} {latest : List (Option String × Json)}
    {enclosing : List Frame} (named : ∀ name,
      State.step ⟨enclosing, phase⟩ (.text name) =
        some ⟨enclosing, .afterName latest name⟩)
    (later : List Lexeme) :
    State.run ⟨enclosing, phase⟩
        (memberLexemes (entry :: others) (.mark '\x7d' :: later)) =
      State.run
        (.completed enclosing (.object (latest.reverse ++ entry :: others)))
        later := by
  induction others generalizing entry latest phase with
  | nil =>
      obtain ⟨name, value⟩ := entry
      rw [memberLexemes, run_cons_of_step (named name), run_cons_of_step rfl,
        parts (name, value) List.mem_cons_self, State.completed,
        run_cons_of_step rfl, List.reverse_cons]
  | cons next others ih =>
      obtain ⟨name, value⟩ := entry
      obtain ⟨first, rest⟩ := List.forall_mem_cons.mp parts
      have comma := first (.member latest name :: enclosing)
        (.mark ',' :: memberLexemes (next :: others) (.mark '\x7d' :: later))
      rw [State.completed, run_cons_of_step rfl, ih rest (fun _ => rfl),
        List.reverse_cons, List.append_assoc] at comma
      exact (run_cons_of_step (named name) _).trans
        ((run_cons_of_step rfl _).trans comma)

theorem runs (json : Json) : json.Runs := by
  induction json using Json.induction with
  | null | bool | integer | decimal | text =>
      exact fun _ _ => run_cons_of_step rfl _
  | array elements parts =>
      intro enclosing later
      rw [lexemes, run_cons_of_step rfl]
      cases elements with
      | nil => exact run_cons_of_step rfl later
      | cons element others =>
          rw [run_firstElement, run_elementLexemes parts]
          rfl
  | object members parts =>
      intro enclosing later
      rw [lexemes, run_cons_of_step rfl]
      cases members with
      | nil => exact run_cons_of_step rfl later
      | cons entry others =>
          have named (name : Option String) :
              State.step ⟨enclosing, .firstMember⟩ (.text name) =
                some ⟨enclosing, .afterName [] name⟩ := rfl
          exact run_memberLexemes parts named later

/-- A value whose number literals are sound is read back from its text. -/
theorem parse?_render {json : Json} (writable : json.Writable) :
    parse? json.render = some json := by
  have scanned : scan .idle (json.write []) = some (json.lexemes []) :=
    writable.scans [] (fun _ => nofun)
  have read : ofLexemes? (json.lexemes []) = some json := by
    rw [ofLexemes?, json.runs]
    rfl
  rw [parse?, render, String.toList_ofList, scanned]
  exact read

example : Writable (.array [.decimal "-1.5e3", .text none]) := by
  have isDecimal : IsDecimal "-1.5e3" :=
    ⟨by simp [endsScalar, isSpace, isMark], rfl⟩
  refine .array ?_
  rw [List.forall_mem_cons, List.forall_mem_singleton]
  exact ⟨.decimal isDecimal, .text none⟩

end SearchPhrase.Json
