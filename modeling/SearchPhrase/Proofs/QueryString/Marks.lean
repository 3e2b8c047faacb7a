import SearchPhrase.Proofs.QueryString.Normalisation

/-!
# Marks in query strings

A query string is cut into tests by ampersands, brackets and angle signs.  This
module shows that values have no part in that.  Every pass that makes a query
string keeps these marks and their order: encoded values have none, and a
replaced text has the marks of the text in its place.  The marks of a query
string are therefore those of the compiled filter, for any values at all.

The same passes bound the alphabet.  What a filter says outside of its values is
made of names, operators and connectives, and what the passes add is encoded.
-/

namespace SearchPhrase

/-! ## Replaced texts -/

namespace Text

/--
A character of a class is none of those that a list has outside of the class.
-/
theorem notMem_of_all_not
    {included : Char → Bool} {others : List Char}
    (apart : others.all (fun other => !included other) = true)
    {character : Char} (member : included character = true) :
    character ∉ others := by
  intro other
  have excluded := List.all_eq_true.mp apart character other
  simp [member] at excluded

variable {pattern replacement : List Char}

theorem mem_replaceAfter
    {skipped : Nat} {text : List Char} {character : Char}
    (member : character ∈ replaceAfter pattern replacement skipped text) :
    character ∈ replacement ∨ character ∈ text := by
  fun_induction replaceAfter pattern replacement skipped text with
  | case1 => exact Or.inr member
  | case2 skipped first rest ih =>
      exact (ih member).imp_right (List.mem_cons_of_mem first)
  | case3 first rest occurs ih =>
      rcases List.mem_append.mp member with new | old
      · exact Or.inl new
      · exact (ih old).imp_right (List.mem_cons_of_mem first)
  | case4 first rest differs ih =>
      rcases List.mem_cons.mp member with rfl | old
      · exact Or.inr List.mem_cons_self
      · exact (ih old).imp_right (List.mem_cons_of_mem first)

/--
If a pattern and its replacement agree in the characters of a class, then
replacing keeps the characters of that class, after the part that is skipped.
After the first character of an occurrence, the rest of it remains to be
skipped.
-/
theorem filter_replaceAfter
    {keeps : Char → Bool} (nonempty : pattern ≠ [])
    (agree : replacement.filter keeps = pattern.filter keeps)
    (skipped : Nat) (text : List Char) :
    (replaceAfter pattern replacement skipped text).filter keeps =
      (text.drop skipped).filter keeps := by
  fun_induction replaceAfter pattern replacement skipped text with
  | case1 => simp
  | case2 skipped first rest ih => simpa using ih
  | case3 first rest occurs ih =>
      obtain ⟨others, shape⟩ := List.isPrefixOf_iff_prefix.mp occurs
      have remaining : rest.drop (pattern.length - 1) = others := by
        cases pattern with
        | nil => exact absurd rfl nonempty
        | cons start tail =>
            rw [List.cons_append, List.cons.injEq] at shape
            simp [← shape.2]
      rw [List.filter_append, ih, agree, remaining, List.drop_zero, ← shape,
        List.filter_append]
  | case4 first rest differs ih =>
      rw [List.filter_cons, ih, List.drop_zero, List.drop_zero,
        List.filter_cons]

end Text

/-! ## The passes -/

namespace QueryString

/-- Whether a character cuts a query string into tests and their parts. -/
def isMark (character : Char) : Bool :=
  "&()[]<>".toList.contains character

/-- The marks of a text, in order. -/
def marks (text : List Char) : List Char :=
  text.filter isMark

/-- Whether a character can stand in a query string after its question mark. -/
def isQueryCharacter (character : Char) : Bool :=
  character.isAlphanum || "*-._+%[]=&()<>".toList.contains character

theorem isQueryCharacter_of_isFormCharacter
    {character : Char}
    (form : Text.FormEncoding.isFormCharacter character = true) :
    isQueryCharacter character = true := by
  rw [Text.FormEncoding.isFormCharacter, Bool.or_eq_true,
    List.contains_iff_mem] at form
  rcases form with alphanumeric | mark
  · simp [isQueryCharacter, alphanumeric]
  · have sent : "*-._+%".toList.all isQueryCharacter = true := by decide
    exact List.all_eq_true.mp sent character mark

theorem isMark_of_isFormCharacter
    {character : Char}
    (form : Text.FormEncoding.isFormCharacter character = true) :
    isMark character = false := by
  rw [← Bool.not_eq_true, isMark, List.contains_iff_mem]
  exact Text.notMem_of_all_not (by decide) form

/--
Query strings are visible ASCII without question marks, hash signs and quotes.
-/
theorem isQueryCharacter_excludes
    {character : Char} (sent : isQueryCharacter character = true) :
    character.toNat < 0x80 ∧ Text.isBlank character = false ∧
      character ∉ "?#\"'".toList := by
  have bounds : 0x21 ≤ character.toNat ∧ character.toNat < 0x80 := by
    rw [isQueryCharacter, Bool.or_eq_true, List.contains_iff_mem] at sent
    rcases sent with alphanumeric | mark
    · have bounds := Text.isAlphanum_bounds alphanumeric
      omega
    · have visible : "*-._+%[]=&()<>".toList.all
          (fun mark => 0x21 ≤ mark.toNat ∧ mark.toNat < 0x80) = true := by
        decide
      exact of_decide_eq_true (List.all_eq_true.mp visible character mark)
  exact ⟨bounds.2, Text.isBlank_of_visible bounds,
    Text.notMem_of_all_not (by decide) sent⟩

theorem isFormCharacter_of_mem_encoded
    {parameter : Parameter} {character : Char}
    (member : character ∈ parameter.encoded.toList) :
    Text.FormEncoding.isFormCharacter character = true := by
  rw [Parameter.encoded, Text.FormEncoding.encode,
    String.toList_ofList] at member
  exact Text.FormEncoding.isFormCharacter_of_mem_encodeChars member

theorem marks_encoded (parameter : Parameter) :
    marks parameter.encoded.toList = [] := by
  rw [marks, List.filter_eq_nil_iff]
  intro character member
  rw [isMark_of_isFormCharacter (isFormCharacter_of_mem_encoded member)]
  exact Bool.false_ne_true

theorem mem_substitute
    {text : List Char} {parameters : List Parameter} {character : Char}
    (member : character ∈ substitute text parameters) :
    Text.FormEncoding.isFormCharacter character = true ∨
      character ∈ text ∧ character ≠ Filter.placeholder := by
  fun_induction substitute text parameters with
  | case1 => simp at member
  | case2 first rest isPlaceholder ih =>
      exact (ih member).imp_right (And.imp_left (List.mem_cons_of_mem first))
  | case3 first rest isPlaceholder parameter others ih =>
      rcases List.mem_append.mp member with value | later
      · exact Or.inl (isFormCharacter_of_mem_encoded value)
      · exact (ih later).imp_right (And.imp_left (List.mem_cons_of_mem first))
  | case4 first rest parameters notPlaceholder ih =>
      rcases List.mem_cons.mp member with rfl | later
      · exact Or.inr ⟨List.mem_cons_self, by simpa using notPlaceholder⟩
      · exact (ih later).imp_right (And.imp_left (List.mem_cons_of_mem first))

/-- Putting values for placeholders adds no marks and removes none. -/
theorem marks_substitute (text : List Char) (parameters : List Parameter) :
    marks (substitute text parameters) = marks text := by
  have unmarked {character : Char}
      (same : (character == Filter.placeholder) = true) :
      isMark character = false := by
    rw [beq_iff_eq.mp same]
    decide
  simp only [marks]
  fun_induction substitute text parameters with
  | case1 => rfl
  | case2 first rest isPlaceholder ih => simp [ih, unmarked isPlaceholder]
  | case3 first rest isPlaceholder parameter others ih =>
      have value : parameter.encoded.toList.filter isMark = [] :=
        marks_encoded parameter
      simp [ih, value, unmarked isPlaceholder]
  | case4 first rest parameters notPlaceholder ih =>
      rw [List.filter_cons, ih, List.filter_cons]

theorem mem_plusBlanks
    {inRun : Bool} {text : List Char} {character : Char}
    (member : character ∈ plusBlanks inRun text) :
    character = '+' ∨ character ∈ text ∧ Text.isBlank character = false := by
  fun_induction plusBlanks inRun text with
  | case1 => simp at member
  | case2 first rest blank ih =>
      exact (ih member).imp_right (And.imp_left (List.mem_cons_of_mem first))
  | case3 inRun first rest blank starts ih =>
      rcases List.mem_cons.mp member with plus | later
      · exact Or.inl plus
      · exact (ih later).imp_right (And.imp_left (List.mem_cons_of_mem first))
  | case4 inRun first rest solid ih =>
      rcases List.mem_cons.mp member with rfl | later
      · exact Or.inr ⟨List.mem_cons_self, by simpa using solid⟩
      · exact (ih later).imp_right (And.imp_left (List.mem_cons_of_mem first))

theorem marks_plusBlanks (inRun : Bool) (text : List Char) :
    marks (plusBlanks inRun text) = marks text := by
  have unmarked {character : Char} (blank : Text.isBlank character = true) :
      isMark character = false := by
    rw [← Bool.not_eq_true, isMark, List.contains_iff_mem]
    exact Text.notMem_of_all_not (by decide) blank
  have plus : isMark '+' = false := by decide
  simp only [marks]
  fun_induction plusBlanks inRun text with
  | case1 => rfl
  | case2 first rest blank ih => simp [ih, unmarked blank]
  | case3 inRun first rest blank starts ih => simp [ih, unmarked blank, plus]
  | case4 inRun first rest solid ih =>
      rw [List.filter_cons, ih, List.filter_cons]

/-- A replaced text has the marks of the text in its place. -/
theorem marks_replaceAll
    {pattern replacement : String} (nonempty : pattern.toList ≠ [])
    (agree : marks replacement.toList = marks pattern.toList)
    (text : List Char) :
    marks (Text.replaceAll pattern replacement text) = marks text :=
  Text.filter_replaceAfter nonempty agree 0 text

/-- Normalising adds no marks and removes none. -/
theorem marks_normalise (text : List Char) :
    marks (normalise text) = marks text := by
  rw [normalise, marks_plusBlanks,
    marks_replaceAll (by decide) (by decide),
    marks_replaceAll (by decide) (by decide),
    marks_replaceAll (by decide) (by decide)]

theorem mem_replaceAll
    {pattern replacement : String}
    (sent : replacement.toList.all isQueryCharacter = true)
    {text : List Char} {character : Char}
    (member : character ∈ Text.replaceAll pattern replacement text) :
    isQueryCharacter character = true ∨ character ∈ text :=
  (Text.mem_replaceAfter member).imp_left (List.all_eq_true.mp sent character)

/--
What normalising writes can stand in a query string, or was there and is not
blank.
-/
theorem mem_normalise
    {text : List Char} {character : Char}
    (member : character ∈ normalise text) :
    isQueryCharacter character = true ∨
      character ∈ text ∧ Text.isBlank character = false := by
  rcases mem_plusBlanks member with rfl | ⟨replaced, solid⟩
  · exact Or.inl (by decide)
  · rcases mem_replaceAll (by decide) replaced with sent | replaced
    · exact Or.inl sent
    rcases mem_replaceAll (by decide) replaced with sent | replaced
    · exact Or.inl sent
    rcases mem_replaceAll (by decide) replaced with sent | old
    · exact Or.inl sent
    exact Or.inr ⟨old, solid⟩

end QueryString

/-! ## The alphabet of filters -/

namespace Condition

/--
The characters of filters: those of query strings, spaces and placeholders.
-/
def isFilterCharacter (character : Char) : Bool :=
  QueryString.isQueryCharacter character || character == ' ' ||
    character == Filter.placeholder

theorem all_isFilterCharacter_comparison (field : FieldName)
    (operator : Comparison) :
    (comparisonCharacters field operator).all isFilterCharacter = true := by
  have named : field.characters.all isFilterCharacter = true := by
    rw [List.all_eq_true]
    intro character member
    have sent := QueryString.isQueryCharacter_of_isFormCharacter
      (Spelling.isFormCharacter_of_mem_characters member)
    simp [isFilterCharacter, sent]
  have marked : "[]=".toList.all isFilterCharacter = true := by decide
  have worded :
      (' ' :: (words operator).toList).all isFilterCharacter = true := by
    cases operator <;> decide
  have asked : " ?".toList.all isFilterCharacter = true := by decide
  rw [comparisonCharacters, List.all_append, List.all_append, List.all_append,
    named, marked, worded, asked]
  rfl

/--
A filter is made of names, operators, connectives, brackets and placeholders.
-/
theorem all_isFilterCharacter (condition : Condition) :
    condition.characters.all isFilterCharacter = true := by
  have joins (junction : Junction) :
      junction.characters.all isFilterCharacter = true := by
    cases junction <;> decide
  have opens (denied : Bool) :
      (opening denied).all isFilterCharacter = true := by
    cases denied <;> decide
  have closes : [')'].all isFilterCharacter = true := by decide
  induction condition with
  | test field operator parameter =>
      exact all_isFilterCharacter_comparison field operator
  | range field start stop =>
      rw [characters, List.all_append, List.all_append,
        all_isFilterCharacter_comparison, all_isFilterCharacter_comparison,
        joins]
      rfl
  | group inner ih =>
      rw [characters, List.all_append, List.all_append, opens, ih, closes]
      rfl
  | denial inner ih =>
      rw [characters, List.all_append, List.all_append, opens, ih, closes]
      rfl
  | joined junction left right leftIH rightIH =>
      rw [characters, List.all_append, List.all_append, leftIH, joins, rightIH]
      rfl

/--
Whatever the values are, what is sent of a filter can stand in a query string.
-/
theorem isQueryCharacter_of_mem
    (condition : Condition) {values : List Parameter} {character : Char}
    (member : character ∈
      QueryString.normalise
        (QueryString.substitute condition.characters values)) :
    QueryString.isQueryCharacter character = true := by
  rcases QueryString.mem_normalise member with sent | ⟨substituted, solid⟩
  · exact sent
  rcases QueryString.mem_substitute substituted with
    form | ⟨written, notPlaceholder⟩
  · exact QueryString.isQueryCharacter_of_isFormCharacter form
  have allowed :=
    List.all_eq_true.mp condition.all_isFilterCharacter character written
  simp only [isFilterCharacter, Bool.or_eq_true, beq_iff_eq] at allowed
  rcases allowed with (sent | rfl) | rfl
  · exact sent
  · exact absurd solid (by decide)
  · exact absurd rfl notPlaceholder

end Condition

/-! ## Query strings of trees -/

namespace Tree

/--
Values cannot change the structure of a query string.  The query string of a
tree is a question mark and characters of a fixed alphabet, and its marks are
those of the compiled filter.  This stays so when the filter is assembled with
any other values.
-/
theorem queryString_marks_of_filter
    {catalog : Catalog} (registered : catalog.Registered) {clock : Instant}
    {tree : Tree} {result : Option Filter} {after : Journal}
    (compiled : tree.compile catalog clock Journal.empty = .ok result after) :
    tree.queryString catalog clock =
      .ok (QueryString.assemble result after.parameters) ∧
    ∀ values : List Parameter, ∃ body : List Char,
      QueryString.assemble result values = String.ofList ('?' :: body) ∧
      (∀ character ∈ body,
        QueryString.isQueryCharacter character = true ∧
        character.toNat < 0x80 ∧ Text.isBlank character = false ∧
        character ∉ "?#\"'".toList) ∧
      QueryString.marks body =
        QueryString.marks
          (result.elim [] fun filter => filter.text.toList) := by
  refine ⟨by rw [queryString, compiled], ?_⟩
  intro values
  obtain ⟨rfl, -⟩ := compile_eq_ok registered compiled
  cases tree.condition? catalog (Journal.empty.reference catalog clock) with
  | none => exact ⟨[], rfl, by simp, rfl⟩
  | some condition =>
      have text : condition.filter.text.toList = condition.characters :=
        String.toList_ofList
      refine ⟨QueryString.normalise
        (QueryString.substitute condition.characters values), ?_, ?_, ?_⟩
      · simp [QueryString.assemble, text]
      · intro character member
        have sent := condition.isQueryCharacter_of_mem member
        exact ⟨sent, QueryString.isQueryCharacter_excludes sent⟩
      · rw [QueryString.marks_normalise, QueryString.marks_substitute,
          Option.map_some, Option.elim_some, text]

/--
A search of the inventory for values that are written like parts of a filter.
-/
def deceptiveSearch : Tree :=
  .connection .not
    [ .comparison .equal [.leaf "hostname", .leaf "a&memory[]= > 1) OR (b"],
      .comparison .greaterOrEqual [.leaf "name.first", .leaf "<é?#\"'>"] ]

/--
The marks that are left are those of the filter, and those in the values are
encoded.
-/
theorem queryString_marks_of_filter_deceptive :
    let filter : Filter :=
      { text := "NOT (name[]= = ?&name[]= >= ?)"
        parameters := [.text "a&memory[]= > 1) OR (b", .text "<é?#\"'>"] }
    Catalog.inventory.Registered ∧
      (∃ after,
        deceptiveSearch.compile Catalog.inventory Catalog.inventoryDay
            Journal.empty =
          .ok (some filter) after) ∧
      deceptiveSearch.queryString Catalog.inventory Catalog.inventoryDay =
        .ok ("?NOT+(name[]=+%3D+a%26memory%5B%5D%3D+%3E+1%29+OR+%28b" ++
          "&name[]=+>%3D+%3C%C3%A9%3F%23%22%27%3E)") ∧
      ∃ body : List Char,
        QueryString.assemble (some filter) filter.parameters =
          String.ofList ('?' :: body) ∧
        QueryString.marks body = "([]&[]>)".toList := by
  intro filter
  have compiles : ∃ after,
      deceptiveSearch.compile Catalog.inventory Catalog.inventoryDay
          Journal.empty =
        .ok (some filter) after ∧ after.parameters = filter.parameters :=
    ⟨_, rfl, rfl⟩
  obtain ⟨after, compiled, noted⟩ := compiles
  obtain ⟨sent, structured⟩ :=
    queryString_marks_of_filter Catalog.registered_inventory compiled
  obtain ⟨body, assembled, -, marked⟩ := structured filter.parameters
  refine ⟨Catalog.registered_inventory, ⟨after, compiled⟩, ?_, body, assembled,
    ?_⟩
  · rw [sent, noted]
    exact congrArg Except.ok (by decide +kernel)
  · rw [marked]
    decide

end Tree

end SearchPhrase
