import SearchPhrase.Proofs.Filter.Spelling
import SearchPhrase.Proofs.Filter.TreeCondition
import SearchPhrase.Proofs.Text.Substitution

/-!
# Normalised query strings

A query string is made from the text of a filter in five passes: one puts
encoded values for the placeholders, three encode equals signs, and the last
writes runs of blanks as plus signs.  Each pass reads the whole text again.
This module says in one definition, by recursion on spellings, what they write
together.

The blanks around an operator and those of a disjunction meet where a value is
empty.  They are then one run, unless the operator ends with an equals sign,
because the blank after an encoded equals sign is already written.
-/

namespace SearchPhrase

/-! ## What is sent -/

namespace Comparison

/-- The characters by which a query string writes an operator. -/
def sent : Comparison → List Char
  | .equal => "+%3D+".toList
  | .different => "+<>+".toList
  | .greater => "+>+".toList
  | .greaterOrEqual => "+>%3D+".toList
  | .less => "+<+".toList
  | .lessOrEqual => "+<%3D+".toList
  | .like => "+LIKE+".toList
  | .unlike => "+NOT+LIKE+".toList

/--
Whether the blank after an operator is one run with blanks that follow it.
-/
def endsInRun : Comparison → Bool
  | .equal | .greaterOrEqual | .lessOrEqual => false
  | _ => true

end Comparison

/--
The characters by which a query string writes a junction, where a run of blanks
may be open.
-/
def Junction.sent (inRun : Bool) : Junction → List Char
  | .and => ['&']
  | .or => if inRun then ['O', 'R', '+'] else ['+', 'O', 'R', '+']

namespace Spelling

/-- The characters by which a query string opens a group. -/
def sentOpening (denied : Bool) : List Char :=
  if denied then ['N', 'O', 'T', '+', '('] else ['(']

/-- The characters by which a query string writes a value. -/
def sentValue (value : String) : List Char :=
  Text.FormEncoding.encodeChars value.toList

/-- A spelling in a query string, after an open run of blanks or not. -/
def sent : {position : Position} → Spelling String position → Bool → List Char
  | _, .bracket denied next, _ => sentOpening denied ++ next.sent false
  | _, .test field operator value next, _ =>
      selector field ++ operator.sent ++ sentValue value ++
        next.sent (operator.endsInRun && value.isEmpty)
  | _, .stop, _ => []
  | _, .close next, _ => ')' :: next.sent false
  | _, .joined junction next, inRun => junction.sent inRun ++ next.sent false

/-- Where an operand starts, no run of blanks goes on. -/
theorem sent_start (spelling : Spelling String .start) (inRun : Bool) :
    spelling.sent inRun = spelling.sent false := by
  cases spelling <;> rfl

end Spelling

/-- The query string of a condition. -/
def Condition.sent (condition : Condition) : String :=
  String.ofList ('?' :: (condition.spelling.map Parameter.literal).sent false)

/-! ## The parts of spellings -/

namespace Spelling

variable {position : Position}

theorem notMem_selector
    (field : FieldName) {character : Char}
    (notPart : Field.isNamePart character = false)
    (notMark : character ∉ "[]=".toList) :
    character ∉ selector field := by
  rw [selector, List.mem_append, not_or]
  exact ⟨field.notMem notPart, notMark⟩

theorem placeholder_notMem_selector (field : FieldName) :
    '?' ∉ selector field :=
  notMem_selector field (by decide) (by decide)

theorem placeholder_notMem_spaced (operator : Comparison) :
    '?' ∉ spaced operator := by
  cases operator <;> decide

theorem placeholder_notMem_opening (denied : Bool) :
    '?' ∉ Condition.opening denied := by
  cases denied <;> decide

theorem placeholder_notMem_junction (junction : Junction) :
    '?' ∉ junction.characters := by
  cases junction <;> decide

@[simp]
theorem isEmpty_selector (field : FieldName) :
    (selector field).isEmpty = false := by
  simp [selector]

theorem notMem_sentValue
    (value : String) {character : Char}
    (excluded : Text.FormEncoding.isFormCharacter character = false) :
    character ∉ sentValue value := by
  intro member
  have form := Text.FormEncoding.isFormCharacter_of_mem_encodeChars member
  rw [excluded] at form
  exact Bool.noConfusion form

@[simp]
theorem isEmpty_sentValue (value : String) :
    (sentValue value).isEmpty = value.isEmpty := by
  rw [Bool.eq_iff_iff, List.isEmpty_iff, String.isEmpty_iff, sentValue,
    Text.FormEncoding.encodeChars_eq_nil_iff, String.toList_eq_nil_iff]

/-- No spelling starts with an equals sign. -/
theorem head_written
    {α : Type} (operatorText : Comparison → List Char)
    (valueText : α → List Char) (spelling : Spelling α position) :
    (spelling.written operatorText valueText).head? ≠ some '=' := by
  cases spelling with
  | bracket denied next =>
      cases denied <;> simp [written, Condition.opening]
  | test field operator value next =>
      have noEquals : '=' ∉ field.characters := field.notMem (by decide)
      cases named : field.characters with
      | nil => exact absurd named field.characters_ne_nil
      | cons first rest =>
          rw [named, List.mem_cons, not_or] at noEquals
          simpa [written, selector, named] using Ne.symm noEquals.1
  | stop => simp [written]
  | close next => simp [written]
  | joined junction next =>
      cases junction <;> simp [written, Junction.characters]

end Spelling

/-! ## Values for placeholders -/

namespace QueryString

/-- Put texts for the placeholders of a text, in order. -/
def fill : List Char → List String → List Char
  | [], _ => []
  | character :: rest, values =>
      if character == Filter.placeholder then
        match values with
        | [] => fill rest []
        | value :: others => value.toList ++ fill rest others
      else character :: fill rest values

theorem substitute_eq_fill (text : List Char) (parameters : List Parameter) :
    substitute text parameters =
      fill text (parameters.map Parameter.encoded) := by
  induction text generalizing parameters with
  | nil => rfl
  | cons character rest ih =>
      rw [substitute.eq_def, fill.eq_def]
      cases parameters <;> simp only [List.map_nil, List.map_cons, ih]

theorem fill_append
    {chunk : List Char} (absent : '?' ∉ chunk) (rest : List Char)
    (values : List String) :
    fill (chunk ++ rest) values = chunk ++ fill rest values := by
  induction chunk with
  | nil => rfl
  | cons character others ih =>
      simp only [List.mem_cons, not_or] at absent
      have plain : (character == Filter.placeholder) = false := by
        simpa [Filter.placeholder] using Ne.symm absent.1
      rw [List.cons_append, fill.eq_def]
      simp only [plain, ih absent.2, List.cons_append, Bool.false_eq_true,
        if_false]

theorem fill_placeholder (rest : List Char) (value : String)
    (others : List String) :
    fill ('?' :: rest) (value :: others) = value.toList ++ fill rest others :=
  rfl

end QueryString

namespace Spelling

variable {position : Position}

/-- Filling the text of a spelling writes its values. -/
theorem fill_text (spelling : Spelling String position) :
    QueryString.fill spelling.text spelling.values =
      spelling.written spaced String.toList := by
  induction spelling with
  | bracket denied next ih =>
      rw [text_bracket,
        QueryString.fill_append (placeholder_notMem_opening denied), values, ih,
        written]
  | test field operator value next ih =>
      rw [text_test, values,
        QueryString.fill_append (placeholder_notMem_selector field),
        QueryString.fill_append (placeholder_notMem_spaced operator),
        QueryString.fill_placeholder, ih, written]
      simp only [List.append_assoc]
  | stop => rfl
  | close next ih =>
      have absent : '?' ∉ [')'] := by decide
      exact (QueryString.fill_append absent _ _).trans
        (congrArg ([')'] ++ ·) ih)
  | joined junction next ih =>
      rw [text_joined,
        QueryString.fill_append (placeholder_notMem_junction junction), values,
        ih, written]

/--
The first pass writes the encoded values in the place of the placeholders.
-/
theorem substitute_text (spelling : Spelling Parameter position) :
    QueryString.substitute spelling.text spelling.values =
      (spelling.map Parameter.literal).written spaced sentValue := by
  have encoded : (fun parameter : Parameter => parameter.encoded.toList) =
      fun parameter => sentValue parameter.literal := by
    funext parameter
    exact String.toList_ofList
  rw [QueryString.substitute_eq_fill, ← values_map,
    ← text_map Parameter.encoded, fill_text, written_map, written_map, encoded]

end Spelling

/-! ## Encoded equals signs -/

namespace Comparison

/--
An operator between blanks, with its equals sign and the blank after it encoded.
-/
def encodedEquals : Comparison → List Char
  | .equal => ['+', '%', '3', 'D', '+']
  | .greaterOrEqual => [' ', '>', '%', '3', 'D', '+']
  | .lessOrEqual => [' ', '<', '%', '3', 'D', '+']
  | operator => Spelling.spaced operator

/-- The operators between blanks, after the equals signs of some are encoded. -/
def afterPasses (passed : List Comparison) (operator : Comparison) :
    List Char :=
  if operator ∈ passed then operator.encodedEquals else Spelling.spaced operator

end Comparison

namespace Spelling

variable {position : Position} {first : Char} {tail replacement : List Char}

/--
A pass encodes the equals sign of one operator, which the pattern ends, and
copies the other operators.
-/
theorem replaceAfter_operator
    {passed : List Comparison} {marked : Comparison} (lead : List Char)
    (marks :
      Comparison.afterPasses passed marked = lead ++ first :: '=' :: tail)
    (rewrites : marked.encodedEquals = lead ++ replacement)
    (copied : ∀ operator ∈ Comparison.all, operator ≠ marked →
      ¬ [first, '='] <:+: Comparison.afterPasses passed operator)
    (copiedLead : first ∉ lead)
    (operator : Comparison) {rest : List Char}
    (follows : rest.head? ≠ some '=') :
    Text.replaceAfter (first :: '=' :: tail) replacement 0
        (Comparison.afterPasses passed operator ++ rest) =
      Comparison.afterPasses (marked :: passed) operator ++
        Text.replaceAfter (first :: '=' :: tail) replacement 0 rest := by
  by_cases same : operator = marked
  · subst same
    rw [marks, List.append_assoc, Text.replaceAfter_append_of_notMem copiedLead,
      Text.replaceAfter_pattern, Comparison.afterPasses,
      if_pos List.mem_cons_self, rewrites, List.append_assoc]
  · have listed : operator ∈ Comparison.all := by cases operator <;> decide
    have kept : Comparison.afterPasses (marked :: passed) operator =
        Comparison.afterPasses passed operator := by
      simp [Comparison.afterPasses, same]
    rw [Text.replaceAfter_append (copied operator listed same) (Or.inr follows),
      kept]

/--
A pass that changes operators only.  An empty value leaves the operator in front
of what follows the test.
-/
theorem replaceAfter_written
    {before after : Comparison → List Char}
    (notPart : Field.isNamePart first = false) (notMark : first ∉ "[]=".toList)
    (operators : ∀ operator {rest : List Char}, rest.head? ≠ some '=' →
      Text.replaceAfter (first :: '=' :: tail) replacement 0
          (before operator ++ rest) =
        after operator ++
          Text.replaceAfter (first :: '=' :: tail) replacement 0 rest)
    (spelling : Spelling String position) :
    Text.replaceAfter (first :: '=' :: tail) replacement 0
        (spelling.written before sentValue) =
      spelling.written after sentValue := by
  have copied {chunk rest : List Char} (absent : '=' ∉ chunk)
      (follows : rest.head? ≠ some '=') :
      Text.replaceAfter (first :: '=' :: tail) replacement 0 (chunk ++ rest) =
        chunk ++ Text.replaceAfter (first :: '=' :: tail) replacement 0 rest :=
    Text.replaceAfter_append (fun occurs => absent (occurs.mem (by simp)))
      (Or.inr follows)
  induction spelling with
  | bracket denied next ih =>
      have absent : '=' ∉ Condition.opening denied := by cases denied <;> decide
      rw [written, copied absent (head_written before sentValue next), ih,
        written]
  | test field operator value next ih =>
      have named := notMem_selector field notPart notMark
      have absent : '=' ∉ sentValue value := notMem_sentValue value (by decide)
      have follows :
          (sentValue value ++ next.written before sentValue).head? ≠
            some '=' := by
        cases encoded : sentValue value with
        | nil => exact head_written before sentValue next
        | cons character rest =>
            rw [encoded, List.mem_cons, not_or] at absent
            simpa using Ne.symm absent.1
      simp only [written, List.append_assoc]
      rw [Text.replaceAfter_append_of_notMem named, operators operator follows,
        copied absent (head_written before sentValue next), ih]
  | stop => rfl
  | close next ih =>
      have absent : '=' ∉ [')'] := by decide
      exact (copied absent (head_written before sentValue next)).trans
        (congrArg ([')'] ++ ·) ih)
  | joined junction next ih =>
      have absent : '=' ∉ junction.characters := by cases junction <;> decide
      rw [written, copied absent (head_written before sentValue next), ih,
        written]

theorem replaceAll_pass
    {pattern encoded : String} {passed : List Comparison} (marked : Comparison)
    (lead : List Char) (shape : pattern.toList = first :: '=' :: tail)
    (marks : Comparison.afterPasses passed marked = lead ++ pattern.toList)
    (rewrites : marked.encodedEquals = lead ++ encoded.toList)
    (copied : ∀ operator ∈ Comparison.all, operator ≠ marked →
      ¬ [first, '='] <:+: Comparison.afterPasses passed operator)
    (copiedLead : first ∉ lead)
    (notPart : Field.isNamePart first = false) (notMark : first ∉ "[]=".toList)
    (spelling : Spelling String position) :
    Text.replaceAll pattern encoded
        (spelling.written (Comparison.afterPasses passed) sentValue) =
      spelling.written (Comparison.afterPasses (marked :: passed))
        sentValue := by
  rw [shape] at marks
  rw [Text.replaceAll, shape]
  exact replaceAfter_written notPart notMark
    (replaceAfter_operator lead marks rewrites copied copiedLead) spelling

/-- The three passes encode the equals signs of all operators. -/
theorem replaceAll_written (spelling : Spelling String position) :
    Text.replaceAll "<= " "<%3D+"
        (Text.replaceAll ">= " ">%3D+"
          (Text.replaceAll " = " "+%3D+" (spelling.written spaced sentValue))) =
      spelling.written Comparison.encodedEquals sentValue := by
  have equal : " = ".toList = [' ', '=', ' '] := by decide
  have greater : ">= ".toList = ['>', '=', ' '] := by decide
  have less : "<= ".toList = ['<', '=', ' '] := by decide
  have unpassed : spaced = Comparison.afterPasses [] := by
    funext operator
    simp [Comparison.afterPasses]
  have passed : Comparison.afterPasses [.lessOrEqual, .greaterOrEqual, .equal] =
      Comparison.encodedEquals := by
    funext operator
    cases operator <;> rfl
  rw [unpassed,
    replaceAll_pass .equal [] equal (by decide) (by decide) (by decide +kernel)
      (by decide) (by decide) (by decide),
    replaceAll_pass .greaterOrEqual [' '] greater (by decide) (by decide)
      (by decide +kernel) (by decide) (by decide) (by decide),
    replaceAll_pass .lessOrEqual [' '] less (by decide) (by decide)
      (by decide +kernel) (by decide) (by decide) (by decide),
    passed]

end Spelling

/-! ## Runs of blanks -/

namespace QueryString

/--
A part without blanks is copied, and ends a run of blanks unless it is empty.
-/
theorem plusBlanks_append
    {chunk : List Char}
    (noBlank : ∀ character ∈ chunk, Text.isBlank character = false)
    (inRun : Bool) (rest : List Char) :
    plusBlanks inRun (chunk ++ rest) =
      chunk ++ plusBlanks (inRun && chunk.isEmpty) rest := by
  induction chunk generalizing inRun with
  | nil => simp
  | cons character others ih =>
      rw [List.forall_mem_cons] at noBlank
      rw [List.cons_append, plusBlanks, noBlank.1]
      simp [ih noBlank.2]

end QueryString

namespace Spelling

variable {position : Position}

theorem isFormCharacter_of_mem_characters
    {field : FieldName} {character : Char}
    (member : character ∈ field.characters) :
    Text.FormEncoding.isFormCharacter character = true := by
  have part := field.isNamePart_of_mem member
  simp only [Field.isNamePart, Field.isNameStart, Bool.or_eq_true,
    beq_iff_eq] at part
  rw [Text.FormEncoding.isFormCharacter, Bool.or_eq_true]
  rcases part with ((letter | rfl) | rfl) | rfl
  · exact Or.inl letter
  · decide
  · decide
  · decide

theorem isBlank_of_mem_selector
    {field : FieldName} {character : Char}
    (member : character ∈ selector field) :
    Text.isBlank character = false := by
  rcases List.mem_append.mp member with named | mark
  · exact Text.isBlank_of_isFormCharacter
      (isFormCharacter_of_mem_characters named)
  · have marks : "[]=".toList.all (fun mark => !Text.isBlank mark) = true := by
      decide
    simpa using List.all_eq_true.mp marks character mark

theorem isBlank_of_mem_sentValue
    {value : String} {character : Char} (member : character ∈ sentValue value) :
    Text.isBlank character = false :=
  Text.isBlank_of_isFormCharacter
    (Text.FormEncoding.isFormCharacter_of_mem_encodeChars member)

theorem plusBlanks_operator (operator : Comparison) (rest : List Char) :
    QueryString.plusBlanks false (operator.encodedEquals ++ rest) =
      operator.sent ++ QueryString.plusBlanks operator.endsInRun rest := by
  cases operator <;> rfl

theorem plusBlanks_opening (inRun denied : Bool) (rest : List Char) :
    QueryString.plusBlanks inRun (Condition.opening denied ++ rest) =
      sentOpening denied ++ QueryString.plusBlanks false rest := by
  cases denied <;> rfl

theorem plusBlanks_junction (inRun : Bool) (junction : Junction)
    (rest : List Char) :
    QueryString.plusBlanks inRun (junction.characters ++ rest) =
      junction.sent inRun ++ QueryString.plusBlanks (junction == .or) rest := by
  cases junction <;> cases inRun <;> rfl

/--
The last pass writes the blanks around operators and junctions as plus signs.
-/
theorem plusBlanks_written (inRun : Bool)
    (spelling : Spelling String position) :
    QueryString.plusBlanks inRun
        (spelling.written Comparison.encodedEquals sentValue) =
      spelling.sent inRun := by
  induction spelling generalizing inRun with
  | bracket denied next ih => rw [written, plusBlanks_opening, ih, sent]
  | test field operator value next ih =>
      have named (rest : List Char) :
          QueryString.plusBlanks inRun (selector field ++ rest) =
            selector field ++ QueryString.plusBlanks false rest := by
        rw [QueryString.plusBlanks_append fun _ member =>
          isBlank_of_mem_selector member]
        simp
      simp only [written, sent, List.append_assoc]
      rw [named, plusBlanks_operator,
        QueryString.plusBlanks_append fun _ member =>
          isBlank_of_mem_sentValue member, ih,
        isEmpty_sentValue]
  | stop => rfl
  | close next ih =>
      have closing (rest : List Char) :
          QueryString.plusBlanks inRun (')' :: rest) =
            ')' :: QueryString.plusBlanks false rest := by
        cases inRun <;> rfl
      rw [written, closing, ih, sent]
  | joined junction next ih =>
      rw [written, plusBlanks_junction, ih, sent_start, sent]

/-- All passes together write a spelling as it is sent. -/
theorem normalise_substitute (spelling : Spelling Parameter position) :
    QueryString.normalise
        (QueryString.substitute spelling.text spelling.values) =
      (spelling.map Parameter.literal).sent false := by
  rw [substitute_text, QueryString.normalise, replaceAll_written,
    plusBlanks_written]

end Spelling

/-! ## Query strings of conditions and trees -/

theorem Condition.assemble_filter (condition : Condition) :
    QueryString.assemble (some condition.filter) condition.filter.parameters =
      condition.sent := by
  obtain ⟨text, parameters⟩ := condition.filter_spelling
  rw [QueryString.assemble, text, parameters, Spelling.normalise_substitute]
  simp [Condition.sent]

/--
What compiling a tree on its own gives: the filter of its condition and the
query string of that condition, or no filter and the empty query.
-/
theorem Tree.compile_empty_eq_ok
    {catalog : Catalog} (registered : catalog.Registered) {clock : Instant}
    {tree : Tree} {result : Option Filter} {after : Journal}
    (compiled : tree.compile catalog clock Journal.empty = .ok result after) :
    let condition := tree.condition? catalog (catalog.anchor clock)
    result = condition.map Condition.filter ∧
      tree.queryString catalog clock =
        .ok (condition.elim "?" Condition.sent) := by
  have parameters := parameters_of_compile registered compiled
  obtain ⟨same, -⟩ := compile_eq_ok registered compiled
  change result = (tree.condition? catalog (catalog.anchor clock)).map _ at same
  refine ⟨same, ?_⟩
  rw [queryString, compiled]
  cases stated : tree.condition? catalog (catalog.anchor clock) with
  | none =>
      rw [same, stated]
      rfl
  | some condition =>
      rw [stated] at same
      rw [same] at parameters ⊢
      have only : after.parameters = condition.filter.parameters := by
        simpa [Journal.empty, Journal.parameters] using parameters
      simp only [Option.map_some, only, condition.assemble_filter,
        Option.elim_some]

end SearchPhrase
