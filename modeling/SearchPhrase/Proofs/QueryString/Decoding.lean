import SearchPhrase.Proofs.QueryString.UniqueReadability

/-!
# Decoding of query strings

A query string is in the encoding of web forms, so it can be decoded as a form.
This gives the text of the filter again, with the literals of its parameters in
the place of the placeholders, up to some blanks.  The blank of a disjunction is
lost if the value before it is empty, because it is then in one run with the
blank before the value.  It is kept if an equals sign stands before that blank.

The main statements say which text is decoded, and that it is the filled text
exactly if no blank is lost.
-/

namespace SearchPhrase

/-! ## Filling a text -/

namespace QueryString

/--
Put literals for the placeholders of a text, where a blank may be open and
blanks that follow it are left out.  A blank is open until another character
follows it, and a blank after an equals sign never is.
-/
def fillMerging : Bool → List Char → List String → List Char
  | _, [], _ => []
  | _, '=' :: ' ' :: rest, literals =>
      '=' :: ' ' :: fillMerging false rest literals
  | isOpen, character :: rest, literals =>
      if character == Filter.placeholder then
        match literals with
        | [] => fillMerging isOpen rest []
        | literal :: others =>
            literal.toList ++
              fillMerging (isOpen && literal.isEmpty) rest others
      else if character == ' ' then
        if isOpen then fillMerging true rest literals
        else ' ' :: fillMerging true rest literals
      else character :: fillMerging false rest literals

/--
An empty literal stands right before the blank of a disjunction, and what is
before it does not end with an equals sign and a blank.
-/
def LosesBlankAfter (context text : List Char)
    (literals : List String) : Prop :=
  ∃ before after, text = before ++ "? OR ".toList ++ after ∧
    ¬ "= ".toList <:+ context ++ before ∧ literals[before.count '?']? = some ""

/--
A blank of a text is lost when literals are put for its placeholders and it is
sent.
-/
def LosesBlank (text : List Char) (literals : List String) : Prop :=
  LosesBlankAfter [] text literals

end QueryString

namespace Spelling

variable {position : Position}

/-- The blanks and the word of a junction, where a blank may be open. -/
def filledJunction (isOpen : Bool) : Junction → List Char
  | .and => ['&']
  | .or => if isOpen then ['O', 'R', ' '] else [' ', 'O', 'R', ' ']

/-- A spelling with its values, after an open blank or not. -/
def filled : {position : Position} → Spelling String position → Bool → List Char
  | _, .bracket denied next, _ => Condition.opening denied ++ next.filled false
  | _, .test field operator value next, _ =>
      selector field ++ spaced operator ++ value.toList ++
        next.filled (operator.endsInRun && value.isEmpty)
  | _, .stop, _ => []
  | _, .close next, _ => ')' :: next.filled false
  | _, .joined junction next, isOpen =>
      filledJunction isOpen junction ++ next.filled false

theorem filled_start (spelling : Spelling String .start) (isOpen : Bool) :
    spelling.filled isOpen = spelling.filled false := by
  cases spelling <;> rfl

/-! ## What is decoded -/

open Text.FormEncoding (decodeBytes)

theorem decodeBytes_selector (field : FieldName) (rest : List Char) :
    decodeBytes (selector field ++ rest) =
      (selector field).flatMap String.utf8EncodeChar ++ decodeBytes rest :=
  Text.FormEncoding.decodeBytes_append
    (notMem_selector field (by decide) (by decide))
    (notMem_selector field (by decide) (by decide)) rest

theorem decodeBytes_operator (operator : Comparison) (rest : List Char) :
    decodeBytes (operator.sent ++ rest) =
      (spaced operator).flatMap String.utf8EncodeChar ++ decodeBytes rest := by
  cases operator <;> rfl

theorem decodeBytes_opening (denied : Bool) (rest : List Char) :
    decodeBytes (sentOpening denied ++ rest) =
      (Condition.opening denied).flatMap String.utf8EncodeChar ++
        decodeBytes rest := by
  cases denied <;> rfl

theorem decodeBytes_junction (isOpen : Bool) (junction : Junction)
    (rest : List Char) :
    decodeBytes (junction.sent isOpen ++ rest) =
      (filledJunction isOpen junction).flatMap String.utf8EncodeChar ++
        decodeBytes rest := by
  cases junction <;> cases isOpen <;> rfl

/-- What is sent for a spelling is decoded to the spelling with its values. -/
theorem decodeBytes_sent (spelling : Spelling String position) (isOpen : Bool) :
    decodeBytes (spelling.sent isOpen) =
      (spelling.filled isOpen).flatMap String.utf8EncodeChar := by
  induction spelling generalizing isOpen with
  | bracket denied next ih =>
      rw [sent, decodeBytes_opening, ih, filled, List.flatMap_append]
  | test field operator value next ih =>
      simp only [sent, filled, List.append_assoc, List.flatMap_append]
      rw [decodeBytes_selector, decodeBytes_operator, sentValue,
        Text.FormEncoding.decodeBytes_encodeChars, ih]
  | stop => rfl
  | close next ih =>
      rw [sent, Text.FormEncoding.decodeBytes_cons (by decide) (by decide), ih,
        filled, List.flatMap_cons]
  | joined junction next ih =>
      rw [sent, decodeBytes_junction, ih, filled, List.flatMap_append]

end Spelling

/-! ## The decoded text of a filter -/

namespace QueryString

theorem fillMerging_append
    {chunk : List Char}
    (plain :
      ∀ character ∈ chunk, character ≠ '=' ∧ character ≠ '?' ∧ character ≠ ' ')
    (isOpen : Bool) (rest : List Char) (literals : List String) :
    fillMerging isOpen (chunk ++ rest) literals =
      chunk ++ fillMerging (isOpen && chunk.isEmpty) rest literals := by
  induction chunk generalizing isOpen with
  | nil => simp
  | cons character others ih =>
      rw [List.forall_mem_cons] at plain
      obtain ⟨⟨notEquals, notPlaceholder, notBlank⟩, plainOthers⟩ := plain
      have kept (tail : List Char) :
          fillMerging isOpen (character :: tail) literals =
            character :: fillMerging false tail literals := by
        rw [fillMerging.eq_def]
        split
        · next same => cases same
        · next same =>
            cases same
            exact absurd rfl notEquals
        · next same =>
            cases same
            simp [Filter.placeholder, notPlaceholder, notBlank]
      rw [List.cons_append, kept, ih plainOthers]
      simp

theorem fillMerging_selector
    (isOpen : Bool) (field : FieldName) (operator : Comparison)
    (rest : List Char) (literals : List String) :
    fillMerging isOpen
      (Spelling.selector field ++ (Spelling.spaced operator ++ rest)) literals =
      Spelling.selector field ++
        (Spelling.spaced operator ++
          fillMerging operator.endsInRun rest literals) := by
  have plain : ∀ character ∈ field.characters,
      character ≠ '=' ∧ character ≠ '?' ∧ character ≠ ' ' := by
    intro character member
    refine ⟨?_, ?_, ?_⟩
    · rintro rfl
      exact field.notMem (by decide) member
    · rintro rfl
      exact field.notMem (by decide) member
    · rintro rfl
      exact field.notMem (by decide) member
  have marked (operator : Comparison) :
      fillMerging false ("[]=".toList ++ (Spelling.spaced operator ++ rest))
          literals =
        "[]=".toList ++
          (Spelling.spaced operator ++
            fillMerging operator.endsInRun rest literals) := by
    cases operator <;> rfl
  have nonempty : field.characters.isEmpty = false := by
    simpa using field.characters_ne_nil
  rw [Spelling.selector, List.append_assoc, fillMerging_append plain, nonempty,
    Bool.and_false, marked, List.append_assoc]

end QueryString

namespace Spelling

variable {position : Position}

theorem fillMerging_opening
    (isOpen denied : Bool) (rest : List Char) (literals : List String) :
    QueryString.fillMerging isOpen (Condition.opening denied ++ rest) literals =
      Condition.opening denied ++
        QueryString.fillMerging false rest literals := by
  cases denied <;> rfl

theorem fillMerging_junction
    (isOpen : Bool) (junction : Junction) (rest : List Char)
    (literals : List String) :
    QueryString.fillMerging isOpen (junction.characters ++ rest) literals =
      filledJunction isOpen junction ++
        QueryString.fillMerging (junction == .or) rest literals := by
  cases junction <;> cases isOpen <;> rfl

/-- Filling the text of a spelling and merging blanks gives what is decoded. -/
theorem fillMerging_text (spelling : Spelling String position) (isOpen : Bool) :
    QueryString.fillMerging isOpen spelling.text spelling.values =
      spelling.filled isOpen := by
  induction spelling generalizing isOpen with
  | bracket denied next ih =>
      rw [text_bracket, fillMerging_opening, values, ih, filled]
  | test field operator value next ih =>
      have placed (rest : List Char) (others : List String) :
          QueryString.fillMerging operator.endsInRun ('?' :: rest)
              (value :: others) =
            value.toList ++
              QueryString.fillMerging (operator.endsInRun && value.isEmpty) rest
                others :=
        rfl
      rw [text_test, values, QueryString.fillMerging_selector, placed, ih,
        filled]
      simp only [List.append_assoc]
  | stop => rfl
  | close next ih =>
      have closing (rest : List Char) :
          QueryString.fillMerging isOpen (')' :: rest) next.values =
            ')' :: QueryString.fillMerging false rest next.values :=
        rfl
      rw [text_close, values, closing, ih, filled]
  | joined junction next ih =>
      rw [text_joined, fillMerging_junction, values, ih, filled_start, filled]

/-! ## Lost blanks -/

/-- The number of blanks that are lost, after an open blank or not. -/
def lost : {position : Position} → Spelling String position → Bool → Nat
  | _, .bracket _ next, _ => next.lost false
  | _, .test _ operator value next, _ =>
      next.lost (operator.endsInRun && value.isEmpty)
  | _, .stop, _ => 0
  | _, .close next, _ => next.lost false
  | _, .joined .and next, _ => next.lost false
  | _, .joined .or next, isOpen => (if isOpen then 1 else 0) + next.lost false

theorem length_filled (spelling : Spelling String position) (isOpen : Bool) :
    (spelling.filled isOpen).length + spelling.lost isOpen =
      (spelling.written spaced String.toList).length := by
  induction spelling generalizing isOpen with
  | bracket denied next ih =>
      simp only [filled, lost, written, List.length_append, ← ih false,
        Nat.add_assoc]
  | test field operator value next ih =>
      simp only [filled, lost, written, List.length_append,
        ← ih (operator.endsInRun && value.isEmpty), Nat.add_assoc]
  | stop => rfl
  | close next ih =>
      simp only [filled, lost, written, List.length_cons, ← ih false]
      omega
  | joined junction next ih =>
      cases junction with
      | and =>
          simp only [filled, lost, written, List.length_append, ← ih false,
            Nat.add_assoc]
          rfl
      | or =>
          have word : Junction.or.characters.length = 4 := by decide
          simp only [filled, lost, written, List.length_append, ← ih false,
            word]
          cases isOpen <;> simp [filledJunction] <;> omega

theorem filled_of_lost
    {spelling : Spelling String position} {isOpen : Bool}
    (none : spelling.lost isOpen = 0) :
    spelling.filled isOpen = spelling.written spaced String.toList := by
  induction spelling generalizing isOpen with
  | bracket denied next ih => rw [filled, written, ih none]
  | test field operator value next ih => rw [filled, written, ih none]
  | stop => rfl
  | close next ih => rw [filled, written, ih none]
  | joined junction next ih =>
      cases junction with
      | and =>
          rw [filled, written, ih none]
          rfl
      | or =>
          rw [lost, Nat.add_eq_zero_iff] at none
          cases isOpen with
          | false =>
              rw [filled, written, ih none.2]
              rfl
          | true => cases none.1

/-- The text is filled exactly if no blank is lost. -/
theorem filled_eq_iff (spelling : Spelling String position) (isOpen : Bool) :
    spelling.filled isOpen = spelling.written spaced String.toList ↔
      spelling.lost isOpen = 0 := by
  constructor
  · intro equal
    have lengths := spelling.length_filled isOpen
    rw [equal] at lengths
    omega
  · exact filled_of_lost

end Spelling

/-! ## Where blanks are lost -/

namespace QueryString

variable {context text : List Char} {literals : List String}

theorem not_losesBlankAfter_nil : ¬ LosesBlankAfter context [] literals := by
  rintro ⟨before, after, equal, -, -⟩
  simp at equal

/--
A part without placeholders only moves to the text before.  A place starts with
a placeholder, so it cannot start inside the part.
-/
theorem losesBlankAfter_append {chunk : List Char} (absent : '?' ∉ chunk) :
    LosesBlankAfter context (chunk ++ text) literals ↔
      LosesBlankAfter (context ++ chunk) text literals := by
  have count (before : List Char) :
      (chunk ++ before).count '?' = before.count '?' := by
    rw [List.count_append, List.count_eq_zero.mpr absent, Nat.zero_add]
  constructor
  · rintro ⟨before, after, equal, notEquals, empty⟩
    rw [List.append_assoc] at equal
    rcases List.append_eq_append_iff.mp equal with
      ⟨rest, rfl, rests⟩ | ⟨rest, rfl, rests⟩
    · refine ⟨rest, after, by rw [rests, List.append_assoc], ?_, ?_⟩
      · rwa [List.append_assoc]
      · rwa [count] at empty
    · cases rest with
      | nil =>
          refine ⟨[], after, by simpa using rests.symm, ?_, ?_⟩
          · simpa using notEquals
          · rw [← count, List.append_nil]
            simpa using empty
      | cons character others =>
          have first : '?' = character := (List.cons.inj rests).1
          subst first
          simp at absent
  · rintro ⟨before, after, rfl, notEquals, empty⟩
    refine ⟨chunk ++ before, after, by simp only [List.append_assoc], ?_, ?_⟩
    · rwa [List.append_assoc] at notEquals
    · rwa [count]

/--
A placeholder is the place where a blank is lost, or such a place comes later.
-/
theorem losesBlankAfter_placeholder (literal : String) :
    LosesBlankAfter context ('?' :: text) (literal :: literals) ↔
      (literal = "" ∧ ¬ "= ".toList <:+ context ∧ " OR ".toList <+: text) ∨
        LosesBlankAfter (context ++ ['?']) text literals := by
  have word : "? OR ".toList = '?' :: " OR ".toList := by decide
  constructor
  · rintro ⟨before, after, equal, notEquals, empty⟩
    cases before with
    | nil =>
        rw [List.nil_append, word, List.cons_append, List.cons.injEq] at equal
        refine Or.inl
          ⟨by simpa using empty, by simpa using notEquals, after, equal.2.symm⟩
    | cons character others =>
        rw [List.cons_append, List.cons_append, List.cons.injEq] at equal
        obtain ⟨rfl, equal⟩ := equal
        refine Or.inr ⟨others, after, equal, ?_, ?_⟩
        · simpa using notEquals
        · simpa using empty
  · rintro (⟨rfl, notEquals, after, rfl⟩ |
      ⟨before, after, rfl, notEquals, empty⟩)
    · refine ⟨[], after, by rw [word]; rfl, by simpa using notEquals, by simp⟩
    · refine ⟨'?' :: before, after, rfl, by simpa using notEquals,
        by simpa using empty⟩

end QueryString

namespace Spelling

variable {position : Position}

/--
The blank after an operator follows an equals sign exactly if it starts no run.
-/
theorem equals_suffix_iff (context : List Char) (operator : Comparison) :
    "= ".toList <:+ context ++ spaced operator ↔
      operator.endsInRun = false := by
  have pair (before : List Char) (last : Char) :
      "= ".toList <:+ before ++ [last, ' '] ↔ last = '=' := by
    constructor
    · rintro ⟨start, equal⟩
      have ends := (List.append_inj' equal rfl).2
      exact (List.cons.inj ends).1.symm
    · rintro rfl
      exact ⟨before, rfl⟩
  have split : ∃ before last, spaced operator = before ++ [last, ' '] ∧
      (last = '=' ↔ operator.endsInRun = false) := by
    cases operator with
    | equal => exact ⟨[' '], '=', rfl, by decide⟩
    | different => exact ⟨[' ', '<'], '>', rfl, by decide⟩
    | greater => exact ⟨[' '], '>', rfl, by decide⟩
    | greaterOrEqual => exact ⟨[' ', '>'], '=', rfl, by decide⟩
    | less => exact ⟨[' '], '<', rfl, by decide⟩
    | lessOrEqual => exact ⟨[' ', '<'], '=', rfl, by decide⟩
    | like => exact ⟨[' ', 'L', 'I', 'K'], 'E', rfl, by decide⟩
    | unlike =>
        exact ⟨[' ', 'N', 'O', 'T', ' ', 'L', 'I', 'K'], 'E', rfl, by decide⟩
  obtain ⟨before, last, same, equals⟩ := split
  rw [same, ← List.append_assoc, pair, equals]

theorem not_disjunction_start (spelling : Spelling String .start) :
    ¬ " OR ".toList <+: spelling.text := by
  have word : " OR ".toList = [' ', 'O', 'R', ' '] := by decide
  rw [word]
  rintro ⟨after, equal⟩
  cases spelling with
  | bracket denied next =>
      cases denied <;> simp [text, written, Condition.opening] at equal
  | test field operator value next =>
      have noBlank : ' ' ∉ field.characters := field.notMem (by decide)
      cases named : field.characters with
      | nil => exact field.characters_ne_nil named
      | cons first rest =>
          rw [named, List.mem_cons, not_or] at noBlank
          simp only [text, written, selector, named, List.cons_append,
            List.append_assoc, List.cons.injEq] at equal
          exact noBlank.1 equal.1

/--
Blanks of a spelling are lost exactly if its text has such a place, or if a
blank is open before it and it starts with a disjunction.  At a test, the blank
is lost from its value, or the place comes after it.
-/
theorem lost_ne_zero_iff
    (spelling : Spelling String position) (context : List Char)
    (isOpen : Bool) :
    spelling.lost isOpen ≠ 0 ↔
      QueryString.LosesBlankAfter context spelling.text spelling.values ∨
        (isOpen = true ∧ " OR ".toList <+: spelling.text) := by
  induction spelling generalizing context isOpen with
  | bracket denied next ih =>
      have start := not_disjunction_start (.bracket denied next)
      rw [lost, ih (context ++ Condition.opening denied) false,
        or_iff_left fun starts => Bool.false_ne_true starts.1,
        or_iff_left fun starts => start starts.2]
      exact
        (QueryString.losesBlankAfter_append
          (placeholder_notMem_opening denied)).symm
  | test field operator value next ih =>
      have start := not_disjunction_start (.test field operator value next)
      rw [or_iff_left fun starts => start starts.2, lost,
        ih (context ++ selector field ++ spaced operator ++ ['?']), text_test,
        values,
        QueryString.losesBlankAfter_append (placeholder_notMem_selector field),
        QueryString.losesBlankAfter_append (placeholder_notMem_spaced operator),
        QueryString.losesBlankAfter_placeholder, equals_suffix_iff,
        Bool.not_eq_false, Bool.and_eq_true, String.isEmpty_iff, or_comm,
        and_assoc, and_left_comm]
  | stop =>
      constructor
      · intro some
        exact absurd rfl some
      · rintro (loses | ⟨-, starts⟩)
        · exact absurd loses QueryString.not_losesBlankAfter_nil
        · exact absurd starts (by decide)
  | close next ih =>
      have absent : '?' ∉ [')'] := by decide
      have start : ¬ " OR ".toList <+: (close next).text := by
        rintro ⟨after, equal⟩
        exact absurd (List.cons.inj equal).1 (by decide)
      rw [lost, ih (context ++ [')']) false,
        or_iff_left fun starts => Bool.false_ne_true starts.1,
        or_iff_left fun starts => start starts.2]
      exact (QueryString.losesBlankAfter_append absent).symm
  | joined junction next ih =>
      have places :
          QueryString.LosesBlankAfter context (joined junction next).text
              (joined junction next).values ↔
            next.lost false ≠ 0 := by
        rw [ih (context ++ junction.characters) false,
          or_iff_left fun starts => Bool.false_ne_true starts.1]
        exact QueryString.losesBlankAfter_append
          (placeholder_notMem_junction junction)
      rw [places]
      cases junction with
      | and =>
          have start : ¬ " OR ".toList <+: (joined .and next).text := by
            rintro ⟨after, equal⟩
            exact absurd (List.cons.inj equal).1 (by decide)
          rw [lost, or_iff_left fun starts => start starts.2]
      | or =>
          have start : " OR ".toList <+: (joined .or next).text :=
            List.prefix_append Junction.or.characters next.text
          cases isOpen with
          | false => simp [lost]
          | true =>
              constructor
              · intro _
                exact Or.inr ⟨rfl, start⟩
              · intro _
                simp [lost]

end Spelling

/-! ## Decoding the query string of a tree -/

namespace Condition

/-- What follows the question mark in the query string of a condition. -/
def output (condition : Condition) : String :=
  String.ofList ((condition.spelling.map Parameter.literal).sent false)

theorem sent_eq_append (condition : Condition) :
    condition.sent = "?" ++ condition.output := by
  have mark : "?" = String.ofList ['?'] := by decide
  rw [sent, output, mark, ← String.ofList_append, List.singleton_append]

theorem decode_output (condition : Condition) :
    Text.FormEncoding.decode? condition.output =
      some (String.ofList (QueryString.fillMerging false
        condition.filter.text.toList
        (condition.filter.parameters.map Parameter.literal))) := by
  obtain ⟨text, values⟩ := condition.filter_spelling
  rw [output,
    Text.FormEncoding.decode?_of_bytes (Spelling.decodeBytes_sent _ false),
    text, values, ← Spelling.values_map, ← Spelling.text_map Parameter.literal,
    Spelling.fillMerging_text]

/-- Blanks are merged in the filled text exactly if one is lost. -/
theorem fillMerging_eq_fill_iff (condition : Condition) :
    QueryString.fillMerging false condition.filter.text.toList
          (condition.filter.parameters.map Parameter.literal) =
        QueryString.fill condition.filter.text.toList
          (condition.filter.parameters.map Parameter.literal) ↔
      ¬ QueryString.LosesBlank condition.filter.text.toList
          (condition.filter.parameters.map Parameter.literal) := by
  obtain ⟨text, values⟩ := condition.filter_spelling
  have places :=
    (condition.spelling.map Parameter.literal).lost_ne_zero_iff [] false
  rw [or_iff_left fun starts => Bool.false_ne_true starts.1] at places
  rw [text, values, ← Spelling.values_map,
    ← Spelling.text_map Parameter.literal, Spelling.fillMerging_text,
    Spelling.fill_text, Spelling.filled_eq_iff, QueryString.LosesBlank,
    ← places, Classical.not_not]

end Condition

namespace Tree

/--
The query string of a tree, without its question mark, is decoded to the text of
the filter with the literals of the parameters in the place of the placeholders
and with blanks merged.  Nothing is merged exactly if the text loses no blank:
if no empty literal, except after an equals sign and a blank, is followed by a
disjunction.
-/
theorem decode_queryString
    {catalog : Catalog} (registered : catalog.Registered) {clock : Instant}
    {tree : Tree} {filter : Filter} {after : Journal}
    (compiled :
      tree.compile catalog clock Journal.empty = .ok (some filter) after) :
    ∃ output,
      tree.queryString catalog clock = .ok ("?" ++ output) ∧
      Text.FormEncoding.decode? output =
        some (String.ofList (QueryString.fillMerging false filter.text.toList
          (filter.parameters.map Parameter.literal))) ∧
      (Text.FormEncoding.decode? output =
          some (String.ofList (QueryString.fill filter.text.toList
            (filter.parameters.map Parameter.literal))) ↔
        ¬ QueryString.LosesBlank filter.text.toList
            (filter.parameters.map Parameter.literal)) := by
  obtain ⟨same, sent⟩ := compile_empty_eq_ok registered compiled
  obtain ⟨condition, stated, rfl⟩ := Option.map_eq_some_iff.mp same.symm
  refine ⟨condition.output, ?_, condition.decode_output, ?_⟩
  · rw [sent, stated, Option.elim_some, condition.sent_eq_append]
  · rw [condition.decode_output, Option.some.injEq, String.ofList_inj,
      condition.fillMerging_eq_fill_iff]

/-- The query string of the search by name is decoded as the statement says. -/
theorem decode_queryString_inventory :
    ∃ after output,
      nameSearch.compile Catalog.inventory Catalog.inventoryDay Journal.empty =
          .ok (some nameFilter) after ∧
        nameSearch.queryString Catalog.inventory Catalog.inventoryDay =
          .ok ("?" ++ output) ∧
        Text.FormEncoding.decode? output =
          some (String.ofList (QueryString.fillMerging false
            nameFilter.text.toList
            (nameFilter.parameters.map Parameter.literal))) ∧
        (Text.FormEncoding.decode? output =
            some (String.ofList (QueryString.fill nameFilter.text.toList
              (nameFilter.parameters.map Parameter.literal))) ↔
          ¬ QueryString.LosesBlank nameFilter.text.toList
              (nameFilter.parameters.map Parameter.literal)) := by
  obtain ⟨after, compiled⟩ := compile_nameSearch
  obtain ⟨output, sent, decoded, exactly⟩ :=
    decode_queryString Catalog.registered_inventory compiled
  exact ⟨after, output, compiled, sent, decoded, exactly⟩

/-- A blank of the search by name is lost, because its first value is empty. -/
theorem blank_lost_after_empty_value :
    ∃ after,
      nameSearch.compile Catalog.inventory Catalog.inventoryDay Journal.empty =
          .ok (some nameFilter) after ∧
        nameSearch.queryString Catalog.inventory Catalog.inventoryDay =
          .ok ("?" ++ "name[]=+<>+OR+name[]=+%3D+a+OR+b") ∧
        Text.FormEncoding.decode? "name[]=+<>+OR+name[]=+%3D+a+OR+b" =
          some "name[]= <> OR name[]= = a OR b" ∧
        String.ofList (QueryString.fill nameFilter.text.toList
            (nameFilter.parameters.map Parameter.literal)) =
          "name[]= <>  OR name[]= = a OR b" :=
  ⟨_, rfl, rfl, rfl, rfl⟩

end Tree

end SearchPhrase
