import SearchPhrase.Proofs.QueryString.Normalisation

/-!
# Unique readability of query strings

A query string determines the tests, the brackets and the junctions of the
filter that it was made from, and the values of the tests.  No value can be
chosen so that a query string is taken for that of another filter.

Names, encoded values and the words between tests are written in one alphabet,
so a run of its characters may hold the end of a value, a disjunction and the
start of the next operand.  Such a run is read from its end: the next operand is
known from the character after the run, and the disjunction stands before it.
-/

namespace SearchPhrase

open Text.FormEncoding (isFormCharacter)

/-! ## Runs of characters -/

/--
A text splits in one way into characters of a class and a rest that starts with
another.
-/
theorem append_inj_of_class
    {isMember : Char → Bool} {run other rest otherRest : List Char}
    (inRun : ∀ character ∈ run, isMember character = true)
    (inOther : ∀ character ∈ other, isMember character = true)
    (after : ∀ character ∈ rest.head?, isMember character = false)
    (afterOther : ∀ character ∈ otherRest.head?, isMember character = false)
    (equal : run ++ rest = other ++ otherRest) :
    run = other ∧ rest = otherRest := by
  induction run generalizing other with
  | nil =>
      cases other with
      | nil => exact ⟨rfl, equal⟩
      | cons character others =>
          rw [List.nil_append] at equal
          have outside := after character (by rw [equal]; rfl)
          rw [inOther character List.mem_cons_self] at outside
          cases outside
  | cons character others ih =>
      cases other with
      | nil =>
          rw [List.nil_append] at equal
          have outside := afterOther character (by rw [← equal]; rfl)
          rw [inRun character List.mem_cons_self] at outside
          cases outside
      | cons second more =>
          rw [List.cons_append, List.cons_append, List.cons.injEq] at equal
          rw [List.forall_mem_cons] at inRun inOther
          obtain ⟨same, sameRest⟩ := ih inRun.2 inOther.2 equal.2
          exact ⟨by rw [equal.1, same], sameRest⟩

/-! ## Operators -/

namespace Comparison

theorem sent_prefixFree :
    ∀ left ∈ all, ∀ right ∈ all, left.sent <+: right.sent → left = right := by
  decide +kernel

theorem mem_all (operator : Comparison) : operator ∈ all := by
  cases operator <;> decide

theorem sent_append_inj
    {left right : Comparison} {rest otherRest : List Char}
    (equal : left.sent ++ rest = right.sent ++ otherRest) :
    left = right ∧ rest = otherRest := by
  have same : left = right := by
    have leftPrefix : left.sent <+: right.sent ++ otherRest := ⟨rest, equal⟩
    rcases List.prefix_or_prefix_of_prefix leftPrefix
        (List.prefix_append _ _) with
      shorter | longer
    · exact sent_prefixFree left left.mem_all right right.mem_all shorter
    · exact (sent_prefixFree right right.mem_all left left.mem_all longer).symm
  subst same
  exact ⟨rfl, List.append_cancel_left equal⟩

end Comparison

namespace Spelling

/-! ## The first run of a spelling -/

/--
The characters of the alphabet of encoded texts with which a spelling starts.
-/
def leading :
    {position : Position} → Spelling String position → Bool → List Char
  | _, .bracket denied _, _ => if denied then ['N', 'O', 'T', '+'] else []
  | _, .test field _ _ _, _ => field.characters
  | _, .stop, _ => []
  | _, .close _, _ => []
  | _, .joined .and _, _ => []
  | _, .joined .or next, inRun => Junction.or.sent inRun ++ next.leading false

/-- What follows those characters. -/
def trailing : {position : Position} → Spelling String position → List Char
  | _, .bracket _ next => '(' :: next.sent false
  | _, .test _ operator value next =>
      '[' :: ']' :: '=' :: (operator.sent ++
        (sentValue value ++ next.sent (operator.endsInRun && value.isEmpty)))
  | _, .stop => []
  | _, .close next => ')' :: next.sent false
  | _, .joined .and next => '&' :: next.sent false
  | _, .joined .or next => next.trailing

variable {position : Position}

theorem sent_eq (spelling : Spelling String position) (inRun : Bool) :
    spelling.sent inRun = spelling.leading inRun ++ spelling.trailing := by
  induction spelling generalizing inRun with
  | bracket denied next ih => cases denied <;> rfl
  | test field operator value next ih =>
      have marks : "[]=".toList = ['[', ']', '='] := by decide
      simp [sent, leading, trailing, selector, marks]
  | stop => rfl
  | close next ih => rfl
  | joined junction next ih =>
      cases junction with
      | and => rfl
      | or => rw [sent, ih, leading, trailing, List.append_assoc]

theorem isFormCharacter_of_mem_leading
    (spelling : Spelling String position) (inRun : Bool) :
    ∀ character ∈ spelling.leading inRun, isFormCharacter character = true := by
  induction spelling generalizing inRun with
  | bracket denied next ih =>
      have word : ['N', 'O', 'T', '+'].all isFormCharacter = true := by decide
      cases denied with
      | false => simp [leading]
      | true => exact List.all_eq_true.mp word
  | test field operator value next ih =>
      exact fun _ member => isFormCharacter_of_mem_characters member
  | stop => simp [leading]
  | close next ih => simp [leading]
  | joined junction next ih =>
      cases junction with
      | and => simp [leading]
      | or =>
          intro character member
          rcases List.mem_append.mp member with word | inNext
          · have letters :
                (Junction.or.sent inRun).all isFormCharacter = true := by
              cases inRun <;> decide
            exact List.all_eq_true.mp letters character word
          · exact ih false character inNext

theorem head_trailing (spelling : Spelling String position) :
    ∀ character ∈ spelling.trailing.head?,
      isFormCharacter character = false := by
  have apart :
      ['(', '[', ')', '&'].all (fun mark => !isFormCharacter mark) = true := by
    decide
  have marks : ∀ mark ∈ ['(', '[', ')', '&'], isFormCharacter mark = false := by
    intro mark member
    simpa using List.all_eq_true.mp apart mark member
  induction spelling with
  | bracket denied next ih => simp [trailing, marks]
  | test field operator value next ih => simp [trailing, marks]
  | stop => simp [trailing]
  | close next ih => simp [trailing, marks]
  | joined junction next ih =>
      cases junction with
      | and => simp [trailing, marks]
      | or => exact ih

/-! ## Reading a spelling -/

/--
Two texts of the alphabet in front of spellings are equal up to the end of the
first run.
-/
theorem leading_trailing_inj
    {text other : List Char} {left right : Spelling String position}
    {inRun otherRun : Bool}
    (form : ∀ character ∈ text, isFormCharacter character = true)
    (otherForm : ∀ character ∈ other, isFormCharacter character = true)
    (equal : text ++ left.sent inRun = other ++ right.sent otherRun) :
    text ++ left.leading inRun = other ++ right.leading otherRun ∧
      left.trailing = right.trailing := by
  rw [sent_eq, sent_eq, ← List.append_assoc, ← List.append_assoc] at equal
  refine append_inj_of_class ?_ ?_ left.head_trailing right.head_trailing equal
  · intro character member
    rcases List.mem_append.mp member with inText | inLeading
    · exact form character inText
    · exact left.isFormCharacter_of_mem_leading inRun character inLeading
  · intro character member
    rcases List.mem_append.mp member with inText | inLeading
    · exact otherForm character inText
    · exact right.isFormCharacter_of_mem_leading otherRun character inLeading

theorem leading_inj
    {left right : Spelling String position} {inRun otherRun : Bool}
    (equal : left.sent inRun = right.sent otherRun) :
    left.leading inRun = right.leading otherRun ∧
      left.trailing = right.trailing := by
  have noText :
      ∀ character ∈ ([] : List Char), isFormCharacter character = true := by
    simp
  exact leading_trailing_inj noText noText equal

/--
The last letters of a run tell whether a bracket after a disjunction is denied.
-/
theorem append_ne_denied (text other : List Char) :
    text ++ ['O', 'R', '+'] ≠
      other ++ ['O', 'R', '+'] ++ ['N', 'O', 'T', '+'] := by
  intro equal
  have split :
      (text ++ ['O']) ++ ['R', '+'] =
        (other ++ ['O', 'R', '+', 'N', 'O']) ++ ['T', '+'] := by
    simpa using equal
  exact absurd (List.append_inj' split rfl).2 (by decide)

/-- A name has no plus sign, so the last one of a run stands before the name. -/
theorem append_name_inj
    {text other : List Char} {field otherField : FieldName}
    (equal :
      text ++ ['+'] ++ field.characters =
        other ++ ['+'] ++ otherField.characters) :
    text = other := by
  have named (name : FieldName) :
      ∀ character ∈ name.characters.reverse, (character != '+') = true := by
    intro character member
    rw [List.mem_reverse] at member
    have noPlus : '+' ∉ name.characters := name.notMem (by decide)
    rw [bne_iff_ne]
    rintro rfl
    exact noPlus member
  have reversed :
      field.characters.reverse ++ '+' :: text.reverse =
        otherField.characters.reverse ++ '+' :: other.reverse := by
    simpa using congrArg List.reverse equal
  obtain ⟨-, rests⟩ :=
    append_inj_of_class (named field) (named otherField) (by simp) (by simp)
      reversed
  rw [List.cons.injEq, List.reverse_inj] at rests
  exact rests.2

/--
What stands before a disjunction is known from the run of characters around it.
The character after the run tells a bracket from a name.
-/
theorem before_disjunction_inj
    {text other : List Char} {left right : Spelling String .start}
    (runs : text ++ ['O', 'R', '+'] ++ left.leading false =
      other ++ ['O', 'R', '+'] ++ right.leading false)
    (rests : left.trailing = right.trailing) :
    text = other := by
  cases left with
  | bracket denied next =>
      cases right with
      | test field operator value otherNext => simp [trailing] at rests
      | bracket otherDenied otherNext =>
          cases denied with
          | false =>
              cases otherDenied with
              | false =>
                  exact List.append_cancel_right (List.append_cancel_right runs)
              | true =>
                  rw [leading, leading, if_neg Bool.false_ne_true,
                    List.append_nil] at runs
                  exact absurd runs (append_ne_denied text other)
          | true =>
              cases otherDenied with
              | false =>
                  rw [leading, leading, if_neg Bool.false_ne_true,
                    List.append_nil] at runs
                  exact absurd runs.symm (append_ne_denied other text)
              | true =>
                  exact List.append_cancel_right (List.append_cancel_right runs)
  | test field operator value next =>
      cases right with
      | bracket otherDenied otherNext => simp [trailing] at rests
      | test otherField otherOperator otherValue otherNext =>
          have split :
              (text ++ ['O', 'R']) ++ ['+'] ++ field.characters =
                (other ++ ['O', 'R']) ++ ['+'] ++ otherField.characters := by
            simpa [leading] using runs
          exact List.append_cancel_right (append_name_inj split)

theorem sentValue_inj {value other : String}
    (equal : sentValue value = sentValue other) :
    value = other :=
  String.toList_inj.mp (Text.FormEncoding.encodeChars_injective equal)

/--
The blank of a disjunction is lost only after an empty value, which is known
from that.
-/
theorem value_inj_of_blank
    {mayJoin : Bool} {value other : String}
    (equal :
      sentValue value ++ (if mayJoin && value.isEmpty then [] else ['+']) =
        sentValue other ++ (if mayJoin && other.isEmpty then [] else ['+'])) :
    value = other := by
  have emptyValue {text : String} (empty : (mayJoin && text.isEmpty) = true) :
      text = "" := by
    rw [Bool.and_eq_true, String.isEmpty_iff] at empty
    exact empty.2
  have sentEmpty : sentValue "" = [] := rfl
  by_cases joins : (mayJoin && value.isEmpty) = true
  · by_cases otherJoins : (mayJoin && other.isEmpty) = true
    · rw [emptyValue joins, emptyValue otherJoins]
    · rw [if_pos joins, if_neg otherJoins, emptyValue joins, sentEmpty] at equal
      simp at equal
  · by_cases otherJoins : (mayJoin && other.isEmpty) = true
    · rw [if_neg joins, if_pos otherJoins, emptyValue otherJoins,
        sentEmpty] at equal
      simp at equal
    · rw [if_neg joins, if_neg otherJoins] at equal
      exact sentValue_inj (List.append_cancel_right equal)

theorem junction_or_sent (inRun : Bool) :
    Junction.or.sent inRun =
      (if inRun then [] else ['+']) ++ ['O', 'R', '+'] := by
  cases inRun <;> rfl

/--
After an operand comes a disjunction, or a character that starts no operand.
-/
theorem disjunction_or_apart (next : Spelling String .finish) :
    (∃ operand, next = .joined .or operand) ∨
      ((∀ inRun, next.leading inRun = []) ∧
        ∀ operand : Spelling String .start,
          operand.trailing ≠ next.trailing) := by
  have apart (rest : List Char)
      (follows : rest.head? ≠ some '(' ∧ rest.head? ≠ some '[')
      (operand : Spelling String .start) : operand.trailing ≠ rest := by
    intro equal
    rw [← equal] at follows
    cases operand <;> simp [trailing] at follows
  cases next with
  | stop => exact Or.inr ⟨fun _ => rfl, apart [] (by decide)⟩
  | close rest => exact Or.inr ⟨fun _ => rfl, apart _ (by simp [trailing])⟩
  | joined junction operand =>
      cases junction with
      | and => exact Or.inr ⟨fun _ => rfl, apart _ (by simp [trailing])⟩
      | or => exact Or.inl ⟨operand, rfl⟩

/--
A value is known from what is written from it on.  Only a disjunction continues
the run of a value.
-/
theorem value_inj
    {mayJoin : Bool} {value other : String}
    {next otherNext : Spelling String .finish}
    (equal : sentValue value ++ next.sent (mayJoin && value.isEmpty) =
      sentValue other ++ otherNext.sent (mayJoin && other.isEmpty)) :
    value = other := by
  have form (text : String) :
      ∀ character ∈ sentValue text, isFormCharacter character = true :=
    fun _ member => Text.FormEncoding.isFormCharacter_of_mem_encodeChars member
  obtain ⟨runs, rests⟩ := leading_trailing_inj (form value) (form other) equal
  rcases next.disjunction_or_apart with ⟨operand, rfl⟩ | ⟨noLeading, apart⟩
  · rcases otherNext.disjunction_or_apart with
      ⟨otherOperand, rfl⟩ | ⟨-, otherApart⟩
    · rw [leading, leading, junction_or_sent, junction_or_sent,
        List.append_assoc, List.append_assoc] at runs
      rw [← List.append_assoc, ← List.append_assoc,
        ← List.append_assoc (sentValue other),
        ← List.append_assoc (sentValue other ++ _)] at runs
      exact value_inj_of_blank (before_disjunction_inj runs rests)
    · exact absurd rests (otherApart operand)
  · rcases otherNext.disjunction_or_apart with
      ⟨otherOperand, rfl⟩ | ⟨otherNoLeading, -⟩
    · exact absurd rests.symm (apart otherOperand)
    · rw [noLeading, otherNoLeading, List.append_nil, List.append_nil] at runs
      exact sentValue_inj runs

theorem sentOpening_append_inj
    {denied otherDenied : Bool} {rest otherRest : List Char}
    (equal :
      sentOpening denied ++ rest = sentOpening otherDenied ++ otherRest) :
    denied = otherDenied ∧ rest = otherRest := by
  cases denied <;> cases otherDenied <;> simp_all [sentOpening]

theorem junction_sent_append_inj
    {inRun : Bool} {junction other : Junction} {rest otherRest : List Char}
    (equal : junction.sent inRun ++ rest = other.sent inRun ++ otherRest) :
    junction = other ∧ rest = otherRest := by
  cases junction <;> cases other <;> cases inRun <;> simp_all [Junction.sent]

theorem junction_sent_append_ne
    (inRun : Bool) (junction : Junction) (rest otherRest : List Char) :
    junction.sent inRun ++ rest ≠ [] ∧
      junction.sent inRun ++ rest ≠ ')' :: otherRest := by
  cases junction <;> cases inRun <;> simp [Junction.sent]

/--
A spelling is known from what is sent for it.  Once a value is known, so is
whether a run of blanks is open after it.
-/
theorem sent_injective
    {left right : Spelling String position} {inRun : Bool}
    (equal : left.sent inRun = right.sent inRun) :
    left = right := by
  induction left generalizing inRun with
  | bracket denied next ih =>
      cases right with
      | bracket otherDenied other =>
          obtain ⟨rfl, rests⟩ := sentOpening_append_inj equal
          rw [ih rests]
      | test field operator value other =>
          have rests := (leading_inj equal).2
          simp [trailing] at rests
  | test field operator value next ih =>
      obtain ⟨names, rests⟩ := leading_inj equal
      cases right with
      | bracket otherDenied other => simp [trailing] at rests
      | test otherField otherOperator otherValue other =>
          obtain rfl : field = otherField := FieldName.ext names
          rw [trailing, trailing, List.cons.injEq, List.cons.injEq,
            List.cons.injEq] at rests
          obtain ⟨rfl, values⟩ := Comparison.sent_append_inj rests.2.2.2
          obtain rfl := value_inj values
          rw [ih (List.append_cancel_left values)]
  | stop =>
      cases right with
      | stop => rfl
      | close other => simp [sent] at equal
      | joined junction other =>
          exact absurd equal.symm
            (junction_sent_append_ne inRun junction _ []).1
  | close next ih =>
      cases right with
      | stop => simp [sent] at equal
      | close other =>
          rw [sent, sent, List.cons.injEq] at equal
          rw [ih equal.2]
      | joined junction other =>
          exact absurd equal.symm (junction_sent_append_ne inRun junction _ _).2
  | joined junction next ih =>
      cases right with
      | stop =>
          exact absurd equal (junction_sent_append_ne inRun junction _ []).1
      | close other =>
          exact absurd equal (junction_sent_append_ne inRun junction _ _).2
      | joined otherJunction other =>
          obtain ⟨rfl, rests⟩ := junction_sent_append_inj equal
          rw [ih rests]

end Spelling

/-! ## Reading a query string -/

namespace Condition

theorem spelling_of_sent_eq {left right : Condition}
    (equal : left.sent = right.sent) :
    left.spelling.map Parameter.literal =
      right.spelling.map Parameter.literal := by
  rw [sent, sent, String.ofList_inj, List.cons.injEq] at equal
  exact Spelling.sent_injective equal.2

/--
Conditions with the same query string are written by the same text with the same
values.
-/
theorem filter_of_sent_eq {left right : Condition}
    (equal : left.sent = right.sent) :
    left.filter.text = right.filter.text ∧
      left.filter.parameters.map Parameter.literal =
        right.filter.parameters.map Parameter.literal := by
  have spellings := spelling_of_sent_eq equal
  obtain ⟨leftText, leftValues⟩ := left.filter_spelling
  obtain ⟨rightText, rightValues⟩ := right.filter_spelling
  constructor
  · rw [← String.toList_inj, leftText, rightText,
      ← Spelling.text_map Parameter.literal, spellings, Spelling.text_map]
  · rw [leftValues, rightValues, ← Spelling.values_map, spellings,
      Spelling.values_map]

theorem sent_ne_empty (condition : Condition) : condition.sent ≠ "?" := by
  intro empty
  have opening : "?" = String.ofList ['?'] := by decide
  rw [sent, opening, String.ofList_inj, List.cons.injEq, Spelling.sent_eq,
    List.append_eq_nil_iff] at empty
  cases start : condition.spelling.map Parameter.literal with
  | bracket denied next => simp [start, Spelling.trailing] at empty
  | test field operator value next => simp [start, Spelling.trailing] at empty

end Condition

namespace Tree

/--
Trees with the same query string state nothing, or are compiled to filters with
the same text whose parameters have the same literals.
-/
theorem queryString_determines_filter
    {catalog : Catalog} (registered : catalog.Registered)
    {clock otherClock : Instant}
    {left right : Tree} {leftResult rightResult : Option Filter}
    {leftAfter rightAfter : Journal}
    (leftCompiled :
      left.compile catalog clock Journal.empty = .ok leftResult leftAfter)
    (rightCompiled :
      right.compile catalog otherClock Journal.empty =
        .ok rightResult rightAfter)
    (equal :
      left.queryString catalog clock = right.queryString catalog otherClock) :
    (leftResult = none ∧ rightResult = none) ∨
      ∃ leftFilter rightFilter,
        leftResult = some leftFilter ∧ rightResult = some rightFilter ∧
        leftFilter.text = rightFilter.text ∧
        leftFilter.parameters.map Parameter.literal =
          rightFilter.parameters.map Parameter.literal := by
  obtain ⟨rfl, leftSent⟩ := compile_empty_eq_ok registered leftCompiled
  obtain ⟨rfl, rightSent⟩ := compile_empty_eq_ok registered rightCompiled
  rw [leftSent, rightSent, Except.ok.injEq] at equal
  cases leftStated : left.condition? catalog (catalog.anchor clock) with
  | none =>
      cases rightStated :
          right.condition? catalog (catalog.anchor otherClock) with
      | none => exact Or.inl ⟨rfl, rfl⟩
      | some condition =>
          rw [leftStated, rightStated] at equal
          exact absurd equal.symm condition.sent_ne_empty
  | some condition =>
      cases rightStated :
          right.condition? catalog (catalog.anchor otherClock) with
      | none =>
          rw [leftStated, rightStated] at equal
          exact absurd equal condition.sent_ne_empty
      | some other =>
          rw [leftStated, rightStated] at equal
          exact Or.inr ⟨condition.filter, other.filter, rfl, rfl,
            Condition.filter_of_sent_eq equal⟩

/--
A search for machines by name, in which values are empty and hold a word of
filters.
-/
def nameSearch : Tree :=
  .connection .or
    [ .comparison .different [.leaf "name", .leaf ""],
      .comparison .equal [.leaf "name", .leaf "a OR b"] ]

/-- The same search by an alias, with a conjunction of one operand. -/
def aliasSearch : Tree :=
  .connection .or
    [ .comparison .different [.leaf "hostname", .leaf ""],
      .connection .and [.comparison .equal [.leaf "hostname", .leaf "a OR b"]] ]

/-- The filter of the search by name. -/
def nameFilter : Filter where
  text := "name[]= <> ? OR name[]= = ?"
  parameters := [.text "", .text "a OR b"]

theorem compile_nameSearch :
    ∃ after,
      nameSearch.compile Catalog.inventory Catalog.inventoryDay Journal.empty =
        .ok (some nameFilter) after :=
  ⟨_, rfl⟩

theorem compile_aliasSearch :
    ∃ after,
      aliasSearch.compile Catalog.inventory Catalog.inventoryDay Journal.empty =
        .ok (some nameFilter) after :=
  ⟨_, rfl⟩

/--
The searches by name and by alias have one query string, and so one filter.
-/
theorem queryString_determines_filter_inventory :
    nameSearch.queryString Catalog.inventory Catalog.inventoryDay =
        aliasSearch.queryString Catalog.inventory Catalog.inventoryDay ∧
      ∃ after other,
        nameSearch.compile Catalog.inventory Catalog.inventoryDay
          Journal.empty =
            .ok (some nameFilter) after ∧
          aliasSearch.compile Catalog.inventory Catalog.inventoryDay
              Journal.empty =
            .ok (some nameFilter) other ∧
          ∃ left right, some nameFilter = some left ∧
            some nameFilter = some right ∧
            left.text = right.text ∧
            left.parameters.map Parameter.literal =
              right.parameters.map Parameter.literal := by
  obtain ⟨after, compiled⟩ := compile_nameSearch
  obtain ⟨other, otherCompiled⟩ := compile_aliasSearch
  have equal :
      nameSearch.queryString Catalog.inventory Catalog.inventoryDay =
        aliasSearch.queryString Catalog.inventory Catalog.inventoryDay :=
    rfl
  have determined :=
    queryString_determines_filter Catalog.registered_inventory compiled
      otherCompiled equal
  exact ⟨equal, after, other, compiled, otherCompiled,
    determined.resolve_left (by simp)⟩

end Tree

end SearchPhrase
