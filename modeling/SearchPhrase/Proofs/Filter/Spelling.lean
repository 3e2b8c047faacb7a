import SearchPhrase.Proofs.Filter.Condition

/-!
# Spellings

The text of a filter is a row of tests, brackets and junctions in which the
grouping of a condition is lost.  A spelling is such a row: an operand starts at
its beginning and after every bracket that opens and every junction, and a test
or a bracket that closes ends an operand.  Brackets need not match.

A spelling can be written in more than one way, according to how operators and
values are written.  The text of a filter is one of these ways.
-/

namespace SearchPhrase

/-- A place in a spelling: where an operand starts, or where one has ended. -/
inductive Position where
  | start
  | finish
deriving DecidableEq, Repr

/-- The rest of a row of tests, brackets and junctions from a given place on. -/
inductive Spelling (α : Type) : Position → Type where
  | bracket (denied : Bool) (next : Spelling α .start) : Spelling α .start
  | test (field : FieldName) (operator : Comparison) (value : α)
      (next : Spelling α .finish) : Spelling α .start
  | stop : Spelling α .finish
  | close (next : Spelling α .finish) : Spelling α .finish
  | joined (junction : Junction) (next : Spelling α .start) : Spelling α .finish

namespace Spelling

variable {α β : Type} {position : Position}

/-- The values of the tests, in order. -/
def values : {position : Position} → Spelling α position → List α
  | _, .bracket _ next => next.values
  | _, .test _ _ value next => value :: next.values
  | _, .stop => []
  | _, .close next => next.values
  | _, .joined _ next => next.values

/-- The spelling with a function applied to its values. -/
def map (function : α → β) :
    {position : Position} → Spelling α position → Spelling β position
  | _, .bracket denied next => .bracket denied (next.map function)
  | _, .test field operator value next =>
      .test field operator (function value) (next.map function)
  | _, .stop => .stop
  | _, .close next => .close (next.map function)
  | _, .joined junction next => .joined junction (next.map function)

/-- The characters by which a filter names a field. -/
def selector (field : FieldName) : List Char :=
  field.characters ++ "[]=".toList

/-- A spelling in characters, with given characters for operators and values. -/
def written (operatorText : Comparison → List Char)
    (valueText : α → List Char) :
    {position : Position} → Spelling α position → List Char
  | _, .bracket denied next =>
      Condition.opening denied ++ next.written operatorText valueText
  | _, .test field operator value next =>
      selector field ++ operatorText operator ++ valueText value ++
        next.written operatorText valueText
  | _, .stop => []
  | _, .close next => ')' :: next.written operatorText valueText
  | _, .joined junction next =>
      junction.characters ++ next.written operatorText valueText

/-- An operator between blanks. -/
def spaced (operator : Comparison) : List Char :=
  ' ' :: (Condition.words operator).toList ++ [' ']

/-- The text of a filter, in which placeholders stand for the values. -/
def text (spelling : Spelling α position) : List Char :=
  spelling.written spaced fun _ => [Filter.placeholder]

section Text

variable (next : Spelling α .finish) (operand : Spelling α .start)

@[simp]
theorem text_bracket (denied : Bool) :
    (bracket denied operand).text = Condition.opening denied ++ operand.text :=
  rfl

@[simp]
theorem text_test (field : FieldName) (operator : Comparison) (value : α) :
    (test field operator value next).text =
      selector field ++ (spaced operator ++ '?' :: next.text) := by
  simp [text, written, Filter.placeholder]

@[simp]
theorem text_stop : (stop : Spelling α .finish).text = [] :=
  rfl

@[simp]
theorem text_close : (close next).text = ')' :: next.text :=
  rfl

@[simp]
theorem text_joined (junction : Junction) :
    (joined junction operand).text = junction.characters ++ operand.text :=
  rfl

end Text

@[simp]
theorem values_map (function : α → β) (spelling : Spelling α position) :
    (spelling.map function).values = spelling.values.map function := by
  induction spelling with
  | bracket denied next ih => exact ih
  | test field operator value next ih => simp [map, values, ih]
  | stop => rfl
  | close next ih => exact ih
  | joined junction next ih => exact ih

theorem written_map
    (function : α → β) (operatorText : Comparison → List Char)
    (valueText : β → List Char) (spelling : Spelling α position) :
    (spelling.map function).written operatorText valueText =
      spelling.written operatorText fun value =>
        valueText (function value) := by
  induction spelling with
  | bracket denied next ih => simp [map, written, ih]
  | test field operator value next ih => simp [map, written, ih]
  | stop => rfl
  | close next ih => simp [map, written, ih]
  | joined junction next ih => simp [map, written, ih]

@[simp]
theorem text_map (function : α → β) (spelling : Spelling α position) :
    (spelling.map function).text = spelling.text :=
  written_map function spaced _ spelling

/--
Spellings are equal if they agree up to their values and have the same values.
-/
theorem eq_of_map_eq
    (function : α → β) {left right : Spelling α position}
    (shape : left.map function = right.map function)
    (values : left.values = right.values) :
    left = right := by
  induction left with
  | bracket denied next ih =>
      cases right with
      | bracket otherDenied other =>
          simp only [map, bracket.injEq] at shape
          rw [shape.1, ih shape.2 values]
      | test field operator value other => simp [map] at shape
  | test field operator value next ih =>
      cases right with
      | bracket otherDenied other => simp [map] at shape
      | test otherField otherOperator otherValue other =>
          simp only [map, test.injEq] at shape
          simp only [Spelling.values, List.cons.injEq] at values
          rw [shape.1, shape.2.1, values.1, ih shape.2.2.2 values.2]
  | stop =>
      cases right with
      | stop => rfl
      | close other => simp [map] at shape
      | joined junction other => simp [map] at shape
  | close next ih =>
      cases right with
      | stop => simp [map] at shape
      | close other =>
          simp only [map, close.injEq] at shape
          rw [ih shape values]
      | joined junction other => simp [map] at shape
  | joined junction next ih =>
      cases right with
      | stop => simp [map] at shape
      | close other => simp [map] at shape
      | joined otherJunction other =>
          simp only [map, joined.injEq] at shape
          rw [shape.1, ih shape.2 values]

end Spelling

/-! ## Spelling a condition -/

namespace Condition

/-- The spelling of a condition in front of what follows it. -/
def spell : Condition → Spelling Parameter .finish → Spelling Parameter .start
  | .test field operator parameter, next => .test field operator parameter next
  | .range field start stop, next =>
      .test field .greaterOrEqual start
        (.joined .and (.test field .less stop next))
  | .group inner, next => .bracket false (inner.spell (.close next))
  | .denial inner, next => .bracket true (inner.spell (.close next))
  | .joined junction left right, next =>
      left.spell (.joined junction (right.spell next))

/-- The spelling of a condition that nothing follows. -/
def spelling (condition : Condition) : Spelling Parameter .start :=
  condition.spell .stop

theorem comparisonCharacters_eq (field : FieldName) (operator : Comparison) :
    comparisonCharacters field operator =
      Spelling.selector field ++ (Spelling.spaced operator ++ ['?']) := by
  simp [comparisonCharacters, Spelling.selector, Spelling.spaced]

theorem text_spell (condition : Condition) (next : Spelling Parameter .finish) :
    (condition.spell next).text = condition.characters ++ next.text := by
  induction condition generalizing next with
  | test field operator parameter =>
      simp [spell, characters, comparisonCharacters_eq]
  | range field start stop => simp [spell, characters, comparisonCharacters_eq]
  | group inner ih => simp [spell, characters, ih]
  | denial inner ih => simp [spell, characters, ih]
  | joined junction left right leftIH rightIH =>
      simp [spell, characters, leftIH, rightIH]

theorem values_spell (condition : Condition)
    (next : Spelling Parameter .finish) :
    (condition.spell next).values = condition.parameters ++ next.values := by
  induction condition generalizing next with
  | test field operator parameter => rfl
  | range field start stop => rfl
  | group inner ih => exact ih (.close next)
  | denial inner ih => exact ih (.close next)
  | joined junction left right leftIH rightIH =>
      rw [spell, leftIH, Spelling.values, rightIH, parameters,
        List.append_assoc]

/--
The spelling of a condition has the text and the parameters of its filter.
-/
theorem filter_spelling (condition : Condition) :
    condition.filter.text.toList = condition.spelling.text ∧
      condition.filter.parameters = condition.spelling.values := by
  have stopValues :
      (Spelling.stop : Spelling Parameter .finish).values = [] := rfl
  constructor
  · rw [spelling, text_spell, Spelling.text_stop, List.append_nil, filter,
      String.toList_ofList]
  · rw [spelling, values_spell, stopValues, List.append_nil, filter]

end Condition

end SearchPhrase
