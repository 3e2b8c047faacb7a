import SearchPhrase.Filter.Compilation
import SearchPhrase.Proofs.Schema.Registration

/-!
# Conditions

A filter is a text.  What the text says is a condition: tests of fields, which
may be grouped, denied and joined.  Every condition is written by a filter, and
leaves notices in a journal.  The filters that fields are tested by are written
by conditions again, and so are joined and denied filters.
-/

namespace SearchPhrase

/-! ## Junctions -/

/-- One of the two ways in which conditions are joined. -/
inductive Junction where
  | and
  | or
deriving DecidableEq, Repr

namespace Junction

/-- The connective of a junction. -/
def connective : Junction → Connective
  | .and => .and
  | .or => .or

/--
The characters that stand between joined operands in the text of a filter.
-/
def characters : Junction → List Char
  | .and => ['&']
  | .or => [' ', 'O', 'R', ' ']

/-- Filters write a connective by the characters by which it is read. -/
theorem filterText_connective (junction : Junction) :
    junction.connective.filterText = String.ofList junction.characters := by
  cases junction <;> decide

end Junction

/-! ## Conditions and their filters -/

/-- What a filter says about the fields of a record. -/
inductive Condition where
  | test (field : FieldName) (operator : Comparison) (parameter : Parameter)
  /-- The value lies from the first parameter on and before the second. -/
  | range (field : FieldName) (start stop : Parameter)
  | group (inner : Condition)
  | denial (inner : Condition)
  | joined (junction : Junction) (left right : Condition)
deriving DecidableEq

namespace Condition

/-- The words that stand for a comparison in the text of a filter. -/
def words : Comparison → String
  | .equal => "="
  | .different => "<>"
  | .greater => ">"
  | .greaterOrEqual => ">="
  | .less => "<"
  | .lessOrEqual => "<="
  | .like => "LIKE"
  | .unlike => "NOT LIKE"

/-- Filters write a comparison by the words by which it is read. -/
theorem filterText_eq_words (operator : Comparison) :
    operator.filterText = words operator := by
  cases operator <;> rfl

/-- The characters of the comparison of a field with one parameter. -/
def comparisonCharacters (field : FieldName) (operator : Comparison) :
    List Char :=
  field.characters ++ "[]=".toList ++ ' ' :: (words operator).toList ++
    " ?".toList

/-- The characters that open a group, which may be denied. -/
def opening (denied : Bool) : List Char :=
  if denied then ['N', 'O', 'T', ' ', '('] else ['(']

/-- The characters of the filter that writes a condition. -/
def characters : Condition → List Char
  | .test field operator _ => comparisonCharacters field operator
  | .range field _ _ =>
      comparisonCharacters field .greaterOrEqual ++ Junction.and.characters ++
        comparisonCharacters field .less
  | .group inner => opening false ++ inner.characters ++ [')']
  | .denial inner => opening true ++ inner.characters ++ [')']
  | .joined junction left right =>
      left.characters ++ junction.characters ++ right.characters

/-- The parameters of the tests of a condition, in order. -/
def parameters : Condition → List Parameter
  | .test _ _ parameter => [parameter]
  | .range _ start stop => [start, stop]
  | .group inner => inner.parameters
  | .denial inner => inner.parameters
  | .joined _ left right => left.parameters ++ right.parameters

/-- The filter that writes a condition. -/
def filter (condition : Condition) : Filter where
  text := String.ofList condition.characters
  parameters := condition.parameters

theorem filter_eq
    {condition : Condition} {filter : Filter}
    (text : condition.characters = filter.text.toList)
    (parameters : condition.parameters = filter.parameters) :
    condition.filter = filter := by
  cases filter
  simp only at text parameters
  simp [Condition.filter, text, parameters]

/-- What is noted about the tests of a condition, in order. -/
def notices : Condition → List Notice
  | .test field operator parameter =>
      Notice.ofTest field.text operator [parameter]
  | .range field start stop =>
      Notice.ofTest field.text .greaterOrEqual [start, stop]
  | .group inner => inner.notices
  | .denial inner => inner.notices
  | .joined _ left right => left.notices ++ right.notices

theorem parameters_notices (condition : Condition) :
    condition.notices.filterMap Notice.parameter? = condition.parameters := by
  induction condition with
  | test field operator parameter => rfl
  | range field start stop => rfl
  | group inner ih => exact ih
  | denial inner ih => exact ih
  | joined junction left right leftIH rightIH =>
      rw [notices, List.filterMap_append, leftIH, rightIH, parameters]

theorem characters_ne_nil (condition : Condition) :
    condition.characters ≠ [] := by
  induction condition with
  | test field operator parameter => simp [characters, comparisonCharacters]
  | range field start stop => simp [characters, comparisonCharacters]
  | group inner ih => simp [characters]
  | denial inner ih => simp [characters]
  | joined junction left right leftIH rightIH => simp [characters, leftIH]

@[simp]
theorem isEmpty_filter (condition : Condition) :
    condition.filter.isEmpty = false := by
  have nonempty := condition.characters_ne_nil
  simpa [filter, Filter.isEmpty, String.isEmpty_iff] using nonempty

/-! ## Placeholders -/

theorem count_placeholder_comparison (field : FieldName)
    (operator : Comparison) :
    (comparisonCharacters field operator).count '?' = 1 := by
  have named : field.characters.count '?' = 0 :=
    List.count_eq_zero.mpr (field.notMem (by decide))
  have worded : (words operator).toList.count '?' = 0 := by
    cases operator <;> decide
  simp [comparisonCharacters, named, worded]

/-- The filter of a condition has one placeholder for each parameter. -/
theorem placeholders_filter (condition : Condition) :
    condition.filter.placeholders = condition.parameters.length := by
  rw [Filter.placeholders, filter, String.toList_ofList, Filter.placeholder]
  induction condition with
  | test field operator parameter =>
      exact count_placeholder_comparison field operator
  | range field start stop =>
      have between : Junction.and.characters.count '?' = 0 := by decide
      simp [characters, parameters, count_placeholder_comparison, between]
  | group inner ih => simp [characters, parameters, opening, ← ih]
  | denial inner ih => simp [characters, parameters, opening, ← ih]
  | joined junction left right leftIH rightIH =>
      have between : junction.characters.count '?' = 0 := by
        cases junction <;> decide
      simp [characters, parameters, ← leftIH, ← rightIH, between]

/-! ## Joined conditions -/

/-- The conditions of a list joined from the left; none if there are none. -/
def join (junction : Junction) : List Condition → Option Condition
  | [] => none
  | first :: rest => some (rest.foldl (joined junction) first)

/--
The condition of the operands of a connective; a negation denies them all
together.
-/
def connect : Connective → List Condition → Option Condition
  | .and, operands => join .and operands
  | .or, operands => join .or operands
  | .not, operands => (join .and operands).map denial

theorem filter_denial (condition : Condition) :
    condition.denial.filter = condition.filter.negated := by
  simp only [filter, Filter.negated, characters, parameters,
    String.ofList_append]
  rfl

theorem followedBy_cons
    (separator : String) (first second : Filter) (rest : List Filter) :
    Filter.followedBy separator first (second :: rest) =
      Filter.followedBy separator (Filter.followedBy separator first [second])
        rest := by
  simp [Filter.followedBy]

theorem filter_joined (junction : Junction) (left right : Condition) :
    (joined junction left right).filter =
      Filter.followedBy junction.connective.filterText left.filter
        [right.filter] := by
  simp [filter, Filter.followedBy, characters, parameters,
    Junction.filterText_connective]

theorem filter_foldl
    (junction : Junction) (first : Condition) (rest : List Condition) :
    (rest.foldl (joined junction) first).filter =
      Filter.followedBy junction.connective.filterText first.filter
        (rest.map filter) := by
  induction rest generalizing first with
  | nil => simp
  | cons second others ih =>
      rw [List.foldl_cons, ih, List.map_cons, followedBy_cons, filter_joined]

/-- Joining filters of conditions gives the filter of the joined conditions. -/
theorem join_filter (junction : Junction) (operands : List Condition) :
    Filter.join junction.connective.filterText (operands.map filter) =
      (join junction operands).map filter := by
  have kept :
      (operands.map filter).filter (fun operand => !operand.isEmpty) =
        operands.map filter := by
    apply List.filter_eq_self.mpr
    intro operand member
    obtain ⟨condition, -, rfl⟩ := List.mem_map.mp member
    simp
  rw [Filter.join, kept]
  cases operands with
  | nil => rfl
  | cons first rest => simp [join, filter_foldl]

theorem connect_filter (connective : Connective) (operands : List Condition) :
    Filter.connect connective (operands.map filter) =
      (connect connective operands).map filter := by
  cases connective with
  | and => exact join_filter .and operands
  | or => exact join_filter .or operands
  | not =>
      have joinedFilter := join_filter .and operands
      simp only [Junction.connective] at joinedFilter
      simp only [Filter.connect, connect, joinedFilter, Option.map_map]
      congr 1
      funext condition
      exact (filter_denial condition).symm

theorem notices_foldl
    (junction : Junction) (first : Condition) (rest : List Condition) :
    (rest.foldl (joined junction) first).notices =
      first.notices ++ rest.flatMap notices := by
  induction rest generalizing first with
  | nil => simp
  | cons second others ih =>
      rw [List.foldl_cons, ih, notices, List.flatMap_cons, List.append_assoc]

/-- Joining conditions notes the tests of all of them in order. -/
theorem notices_join (junction : Junction) (operands : List Condition) :
    (join junction operands).toList.flatMap notices =
      operands.flatMap notices := by
  cases operands with
  | nil => rfl
  | cons first rest => simp [join, notices_foldl]

theorem notices_connect (connective : Connective) (operands : List Condition) :
    (connect connective operands).toList.flatMap notices =
      operands.flatMap notices := by
  cases connective with
  | and => exact notices_join .and operands
  | or => exact notices_join .or operands
  | not =>
      rw [← notices_join .and operands, connect]
      cases join .and operands with
      | none => rfl
      | some condition => simp [notices]

end Condition

end SearchPhrase
