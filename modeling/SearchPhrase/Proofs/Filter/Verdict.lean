import SearchPhrase.Proofs.Calendar.Order
import SearchPhrase.Proofs.Filter.TestCondition

/-!
# Verdicts of tests

The filter of a test speaks of one field.  Its text is read with the field at
hand: it compares the field with a parameter, perhaps in brackets and perhaps
denied, or it demands two comparisons at once.  The reader knows the comparisons
by words of its own, and the filters of tests are shown to be written by these
words.  The text has only one such reading, whatever the field is called, so a
filter either holds of a value of the field or does not.

Of a value nothing is known but which comparisons it satisfies, and that it
differs from a parameter exactly if it does not equal it.  Dates and instants
are values that are compared in the order of time.
-/

namespace SearchPhrase

/-! ## Values of fields -/

/--
The value of a field in a record: the comparisons with parameters that hold of
it.
-/
structure RecordValue where
  satisfies : Comparison → Parameter → Bool
  satisfies_different (parameter : Parameter) :
    satisfies .different parameter = !satisfies .equal parameter

/--
Whether an operator relates two values of an ordered type; patterns match none
of them.
-/
def Comparison.relates {α : Type} [LinearOrder α] (operator : Comparison)
    (left right : α) :
    Bool :=
  match operator with
  | .equal => left = right
  | .different => left ≠ right
  | .greater => right < left
  | .greaterOrEqual => right ≤ left
  | .less => left < right
  | .lessOrEqual => left ≤ right
  | .like | .unlike => false

/-- The date that a parameter is. -/
def Parameter.date? : Parameter → Option Date
  | .date value => some value
  | _ => none

/-- The instant that a parameter is. -/
def Parameter.instant? : Parameter → Option Instant
  | .timestamp value => some value
  | _ => none

namespace RecordValue

/--
A value of an ordered type.  It differs from the parameters that are not of this
type, and no other comparison with them holds.
-/
def ordered {α : Type} [LinearOrder α] (comparable? : Parameter → Option α)
    (value : α) :
    RecordValue where
  satisfies operator parameter :=
    match comparable? parameter with
    | some other => operator.relates value other
    | none => operator == .different
  satisfies_different parameter := by
    cases comparable? parameter with
    | none => rfl
    | some other => simp [Comparison.relates]

/-- A field of days holds a date. -/
def ofDate (date : Date) : RecordValue :=
  ordered Parameter.date? date

/-- A field of instants holds an instant. -/
def ofInstant (instant : Instant) : RecordValue :=
  ordered Parameter.instant? instant

theorem satisfies_ofDate (date other : Date) (operator : Comparison) :
    (ofDate date).satisfies operator (.date other) =
      operator.relates date other :=
  rfl

end RecordValue

/-! ## Assertions -/

/-- What the filter of a test says about the value of a field. -/
inductive Assertion where
  | plain (operator : Comparison) (parameter : Parameter)
  | bracketed (denied : Bool) (operator : Comparison) (parameter : Parameter)
  | both (lower : Comparison) (start : Parameter) (upper : Comparison)
      (stop : Parameter)
deriving DecidableEq

namespace Assertion

/-- The text that compares a field with a parameter, in the reader's words. -/
def comparing (field : Field) (operator : Comparison) : String :=
  field.name ++ "[]= " ++ Condition.words operator ++ " ?"

/-- Tests are written by the text by which a comparison is read. -/
theorem comparisonText_eq_comparing (field : Field) (operator : Comparison) :
    FieldTest.comparisonText field operator = comparing field operator := by
  have selector : field.selector ++ " " = field.name ++ "[]= " := by
    rw [Field.selector, String.append_assoc]
    rfl
  rw [FieldTest.comparisonText, comparing, selector,
    Condition.filterText_eq_words]

/-- The text by which a filter says an assertion about a field. -/
def text (field : Field) : Assertion → String
  | .plain operator _ => comparing field operator
  | .bracketed false operator _ => "(" ++ comparing field operator ++ ")"
  | .bracketed true operator _ =>
      "NOT " ++ ("(" ++ comparing field operator ++ ")")
  | .both lower _ upper _ =>
      comparing field lower ++ "&" ++ comparing field upper

/-- The parameters with which an assertion compares, in order. -/
def parameters : Assertion → List Parameter
  | .plain _ parameter => [parameter]
  | .bracketed _ _ parameter => [parameter]
  | .both _ start _ stop => [start, stop]

/-- The filter that says an assertion about a field. -/
def filter (field : Field) (assertion : Assertion) : Filter where
  text := assertion.text field
  parameters := assertion.parameters

/-- Whether an assertion holds of a value. -/
def holds (value : RecordValue) : Assertion → Bool
  | .plain operator parameter => value.satisfies operator parameter
  | .bracketed denied operator parameter =>
      denied ^^ value.satisfies operator parameter
  | .both lower start upper stop =>
      value.satisfies lower start && value.satisfies upper stop

/-- The assertions with given parameters. -/
def withParameters : List Parameter → List Assertion
  | [parameter] =>
      Comparison.all.flatMap fun operator =>
        [.plain operator parameter, .bracketed false operator parameter,
          .bracketed true operator parameter]
  | [start, stop] =>
      Comparison.all.flatMap fun lower =>
        Comparison.all.map fun upper => .both lower start upper stop
  | _ => []

theorem mem_withParameters (assertion : Assertion) :
    assertion ∈ withParameters assertion.parameters := by
  have listed (operator : Comparison) : operator ∈ Comparison.all := by
    cases operator <;> decide
  cases assertion with
  | plain operator parameter =>
      simp [withParameters, parameters, listed]
  | bracketed denied operator parameter =>
      cases denied <;> simp [withParameters, parameters, listed]
  | both lower start upper stop =>
      simp [withParameters, parameters, listed]

/-! ## Reading a filter -/

/-- A comparison and what follows it are known from their text. -/
theorem comparing_append_inj
    {field : Field} {operator other : Comparison} {rest otherRest : List Char}
    (equal : (comparing field operator).toList ++ rest =
      (comparing field other).toList ++ otherRest) :
    operator = other ∧ rest = otherRest := by
  simp only [comparing, String.toList_append, List.append_assoc,
    List.append_cancel_left_eq] at equal
  cases operator <;> cases other <;> simp_all [Condition.words]

theorem toList_text_bracketed
    (field : Field) (denied : Bool) (operator : Comparison)
    (parameter : Parameter) :
    ((bracketed denied operator parameter).text field).toList =
      Condition.opening denied ++
        ((comparing field operator).toList ++ [')']) := by
  cases denied <;> simp [text, Condition.opening]

/-- The text of a comparison does not end with a bracket. -/
theorem plain_text_ne_bracketed
    (field : Field) (operator other : Comparison) (denied : Bool)
    (parameter otherParameter : Parameter) :
    (plain operator parameter).text field ≠
      (bracketed denied other otherParameter).text field := by
  intro equal
  have last := congrArg (fun text => text.toList.getLast?) equal
  cases denied <;>
    simp [text, comparing, List.getLast?_cons, List.getLast?_append] at last

/-- A filter says at most one assertion about a field. -/
theorem filter_injective (field : Field) :
    Function.Injective (filter field) := by
  intro left right equal
  have sameText : left.text field = right.text field :=
    congrArg Filter.text equal
  have characters := congrArg String.toList sameText
  have sameParameters : left.parameters = right.parameters :=
    congrArg Filter.parameters equal
  cases left with
  | plain operator parameter =>
      cases right with
      | plain other otherParameter =>
          cases sameParameters
          obtain ⟨rfl, -⟩ :=
            comparing_append_inj (congrArg (· ++ []) characters)
          rfl
      | bracketed denied other otherParameter =>
          exact absurd sameText (plain_text_ne_bracketed field _ _ _ _ _)
      | both lower start upper stop => cases sameParameters
  | bracketed denied operator parameter =>
      cases right with
      | plain other otherParameter =>
          exact absurd sameText.symm (plain_text_ne_bracketed field _ _ _ _ _)
      | bracketed otherDenied other otherParameter =>
          cases sameParameters
          rw [toList_text_bracketed, toList_text_bracketed] at characters
          have sameDenied : denied = otherDenied := by
            cases denied <;> cases otherDenied <;>
              simp [Condition.opening] at characters ⊢
          subst sameDenied
          obtain ⟨rfl, -⟩ :=
            comparing_append_inj (List.append_cancel_left characters)
          rfl
      | both lower start upper stop => cases sameParameters
  | both lower start upper stop =>
      cases right with
      | plain other otherParameter => cases sameParameters
      | bracketed denied other otherParameter => cases sameParameters
      | both otherLower otherStart otherUpper otherStop =>
          cases sameParameters
          simp only [text, String.toList_append,
            List.append_assoc] at characters
          obtain ⟨rfl, following⟩ := comparing_append_inj characters
          obtain ⟨rfl, -⟩ :=
            comparing_append_inj
              (congrArg (· ++ []) (List.append_cancel_left following))
          rfl

end Assertion

namespace Filter

/-- The assertion that a filter says about a field. -/
def assertion? (field : Field) (filter : Filter) : Option Assertion :=
  (Assertion.withParameters filter.parameters).find? fun assertion =>
    assertion.filter field = filter

/--
Whether a filter holds of a value of a field; none if it does not speak of the
field.
-/
def verdict? (field : Field) (value : RecordValue) (filter : Filter) :
    Option Bool :=
  (filter.assertion? field).map (Assertion.holds value)

/-- The filter that says an assertion is read as that assertion. -/
theorem assertion?_filter (field : Field) (assertion : Assertion) :
    (assertion.filter field).assertion? field = some assertion := by
  have exists_found :
      ((assertion.filter field).assertion? field).isSome := by
    rw [assertion?, List.find?_isSome]
    exact ⟨assertion, assertion.mem_withParameters, decide_eq_true rfl⟩
  obtain ⟨found, isFound⟩ := Option.isSome_iff_exists.mp exists_found
  have written := List.find?_some isFound
  rw [isFound, Assertion.filter_injective field (of_decide_eq_true written)]

theorem verdict?_filter (field : Field) (value : RecordValue)
    (assertion : Assertion) :
    (assertion.filter field).verdict? field value =
      some (assertion.holds value) := by
  rw [verdict?, assertion?_filter, Option.map_some]

end Filter

/-! ## Verdicts of the forms of tests -/

namespace FieldTest

variable (field : Field) (value : RecordValue)

theorem filter_comparison (operator : Comparison) (parameter : Parameter) :
    (comparison field operator parameter).filter =
      (Assertion.plain operator parameter).filter field := by
  rw [Assertion.filter, Assertion.text, ← Assertion.comparisonText_eq_comparing]
  rfl

theorem verdict?_comparison (operator : Comparison) (parameter : Parameter) :
    (comparison field operator parameter).filter.verdict? field value =
      some (value.satisfies operator parameter) := by
  rw [filter_comparison, Filter.verdict?_filter, Assertion.holds]

theorem filter_grouped
    (operator : Comparison) (parameter : Parameter) (denied : Bool) :
    (grouped field operator parameter denied).filter =
      (Assertion.bracketed denied operator parameter).filter field := by
  cases denied <;>
    rw [Assertion.filter, Assertion.text,
      ← Assertion.comparisonText_eq_comparing] <;>
    rfl

theorem verdict?_grouped (operator : Comparison) (parameter : Parameter)
    (denied : Bool) :
    (grouped field operator parameter denied).filter.verdict? field value =
      some (denied ^^ value.satisfies operator parameter) := by
  rw [filter_grouped, Filter.verdict?_filter, Assertion.holds]

theorem filter_within (start stop : Instant) :
    (within field start stop).filter =
      (Assertion.both .greaterOrEqual (.timestamp start) .less
        (.timestamp stop)).filter field := by
  rw [Assertion.filter, Assertion.text,
    ← Assertion.comparisonText_eq_comparing,
    ← Assertion.comparisonText_eq_comparing]
  rfl

theorem verdict?_within (start stop : Instant) :
    (within field start stop).filter.verdict? field value =
      some (value.satisfies .greaterOrEqual (.timestamp start) &&
        value.satisfies .less (.timestamp stop)) := by
  rw [filter_within, Filter.verdict?_filter, Assertion.holds]

/-- Every test of a field has a verdict on every value. -/
theorem Tests.exists_verdict
    {field : Field} {test : FieldTest} (form : Tests field test)
    (value : RecordValue) :
    ∃ holds, test.filter.verdict? field value = some holds := by
  cases form with
  | comparison operator parameter =>
      exact ⟨_, verdict?_comparison field value operator parameter⟩
  | grouped operator parameter denied =>
      exact ⟨_, verdict?_grouped field value operator parameter denied⟩
  | within start stop => exact ⟨_, verdict?_within field value start stop⟩

end FieldTest

end SearchPhrase
