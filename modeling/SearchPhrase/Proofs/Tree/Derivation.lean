import SearchPhrase.Tree.Reader

/-!
# Derivations of search phrases

The grammar of search phrases has four categories of expressions:

* a disjunction is a run of conjunctions with `or` between them;
* a conjunction is a run of negations with `and`, or nothing, between them;
* a negation is `not` with a negation, or an operand;
* an operand is a disjunction in parentheses, an operator with a value, or a
  value that an operator with a value may follow.

A derivation is a way to read kinds of tokens by this grammar, and it has a
tree.  The grammar is ambiguous: a value and the comparison after it can be read
as one comparison or as two operands that stand next to each other.  A greedy
derivation always takes the first way.  Every derivation can be regrouped into a
greedy one, and there is only one greedy derivation of the same kinds.
-/

namespace SearchPhrase.Tree

/-- A category of expressions in search phrases. -/
inductive Category where
  | disjunction
  | conjunction
  | negation
  | operand
deriving DecidableEq, Repr

/-- A way to read kinds of tokens as an expression of a category. -/
inductive Derivation : Category → Type where
  | lastAlternative (last : Derivation .conjunction) : Derivation .disjunction
  | alternative (first : Derivation .conjunction)
      (rest : Derivation .disjunction) :
      Derivation .disjunction
  | lastConjunct (last : Derivation .negation) : Derivation .conjunction
  /-- A conjunct with others after it, where `and` is written or left out. -/
  | conjunct (written : Bool) (first : Derivation .negation)
      (rest : Derivation .conjunction) : Derivation .conjunction
  | denied (inner : Derivation .negation) : Derivation .negation
  | plain (operand : Derivation .operand) : Derivation .negation
  | bracketed (inner : Derivation .disjunction) : Derivation .operand
  | search (operator : Comparison) (value : String) : Derivation .operand
  | bare (text : String) : Derivation .operand
  | comparison (field : String) (operator : Comparison) (value : String) :
      Derivation .operand
deriving DecidableEq, Repr

namespace Derivation

variable {category : Category}

/-- The kinds of the tokens between two conjuncts. -/
def separator : Bool → List Token.Kind
  | true => [.connective .and]
  | false => []

/-- The kinds of tokens that a derivation reads, from left to right. -/
def kinds : {category : Category} → Derivation category → List Token.Kind
  | _, .lastAlternative last => last.kinds
  | _, .alternative first rest => first.kinds ++ .connective .or :: rest.kinds
  | _, .lastConjunct last => last.kinds
  | _, .conjunct written first rest =>
      first.kinds ++ separator written ++ rest.kinds
  | _, .denied inner => .connective .not :: inner.kinds
  | _, .plain operand => operand.kinds
  | _, .bracketed inner => .opening :: inner.kinds ++ [.closing]
  | _, .search operator value => [.comparison operator, .value value]
  | _, .bare text => [.value text]
  | _, .comparison field operator value =>
      [.value field, .comparison operator, .value value]

/--
The trees that a derivation joins: those of a run in the order of the phrase,
and a single one for a negation or an operand.
-/
def operands : {category : Category} → Derivation category → List Tree
  | _, .lastAlternative last => [joined .and last.operands]
  | _, .alternative first rest => joined .and first.operands :: rest.operands
  | _, .lastConjunct last => last.operands
  | _, .conjunct _ first rest => first.operands ++ rest.operands
  | _, .denied inner => [.connection .not inner.operands]
  | _, .plain operand => operand.operands
  | _, .bracketed inner => [joined .or inner.operands]
  | _, .search operator value => [.comparison operator [.leaf value]]
  | _, .bare text => [.leaf text]
  | _, .comparison field operator value =>
      [.comparison operator [.leaf field, .leaf value]]

/-- The tree of a phrase, in which a run of one operand is that operand. -/
def tree (derivation : Derivation .disjunction) : Tree :=
  joined .or derivation.operands

/-- Whether kinds of tokens start with a comparison operator. -/
def startsComparison : List Token.Kind → Bool
  | .comparison _ :: _ => true
  | _ => false

/--
Whether no value that a derivation reads as an operand of its own stands right
before a comparison operator, if the given kinds follow the derivation.
-/
def greedyBefore :
    {category : Category} → Derivation category → List Token.Kind → Bool
  | _, .lastAlternative last, next => last.greedyBefore next
  | _, .alternative first rest, next =>
      first.greedyBefore (.connective .or :: (rest.kinds ++ next)) &&
        rest.greedyBefore next
  | _, .lastConjunct last, next => last.greedyBefore next
  | _, .conjunct written first rest, next =>
      first.greedyBefore (separator written ++ (rest.kinds ++ next)) &&
        rest.greedyBefore next
  | _, .denied inner, next => inner.greedyBefore next
  | _, .plain operand, next => operand.greedyBefore next
  | _, .bracketed inner, next => inner.greedyBefore (.closing :: next)
  | _, .search _ _, _ => true
  | _, .bare _, next => !startsComparison next
  | _, .comparison _ _ _, _ => true

/--
A derivation of a whole phrase is greedy if a value with a comparison operator
right after it is always read as the left side of a comparison.
-/
def Greedy (derivation : Derivation .disjunction) : Prop :=
  derivation.greedyBefore [] = true

/-! ## Where expressions start and end -/

/-- Whether a kind of token can start an operand or a negation. -/
def startsOperand : Token.Kind → Bool
  | .value _ | .comparison _ | .connective .not | .opening => true
  | .connective .and | .connective .or | .closing => false

/-- Every expression starts with a token that can start an operand. -/
theorem kinds_eq_cons (derivation : Derivation category) :
    ∃ first rest, derivation.kinds = first :: rest ∧
      startsOperand first = true := by
  induction derivation with
  | lastAlternative last ih => exact ih
  | alternative first rest firstIH _ =>
      rcases firstIH with ⟨start, others, shape, starts⟩
      exact ⟨start, others ++ .connective .or :: rest.kinds,
        by simp [kinds, shape], starts⟩
  | lastConjunct last ih => exact ih
  | conjunct written first rest firstIH _ =>
      rcases firstIH with ⟨start, others, shape, starts⟩
      exact ⟨start, others ++ (separator written ++ rest.kinds),
        by simp [kinds, shape], starts⟩
  | denied inner _ => exact ⟨_, _, rfl, rfl⟩
  | plain operand ih => exact ih
  | bracketed inner _ => exact ⟨_, _, rfl, rfl⟩
  | search operator value => exact ⟨_, _, rfl, rfl⟩
  | bare text => exact ⟨_, _, rfl, rfl⟩
  | comparison field operator value => exact ⟨_, _, rfl, rfl⟩

/-- A negation or an operand has a single tree. -/
theorem operands_eq_singleton (derivation : Derivation category) :
    category = .negation ∨ category = .operand →
      ∃ tree, derivation.operands = [tree] := by
  induction derivation with
  | lastAlternative last _ => simp
  | alternative first rest _ _ => simp
  | lastConjunct last _ => simp
  | conjunct written first rest _ _ => simp
  | denied inner _ => exact fun _ => ⟨_, rfl⟩
  | plain operand ih => exact fun _ => ih (Or.inr rfl)
  | bracketed inner _ => exact fun _ => ⟨_, rfl⟩
  | search operator value => exact fun _ => ⟨_, rfl⟩
  | bare text => exact fun _ => ⟨_, rfl⟩
  | comparison field operator value => exact fun _ => ⟨_, rfl⟩

end Derivation

/-- Whether kinds of tokens after an expression do not continue its run. -/
def Category.endsBefore : Category → List Token.Kind → Bool
  | .disjunction, next => next.head?.all (· == .closing)
  | .conjunction, next =>
      next.head?.all fun kind => kind == .closing || kind == .connective .or
  | .negation, _ => true
  | .operand, _ => true

namespace Derivation

variable {category : Category}

/-! ## Regrouping -/

/--
The derivation in which a bare value at the end is compared with another value;
none if the derivation does not end in a bare value.
-/
def compared? (operator : Comparison) (other : String) :
    {category : Category} → Derivation category → Option (Derivation category)
  | _, .denied inner => (inner.compared? operator other).map .denied
  | _, .plain operand => (operand.compared? operator other).map .plain
  | _, .bare text => some (.comparison text operator other)
  | _, _ => none

/--
A negation in front of a conjunction without `and` between them, where a
comparison operator at the start of the conjunction compares a value at the end
of the negation.
-/
def absorb (first : Derivation .negation) :
    Derivation .conjunction → Derivation .conjunction
  | .lastConjunct (.plain (.search operator value)) =>
      match first.compared? operator value with
      | some whole => .lastConjunct whole
      | none =>
          .conjunct false first
            (.lastConjunct (.plain (.search operator value)))
  | .conjunct written (.plain (.search operator value)) rest =>
      match first.compared? operator value with
      | some whole => .conjunct written whole rest
      | none =>
          .conjunct false first
            (.conjunct written (.plain (.search operator value)) rest)
  | rest => .conjunct false first rest

/--
The derivation with every bare value before a comparison operator taken into a
comparison.
-/
def regroup : {category : Category} → Derivation category → Derivation category
  | _, .lastAlternative last => .lastAlternative last.regroup
  | _, .alternative first rest => .alternative first.regroup rest.regroup
  | _, .lastConjunct last => .lastConjunct last.regroup
  | _, .conjunct true first rest => .conjunct true first.regroup rest.regroup
  | _, .conjunct false first rest => first.regroup.absorb rest.regroup
  | _, .denied inner => .denied inner.regroup
  | _, .plain operand => .plain operand.regroup
  | _, .bracketed inner => .bracketed inner.regroup
  | _, .search operator value => .search operator value
  | _, .bare text => .bare text
  | _, .comparison field operator value => .comparison field operator value

/--
Comparing the value at the end adds the comparison to the kinds, and leaves no
bare value there.
-/
theorem compared?_eq_some
    {derivation whole : Derivation category} {operator : Comparison}
    {other : String}
    (found : derivation.compared? operator other = some whole) :
    whole.kinds = derivation.kinds ++ [.comparison operator, .value other] ∧
      ∀ next, whole.greedyBefore next = true := by
  induction derivation with
  | denied inner ih =>
      rcases Option.map_eq_some_iff.mp found with ⟨compared, foundInner, rfl⟩
      rcases ih foundInner with ⟨read, greedy⟩
      exact ⟨by simp [kinds, read], greedy⟩
  | plain operand ih =>
      rcases Option.map_eq_some_iff.mp found with ⟨compared, foundOperand, rfl⟩
      exact ih foundOperand
  | bare text =>
      cases found
      exact ⟨rfl, fun _ => rfl⟩
  | _ => cases found

/-- Only a comparison operator right after a derivation matters to it. -/
theorem greedyBefore_congr
    (derivation : Derivation category) {next other : List Token.Kind}
    (alike : startsComparison next = startsComparison other) :
    derivation.greedyBefore next = derivation.greedyBefore other := by
  induction derivation generalizing next other with
  | lastAlternative last ih => exact ih alike
  | alternative first rest firstIH restIH =>
      rw [greedyBefore, greedyBefore, restIH alike]
      congr 1
      exact firstIH rfl
  | lastConjunct last ih => exact ih alike
  | conjunct written first rest firstIH restIH =>
      rw [greedyBefore, greedyBefore, restIH alike]
      congr 1
      apply firstIH
      rcases rest.kinds_eq_cons with ⟨start, others, shape, -⟩
      rw [shape]
      cases written <;> cases start <;> rfl
  | denied inner ih => exact ih alike
  | plain operand ih => exact ih alike
  | bracketed inner ih => exact ih rfl
  | search operator value => rfl
  | bare text => rw [greedyBefore, greedyBefore, alike]
  | comparison field operator value => rfl

theorem greedyBefore_of_apart
    {derivation : Derivation category}
    (greedy : derivation.greedyBefore [] = true)
    {next : List Token.Kind} (apart : startsComparison next = false) :
    derivation.greedyBefore next = true := by
  have alike : startsComparison next = startsComparison [] := apart
  rw [greedyBefore_congr derivation alike, greedy]

/--
What follows a negation that does not end in a bare value does not matter.
-/
theorem greedyBefore_of_compared?_eq_none
    {derivation : Derivation category} {operator : Comparison} {other : String}
    (absent : derivation.compared? operator other = none)
    (single : category = .negation ∨ category = .operand)
    (next : List Token.Kind) :
    derivation.greedyBefore next = derivation.greedyBefore [] := by
  induction derivation with
  | denied inner ih => exact ih (Option.map_eq_none_iff.mp absent) (Or.inl rfl)
  | plain operand ih => exact ih (Option.map_eq_none_iff.mp absent) (Or.inr rfl)
  | bracketed inner _ => exact greedyBefore_congr inner rfl
  | search operator value => rfl
  | bare text => cases absent
  | comparison field operator value => rfl
  | _ => simp at single

theorem kinds_conjunct_false
    (first : Derivation .negation) (rest : Derivation .conjunction) :
    (conjunct false first rest).kinds = first.kinds ++ rest.kinds := by
  simp [kinds, separator]

theorem kinds_absorb (first : Derivation .negation)
    (rest : Derivation .conjunction) :
    (first.absorb rest).kinds = first.kinds ++ rest.kinds := by
  unfold absorb
  split
  · split
    · next whole found => simp [kinds, (compared?_eq_some found).1]
    · exact kinds_conjunct_false _ _
  · split
    · next whole found => simp [kinds, (compared?_eq_some found).1]
    · exact kinds_conjunct_false _ _
  · exact kinds_conjunct_false _ _

@[simp]
theorem kinds_regroup (derivation : Derivation category) :
    derivation.regroup.kinds = derivation.kinds := by
  induction derivation with
  | conjunct written first rest firstIH restIH =>
      cases written with
      | true => simp [regroup, kinds, firstIH, restIH]
      | false => simp [regroup, kinds, kinds_absorb, separator, firstIH, restIH]
  | _ => simp [regroup, kinds, *]

/-- A negation that starts with a comparison operator is a search by it. -/
theorem eq_search_of_startsComparison
    {derivation : Derivation .negation} {next : List Token.Kind}
    (starts : startsComparison (derivation.kinds ++ next) = true) :
    ∃ operator value, derivation = .plain (.search operator value) := by
  cases derivation with
  | denied inner => cases starts
  | plain operand =>
      cases operand with
      | search operator value => exact ⟨operator, value, rfl⟩
      | bracketed inner => cases starts
      | bare text => cases starts
      | comparison field operator value => cases starts

/--
Absorbing a greedy conjunction into a greedy negation gives a greedy derivation.
A conjunction that starts with anything but a comparison compares no value that
stands before it.
-/
theorem greedyBefore_absorb
    {first : Derivation .negation} {rest : Derivation .conjunction}
    (firstGreedy : first.greedyBefore [] = true)
    (restGreedy : rest.greedyBefore [] = true) :
    (first.absorb rest).greedyBefore [] = true := by
  unfold absorb
  split
  · split
    · next whole found => exact (compared?_eq_some found).2 _
    · next absent =>
        rw [greedyBefore, greedyBefore_of_compared?_eq_none absent (Or.inl rfl),
          firstGreedy]
        rfl
  · split
    · next whole found =>
        simp only [greedyBefore, Bool.and_eq_true] at restGreedy
        rw [greedyBefore, (compared?_eq_some found).2, restGreedy.2]
        rfl
    · next absent =>
        rw [greedyBefore, greedyBefore_of_compared?_eq_none absent (Or.inl rfl),
          firstGreedy, restGreedy]
        rfl
  · next notLast notFirst =>
      have apart :
          startsComparison (separator false ++ (rest.kinds ++ [])) = false := by
        rw [Bool.eq_false_iff]
        intro starts
        cases rest with
        | lastConjunct last =>
            rcases eq_search_of_startsComparison starts with
              ⟨operator, value, rfl⟩
            exact notLast operator value rfl
        | conjunct written other others =>
            simp only [kinds, separator, List.nil_append,
              List.append_assoc] at starts
            rcases eq_search_of_startsComparison starts with
              ⟨operator, value, rfl⟩
            exact notFirst written operator value others rfl
      rw [greedyBefore, restGreedy, Bool.and_true]
      exact greedyBefore_of_apart firstGreedy apart

/-- Regrouping makes a derivation greedy. -/
theorem greedyBefore_regroup (derivation : Derivation category) :
    derivation.regroup.greedyBefore [] = true := by
  induction derivation with
  | lastAlternative last ih => exact ih
  | alternative first rest firstIH restIH =>
      rw [regroup, greedyBefore, restIH, Bool.and_true]
      exact greedyBefore_of_apart firstIH rfl
  | lastConjunct last ih => exact ih
  | conjunct written first rest firstIH restIH =>
      cases written with
      | true =>
          rw [regroup, greedyBefore, restIH, Bool.and_true]
          exact greedyBefore_of_apart firstIH rfl
      | false => exact greedyBefore_absorb firstIH restIH
  | denied inner ih => exact ih
  | plain operand ih => exact ih
  | bracketed inner ih =>
      rw [regroup, greedyBefore]
      exact greedyBefore_of_apart ih rfl
  | search operator value => rfl
  | bare text => rfl
  | comparison field operator value => rfl

/-! ## Greedy derivations are unique -/

theorem endsBefore_conjunction
    {next : List Token.Kind}
    (ends : Category.disjunction.endsBefore next = true) :
    Category.conjunction.endsBefore next = true := by
  cases next with
  | nil => rfl
  | cons kind rest =>
      have closing : kind = .closing := by
        simpa [Category.endsBefore] using ends
      subst closing
      rfl

/--
A run of conjuncts goes on with `and` or with the start of another operand.
-/
theorem endsBefore_conjunction_cons {kind : Token.Kind}
    {rest : List Token.Kind} :
    Category.conjunction.endsBefore (kind :: rest) = false ↔
      kind = .connective .and ∨ startsOperand kind = true := by
  cases kind with
  | connective connective =>
      cases connective <;> simp [Category.endsBefore, startsOperand]
  | _ => simp [Category.endsBefore, startsOperand]

theorem not_endsBefore_conjuncts
    (written : Bool) (rest : Derivation .conjunction) (next : List Token.Kind) :
    Category.conjunction.endsBefore
      (separator written ++ (rest.kinds ++ next)) = false := by
  cases written with
  | true => exact endsBefore_conjunction_cons.mpr (Or.inl rfl)
  | false =>
      rcases rest.kinds_eq_cons with ⟨first, others, shape, starts⟩
      rw [shape]
      exact endsBefore_conjunction_cons.mpr (Or.inr starts)

/-- The first token after a conjunct shows whether `and` is written. -/
theorem separator_append_inj
    {written otherWritten : Bool} {rest other : Derivation .conjunction}
    {next following : List Token.Kind}
    (same : separator written ++ (rest.kinds ++ next) =
      separator otherWritten ++ (other.kinds ++ following)) :
    written = otherWritten ∧ rest.kinds ++ next = other.kinds ++ following := by
  rcases rest.kinds_eq_cons with ⟨first, _, shape, starts⟩
  rcases other.kinds_eq_cons with ⟨otherFirst, _, otherShape, otherStarts⟩
  cases written with
  | true =>
      cases otherWritten with
      | true => exact ⟨rfl, List.append_cancel_left same⟩
      | false =>
          simp only [separator, otherShape, List.cons_append, List.nil_append,
            List.cons.injEq] at same
          rw [← same.1] at otherStarts
          cases otherStarts
  | false =>
      cases otherWritten with
      | true =>
          simp only [separator, shape, List.cons_append, List.nil_append,
            List.cons.injEq] at same
          rw [same.1] at starts
          cases starts
      | false => exact ⟨rfl, same⟩

/--
Two greedy derivations that read kinds which start alike are the same, if what
follows each of them does not continue its run.  A bare value is not read where
a comparison is, since it would stand right before the operator.
-/
theorem eq_of_kinds_append_eq
    {left right : Derivation category} {next other : List Token.Kind}
    (same : left.kinds ++ next = right.kinds ++ other)
    (leftGreedy : left.greedyBefore next = true)
    (rightGreedy : right.greedyBefore other = true)
    (leftEnds : category.endsBefore next = true)
    (rightEnds : category.endsBefore other = true) :
    left = right ∧ next = other := by
  induction left generalizing next other with
  | lastAlternative last ih =>
      cases right with
      | lastAlternative otherLast =>
          rcases ih same leftGreedy rightGreedy
              (endsBefore_conjunction leftEnds)
            (endsBefore_conjunction rightEnds) with ⟨rfl, rfl⟩
          exact ⟨rfl, rfl⟩
      | alternative first rest =>
          simp only [kinds, greedyBefore, List.append_assoc, List.cons_append,
            Bool.and_eq_true] at same rightGreedy
          rcases ih same leftGreedy rightGreedy.1
              (endsBefore_conjunction leftEnds) rfl with
            ⟨-, rfl⟩
          cases leftEnds
  | alternative first rest firstIH restIH =>
      simp only [kinds, greedyBefore, List.append_assoc, List.cons_append,
        Bool.and_eq_true] at same leftGreedy
      cases right with
      | lastAlternative otherLast =>
          rcases firstIH same leftGreedy.1 rightGreedy rfl
              (endsBefore_conjunction rightEnds)
            with ⟨-, rfl⟩
          cases rightEnds
      | alternative otherFirst otherRest =>
          simp only [kinds, greedyBefore, List.append_assoc, List.cons_append,
            Bool.and_eq_true] at same rightGreedy
          rcases firstIH same leftGreedy.1 rightGreedy.1 rfl rfl with
            ⟨rfl, following⟩
          rcases restIH (List.cons.inj following).2 leftGreedy.2 rightGreedy.2
              leftEnds rightEnds
            with ⟨rfl, rfl⟩
          exact ⟨rfl, rfl⟩
  | lastConjunct last ih =>
      cases right with
      | lastConjunct otherLast =>
          rcases ih same leftGreedy rightGreedy rfl rfl with ⟨rfl, rfl⟩
          exact ⟨rfl, rfl⟩
      | conjunct written first rest =>
          simp only [kinds, greedyBefore, List.append_assoc,
            Bool.and_eq_true] at same rightGreedy
          rcases ih same leftGreedy rightGreedy.1 rfl rfl with ⟨-, rfl⟩
          rw [not_endsBefore_conjuncts] at leftEnds
          cases leftEnds
  | conjunct written first rest firstIH restIH =>
      simp only [kinds, greedyBefore, List.append_assoc,
        Bool.and_eq_true] at same leftGreedy
      cases right with
      | lastConjunct otherLast =>
          rcases firstIH same leftGreedy.1 rightGreedy rfl rfl with ⟨-, rfl⟩
          rw [not_endsBefore_conjuncts] at rightEnds
          cases rightEnds
      | conjunct otherWritten otherFirst otherRest =>
          simp only [kinds, greedyBefore, List.append_assoc,
            Bool.and_eq_true] at same rightGreedy
          rcases firstIH same leftGreedy.1 rightGreedy.1 rfl rfl with
            ⟨rfl, following⟩
          rcases separator_append_inj following with ⟨rfl, continued⟩
          rcases restIH continued leftGreedy.2 rightGreedy.2 leftEnds
              rightEnds with ⟨rfl, rfl⟩
          exact ⟨rfl, rfl⟩
  | denied inner ih =>
      cases right with
      | denied otherInner =>
          rcases ih (List.cons.inj same).2 leftGreedy rightGreedy rfl rfl with
            ⟨rfl, rfl⟩
          exact ⟨rfl, rfl⟩
      | plain operand => cases operand <;> simp [kinds] at same
  | plain operand ih =>
      cases right with
      | denied inner => cases operand <;> simp [kinds] at same
      | plain otherOperand =>
          rcases ih same leftGreedy rightGreedy rfl rfl with ⟨rfl, rfl⟩
          exact ⟨rfl, rfl⟩
  | bracketed inner ih =>
      cases right with
      | bracketed otherInner =>
          simp only [kinds, List.cons_append, List.append_assoc,
            List.nil_append, List.cons.injEq, true_and] at same
          rcases ih same leftGreedy rightGreedy rfl rfl with ⟨rfl, following⟩
          exact ⟨rfl, (List.cons.inj following).2⟩
      | _ => simp [kinds] at same
  | search operator value =>
      cases right with
      | search otherOperator otherValue => simpa [kinds, and_assoc] using same
      | _ => simp [kinds] at same
  | bare text =>
      cases right with
      | bare otherText => simpa [kinds] using same
      | comparison field operator value =>
          simp only [kinds, List.cons_append, List.nil_append,
            List.cons.injEq] at same
          rw [same.2] at leftGreedy
          cases leftGreedy
      | _ => simp [kinds] at same
  | comparison field operator value =>
      cases right with
      | comparison otherField otherOperator otherValue =>
          simpa [kinds, and_assoc] using same
      | bare text =>
          simp only [kinds, List.cons_append, List.nil_append,
            List.cons.injEq] at same
          rw [← same.2] at rightGreedy
          cases rightGreedy
      | _ => simp [kinds] at same

/-- Kinds of tokens have at most one greedy derivation. -/
theorem Greedy.eq_of_kinds_eq
    {left right : Derivation .disjunction} (leftGreedy : left.Greedy)
    (rightGreedy : right.Greedy) (same : left.kinds = right.kinds) :
    left = right := by
  have appended : left.kinds ++ [] = right.kinds ++ [] := by rw [same]
  exact (eq_of_kinds_append_eq appended leftGreedy rightGreedy rfl rfl).1

end Derivation

end SearchPhrase.Tree
