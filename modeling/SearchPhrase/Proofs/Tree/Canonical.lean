import SearchPhrase.Filter.QueryString
import SearchPhrase.Proofs.Tree.Grammar

/-!
# Canonical trees

Trees can be built by hand with any list of operands.  Those that phrases write
are canonical: comparisons have one or two leaves, negations have one operand,
and the other connections have two operands at least.  Compiling reports
operands that a comparison cannot have, but it never has to do so for a
canonical tree, and so not for a phrase.
-/

namespace SearchPhrase

namespace Tree

/--
A tree whose comparisons and connections have the operands that phrases write.
-/
inductive Canonical : Tree → Prop where
  | leaf (value : String) : Canonical (.leaf value)
  | search (operator : Comparison) (value : String) :
      Canonical (.comparison operator [.leaf value])
  | comparison (operator : Comparison) (field value : String) :
      Canonical (.comparison operator [.leaf field, .leaf value])
  | negation {operand : Tree} (inner : Canonical operand) :
      Canonical (.connection .not [operand])
  | junction {connective : Connective} (joins : connective ≠ .not)
      {operands : List Tree} (several : 2 ≤ operands.length)
      (inner : ∀ operand ∈ operands, Canonical operand) :
      Canonical (.connection connective operands)

/-- Joining canonical trees gives a canonical tree. -/
theorem canonical_joined
    {connective : Connective} (joins : connective ≠ .not)
    {operands : List Tree} (nonempty : operands ≠ [])
    (inner : ∀ operand ∈ operands, Canonical operand) :
    Canonical (joined connective operands) := by
  cases operands with
  | nil => exact absurd rfl nonempty
  | cons first rest =>
      cases rest with
      | nil => exact inner first List.mem_cons_self
      | cons second others => exact .junction joins (by simp) inner

theorem canonical_singleton {tree : Tree} (canonical : Canonical tree) :
    [tree] ≠ [] ∧ ∀ operand ∈ [tree], Canonical operand := by
  constructor
  · exact List.cons_ne_nil tree []
  · intro operand member
    rw [List.mem_singleton.mp member]
    exact canonical

namespace Derivation

variable {category : Category}

/-- A derivation joins canonical trees, one at least. -/
theorem canonical_operands (derivation : Derivation category) :
    derivation.operands ≠ [] ∧
      ∀ operand ∈ derivation.operands, Canonical operand := by
  induction derivation with
  | lastAlternative last ih =>
      exact canonical_singleton (canonical_joined (by decide) ih.1 ih.2)
  | alternative first rest firstIH restIH =>
      refine ⟨List.cons_ne_nil _ _, ?_⟩
      intro operand member
      rcases List.mem_cons.mp member with rfl | later
      · exact canonical_joined (by decide) firstIH.1 firstIH.2
      · exact restIH.2 operand later
  | lastConjunct last ih => exact ih
  | conjunct written first rest firstIH restIH =>
      refine ⟨List.append_ne_nil_of_left_ne_nil firstIH.1 _, ?_⟩
      intro operand member
      rcases List.mem_append.mp member with earlier | later
      · exact firstIH.2 operand earlier
      · exact restIH.2 operand later
  | denied inner ih =>
      rcases inner.operands_eq_singleton (Or.inl rfl) with ⟨denied, single⟩
      rw [operands, single]
      rw [single] at ih
      exact canonical_singleton (.negation (ih.2 denied List.mem_cons_self))
  | plain operand ih => exact ih
  | bracketed inner ih =>
      exact canonical_singleton (canonical_joined (by decide) ih.1 ih.2)
  | search operator value => exact canonical_singleton (.search operator value)
  | bare text => exact canonical_singleton (.leaf text)
  | comparison field operator value =>
      exact canonical_singleton (.comparison operator field value)

theorem canonical_tree (derivation : Derivation .disjunction) :
    Canonical derivation.tree :=
  canonical_joined (by decide) derivation.canonical_operands.1
    derivation.canonical_operands.2

end Derivation

/-- The tree of every phrase is canonical. -/
theorem canonical_of_ofPhrase
    {phrase : String} {tree : Tree} (read : ofPhrase phrase = .ok (some tree)) :
    Canonical tree := by
  unfold ofPhrase at read
  split at read
  · have outcome := (Reader.ofTokens_eq_some_iff.mp read).2
    rcases Derivation.outcome_eq_ok_iff.mp outcome with ⟨derivation, -, -, rfl⟩
    exact derivation.canonical_tree
  · cases read

end Tree

/-! ## Errors about operands -/

/--
Whether an error is about the number or the form of the operands of a
comparison.
-/
def SearchError.blamesOperands : SearchError → Bool
  | .nestedValue | .nestedOperand | .operandCount _ _ => true
  | _ => false

/-- A result that does not blame the operands of a comparison. -/
def SparesOperands {α : Type} (outcome : Except SearchError α) : Prop :=
  ∀ error, outcome = .error error → error.blamesOperands = false

namespace FieldTest

variable {field : Field} {operator : Comparison} {value : String}

theorem sparesOperands_checkOperator :
    SparesOperands (checkOperator field operator) := by
  intro error failed
  unfold checkOperator at failed
  split at failed
  · cases failed
    rfl
  · cases failed

theorem sparesOperands_map
    {α β : Type} {outcome : Except SearchError α}
    (spares : SparesOperands outcome)
    (function : α → β) : SparesOperands (outcome.map function) := by
  intro error failed
  cases outcome with
  | error cause =>
      cases failed
      exact spares error rfl
  | ok result => cases failed

theorem sparesOperands_enumerated :
    SparesOperands (enumerated field operator value) := by
  intro error failed
  unfold enumerated at failed
  split at failed
  · cases failed
    rfl
  · split at failed
    · cases failed
    · cases failed
      rfl

theorem sparesOperands_pattern :
    SparesOperands (pattern field operator value) := by
  intro error failed
  unfold pattern at failed
  split at failed
  · next checked =>
      cases failed
      exact sparesOperands_checkOperator error checked
  · cases failed

theorem sparesOperands_generic :
    SparesOperands (generic field operator value) := by
  intro error failed
  unfold generic at failed
  split at failed
  · split at failed
    · cases failed
    · cases failed
      rfl
  · cases failed

theorem sparesOperands_day {date : Date} :
    SparesOperands (day field operator date) := by
  have next : SparesOperands (nextDay date) := by
    intro error failed
    unfold nextDay at failed
    split at failed
    · cases failed
    · cases failed
      rfl
  unfold day
  split
  · exact sparesOperands_map next _
  · exact sparesOperands_map next _
  · intro error failed
    cases failed

theorem sparesOperands_span {start : Instant} :
    SparesOperands (span field operator value start) := by
  intro error failed
  unfold span at failed
  split at failed
  · cases failed
    rfl
  · cases failed

theorem sparesOperands_temporal {reference : Instant} :
    SparesOperands (temporal reference field operator value) := by
  unfold temporal
  split
  · intro error failed
    cases failed
    rfl
  · intro error failed
    cases failed
  · apply sparesOperands_map
    split
    · exact sparesOperands_day
    · exact sparesOperands_span

end FieldTest

namespace SearchM

/--
From no journal does an operation fail with an error that blames operands.
-/
def SparesOperands {α : Type} (operation : SearchM α) : Prop :=
  ∀ journal error after, operation journal = .error error after →
    error.blamesOperands = false

theorem sparesOperands_pure {α : Type} (result : α) :
    SparesOperands (pure result : SearchM α) := by
  intro journal error after failed
  cases failed

theorem SparesOperands.bind
    {α β : Type} {operation : SearchM α} {next : α → SearchM β}
    (first : SparesOperands operation)
    (second : ∀ result, SparesOperands (next result)) :
    SparesOperands (operation >>= next) := by
  intro journal error after failed
  simp only [Bind.bind, EStateM.bind] at failed
  split at failed
  · exact second _ _ _ _ failed
  · next ran =>
      cases failed
      exact first _ _ _ ran

theorem sparesOperands_ofExcept
    {α : Type} {outcome : Except SearchError α}
    (spares : SearchPhrase.SparesOperands outcome) :
    SparesOperands (ofExcept outcome) := by
  intro journal error after failed
  cases outcome with
  | error cause =>
      cases failed
      exact spares error rfl
  | ok result => cases failed

theorem sparesOperands_anchor {catalog : Catalog} {clock : Instant} :
    SparesOperands (anchor catalog clock) := by
  intro journal error after failed
  cases failed

theorem sparesOperands_record (test : Option FieldTest) :
    SparesOperands (record test) := by
  intro journal error after failed
  cases test <;> cases failed

variable {catalog : Catalog} {clock : Instant}

theorem sparesOperands_testField (field : Field) (operator : Comparison)
    (value : String) :
    SparesOperands (testField catalog clock field operator value) := by
  apply (sparesOperands_ofExcept FieldTest.sparesOperands_checkOperator).bind
  intro _
  split
  · apply (sparesOperands_ofExcept FieldTest.sparesOperands_enumerated).bind
    exact fun test => sparesOperands_record (some test)
  · apply sparesOperands_anchor.bind
    intro reference
    apply (sparesOperands_ofExcept FieldTest.sparesOperands_temporal).bind
    exact sparesOperands_record
  · apply (sparesOperands_ofExcept FieldTest.sparesOperands_pattern).bind
    exact fun test => sparesOperands_record (some test)
  · apply (sparesOperands_ofExcept FieldTest.sparesOperands_generic).bind
    exact fun test => sparesOperands_record (some test)

theorem sparesOperands_testEach
    (value : String) (operator : Option Comparison) (fields : List Field) :
    SparesOperands (testEach catalog clock value operator fields) := by
  induction fields with
  | nil => exact sparesOperands_pure []
  | cons field rest ih =>
      apply (sparesOperands_testField field _ value).bind
      intro first
      apply ih.bind
      exact fun others => sparesOperands_pure _

theorem sparesOperands_searchValue (value : String)
    (operator : Option Comparison) :
    SparesOperands (searchValue catalog clock value operator) := by
  apply sparesOperands_anchor.bind
  intro reference
  apply SparesOperands.bind
  · apply sparesOperands_ofExcept
    intro error failed
    cases found : catalog.candidates reference value operator with
    | error fault =>
        rw [found] at failed
        cases failed
        rfl
    | ok fields =>
        rw [found] at failed
        cases failed
  · intro fields
    apply (sparesOperands_testEach value operator fields).bind
    exact fun filters => sparesOperands_pure _

theorem sparesOperands_leaf (value : String) :
    SparesOperands (leaf catalog clock value) := by
  unfold leaf
  split
  · split
    · apply (sparesOperands_ofExcept FieldTest.sparesOperands_enumerated).bind
      exact fun test => sparesOperands_record (some test)
    · exact sparesOperands_searchValue value none
  · exact sparesOperands_searchValue value none

end SearchM

namespace Tree

variable {catalog : Catalog} {clock : Instant}

theorem sparesOperands_compileAll
    {trees : List Tree}
    (spares :
      ∀ tree ∈ trees, SearchM.SparesOperands (tree.compile catalog clock)) :
    SearchM.SparesOperands (compileAll catalog clock trees) := by
  induction trees with
  | nil =>
      rw [compileAll]
      exact SearchM.sparesOperands_pure []
  | cons tree rest ih =>
      rw [compileAll]
      apply (spares tree List.mem_cons_self).bind
      intro first
      apply (ih fun other member =>
        spares other (List.mem_cons_of_mem tree member)).bind
      exact fun others => SearchM.sparesOperands_pure _

theorem sparesOperands_connection
    (connective : Connective) {operands : List Tree}
    (spares :
      ∀ tree ∈ operands, SearchM.SparesOperands (tree.compile catalog clock)) :
    SearchM.SparesOperands
      ((connection connective operands).compile catalog clock) := by
  rw [compile]
  apply (sparesOperands_compileAll spares).bind
  exact fun filters => SearchM.sparesOperands_pure _

/-- Compiling a canonical tree does not fail for its operands. -/
theorem Canonical.sparesOperands {tree : Tree} (canonical : Canonical tree) :
    SearchM.SparesOperands (tree.compile catalog clock) := by
  induction canonical with
  | leaf value =>
      rw [compile]
      exact SearchM.sparesOperands_leaf value
  | search operator value =>
      rw [compile]
      exact SearchM.sparesOperands_searchValue value (some operator)
  | comparison operator field value =>
      rw [compile, SearchM.comparison]
      split
      · exact SearchM.sparesOperands_testField _ operator value
      · apply SearchM.sparesOperands_ofExcept
        intro error failed
        cases failed
        rfl
  | negation inner ih =>
      apply sparesOperands_connection
      intro operand member
      rw [List.mem_singleton.mp member]
      exact ih
  | junction joins several inner ih => exact sparesOperands_connection _ ih

end Tree

/--
The query string of a phrase never fails for the operands of a comparison.
-/
theorem Catalog.sparesOperands_queryString
    (catalog : Catalog) (clock : Instant) (phrase : String) :
    SparesOperands (catalog.queryString clock phrase) := by
  intro error failed
  unfold queryString at failed
  split at failed
  · cases failed
    rfl
  · cases failed
  · next tree read =>
      unfold Tree.queryString at failed
      split at failed
      · cases failed
      · next compiled =>
          cases failed
          exact (Tree.canonical_of_ofPhrase read).sparesOperands _ _ _ compiled

end SearchPhrase
