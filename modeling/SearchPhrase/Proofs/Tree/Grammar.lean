import SearchPhrase.Proofs.Tree.Derivation

/-!
# The reader follows the grammar

The reader of search trees takes one token at a time and keeps a stack of
levels.  This module shows that it reads by the grammar.  Whatever the reader
has read before, the kinds of a greedy derivation take it to the level that the
derivation extends.  Conversely, kinds that the reader accepts start with a
greedy derivation of each category.  It therefore accepts exactly the phrases
that have a derivation, and gives the tree of the greedy one.
-/

namespace SearchPhrase.Tree

namespace Reader

/-! ## Outcomes -/

/--
The tree that kinds of tokens lead to from a state, or why they are refused.
-/
def State.outcome (state : State) :
    List Token.Kind → Except PhraseError.Cause Tree
  | [] => state.finish
  | kind :: rest =>
      match state.step kind with
      | .ok next => next.outcome rest
      | .error cause => .error cause

/--
Running over tokens and finishing depends on the kinds of the tokens alone.
-/
theorem State.outcome_eq_ok_iff (state : State) (tokens : List Token)
    (tree : Tree) :
    state.outcome (tokens.map Token.kind) = .ok tree ↔
      ∃ last, state.run tokens = .ok last ∧ last.finish = .ok tree := by
  induction tokens generalizing state with
  | nil => simp [outcome, run]
  | cons token rest ih =>
      simp only [List.map_cons, outcome, run]
      cases state.step token.kind with
      | error cause => simp
      | ok next => exact ih next

/-- Which tokens write a given tree. -/
theorem ofTokens_eq_some_iff {endOffset : Nat} {tokens : List Token}
    {tree : Tree} :
    ofTokens endOffset tokens = .ok (some tree) ↔
      tokens ≠ [] ∧
        State.initial.outcome (tokens.map Token.kind) = .ok tree := by
  cases tokens with
  | nil => simp [ofTokens]
  | cons token rest =>
      rw [State.outcome_eq_ok_iff, ofTokens]
      · cases State.initial.run (token :: rest) with
        | error error => simp
        | ok last =>
            cases finished : last.finish with
            | error cause => simp [finished]
            | ok read => simp [finished]
      · simp

/--
After an operand, the start of another operand is read as if `and` were written.
-/
theorem outcome_connective
    {kind : Token.Kind} (starts : Derivation.startsOperand kind = true)
    (level : Level) (enclosing : List Level) (rest : List Token.Kind) :
    State.outcome ⟨level, enclosing, .connective⟩ (kind :: rest) =
      State.outcome ⟨level, enclosing, .operand⟩ (kind :: rest) := by
  cases kind with
  | value text => rfl
  | comparison operator => rfl
  | opening => rfl
  | closing => cases starts
  | connective connective =>
      cases connective with
      | not => rfl
      | and => cases starts
      | or => cases starts

/-- A value that no comparison operator follows is an operand. -/
theorem outcome_comparison
    {next : List Token.Kind} (apart : Derivation.startsComparison next = false)
    (level : Level) (enclosing : List Level) (text : String) :
    State.outcome ⟨level, enclosing, .comparison text⟩ next =
      State.outcome ⟨level.add (.leaf text), enclosing, .connective⟩ next := by
  cases next with
  | nil => rfl
  | cons kind rest =>
      cases kind with
      | comparison operator => cases apart
      | _ => rfl

end Reader

open Reader

/-! ## Reading a derivation -/

namespace Derivation

variable {category : Category}

/-- The level that reading a derivation leads to. -/
def extend : {category : Category} → Derivation category → Level → Level
  | _, .lastAlternative last, level => last.extend level
  | _, .alternative first rest, level =>
      rest.extend (first.extend level).endAlternative
  | _, .lastConjunct last, level => last.extend level
  | _, .conjunct _ first rest, level => rest.extend (first.extend level)
  | _, .denied inner, level => inner.extend level.negate
  | _, .plain operand, level => operand.extend level
  | _, .bracketed inner, level => level.add (inner.extend .empty).tree
  | _, .search operator value, level => level.add (written none operator value)
  | _, .bare text, level => level.add (.leaf text)
  | _, .comparison field operator value, level =>
      level.add (written (some field) operator value)

/--
The reader passes over the kinds of a greedy derivation and extends its level.
In parentheses the level waits on the stack until they are closed.
-/
theorem outcome_kinds_append
    (derivation : Derivation category) {next : List Token.Kind}
    (greedy : derivation.greedyBefore next = true)
    (level : Level) (enclosing : List Level) :
    State.outcome ⟨level, enclosing, .operand⟩ (derivation.kinds ++ next) =
      State.outcome ⟨derivation.extend level, enclosing, .connective⟩ next := by
  induction derivation generalizing next level enclosing with
  | lastAlternative last ih => exact ih greedy level enclosing
  | alternative first rest firstIH restIH =>
      simp only [greedyBefore, Bool.and_eq_true] at greedy
      simp only [kinds, List.append_assoc, List.cons_append]
      rw [firstIH greedy.1]
      exact restIH greedy.2 _ enclosing
  | lastConjunct last ih => exact ih greedy level enclosing
  | conjunct written first rest firstIH restIH =>
      simp only [greedyBefore, Bool.and_eq_true] at greedy
      simp only [kinds, List.append_assoc]
      rw [firstIH greedy.1, extend, ← restIH greedy.2]
      cases written with
      | true => rfl
      | false =>
          rcases rest.kinds_eq_cons with ⟨start, others, shape, starts⟩
          simp only [separator, shape, List.nil_append, List.cons_append]
          exact outcome_connective starts _ enclosing _
  | denied inner ih => exact ih greedy level.negate enclosing
  | plain operand ih => exact ih greedy level enclosing
  | bracketed inner ih =>
      simp only [kinds, List.cons_append, List.append_assoc, List.nil_append]
      exact ih greedy .empty (level :: enclosing)
  | search operator value => rfl
  | bare text =>
      exact outcome_comparison (by simpa [greedyBefore] using greedy) level
        enclosing text
  | comparison field operator value => rfl

theorem negated_not (count : Nat) (tree : Tree) :
    negated count (.connection .not [tree]) = negated (count + 1) tree := by
  induction count with
  | zero => rfl
  | succ count ih =>
      rw [negated, ih]
      rfl

/--
What reading a derivation adds to a level: the alternatives of a disjunction,
the conjuncts of a conjunction, and the one tree of any other under the
negations that await it.
-/
def Adds : {category : Category} → Derivation category → Prop
  | .disjunction, derivation => ∀ alternatives,
      (derivation.extend ⟨alternatives, [], 0⟩).endAlternative =
        ⟨derivation.operands.reverse ++ alternatives, [], 0⟩
  | .conjunction, derivation => ∀ alternatives conjuncts,
      derivation.extend ⟨alternatives, conjuncts, 0⟩ =
        ⟨alternatives, derivation.operands.reverse ++ conjuncts, 0⟩
  | .negation, derivation => ∀ level tree,
      derivation.operands = [tree] → derivation.extend level = level.add tree
  | .operand, derivation => ∀ level tree,
      derivation.operands = [tree] → derivation.extend level = level.add tree

/-- Every derivation adds its operands. -/
theorem adds (derivation : Derivation category) : derivation.Adds := by
  induction derivation with
  | lastAlternative last ih =>
      intro alternatives
      rw [extend, ih]
      simp [Level.endAlternative, operands]
  | alternative first rest firstIH restIH =>
      intro alternatives
      rw [extend, firstIH, List.append_nil]
      show (rest.extend
        ⟨joined .and first.operands.reverse.reverse :: alternatives, [],
          0⟩).endAlternative = _
      rw [restIH, List.reverse_reverse, operands, List.reverse_cons,
        List.append_assoc]
      rfl
  | lastConjunct last ih =>
      intro alternatives conjuncts
      rcases last.operands_eq_singleton (Or.inl rfl) with ⟨tree, single⟩
      rw [extend, ih _ tree single, operands, single]
      rfl
  | conjunct written first rest firstIH restIH =>
      intro alternatives conjuncts
      rcases first.operands_eq_singleton (Or.inl rfl) with ⟨tree, single⟩
      rw [extend, firstIH _ tree single, operands, single]
      show rest.extend ⟨alternatives, tree :: conjuncts, 0⟩ = _
      rw [restIH, List.reverse_append, List.append_assoc]
      rfl
  | denied inner ih =>
      intro level tree shape
      rcases inner.operands_eq_singleton (Or.inl rfl) with ⟨denied, single⟩
      rw [operands, single] at shape
      cases shape
      rw [extend, ih _ denied single]
      simp [Level.add, Level.negate, negated_not]
  | plain operand ih => exact ih
  | bracketed inner ih =>
      intro level tree shape
      cases shape
      rw [extend, Level.tree, Level.empty, ih, List.append_nil,
        List.reverse_reverse]
  | search operator value =>
      intro level tree shape
      cases shape
      rfl
  | bare text =>
      intro level tree shape
      cases shape
      rfl
  | comparison field operator value =>
      intro level tree shape
      cases shape
      rfl

/-- The reader gives the tree of a greedy derivation. -/
theorem outcome_kinds {derivation : Derivation .disjunction}
    (greedy : derivation.Greedy) :
    State.initial.outcome derivation.kinds = .ok derivation.tree := by
  have read := outcome_kinds_append derivation greedy .empty []
  rw [List.append_nil] at read
  rw [State.initial, read, State.outcome, State.finish, State.close]
  simp only
  rw [Level.tree, Level.empty, derivation.adds, List.append_nil,
    List.reverse_reverse, tree]

/-! ## Finding a derivation -/

/--
The reader accepts kinds of tokens from some state in which an operand must
start.
-/
def Accepted (source : List Token.Kind) : Prop :=
  ∃ level enclosing tree,
    State.outcome ⟨level, enclosing, .operand⟩ source = .ok tree

/--
Kinds of tokens start with a greedy expression of a category, whose run ends
there.
-/
def StartsWith (category : Category) (source : List Token.Kind) : Prop :=
  ∃ derivation : Derivation category, ∃ next,
    source = derivation.kinds ++ next ∧ derivation.greedyBefore next = true ∧
      category.endsBefore next = true

theorem length_lt_of_eq_append
    {derivation : Derivation category} {source next : List Token.Kind}
    (split : source = derivation.kinds ++ next) :
    next.length < source.length := by
  rcases derivation.kinds_eq_cons with ⟨first, rest, shape, -⟩
  simp only [split, shape, List.length_append, List.length_cons]
  omega

/--
An accepted phrase goes on after an operator with the value that it compares.
-/
theorem eq_value_of_outcome
    {level : Level} {enclosing : List Level} {left : Option String}
    {operator : Comparison} {source : List Token.Kind} {tree : Tree}
    (read :
      State.outcome ⟨level, enclosing, .value left operator⟩ source =
        .ok tree) :
    ∃ right next, source = .value right :: next := by
  cases source with
  | nil => cases read
  | cons kind rest =>
      cases kind with
      | value right => exact ⟨right, rest, rfl⟩
      | _ => cases read

/--
An accepted phrase starts with a negation, if shorter ones start with what it
contains.
-/
theorem startsWith_negation
    {source : List Token.Kind} (accepted : Accepted source)
    (shorter :
      ∀ other : List Token.Kind, other.length < source.length → Accepted other →
        StartsWith .negation other ∧ StartsWith .disjunction other) :
    StartsWith .negation source := by
  rcases accepted with ⟨level, enclosing, tree, read⟩
  cases source with
  | nil => cases read
  | cons kind rest =>
      cases kind with
      | value text =>
          by_cases compared : startsComparison rest = true
          · unfold startsComparison at compared
            split at compared
            · next operator others =>
                rcases eq_value_of_outcome read with ⟨right, next, rfl⟩
                exact ⟨.plain (.comparison text operator right), next, rfl, rfl,
                  rfl⟩
            · cases compared
          · refine ⟨.plain (.bare text), rest, rfl, ?_, rfl⟩
            simpa [greedyBefore] using compared
      | comparison operator =>
          rcases eq_value_of_outcome read with ⟨right, next, rfl⟩
          exact ⟨.plain (.search operator right), next, rfl, rfl, rfl⟩
      | opening =>
          have inside : Accepted rest :=
            ⟨.empty, level :: enclosing, tree, read⟩
          rcases (shorter rest (Nat.lt_succ_self _) inside).2 with
            ⟨inner, next, rfl, greedy, ends⟩
          have closed :=
            (outcome_kinds_append inner greedy .empty
              (level :: enclosing)).symm.trans read
          cases next with
          | nil => cases closed
          | cons last others =>
              have closing : last = .closing := by
                simpa [Category.endsBefore] using ends
              subst closing
              refine ⟨.plain (.bracketed inner), others, ?_, greedy, rfl⟩
              simp [kinds]
      | closing => cases read
      | connective connective =>
          cases connective with
          | not =>
              have inside : Accepted rest :=
                ⟨level.negate, enclosing, tree, read⟩
              rcases (shorter rest (Nat.lt_succ_self _) inside).1 with
                ⟨inner, next, rfl, greedy, -⟩
              exact ⟨.denied inner, next, rfl, greedy, rfl⟩
          | and => cases read
          | or => cases read

/-- An accepted phrase that starts with a negation starts with a conjunction. -/
theorem startsWith_conjunction
    {source : List Token.Kind} (accepted : Accepted source)
    (negation : StartsWith .negation source)
    (shorter :
      ∀ other : List Token.Kind, other.length < source.length → Accepted other →
        StartsWith .conjunction other) :
    StartsWith .conjunction source := by
  rcases accepted with ⟨level, enclosing, tree, read⟩
  rcases negation with ⟨first, next, split, greedy, -⟩
  have left := length_lt_of_eq_append split
  rw [split, outcome_kinds_append first greedy] at read
  by_cases ends : Category.conjunction.endsBefore next = true
  · exact ⟨.lastConjunct first, next, split, greedy, ends⟩
  · cases next with
    | nil => exact absurd rfl ends
    | cons kind rest =>
        have continues :=
          endsBefore_conjunction_cons.mp (Bool.eq_false_iff.mpr ends)
        rcases continues with rfl | starts
        · have following : Accepted rest := ⟨_, enclosing, tree, read⟩
          rcases shorter rest (Nat.lt_of_succ_lt left) following with
            ⟨others, after, rfl, othersGreedy, othersEnd⟩
          refine ⟨.conjunct true first others, after, ?_, ?_, othersEnd⟩
          · simp [split, kinds, separator]
          · simp only [greedyBefore, Bool.and_eq_true]
            exact ⟨greedy, othersGreedy⟩
        · rw [outcome_connective starts] at read
          have following : Accepted (kind :: rest) := ⟨_, enclosing, tree, read⟩
          rcases shorter _ left following with
            ⟨others, after, same, othersGreedy, othersEnd⟩
          refine ⟨.conjunct false first others, after, ?_, ?_, othersEnd⟩
          · simp [split, kinds, separator, same]
          · simp only [greedyBefore, Bool.and_eq_true, separator,
              List.nil_append, ← same]
            exact ⟨greedy, othersGreedy⟩

/--
An accepted phrase that starts with a conjunction starts with a disjunction.
-/
theorem startsWith_disjunction
    {source : List Token.Kind} (accepted : Accepted source)
    (conjunction : StartsWith .conjunction source)
    (shorter :
      ∀ other : List Token.Kind, other.length < source.length → Accepted other →
        StartsWith .disjunction other) :
    StartsWith .disjunction source := by
  rcases accepted with ⟨level, enclosing, tree, read⟩
  rcases conjunction with ⟨first, next, split, greedy, ends⟩
  have left := length_lt_of_eq_append split
  rw [split, outcome_kinds_append first greedy] at read
  by_cases done : Category.disjunction.endsBefore next = true
  · exact ⟨.lastAlternative first, next, split, greedy, done⟩
  · cases next with
    | nil => exact absurd rfl done
    | cons kind rest =>
        have continues : kind = .connective .or := by
          simp_all [Category.endsBefore]
        subst continues
        have following : Accepted rest := ⟨_, enclosing, tree, read⟩
        rcases shorter rest (Nat.lt_of_succ_lt left) following with
          ⟨others, after, rfl, othersGreedy, othersEnd⟩
        refine ⟨.alternative first others, after, ?_, ?_, othersEnd⟩
        · simp [split, kinds]
        · simp only [greedyBefore, Bool.and_eq_true]
          exact ⟨greedy, othersGreedy⟩

/--
An accepted phrase starts with a greedy expression of every category with
operands.
-/
theorem startsWith_of_accepted {source : List Token.Kind}
    (accepted : Accepted source) :
    StartsWith .negation source ∧ StartsWith .conjunction source ∧
      StartsWith .disjunction source := by
  induction count : source.length using Nat.strongRecOn generalizing source with
  | ind count ih =>
      subst count
      have negation :=
        startsWith_negation accepted fun other less acceptedOther =>
          let found := ih other.length less acceptedOther rfl
          ⟨found.1, found.2.2⟩
      have conjunction :=
        startsWith_conjunction accepted negation fun other less acceptedOther =>
          (ih other.length less acceptedOther rfl).2.1
      have disjunction :=
        startsWith_disjunction accepted conjunction
          fun other less acceptedOther =>
            (ih other.length less acceptedOther rfl).2.2
      exact ⟨negation, conjunction, disjunction⟩

/--
The reader finds the tree of a greedy derivation, or nothing.  Outside of
parentheses a closing one is refused.
-/
theorem outcome_eq_ok_iff {source : List Token.Kind} {tree : Tree} :
    State.initial.outcome source = .ok tree ↔
      ∃ derivation : Derivation .disjunction,
        derivation.kinds = source ∧ derivation.Greedy ∧
          derivation.tree = tree := by
  constructor
  · intro read
    have accepted : Accepted source := ⟨.empty, [], tree, read⟩
    rcases (startsWith_of_accepted accepted).2.2 with
      ⟨derivation, next, rfl, greedy, ends⟩
    have rest :=
      (outcome_kinds_append derivation greedy .empty []).symm.trans read
    cases next with
    | nil =>
        refine ⟨derivation, (List.append_nil _).symm, greedy, ?_⟩
        rw [List.append_nil, outcome_kinds greedy] at read
        exact Except.ok.inj read
    | cons kind others =>
        have closing : kind = .closing := by
          simpa [Category.endsBefore] using ends
        subst closing
        cases rest
  · rintro ⟨derivation, rfl, greedy, rfl⟩
    exact outcome_kinds greedy

end Derivation

/--
The reader accepts exactly the phrases whose tokens have a derivation.  The tree
that it gives is that of the greedy derivation, of which there is only one.
-/
theorem ofPhrase_reads_grammar
    {phrase : String} {tokens : List Token}
    (cut : Token.ofPhrase phrase = .ok tokens) (nonempty : tokens ≠ []) :
    ((∃ tree, ofPhrase phrase = .ok (some tree)) ↔
        ∃ derivation : Derivation .disjunction,
          derivation.kinds = tokens.map Token.kind) ∧
      (∀ tree, ofPhrase phrase = .ok (some tree) ↔
        ∃ derivation : Derivation .disjunction,
          derivation.kinds = tokens.map Token.kind ∧ derivation.Greedy ∧
            derivation.tree = tree) ∧
      ∀ derivation other : Derivation .disjunction,
        derivation.Greedy → other.Greedy →
          derivation.kinds = tokens.map Token.kind →
            other.kinds = tokens.map Token.kind → derivation = other := by
  have reads : ∀ tree, ofPhrase phrase = .ok (some tree) ↔
      ∃ derivation : Derivation .disjunction,
        derivation.kinds = tokens.map Token.kind ∧ derivation.Greedy ∧
          derivation.tree = tree := by
    intro tree
    rw [ofPhrase, cut, ← Derivation.outcome_eq_ok_iff]
    simp only [ofTokens_eq_some_iff, nonempty, ne_eq, not_false_eq_true,
      true_and]
  refine ⟨?_, reads, ?_⟩
  · constructor
    · rintro ⟨tree, read⟩
      rcases (reads tree).mp read with ⟨derivation, same, -, -⟩
      exact ⟨derivation, same⟩
    · rintro ⟨derivation, same⟩
      refine ⟨derivation.regroup.tree,
        (reads _).mpr ⟨derivation.regroup, ?_, ?_, rfl⟩⟩
      · rw [Derivation.kinds_regroup, same]
      · exact derivation.greedyBefore_regroup
  · intro derivation other greedy otherGreedy same otherSame
    exact greedy.eq_of_kinds_eq otherGreedy (same.trans otherSame.symm)

/--
The greedy derivation of `not a = b c`, in which the value `a` is compared.
-/
def comparedDerivation : Derivation .disjunction :=
  .lastAlternative
    (.conjunct false (.denied (.plain (.comparison "a" .equal "b")))
      (.lastConjunct (.plain (.bare "c"))))

/--
Another derivation of the same phrase, in which the value `a` is denied on its
own.
-/
def separateDerivation : Derivation .disjunction :=
  .lastAlternative
    (.conjunct false (.denied (.plain (.bare "a")))
      (.conjunct false (.plain (.search .equal "b"))
        (.lastConjunct (.plain (.bare "c")))))

/-- A phrase with two derivations is read by the greedy one. -/
theorem ofPhrase_reads_grammar_ambiguous :
    ∃ tokens, Token.ofPhrase "not a = b c" = .ok tokens ∧ tokens ≠ [] ∧
      separateDerivation.kinds = tokens.map Token.kind ∧
      comparedDerivation.kinds = tokens.map Token.kind ∧
      comparedDerivation.Greedy ∧
      ofPhrase "not a = b c" = .ok (some comparedDerivation.tree) := by
  have cut : ∃ tokens, Token.ofPhrase "not a = b c" = .ok tokens ∧ tokens ≠ [] ∧
      separateDerivation.kinds = tokens.map Token.kind ∧
      comparedDerivation.kinds = tokens.map Token.kind :=
    ⟨_, rfl, by simp, rfl, rfl⟩
  rcases cut with ⟨tokens, cut, nonempty, separate, compared⟩
  have read := (ofPhrase_reads_grammar cut nonempty).2.1 comparedDerivation.tree
  exact ⟨tokens, cut, nonempty, separate, compared, rfl,
    read.mpr ⟨comparedDerivation, compared, rfl, rfl⟩⟩

end SearchPhrase.Tree
