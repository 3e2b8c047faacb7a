import SearchPhrase.Proofs.Token.Writing
import SearchPhrase.Proofs.Tree.Canonical

/-!
# Rendering canonical trees

A canonical tree can be written as a phrase: each leaf between quotes, operators
by their tokens, connectives by their keywords, and connections in parentheses
where they are operands.  The other operands may stand in parentheses or not.
Reading the phrase gives the tree back, so the trees that phrases write are
exactly the canonical ones.
-/

namespace SearchPhrase.Tree

/-! ## The text of a tree -/

/-- Whether a tree joins other trees. -/
def isConnection : Tree → Bool
  | .connection _ _ => true
  | _ => false

/--
The text of an operand, in parentheses if it is a connection or if every operand
is.
-/
def enclosed (everyOperand : Bool) (operand : Tree) (text : List Char) :
    List Char :=
  if everyOperand || operand.isConnection then '(' :: text ++ [')'] else text

/-- A keyword between blanks. -/
def spacedName (connective : Connective) : List Char :=
  ' ' :: connective.name.toList ++ [' ']

/-- The text of a comparison of leaves. -/
def comparisonText (operator : Comparison) : List Tree → List Char
  | [.leaf value] => operator.token.toList ++ ' ' :: Token.quoted value
  | [.leaf field, .leaf value] =>
      Token.quoted field ++ ' ' :: operator.token.toList ++ ' ' ::
        Token.quoted value
  | _ => []

/--
The texts of operands as one: with the keyword in front of what is denied, or
between them.
-/
def joinedText : Connective → List (List Char) → List Char
  | .not, texts => Connective.not.name.toList ++ ' ' :: texts.flatten
  | .and, texts => (spacedName .and).intercalate texts
  | .or, texts => (spacedName .or).intercalate texts

mutual

/-- The characters of the phrase that writes a tree. -/
def characters (everyOperand : Bool) : Tree → List Char
  | .leaf value => Token.quoted value
  | .comparison operator operands => comparisonText operator operands
  | .connection connective operands =>
      joinedText connective (operandTexts everyOperand operands)

/-- The texts of operands. -/
def operandTexts (everyOperand : Bool) : List Tree → List (List Char)
  | [] => []
  | operand :: rest =>
      enclosed everyOperand operand (characters everyOperand operand) ::
        operandTexts everyOperand rest

end

/-- The phrase that writes a canonical tree. -/
def render (everyOperand : Bool) (tree : Tree) : String :=
  String.ofList (tree.characters everyOperand)

/-- The text of one operand. -/
def operandText (everyOperand : Bool) (operand : Tree) : List Char :=
  enclosed everyOperand operand (operand.characters everyOperand)

theorem operandTexts_eq_map (everyOperand : Bool) (operands : List Tree) :
    operandTexts everyOperand operands =
      operands.map (operandText everyOperand) := by
  induction operands with
  | nil => rw [operandTexts, List.map_nil]
  | cons operand rest ih => rw [operandTexts, ih, List.map_cons, operandText]

/-! ## Texts that spell expressions -/

/--
A text writes the tokens of a greedy expression that joins the given trees.
-/
def Spells (category : Category) (text : List Char)
    (operands : List Tree) : Prop :=
  ∃ derivation : Derivation category,
    derivation.operands = operands ∧ derivation.greedyBefore [] = true ∧
      Token.Writes text derivation.kinds

theorem spells_leaf (value : String) :
    Spells .operand (Token.quoted value) [.leaf value] :=
  ⟨.bare value, rfl, rfl, Token.writes_quoted value⟩

theorem spells_search (operator : Comparison) (value : String) :
    Spells .operand (operator.token.toList ++ ' ' :: Token.quoted value)
      [.comparison operator [.leaf value]] := by
  refine ⟨.search operator value, rfl, rfl, ?_⟩
  have writes :=
    (Token.writes_operator operator).append (Token.writes_quoted value)
  rwa [List.append_assoc] at writes

theorem spells_comparison (operator : Comparison) (field value : String) :
    Spells .operand
      (Token.quoted field ++ ' ' :: operator.token.toList ++ ' ' ::
        Token.quoted value)
      [.comparison operator [.leaf field, .leaf value]] := by
  refine ⟨.comparison field operator value, rfl, rfl, ?_⟩
  have writes :=
    ((Token.writes_quoted field).append Token.writes_blank).append
      ((Token.writes_operator operator).append (Token.writes_quoted value))
  simpa [Derivation.kinds] using writes

theorem Spells.negation
    {text : List Char} {operands : List Tree}
    (operand : Spells .operand text operands) :
    Spells .negation text operands := by
  rcases operand with ⟨derivation, joins, greedy, writes⟩
  exact ⟨.plain derivation, joins, greedy, writes⟩

/-- The keyword `not` in front of an operand. -/
theorem Spells.denied
    {text : List Char} {operand : Tree}
    (inner : Spells .operand text [operand]) :
    Spells .negation (Connective.not.name.toList ++ ' ' :: text)
      [.connection .not [operand]] := by
  rcases inner with ⟨derivation, joins, greedy, writes⟩
  refine ⟨.denied (.plain derivation), ?_, greedy, ?_⟩
  · rw [Derivation.operands, Derivation.operands, joins]
  · have written := (Token.writes_connective .not).append writes
    rwa [List.append_assoc] at written

theorem Spells.conjunction
    {text : List Char} {operands : List Tree}
    (negation : Spells .negation text operands) :
    Spells .conjunction text operands := by
  rcases negation with ⟨derivation, joins, greedy, writes⟩
  exact ⟨.lastConjunct derivation, joins, greedy, writes⟩

theorem Spells.disjunction
    {text : List Char} {operands : List Tree}
    (conjunction : Spells .conjunction text operands) :
    Spells .disjunction text [joined .and operands] := by
  rcases conjunction with ⟨derivation, joins, greedy, writes⟩
  refine ⟨.lastAlternative derivation, ?_, greedy, writes⟩
  rw [Derivation.operands, joins]

/-- An expression in parentheses is an operand. -/
theorem Spells.bracketed
    {text : List Char} {operands : List Tree}
    (inner : Spells .disjunction text operands) :
    Spells .operand ('(' :: text ++ [')']) [joined .or operands] := by
  rcases inner with ⟨derivation, joins, greedy, writes⟩
  refine ⟨.bracketed derivation, ?_,
    Derivation.greedyBefore_of_apart greedy rfl, ?_⟩
  · rw [Derivation.operands, joins]
  · exact (Token.writes_opening.append writes).append Token.writes_closing

theorem writes_spacedName (connective : Connective) :
    Token.Writes (spacedName connective) [.connective connective] :=
  Token.writes_blank.append (Token.writes_connective connective)

/-- An operand in front of a conjunction, with `and` between them. -/
theorem Spells.conjunct
    {text others : List Char} {operand : Tree} {operands : List Tree}
    (first : Spells .operand text [operand])
    (rest : Spells .conjunction others operands) :
    Spells .conjunction (text ++ spacedName .and ++ others)
      (operand :: operands) := by
  rcases first.negation with ⟨derivation, joins, greedy, writes⟩
  rcases rest with ⟨following, followingJoins, followingGreedy, followingWrites⟩
  refine ⟨.conjunct true derivation following, ?_, ?_, ?_⟩
  · rw [Derivation.operands, joins, followingJoins]
    rfl
  · rw [Derivation.greedyBefore, followingGreedy, Bool.and_true]
    exact Derivation.greedyBefore_of_apart greedy rfl
  · exact (writes.append (writes_spacedName .and)).append followingWrites

/-- An operand in front of a disjunction, with `or` between them. -/
theorem Spells.alternative
    {text others : List Char} {operand : Tree} {operands : List Tree}
    (first : Spells .operand text [operand])
    (rest : Spells .disjunction others operands) :
    Spells .disjunction (text ++ spacedName .or ++ others)
      (operand :: operands) := by
  rcases first.negation.conjunction with ⟨derivation, joins, greedy, writes⟩
  rcases rest with ⟨following, followingJoins, followingGreedy, followingWrites⟩
  refine ⟨.alternative derivation following, ?_, ?_, ?_⟩
  · rw [Derivation.operands, joins, followingJoins]
    rfl
  · rw [Derivation.greedyBefore, followingGreedy, Bool.and_true]
    exact Derivation.greedyBefore_of_apart greedy rfl
  · have written :=
      (writes.append (writes_spacedName .or)).append followingWrites
    simpa [Derivation.kinds] using written

/--
A run of operands, if one operand is a run and can be put in front of another
run.
-/
theorem spells_run
    {category : Category} {connective : Connective} {everyOperand : Bool}
    (last : ∀ {text : List Char} {operand : Tree},
      Spells .operand text [operand] → Spells category text [operand])
    (more : ∀ {text others : List Char} {operand : Tree} {operands : List Tree},
      Spells .operand text [operand] → Spells category others operands →
        Spells category (text ++ spacedName connective ++ others)
          (operand :: operands))
    {operands : List Tree} (nonempty : operands ≠ [])
    (each : ∀ operand ∈ operands,
      Spells .operand (operandText everyOperand operand) [operand]) :
    Spells category
      ((spacedName connective).intercalate
        (operands.map (operandText everyOperand)))
      operands := by
  induction operands with
  | nil => exact absurd rfl nonempty
  | cons operand rest ih =>
      have first := each operand List.mem_cons_self
      cases rest with
      | nil =>
          rw [List.map_cons, List.map_nil, List.intercalate_singleton]
          exact last first
      | cons second others =>
          have following :=
            ih (List.cons_ne_nil second others) fun other member =>
              each other (List.mem_cons_of_mem operand member)
          rw [List.map_cons, List.intercalate_cons_of_ne_nil (by simp)]
          exact more first following

/-! ## Reading the text of a tree -/

/-- The text of a tree writes the tree, as a phrase and as an operand. -/
structure Written (everyOperand : Bool) (tree : Tree) : Prop where
  phrase : ∃ operands,
    Spells .disjunction (tree.characters everyOperand) operands ∧
      joined .or operands = tree
  operand : Spells .operand (operandText everyOperand tree) [tree]

variable {everyOperand : Bool}

theorem written_of_operand
    {tree : Tree} (simple : tree.isConnection = false)
    (spelled : Spells .operand (tree.characters everyOperand) [tree]) :
    Written everyOperand tree := by
  have phrase := spelled.negation.conjunction.disjunction
  refine ⟨⟨[tree], phrase, rfl⟩, ?_⟩
  rw [operandText, enclosed, simple, Bool.or_false]
  split
  · exact phrase.bracketed
  · exact spelled

theorem written_of_connection
    {connective : Connective} {operands : List Tree} (alternatives : List Tree)
    (spelled : Spells .disjunction
      ((connection connective operands).characters everyOperand) alternatives)
    (joins : joined .or alternatives = .connection connective operands) :
    Written everyOperand (.connection connective operands) := by
  refine ⟨⟨alternatives, spelled, joins⟩, ?_⟩
  rw [operandText, enclosed, isConnection, Bool.or_true, if_pos rfl, ← joins]
  rw [← joins] at spelled
  exact spelled.bracketed

theorem joined_of_several
    {operands : List Tree} (several : 2 ≤ operands.length)
    (connective : Connective) :
    joined connective operands = .connection connective operands := by
  cases operands with
  | nil => simp at several
  | cons first rest =>
      cases rest with
      | nil => simp at several
      | cons second others => rfl

/-- The text of a canonical tree writes the tree. -/
theorem Canonical.written
    {tree : Tree} (canonical : Canonical tree) (everyOperand : Bool) :
    Written everyOperand tree := by
  induction canonical with
  | leaf value =>
      apply written_of_operand rfl
      rw [characters]
      exact spells_leaf value
  | search operator value =>
      apply written_of_operand rfl
      rw [characters]
      exact spells_search operator value
  | comparison operator field value =>
      apply written_of_operand rfl
      rw [characters]
      exact spells_comparison operator field value
  | @negation operand inner ih =>
      refine written_of_connection [.connection .not [operand]] ?_ rfl
      rw [characters, operandTexts_eq_map, joinedText, List.map_singleton,
        List.flatten_singleton]
      exact ih.operand.denied.conjunction.disjunction
  | @junction connective joins operands several inner ih =>
      have nonempty : operands ≠ [] := List.ne_nil_of_length_pos (by omega)
      have each : ∀ operand ∈ operands,
          Spells .operand (operandText everyOperand operand) [operand] :=
        fun operand member => (ih operand member).operand
      cases connective with
      | and =>
          refine written_of_connection [joined .and operands] ?_
            (joined_of_several several .and)
          rw [characters, operandTexts_eq_map, joinedText]
          exact (spells_run (fun first => first.negation.conjunction)
            Spells.conjunct nonempty each).disjunction
      | or =>
          refine written_of_connection operands ?_
            (joined_of_several several .or)
          rw [characters, operandTexts_eq_map, joinedText]
          exact spells_run (fun first => first.negation.conjunction.disjunction)
            Spells.alternative nonempty each
      | not => exact absurd rfl joins

/-- Reading the phrase of a canonical tree gives the tree. -/
theorem ofPhrase_render
    {tree : Tree} (canonical : Canonical tree) (everyOperand : Bool) :
    ofPhrase (tree.render everyOperand) = .ok (some tree) := by
  rcases (canonical.written everyOperand).phrase with
    ⟨operands, ⟨derivation, joins, greedy, writes⟩, phraseTree⟩
  rcases writes.cuts 0 with ⟨tokens, scanned, same⟩
  have cut : Token.ofPhrase (tree.render everyOperand) = .ok tokens := by
    rw [Token.ofPhrase, render, String.toList_ofList, scanned]
  have nonempty : tokens ≠ [] := by
    rintro rfl
    rcases derivation.kinds_eq_cons with ⟨first, rest, shape, -⟩
    rw [shape] at same
    cases same
  rw [ofPhrase, cut]
  refine Reader.ofTokens_eq_some_iff.mpr ⟨nonempty, ?_⟩
  refine Derivation.outcome_eq_ok_iff.mpr ⟨derivation, same.symm, greedy, ?_⟩
  rw [Derivation.tree, joins, phraseTree]

/--
Phrases write exactly the canonical trees.  What a phrase writes is canonical,
so that no phrase is refused for the operands of a comparison, and every
canonical tree is written by its own rendering.
-/
theorem phrases_write_canonical_trees :
    (∀ phrase tree, ofPhrase phrase = .ok (some tree) → Canonical tree) ∧
      (∀ (catalog : Catalog) clock phrase error,
        catalog.queryString clock phrase = .error error →
          error.blamesOperands = false) ∧
      ∀ tree, Canonical tree → ∀ everyOperand,
        ofPhrase (tree.render everyOperand) = .ok (some tree) := by
  refine ⟨?_, ?_, ?_⟩
  · intro phrase tree read
    exact canonical_of_ofPhrase read
  · intro catalog clock phrase error failed
    exact catalog.sparesOperands_queryString clock phrase error failed
  · intro tree canonical everyOperand
    exact ofPhrase_render canonical everyOperand

/--
A tree with a keyword, an empty text, a quote and a backslash among its leaves.
-/
def quotedSearch : Tree :=
  .connection .or
    [ .connection .or [.comparison .unlike [.leaf "and"], .leaf ""],
      .connection .not [.comparison .equal [.leaf "a\"b", .leaf "\\"]] ]

theorem canonical_quotedSearch : Canonical quotedSearch := by
  refine .junction (by decide) (by decide) ?_
  intro operand member
  simp only [List.mem_cons, List.not_mem_nil, or_false] at member
  rcases member with rfl | rfl
  · refine .junction (by decide) (by decide) ?_
    intro inner member
    simp only [List.mem_cons, List.not_mem_nil, or_false] at member
    rcases member with rfl | rfl
    · exact .search .unlike "and"
    · exact .leaf ""
  · exact .negation (.comparison .equal "a\"b" "\\")

/--
The leaves and the nested disjunctions of the tree come back as they were.
-/
theorem phrases_write_canonical_trees_quoted :
    Canonical quotedSearch ∧
      quotedSearch.render false =
        "(!~ \"and\" or \"\") or (not \"a\\\"b\" = \"\\\\\")" ∧
      ofPhrase (quotedSearch.render false) = .ok (some quotedSearch) :=
  ⟨canonical_quotedSearch, rfl,
    phrases_write_canonical_trees.2.2 quotedSearch canonical_quotedSearch false⟩

end SearchPhrase.Tree
