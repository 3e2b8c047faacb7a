import SearchPhrase.Proofs.QueryString.UniqueReadability

/-!
# The meaning of filters

A tree holds of a record or not, according to the tests that the record
satisfies.  The text of a filter has brackets only around what is denied and
around the tests of enumerated fields, so it does not say how conjunctions and
disjunctions are grouped.  The grouping is all that is lost: a filter together
with a grouping determines the condition.

A text can also be read if one junction is taken to bind more loosely than the
other.  This module gives such a reader, which keeps a stack of levels, one for
each open bracket.  It finds the truth of every condition that is layered, that
is, in which the looser junction never stands inside the other one except in
brackets.  Trees with the same filter are therefore equivalent if they are
grouped in the same way, or if both are layered.
-/

namespace SearchPhrase

/-! ## Truth -/

namespace Junction

/-- The truth of two joined operands. -/
def combine : Junction → Bool → Bool → Bool
  | .and, left, right => left && right
  | .or, left, right => left || right

/-- The truth that changes nothing when it is joined. -/
def neutral : Junction → Bool
  | .and => true
  | .or => false

/-- The junction that is not a given one. -/
def other : Junction → Junction
  | .and => .or
  | .or => .and

@[simp]
theorem neutral_combine (junction : Junction) (value : Bool) :
    junction.combine junction.neutral value = value := by
  cases junction <;> rfl

theorem combine_assoc (junction : Junction) (first second third : Bool) :
    junction.combine (junction.combine first second) third =
      junction.combine first (junction.combine second third) := by
  cases junction with
  | and => exact Bool.and_assoc first second third
  | or => exact Bool.or_assoc first second third

theorem eq_other_of_ne {junction loosest : Junction}
    (differs : junction ≠ loosest) :
    junction = loosest.other := by
  cases junction with
  | and =>
      cases loosest with
      | and => exact absurd rfl differs
      | or => rfl
  | or =>
      cases loosest with
      | and => rfl
      | or => exact absurd rfl differs

theorem foldl_and (first : Bool) (rest : List Bool) :
    rest.foldl Junction.and.combine first = (first :: rest).all id := by
  induction rest generalizing first with
  | nil => simp
  | cons second others ih =>
      rw [List.foldl_cons, ih]
      simp [combine, Bool.and_assoc]

theorem foldl_or (first : Bool) (rest : List Bool) :
    rest.foldl Junction.or.combine first = (first :: rest).any id := by
  induction rest generalizing first with
  | nil => simp
  | cons second others ih =>
      rw [List.foldl_cons, ih]
      simp [combine, Bool.or_assoc]

end Junction

/-- Which comparisons of its fields with parameters a record satisfies. -/
abbrev Assignment :=
  FieldName → Comparison → Parameter → Bool

/-- Whether a condition holds under an assignment. -/
def Condition.holds (satisfies : Assignment) : Condition → Bool
  | .test field operator parameter => satisfies field operator parameter
  | .range field start stop =>
      satisfies field .greaterOrEqual start && satisfies field .less stop
  | .group inner => inner.holds satisfies
  | .denial inner => !inner.holds satisfies
  | .joined junction left right =>
      junction.combine (left.holds satisfies) (right.holds satisfies)

/--
The truth of the operands of a connective together; a negation denies them all
together.
-/
def Connective.truth? : Connective → List Bool → Option Bool
  | _, [] => none
  | .and, operands => some (operands.all id)
  | .or, operands => some (operands.any id)
  | .not, operands => some (!operands.all id)

namespace Tree

mutual

/--
Whether a tree holds under an assignment, where a leaf or comparison holds if
its own tests do; none if nothing in the tree restricts the search.
-/
def truth? (catalog : Catalog) (reference : Instant) (satisfies : Assignment) :
    Tree → Option Bool
  | .leaf value =>
      (leafCondition? catalog reference value).map (Condition.holds satisfies)
  | .comparison operator operands =>
      (comparisonCondition? catalog reference operator operands).map
        (Condition.holds satisfies)
  | .connection connective operands =>
      connective.truth? (truths catalog reference satisfies operands)

/-- Which of the trees that restrict the search hold, from left to right. -/
def truths (catalog : Catalog) (reference : Instant) (satisfies : Assignment) :
    List Tree → List Bool
  | [] => []
  | tree :: rest =>
      (truth? catalog reference satisfies tree).toList ++
        truths catalog reference satisfies rest

end

end Tree

namespace Condition

variable {satisfies : Assignment}

theorem holds_foldl (junction : Junction) (first : Condition)
    (rest : List Condition) :
    (rest.foldl (joined junction) first).holds satisfies =
      (rest.map (holds satisfies)).foldl junction.combine
        (first.holds satisfies) := by
  induction rest generalizing first with
  | nil => rfl
  | cons second others ih =>
      rw [List.foldl_cons, ih, List.map_cons, List.foldl_cons, holds]

/--
The condition of a connective holds as the connective of its operands does.
-/
theorem holds_connect (connective : Connective) (operands : List Condition) :
    (connect connective operands).map (holds satisfies) =
      connective.truth? (operands.map (holds satisfies)) := by
  cases operands with
  | nil => cases connective <;> rfl
  | cons first rest =>
      cases connective with
      | and =>
          simp [connect, join, holds_foldl, Junction.foldl_and,
            Connective.truth?]
      | or =>
          simp [connect, join, holds_foldl, Junction.foldl_or,
            Connective.truth?]
      | not =>
          simp [connect, join, holds, holds_foldl, Junction.foldl_and,
            Connective.truth?]

end Condition

namespace Tree

variable {catalog : Catalog} {reference : Instant} {satisfies : Assignment}

mutual

theorem truth?_eq :
    ∀ tree : Tree, tree.truth? catalog reference satisfies =
      (tree.condition? catalog reference).map (Condition.holds satisfies)
  | .leaf value => by rw [truth?, condition?]
  | .comparison operator operands => by rw [truth?, condition?]
  | .connection connective operands => by
      rw [truth?, condition?, Condition.holds_connect, truths_eq operands]

theorem truths_eq :
    ∀ trees : List Tree, truths catalog reference satisfies trees =
      (conditions catalog reference trees).map (Condition.holds satisfies)
  | [] => by rw [truths, conditions, List.map_nil]
  | tree :: rest => by
      rw [truths, conditions, List.map_append, truth?_eq tree, truths_eq rest]
      cases tree.condition? catalog reference <;> rfl

end

end Tree

/-! ## Groupings -/

/-- How a condition is grouped, apart from what the text of its filter shows. -/
inductive Grouping where
  | test
  | range
  | bracket (inner : Grouping)
  | joined (left right : Grouping)
deriving DecidableEq, Repr

namespace Condition

/-- The grouping of a condition. -/
def grouping : Condition → Grouping
  | .test _ _ _ => .test
  | .range _ _ _ => .range
  | .group inner => .bracket inner.grouping
  | .denial inner => .bracket inner.grouping
  | .joined _ left right => .joined left.grouping right.grouping

/-- A spelling and a grouping determine the condition, and what follows it. -/
theorem eq_of_spell_eq
    {left right : Condition} {next other : Spelling Parameter .finish}
    (grouped : left.grouping = right.grouping)
    (spelled : left.spell next = right.spell other) :
    left = right ∧ next = other := by
  induction left generalizing right next other with
  | test field operator parameter =>
      cases right with
      | test otherField otherOperator otherParameter =>
          simpa only [spell, Spelling.test.injEq, test.injEq, and_assoc] using
            spelled
      | _ => cases grouped
  | range field start stop =>
      cases right with
      | range otherField otherStart otherStop =>
          simp only [spell, Spelling.test.injEq,
            Spelling.joined.injEq] at spelled
          obtain ⟨rfl, -, rfl, -, -, -, rfl, rfl⟩ := spelled
          exact ⟨rfl, rfl⟩
      | _ => cases grouped
  | group inner ih =>
      cases right with
      | group otherInner =>
          rw [spell, spell, Spelling.bracket.injEq] at spelled
          obtain ⟨rfl, closed⟩ := ih (Grouping.bracket.inj grouped) spelled.2
          exact ⟨rfl, Spelling.close.inj closed⟩
      | denial otherInner => simp [spell] at spelled
      | _ => cases grouped
  | denial inner ih =>
      cases right with
      | denial otherInner =>
          rw [spell, spell, Spelling.bracket.injEq] at spelled
          obtain ⟨rfl, closed⟩ := ih (Grouping.bracket.inj grouped) spelled.2
          exact ⟨rfl, Spelling.close.inj closed⟩
      | group otherInner => simp [spell] at spelled
      | _ => cases grouped
  | joined junction first second firstIH secondIH =>
      cases right with
      | joined otherJunction otherFirst otherSecond =>
          obtain ⟨firstGrouped, secondGrouped⟩ := Grouping.joined.inj grouped
          obtain ⟨rfl, following⟩ := firstIH firstGrouped spelled
          rw [Spelling.joined.injEq] at following
          obtain ⟨rfl, followed⟩ := secondIH secondGrouped following.2
          exact ⟨by rw [following.1], followed⟩
      | _ => cases grouped

end Condition

/-! ## Layered conditions -/

namespace Condition

/-- Whether a junction occurs in a condition outside of brackets. -/
def contains (junction : Junction) : Condition → Bool
  | .test _ _ _ => false
  | .range _ _ _ => junction == .and
  | .group _ => false
  | .denial _ => false
  | .joined own left right =>
      junction == own || left.contains junction || right.contains junction

/--
Whether the other junction never joins operands in which the loosest one occurs
outside of brackets.
-/
def layered (loosest : Junction) : Condition → Bool
  | .test _ _ _ => true
  | .range _ _ _ => true
  | .group inner => inner.layered loosest
  | .denial inner => inner.layered loosest
  | .joined junction left right =>
      left.layered loosest && right.layered loosest &&
        (junction == loosest ||
          !(left.contains loosest || right.contains loosest))

end Condition

/--
The conditions are grouped in the same way, or both are layered with one loosest
junction.
-/
def Condition.GroupedAlike (left right : Condition) : Prop :=
  left.grouping = right.grouping ∨
    ∃ loosest, left.layered loosest = true ∧ right.layered loosest = true

/-- The conditions of two trees, if they state any, are grouped alike. -/
def Tree.GroupedAlike (catalog : Catalog) (reference : Instant)
    (left right : Tree) : Prop :=
  ∀ condition ∈ left.condition? catalog reference,
    ∀ other ∈ right.condition? catalog reference, condition.GroupedAlike other

/-! ## Reading a spelling with one junction as the loosest -/

namespace Spelling

/--
What is known inside a bracket: the groups that are complete, and the last one.
-/
structure Level where
  complete : Bool
  current : Bool

namespace Level

variable (loosest : Junction)

/-- A level in which nothing is read. -/
def fresh : Level where
  complete := loosest.neutral
  current := loosest.other.neutral

/-- The truth of all that is read on a level. -/
def value (level : Level) : Bool :=
  loosest.combine level.complete level.current

/-- The level after an operand. -/
def take (level : Level) (operand : Bool) : Level where
  complete := level.complete
  current := loosest.other.combine level.current operand

/-- The level after a junction, where the loosest one completes a group. -/
def pass (level : Level) (junction : Junction) : Level :=
  if junction = loosest then ⟨level.value loosest, loosest.other.neutral⟩
  else level

end Level

/--
Read a spelling on a level, with the levels around the open brackets.  A bracket
that closes without having been opened ends the reading.
-/
def read (loosest : Junction) (satisfies : Assignment) :
    {position : Position} → Spelling Parameter position → Level →
      List (Bool × Level) →
      Bool
  | _, .bracket denied next, level, around =>
      next.read loosest satisfies (.fresh loosest) ((denied, level) :: around)
  | _, .test field operator parameter next, level, around =>
      next.read loosest satisfies
        (level.take loosest (satisfies field operator parameter)) around
  | _, .stop, level, _ => level.value loosest
  | _, .close _, level, [] => level.value loosest
  | _, .close next, level, (denied, outer) :: around =>
      next.read loosest satisfies
        (outer.take loosest (denied ^^ level.value loosest)) around
  | _, .joined junction next, level, around =>
      next.read loosest satisfies (level.pass loosest junction) around

end Spelling

namespace Condition

open Spelling (Level)

variable {loosest : Junction} {satisfies : Assignment}

/-- A condition is read as one operand, wherever it stands. -/
def ReadAsOperand (loosest : Junction) (satisfies : Assignment)
    (condition : Condition) :
    Prop :=
  ∀ next level around,
    (condition.spell next).read loosest satisfies level around =
      next.read loosest satisfies
        (level.take loosest (condition.holds satisfies)) around

/-- A condition is read as whole groups, where a group starts. -/
def ReadAsGroups (loosest : Junction) (satisfies : Assignment)
    (condition : Condition) :
    Prop :=
  ∀ next complete around, ∃ level : Level,
    level.value loosest = loosest.combine complete (condition.holds satisfies) ∧
    (condition.spell next).read loosest satisfies
        ⟨complete, loosest.other.neutral⟩ around =
      next.read loosest satisfies level around

theorem ReadAsOperand.groups
    {condition : Condition}
    (operand : ReadAsOperand loosest satisfies condition) :
    ReadAsGroups loosest satisfies condition := by
  intro next complete around
  refine ⟨_, ?_, operand next _ around⟩
  simp [Level.value, Level.take]

theorem readAsOperand_test
    (field : FieldName) (operator : Comparison) (parameter : Parameter) :
    ReadAsOperand loosest satisfies (.test field operator parameter) := by
  intro next level around
  rfl

/-- What stands in brackets is read as one operand, whatever it contains. -/
theorem ReadAsGroups.bracket
    {inner : Condition} (groups : ReadAsGroups loosest satisfies inner)
    (denied : Bool)
    (next : Spelling Parameter .finish) (level : Level)
    (around : List (Bool × Level)) :
    (Spelling.bracket denied (inner.spell (.close next))).read loosest satisfies
        level around =
      next.read loosest satisfies
        (level.take loosest (denied ^^ inner.holds satisfies)) around := by
  obtain ⟨inside, value, reads⟩ :=
    groups (.close next) loosest.neutral ((denied, level) :: around)
  rw [Junction.neutral_combine] at value
  rw [Spelling.read, Level.fresh, reads, Spelling.read, value]

theorem ReadAsGroups.group
    {inner : Condition} (groups : ReadAsGroups loosest satisfies inner) :
    ReadAsOperand loosest satisfies inner.group := by
  intro next level around
  rw [spell, groups.bracket, Bool.false_xor, holds]

theorem ReadAsGroups.denial
    {inner : Condition} (groups : ReadAsGroups loosest satisfies inner) :
    ReadAsOperand loosest satisfies inner.denial := by
  intro next level around
  rw [spell, groups.bracket, Bool.true_xor, holds]

/-- Operands that are joined by the tighter junction are read as one operand. -/
theorem readAsOperand_joined
    {junction : Junction} (tighter : junction ≠ loosest)
    {left right : Condition}
    (leftOperand : ReadAsOperand loosest satisfies left)
    (rightOperand : ReadAsOperand loosest satisfies right) :
    ReadAsOperand loosest satisfies (joined junction left right) := by
  intro next level around
  rw [spell, leftOperand, Spelling.read, Level.pass, if_neg tighter,
    rightOperand, holds, Level.take, Level.take, Level.take,
    Junction.combine_assoc, ← Junction.eq_other_of_ne tighter]

/--
Groups that are joined by the loosest junction are read one after the other.
The junction completes the groups of the left side, and the right side starts a
new one.
-/
theorem readAsGroups_joined
    {left right : Condition}
    (leftGroups : ReadAsGroups loosest satisfies left)
    (rightGroups : ReadAsGroups loosest satisfies right) :
    ReadAsGroups loosest satisfies (joined loosest left right) := by
  intro next complete around
  obtain ⟨level, value, reads⟩ :=
    leftGroups (.joined loosest (right.spell next)) complete around
  obtain ⟨last, lastValue, lastReads⟩ :=
    rightGroups next (level.value loosest) around
  refine ⟨last, ?_, ?_⟩
  · rw [lastValue, value, Junction.combine_assoc, holds]
  · rw [spell, reads, Spelling.read, Level.pass, if_pos rfl, lastReads]

/--
What is joined is read as operands or as groups, according to the junction.
-/
theorem read_joined
    {junction : Junction} {left right : Condition}
    (apart : junction = loosest ∨
      left.contains loosest = false ∧ right.contains loosest = false)
    (leftOperand :
      left.contains loosest = false → ReadAsOperand loosest satisfies left)
    (leftGroups : ReadAsGroups loosest satisfies left)
    (rightOperand :
      right.contains loosest = false → ReadAsOperand loosest satisfies right)
    (rightGroups : ReadAsGroups loosest satisfies right) :
    ((joined junction left right).contains loosest = false →
      ReadAsOperand loosest satisfies (joined junction left right)) ∧
    ReadAsGroups loosest satisfies (joined junction left right) := by
  by_cases same : junction = loosest
  · subst same
    refine ⟨?_, readAsGroups_joined leftGroups rightGroups⟩
    intro absent
    simp [contains] at absent
  · obtain ⟨leftAbsent, rightAbsent⟩ := apart.resolve_left same
    have operand :=
      readAsOperand_joined same (leftOperand leftAbsent)
        (rightOperand rightAbsent)
    exact ⟨fun _ => operand, operand.groups⟩

/--
A layered condition is read as groups, and as one operand if the loosest
junction occurs in it only in brackets.  A range is spelled as the conjunction
of its bounds.
-/
theorem read_of_layered {condition : Condition}
    (isLayered : condition.layered loosest = true) :
    (condition.contains loosest = false →
      ReadAsOperand loosest satisfies condition) ∧
      ReadAsGroups loosest satisfies condition := by
  induction condition with
  | test field operator parameter =>
      have operand :
          ReadAsOperand loosest satisfies (.test field operator parameter) :=
        readAsOperand_test field operator parameter
      exact ⟨fun _ => operand, operand.groups⟩
  | range field start stop =>
      have lower :
          ReadAsOperand loosest satisfies (.test field .greaterOrEqual start) :=
        readAsOperand_test field .greaterOrEqual start
      have upper : ReadAsOperand loosest satisfies (.test field .less stop) :=
        readAsOperand_test field .less stop
      obtain ⟨operand, groups⟩ :=
        read_joined (Or.inr ⟨rfl, rfl⟩ : Junction.and = loosest ∨ _)
          (fun _ => lower) lower.groups (fun _ => upper) upper.groups
      refine ⟨?_, groups⟩
      intro absent
      exact operand (by simpa [contains] using absent)
  | group inner ih =>
      have operand := (ih isLayered).2.group
      exact ⟨fun _ => operand, operand.groups⟩
  | denial inner ih =>
      have operand := (ih isLayered).2.denial
      exact ⟨fun _ => operand, operand.groups⟩
  | joined junction left right leftIH rightIH =>
      simp only [layered, Bool.and_eq_true, Bool.or_eq_true, beq_iff_eq,
        Bool.not_eq_true', Bool.or_eq_false_iff] at isLayered
      obtain ⟨⟨leftLayered, rightLayered⟩, apart⟩ := isLayered
      exact read_joined apart (leftIH leftLayered).1 (leftIH leftLayered).2
        (rightIH rightLayered).1 (rightIH rightLayered).2

/-- Reading the spelling of a layered condition finds whether it holds. -/
theorem read_spelling {condition : Condition}
    (isLayered : condition.layered loosest = true) :
    condition.spelling.read loosest satisfies (.fresh loosest) [] =
      condition.holds satisfies := by
  obtain ⟨level, value, reads⟩ :=
    (read_of_layered isLayered).2 .stop loosest.neutral []
  rw [spelling, Level.fresh, reads, Spelling.read, value,
    Junction.neutral_combine]

/-- Conditions that are written by one filter have one spelling. -/
theorem spelling_of_filter_eq {left right : Condition}
    (equal : left.filter = right.filter) :
    left.spelling = right.spelling := by
  have sent : left.sent = right.sent := by
    rw [← left.assemble_filter, ← right.assemble_filter, equal]
  have values : left.spelling.values = right.spelling.values := by
    rw [← left.filter_spelling.2, ← right.filter_spelling.2, equal]
  exact Spelling.eq_of_map_eq Parameter.literal
    (spelling_of_sent_eq sent) values

/--
Conditions that are grouped alike and written by one filter hold together.
-/
theorem GroupedAlike.holds_eq
    {left right : Condition} (alike : left.GroupedAlike right)
    (equal : left.filter = right.filter) :
    left.holds satisfies = right.holds satisfies := by
  have spelled := spelling_of_filter_eq equal
  rcases alike with grouped | ⟨loosest, leftLayered, rightLayered⟩
  · rw [(eq_of_spell_eq grouped spelled).1]
  · rw [← read_spelling leftLayered, ← read_spelling rightLayered, spelled]

end Condition

/-! ## Trees with the same filter -/

namespace Tree

/--
Trees that are compiled to the same filter by a pinned catalog hold under the
same assignments, provided that their conditions are grouped alike.
-/
theorem truth_of_filter_eq
    {catalog : Catalog} (registered : catalog.Registered)
    {reference : Instant} (pinned : catalog.reference = some reference)
    {clock otherClock : Instant} {left right : Tree} {result : Option Filter}
    {leftAfter rightAfter : Journal}
    (leftCompiled :
      left.compile catalog clock Journal.empty = .ok result leftAfter)
    (rightCompiled :
      right.compile catalog otherClock Journal.empty = .ok result rightAfter)
    (alike : GroupedAlike catalog reference left right)
    (satisfies : Assignment) :
    left.truth? catalog reference satisfies =
      right.truth? catalog reference satisfies := by
  have anchored (clock : Instant) : catalog.anchor clock = reference := by
    rw [Catalog.anchor, pinned, Option.getD_some]
  obtain ⟨leftSame, -⟩ := compile_empty_eq_ok registered leftCompiled
  obtain ⟨rightSame, -⟩ := compile_empty_eq_ok registered rightCompiled
  rw [anchored] at leftSame rightSame
  rw [truth?_eq, truth?_eq]
  cases leftStated : left.condition? catalog reference with
  | none =>
      rw [leftStated, Option.map_none] at leftSame
      have rightStated :=
        Option.map_eq_none_iff.mp (rightSame.symm.trans leftSame)
      rw [rightStated]
  | some condition =>
      rw [leftStated, Option.map_some] at leftSame
      obtain ⟨other, rightStated, equal⟩ :=
        Option.map_eq_some_iff.mp (rightSame.symm.trans leftSame)
      have alike := alike condition leftStated other rightStated
      rw [rightStated, Option.map_some, Option.map_some,
        alike.holds_eq equal.symm]

/--
A search by name or by memory, in which the conjunction binds more tightly.
-/
def looseDisjunction : Tree :=
  .connection .or
    [ .comparison .equal [.leaf "name", .leaf "a"],
      .connection .and
        [ .comparison .equal [.leaf "memory", .leaf "1"],
          .comparison .equal [.leaf "memory", .leaf "2"] ] ]

/-- The same search with an alias and with a disjunction of one operand. -/
def aliasedDisjunction : Tree :=
  .connection .or
    [ .connection .or [.comparison .equal [.leaf "hostname", .leaf "a"]],
      .connection .and
        [ .comparison .equal [.leaf "memory", .leaf "1"],
          .comparison .equal [.leaf "memory", .leaf "2"] ] ]

/--
The same tests in the same order, with the disjunction inside the conjunction.
-/
def tightDisjunction : Tree :=
  .connection .and
    [ .connection .or
        [ .comparison .equal [.leaf "name", .leaf "a"],
          .comparison .equal [.leaf "memory", .leaf "1"] ],
      .comparison .equal [.leaf "memory", .leaf "2"] ]

/-- The filter of these searches. -/
def ungroupedFilter : Filter where
  text := "name[]= = ? OR memory[]= = ?&memory[]= = ?"
  parameters := [.text "a", .integer 1, .integer 2]

/--
The machine that is named `a` and has a memory of five, compared by equality.
-/
def machineAssignment : Assignment :=
  fun field operator parameter =>
    operator == .equal &&
      decide ((field.text = "name" ∧ parameter = .text "a") ∨
        (field.text = "memory" ∧ parameter = .integer 5))

theorem groupedAlike_disjunctions :
    GroupedAlike Catalog.inventory Catalog.inventoryDay looseDisjunction
      aliasedDisjunction := by
  have isLayered :
      (looseDisjunction.condition? Catalog.inventory Catalog.inventoryDay).all
        (Condition.layered .or) = true :=
    rfl
  have otherLayered :
      (aliasedDisjunction.condition? Catalog.inventory Catalog.inventoryDay).all
        (Condition.layered .or) = true :=
    rfl
  intro condition stated other otherStated
  rw [Option.mem_def] at stated otherStated
  rw [stated] at isLayered
  rw [otherStated] at otherLayered
  exact Or.inr ⟨.or, isLayered, otherLayered⟩

/-- Both layered searches hold of the same machines. -/
theorem truth_of_filter_eq_inventory :
    ∃ after other,
      looseDisjunction.compile Catalog.inventory Catalog.inventoryDay
        Journal.empty =
          .ok (some ungroupedFilter) after ∧
        aliasedDisjunction.compile Catalog.inventory Catalog.inventoryDay
            Journal.empty =
          .ok (some ungroupedFilter) other ∧
        GroupedAlike Catalog.inventory Catalog.inventoryDay looseDisjunction
          aliasedDisjunction ∧
        looseDisjunction.truth? Catalog.inventory Catalog.inventoryDay
            machineAssignment =
          aliasedDisjunction.truth? Catalog.inventory Catalog.inventoryDay
            machineAssignment := by
  have compiles : ∃ after,
      looseDisjunction.compile Catalog.inventory Catalog.inventoryDay
          Journal.empty =
        .ok (some ungroupedFilter) after :=
    ⟨_, rfl⟩
  have otherCompiles : ∃ after,
      aliasedDisjunction.compile Catalog.inventory Catalog.inventoryDay
          Journal.empty =
        .ok (some ungroupedFilter) after :=
    ⟨_, rfl⟩
  obtain ⟨after, compiled⟩ := compiles
  obtain ⟨other, otherCompiled⟩ := otherCompiles
  exact ⟨after, other, compiled, otherCompiled, groupedAlike_disjunctions,
    truth_of_filter_eq Catalog.registered_inventory rfl compiled otherCompiled
      groupedAlike_disjunctions machineAssignment⟩

/--
Trees that are not grouped alike may have one filter and not be equivalent.
-/
theorem grouping_not_in_filter :
    Catalog.inventory.Registered ∧
      Catalog.inventory.reference = some Catalog.inventoryDay ∧
      ∃ after other,
        looseDisjunction.compile Catalog.inventory Catalog.inventoryDay
          Journal.empty =
            .ok (some ungroupedFilter) after ∧
          tightDisjunction.compile Catalog.inventory Catalog.inventoryDay
              Journal.empty =
            .ok (some ungroupedFilter) other ∧
          looseDisjunction.truth? Catalog.inventory Catalog.inventoryDay
              machineAssignment =
            some true ∧
          tightDisjunction.truth? Catalog.inventory Catalog.inventoryDay
              machineAssignment =
            some false :=
  ⟨Catalog.registered_inventory, rfl, _, _, rfl, rfl, rfl, rfl⟩

end Tree

end SearchPhrase
