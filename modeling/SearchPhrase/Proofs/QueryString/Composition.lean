import SearchPhrase.Proofs.Filter.Report
import SearchPhrase.Proofs.QueryString.Decoding

/-!
# Query strings of conjunctions and negations

A query string is assembled from the text of a whole filter, in passes that read
the text from its start to its end.  Nevertheless the query string of a
conjunction is made of those of its operands, and so is that of a negation.
This is because no run of blanks goes on after an operand that a conjunction or
a closing bracket follows, whatever the values are.  After a disjunction a run
may go on, and query strings of disjunctions are not made of those of their
operands.
-/

namespace SearchPhrase

/-! ## Operands in front of what follows them -/

namespace Condition

/--
What is sent for a condition is sent alike in front of everything; only whether
it leaves a run of blanks open matters for what follows.  A run that the left
operand of a junction leaves open goes on in the junction and ends there.
-/
theorem exists_sent_spell (condition : Condition) :
    ∃ characters leavesRun, ∀ next inRun,
      ((condition.spell next).map Parameter.literal).sent inRun =
        characters ++ (next.map Parameter.literal).sent leavesRun := by
  induction condition with
  | test field operator parameter =>
      exact ⟨_, _, fun next inRun => rfl⟩
  | range field start stop =>
      let bound (operator : Comparison) (parameter : Parameter) : List Char :=
        Spelling.selector field ++ operator.sent ++
          Spelling.sentValue parameter.literal
      refine ⟨bound .greaterOrEqual start ++ '&' :: bound .less stop,
        Comparison.less.endsInRun && stop.literal.isEmpty, fun next inRun => ?_⟩
      simp [bound, spell, Spelling.map, Spelling.sent, Junction.sent]
  | group inner ih =>
      obtain ⟨characters, leavesRun, sent⟩ := ih
      refine ⟨Spelling.sentOpening false ++ characters ++ [')'], false,
        fun next inRun => ?_⟩
      simp [spell, Spelling.map, Spelling.sent, sent]
  | denial inner ih =>
      obtain ⟨characters, leavesRun, sent⟩ := ih
      refine ⟨Spelling.sentOpening true ++ characters ++ [')'], false,
        fun next inRun => ?_⟩
      simp [spell, Spelling.map, Spelling.sent, sent]
  | joined junction left right leftIH rightIH =>
      obtain ⟨characters, leavesRun, sent⟩ := leftIH
      obtain ⟨others, leavesRunAfter, sentAfter⟩ := rightIH
      refine ⟨characters ++ junction.sent leavesRun ++ others, leavesRunAfter,
        fun next inRun => ?_⟩
      simp [spell, Spelling.map, Spelling.sent, sent, sentAfter]

/--
A condition is sent as on its own in front of what does not go on with a run of
blanks.
-/
theorem sent_spell
    (condition : Condition) {next : Spelling Parameter .finish}
    (endsRun : ∀ inRun, (next.map Parameter.literal).sent inRun =
      (next.map Parameter.literal).sent false) :
    ((condition.spell next).map Parameter.literal).sent false =
      (condition.spelling.map Parameter.literal).sent false ++
        (next.map Parameter.literal).sent false := by
  obtain ⟨characters, leavesRun, sent⟩ := condition.exists_sent_spell
  rw [spelling, sent, sent, endsRun]
  simp [Spelling.map, Spelling.sent]

theorem output_and (left right : Condition) :
    (joined .and left right).output = left.output ++ "&" ++ right.output := by
  have mark : "&" = String.ofList ['&'] := by decide
  rw [output, spelling, spell, sent_spell left fun _ => rfl, mark, output,
    output, ← String.ofList_append, ← String.ofList_append, List.append_assoc]
  rfl

theorem output_denial (condition : Condition) :
    condition.denial.output = "NOT+(" ++ condition.output ++ ")" := by
  have opening : "NOT+(" = String.ofList (Spelling.sentOpening true) := by
    decide
  have closing : ")" = String.ofList [')'] := by decide
  rw [output, output, opening, closing, ← String.ofList_append,
    ← String.ofList_append, spelling, spell, Spelling.map, Spelling.sent,
    sent_spell condition fun _ => rfl, List.append_assoc]
  rfl

theorem output_foldl_and (first : Condition) (rest : List Condition) :
    (rest.foldl (joined .and) first).output =
      "&".intercalate (first.output :: rest.map output) := by
  induction rest generalizing first with
  | nil => simp
  | cons second others ih =>
      rw [List.foldl_cons, ih, output_and, List.map_cons,
        String.intercalate_cons_append, String.intercalate_cons_cons]

end Condition

/-! ## Query strings of connections -/

namespace QueryString

/-- A query string without its question mark. -/
def body (query : String) : String :=
  String.ofList (query.toList.drop 1)

end QueryString

theorem Condition.body_sent (condition : Condition) :
    QueryString.body condition.sent = condition.output := by
  simp [QueryString.body, sent_eq_append]

namespace Tree

variable {catalog : Catalog} {clock reference : Instant}

/--
The query string of what a tree states, or the empty query if it states nothing.
-/
def statedQuery (catalog : Catalog) (reference : Instant) (tree : Tree) :
    String :=
  (tree.condition? catalog reference).elim "?" Condition.sent

/--
A tree has a query string if its report does not fail: that of what it states.
-/
theorem queryString_eq_ok_iff
    (registered : catalog.Registered)
    (pinned : catalog.reference = some reference)
    {tree : Tree} {query : String} :
    tree.queryString catalog clock = .ok query ↔
      (∃ filter, (tree.report catalog reference).outcome = .ok filter) ∧
        query = tree.statedQuery catalog reference := by
  have anchored : Journal.empty.reference catalog clock = reference :=
    reference_of_pinned pinned (Or.inl rfl)
  have fixed : catalog.anchor clock = reference := anchored
  cases compiled : tree.compile catalog clock Journal.empty with
  | ok filter after =>
      obtain ⟨-, sent⟩ := compile_empty_eq_ok registered compiled
      obtain ⟨succeeded, -⟩ := report_of_compile compiled
      rw [fixed] at sent
      rw [anchored] at succeeded
      rw [sent, succeeded, statedQuery]
      constructor
      · intro same
        exact ⟨⟨filter, rfl⟩, (Except.ok.inj same).symm⟩
      · rintro ⟨-, rfl⟩
        rfl
  | error error after =>
      have failed :=
        ((does_compile tree).fails_iff anchored).mp ⟨after, compiled⟩
      simp [queryString, compiled, failed]

/--
Trees that have query strings do not fail, and have those of what they state.
-/
theorem eq_map_statedQuery
    (registered : catalog.Registered)
    (pinned : catalog.reference = some reference)
    {operands : List Tree} {outputs : List String}
    (compiled :
      operands.map (queryString catalog clock) = outputs.map Except.ok) :
    (∀ operand ∈ operands, ∃ filter,
        (operand.report catalog reference).outcome = .ok filter) ∧
      outputs = operands.map (statedQuery catalog reference) := by
  induction operands generalizing outputs with
  | nil => simpa using compiled
  | cons operand rest ih =>
      cases outputs with
      | nil => simp at compiled
      | cons output others =>
          simp only [List.map_cons, List.cons.injEq] at compiled
          obtain ⟨succeeded, rfl⟩ :=
            (queryString_eq_ok_iff registered pinned).mp compiled.1
          obtain ⟨succeed, rfl⟩ := ih compiled.2
          exact ⟨List.forall_mem_cons.mpr ⟨succeeded, succeed⟩, rfl⟩

/--
A connection of trees that have query strings has the query string of what it
states.
-/
theorem queryString_connection
    (registered : catalog.Registered)
    (pinned : catalog.reference = some reference)
    (connective : Connective) {operands : List Tree}
    (succeed : ∀ operand ∈ operands, ∃ filter,
      (operand.report catalog reference).outcome = .ok filter) :
    (connection connective operands).queryString catalog clock =
      .ok ((connection connective operands).statedQuery catalog reference) := by
  refine (queryString_eq_ok_iff registered pinned).mpr ⟨?_, rfl⟩
  cases ended :
      ((connection connective operands).report catalog reference).outcome with
  | ok filter => exact ⟨filter, rfl⟩
  | error error =>
      obtain ⟨operand, member, cause, failed⟩ :=
        (report_connection_fails_iff catalog reference connective operands).mp
          ⟨error, ended⟩
      obtain ⟨filter, succeeded⟩ := succeed operand member
      rw [succeeded] at failed
      cases failed

/--
Among the query strings of trees, those that are not empty are those of
conditions.
-/
theorem map_body_statedQuery (operands : List Tree) :
    ((operands.map (statedQuery catalog reference)).filter (· != "?")).map
        QueryString.body =
      (conditions catalog reference operands).map Condition.output := by
  induction operands with
  | nil => rfl
  | cons operand rest ih =>
      rw [List.map_cons, conditions, List.map_append, ← ih, statedQuery]
      cases operand.condition? catalog reference with
      | none => rfl
      | some condition =>
          have nonempty : (condition.sent != "?") = true := by
            simpa using condition.sent_ne_empty
          simp [nonempty, condition.body_sent]

theorem statedQuery_and (operands : List Tree) :
    (connection .and operands).statedQuery catalog reference =
      "?" ++ "&".intercalate
        ((conditions catalog reference operands).map Condition.output) := by
  rw [statedQuery, condition?, Condition.connect]
  cases conditions catalog reference operands with
  | nil => rfl
  | cons first rest =>
      rw [Condition.join, Option.elim_some, Condition.sent_eq_append,
        Condition.output_foldl_and, List.map_cons]

theorem statedQuery_not (operand : Tree) :
    (connection .not [operand]).statedQuery catalog reference =
      let query := operand.statedQuery catalog reference
      if query = "?" then "?"
      else "?NOT+(" ++ QueryString.body query ++ ")" := by
  rw [statedQuery, condition?, conditions, conditions, Condition.connect,
    statedQuery]
  cases operand.condition? catalog reference with
  | none => rfl
  | some condition =>
      have opening : "?NOT+(" = "?" ++ "NOT+(" := by decide
      show condition.denial.sent =
        if condition.sent = "?" then "?"
        else "?NOT+(" ++ QueryString.body condition.sent ++ ")"
      rw [if_neg condition.sent_ne_empty, condition.body_sent,
        Condition.sent_eq_append, Condition.output_denial, opening,
        String.append_assoc, String.append_assoc, String.append_assoc]

/--
Query strings of conjunctions and negations are composed.  That of a conjunction
is made of those of its operands that are not the empty query, each without its
question mark, with ampersands between them.  That of a negation is the empty
query if that of its operand is, and else what follows the question mark of that
in denied brackets.
-/
theorem queryString_of_operands
    {catalog : Catalog} (registered : catalog.Registered) {reference : Instant}
    (pinned : catalog.reference = some reference)
    (clock operandClock : Instant) :
    (∀ (operands : List Tree) (outputs : List String),
      operands.map (queryString catalog operandClock) = outputs.map Except.ok →
        (∀ output ∈ outputs, output = "?" ++ QueryString.body output) ∧
        (connection .and operands).queryString catalog clock =
          .ok
            ("?" ++ "&".intercalate
              ((outputs.filter (· != "?")).map QueryString.body))) ∧
    (∀ operand output, queryString catalog operandClock operand = .ok output →
      (connection .not [operand]).queryString catalog clock =
        .ok
          (if output = "?" then "?"
          else "?NOT+(" ++ QueryString.body output ++ ")")) := by
  constructor
  · intro operands outputs compiled
    obtain ⟨succeed, rfl⟩ := eq_map_statedQuery registered pinned compiled
    constructor
    · intro output member
      obtain ⟨operand, -, rfl⟩ := List.mem_map.mp member
      rw [statedQuery]
      cases operand.condition? catalog reference with
      | none => decide
      | some condition =>
          rw [Option.elim_some, condition.body_sent, condition.sent_eq_append]
    · rw [queryString_connection registered pinned .and succeed,
        statedQuery_and, map_body_statedQuery]
  · intro operand output compiled
    obtain ⟨succeeded, rfl⟩ :=
      (queryString_eq_ok_iff registered pinned).mp compiled
    rw [queryString_connection registered pinned .not, statedQuery_not]
    simpa using succeeded

/--
A search of the inventory with an empty value, and with an operand that states
nothing.
-/
def unnamedSearch : List Tree :=
  [ .comparison .different [.leaf "name", .leaf ""],
    .comparison .greater [.leaf "soon"],
    .comparison .greater [.leaf "memory", .leaf "4"] ]

/--
The blank before the empty value stays in the conjunction and in the negation.
-/
theorem queryString_of_operands_unnamed :
    Catalog.inventory.reference = some Catalog.inventoryDay ∧
      unnamedSearch.map (queryString Catalog.inventory Catalog.inventoryDay) =
        [.ok "?name[]=+<>+", .ok "?", .ok "?memory[]=+>+4"] ∧
      (connection .and unnamedSearch).queryString Catalog.inventory
          Catalog.inventoryNextDay =
        .ok "?name[]=+<>+&memory[]=+>+4" ∧
      (connection .not
        [.comparison .different [.leaf "name", .leaf ""]]).queryString
          Catalog.inventory Catalog.inventoryNextDay =
        .ok "?NOT+(name[]=+<>+)" := by
  have pinned : Catalog.inventory.reference = some Catalog.inventoryDay := rfl
  have compiled :
      unnamedSearch.map (queryString Catalog.inventory Catalog.inventoryDay) =
        ["?name[]=+<>+", "?", "?memory[]=+>+4"].map Except.ok := rfl
  obtain ⟨conjunction, negation⟩ :=
    queryString_of_operands Catalog.registered_inventory pinned
      Catalog.inventoryNextDay Catalog.inventoryDay
  exact ⟨pinned, compiled, (conjunction _ _ compiled).2,
    negation _ _ (List.cons.inj compiled).1⟩

end Tree

end SearchPhrase
