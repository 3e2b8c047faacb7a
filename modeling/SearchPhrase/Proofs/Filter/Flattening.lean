import SearchPhrase.Proofs.Filter.Report

/-!
# Flat connections

A conjunction in a conjunction, and a disjunction in a disjunction, can be
dissolved: its operands take its place.  This holds although filters are texts,
and although compiling may stop at an error in the midst of the inner operands.
An operand without a filter can be left out of any connection, a negation
included.  The filter, the error and the notices all stay the same.
-/

namespace SearchPhrase

/-! ## Joined filters as operands -/

namespace Filter

theorem followedBy_append
    (separator : String) (first : Filter) (rest others : List Filter) :
    followedBy separator (followedBy separator first rest) others =
      followedBy separator first (rest ++ others) := by
  simp [followedBy]

/--
Filters that follow others can be put together as one of those that follow.
-/
theorem followedBy_followedBy
    (separator : String) (before first : Filter)
    (earlier rest others : List Filter) :
    followedBy separator before
        (earlier ++ followedBy separator first rest :: others) =
      followedBy separator before (earlier ++ (first :: rest) ++ others) := by
  simp [followedBy]

theorem isEmpty_followedBy
    (separator : String) {first : Filter} (rest : List Filter)
    (nonempty : first.isEmpty = false) :
    (followedBy separator first rest).isEmpty = false := by
  simp_all [followedBy, isEmpty]

/--
A filter that joins some of the operands can stand for them.  The joined filter
has a text itself, so the outer join keeps it.
-/
theorem join_join (separator : String) (left inner right : List Filter) :
    join separator (left ++ (join separator inner).toList ++ right) =
      join separator (left ++ inner ++ right) := by
  simp only [join, List.filter_append]
  cases kept : inner.filter fun filter => !filter.isEmpty with
  | nil => simp
  | cons first rest =>
      have member : first ∈ inner.filter fun filter => !filter.isEmpty := by
        simp [kept]
      have nonempty : first.isEmpty = false := by
        simpa using (List.mem_filter.mp member).2
      have whole := isEmpty_followedBy separator rest nonempty
      simp only [Option.toList_some, whole, List.filter_cons, Bool.not_false,
        if_true, List.filter_nil, List.append_assoc, List.singleton_append]
      cases left.filter fun filter => !filter.isEmpty with
      | nil => simp [followedBy_append]
      | cons before earlier => simp [followedBy_followedBy]

/--
A filter of a conjunction or disjunction can stand for its operands in another
one.
-/
theorem connect_connect
    {connective : Connective} (joins : connective ≠ .not)
    (left inner right : List Filter) :
    connect connective (left ++ (connect connective inner).toList ++ right) =
      connect connective (left ++ inner ++ right) := by
  cases connective with
  | and => exact join_join _ left inner right
  | or => exact join_join _ left inner right
  | not => exact absurd rfl joins

end Filter

/-! ## Operations one after the other -/

/-- A list with entries left out, all of which may be left out. -/
inductive Thinned {α : Type} (Removable : α → Prop) : List α → List α → Prop
  | nil : Thinned Removable [] []
  | keep (entry : α) {entries kept : List α} :
      Thinned Removable entries kept →
        Thinned Removable (entry :: entries) (entry :: kept)
  | drop {entry : α} {entries kept : List α} :
      Removable entry → Thinned Removable entries kept →
        Thinned Removable (entry :: entries) kept

theorem Thinned.imp
    {α : Type} {Removable Weaker : α → Prop} {entries kept : List α}
    (thinned : Thinned Removable entries kept)
    (weaker : ∀ entry, Removable entry → Weaker entry) :
    Thinned Weaker entries kept := by
  induction thinned with
  | nil => exact .nil
  | keep entry _ ih => exact .keep entry ih
  | drop removable _ ih => exact .drop (weaker _ removable) ih

namespace Report

section Laws

variable {α β γ : Type}

theorem map_id (report : Report α) :
    report.map (fun result => result) = report := by
  cases report with
  | mk outcome notices => cases outcome <;> rfl

theorem map_map (report : Report α) (first : α → β) (second : β → γ) :
    (report.map first).map second =
      report.map fun result => second (first result) := by
  cases report with
  | mk outcome notices => cases outcome <;> rfl

theorem map_bind (report : Report α) (next : α → Report β) (function : β → γ) :
    (report.bind next).map function =
      report.bind fun result => (next result).map function := by
  cases report with
  | mk outcome notices => cases outcome <;> rfl

theorem bind_map (report : Report α) (function : α → β) (next : β → Report γ) :
    (report.map function).bind next =
      report.bind fun result => next (function result) := by
  cases report with
  | mk outcome notices => cases outcome <;> rfl

theorem bind_assoc (report : Report α) (next : α → Report β)
    (last : β → Report γ) :
    (report.bind next).bind last =
      report.bind fun result => (next result).bind last := by
  cases report with
  | mk outcome notices =>
      cases outcome with
      | error error => rfl
      | ok result =>
          cases ended : (next result).outcome <;> simp [bind, ended]

theorem ofExcept_ok_bind (result : α) (next : α → Report β) :
    (ofExcept (.ok result)).bind next = next result := by
  simp [ofExcept, bind]

end Laws

theorem inOrder_append (first second : List (Report (Option Filter))) :
    inOrder (first ++ second) =
      (inOrder first).bind fun filters =>
        (inOrder second).map (filters ++ ·) := by
  induction first with
  | nil => simp only [List.nil_append, inOrder, ofExcept_ok_bind, map_id]
  | cons report rest ih =>
      simp only [List.cons_append, inOrder, ih, bind_assoc, map_bind, bind_map,
        map_map, List.append_assoc]

theorem inOrder_singleton (report : Report (Option Filter)) :
    inOrder [report] = report.map Option.toList := by
  rw [inOrder, inOrder, ← bind_ofExcept_ok]
  simp [map, ofExcept, Except.map]

/-- The operations of an inner connection can be done in its place. -/
theorem connect_inOrder_connect
    {connective : Connective} (joins : connective ≠ .not)
    (left inner right : List (Report (Option Filter))) :
    (inOrder
      (left ++ [(inOrder inner).map (Filter.connect connective)] ++ right)).map
        (Filter.connect connective) =
      (inOrder (left ++ inner ++ right)).map (Filter.connect connective) := by
  simp only [inOrder_append, inOrder_singleton, bind_assoc, map_bind, bind_map,
    map_map, Filter.connect_connect joins]

/-- An operation that gives no filter and notes nothing. -/
def Silent (report : Report (Option Filter)) : Prop :=
  report = ofExcept (.ok none)

theorem Silent.inOrder_cons
    {report : Report (Option Filter)} (silent : report.Silent)
    (rest : List (Report (Option Filter))) :
    inOrder (report :: rest) = inOrder rest := by
  rw [inOrder, silent, ofExcept_ok_bind]
  exact map_id _

end Report

/-! ## Connections of trees -/

namespace Tree

variable {catalog : Catalog} {reference : Instant}

/-- A tree without a filter has no tests that could be noted. -/
theorem report_silent
    (registered : catalog.Registered) {tree : Tree}
    (unrestricted : (tree.report catalog reference).outcome = .ok none) :
    (tree.report catalog reference).Silent := by
  let journal : Journal := ⟨[], some reference⟩
  have anchored : journal.reference catalog reference = reference := rfl
  obtain ⟨after, compiled, noted, -⟩ := does_compile tree anchored
  rw [Report.result, unrestricted] at compiled
  obtain ⟨absent, notices⟩ := compile_eq_ok registered compiled
  have unstated : tree.condition? catalog reference = none :=
    Option.map_eq_none_iff.mp absent.symm
  have unnoted : (tree.report catalog reference).notices = [] := by
    simpa [noted, anchored, unstated] using notices
  rw [Report.Silent, Report.ofExcept, ← unrestricted, ← unnoted]

theorem report_flatten
    {connective : Connective} (joins : connective ≠ .not)
    (left inner right : List Tree) :
    (connection connective
      (left ++ [connection connective inner] ++ right)).report
        catalog reference =
      (connection connective (left ++ inner ++ right)).report catalog
        reference := by
  simp only [report_connection, List.map_append, List.map_cons, List.map_nil,
    Report.connect_inOrder_connect joins]

/-- Operands that do nothing can be left out. -/
theorem inOrder_of_thinned
    {operands kept : List Tree}
    (thinned :
      Thinned (fun operand => (operand.report catalog reference).Silent)
      operands kept) :
    Report.inOrder (operands.map (report catalog reference)) =
      Report.inOrder (kept.map (report catalog reference)) := by
  induction thinned with
  | nil => rfl
  | keep operand _ ih => simp only [List.map_cons, Report.inOrder, ih]
  | drop silent _ ih => rw [List.map_cons, silent.inOrder_cons, ih]

/--
Connections flatten, and operands without a filter vanish.  From every journal
that is not fixed to another reference, a conjunction in a conjunction or a
disjunction in a disjunction compiles as its operands in its place.  Operands
that compile to no filter can be left out of every connection.  The filter, the
error and the notices stay the same.
-/
theorem compile_flattens_connections
    {catalog : Catalog} (registered : catalog.Registered)
    {reference : Instant} (pinned : catalog.reference = some reference)
    (clock : Instant) (journal : Journal)
    (anchored : journal.anchor = none ∨ journal.anchor = some reference) :
    let run (tree : Tree) := SearchM.ending (tree.compile catalog clock) journal
    (∀ connective left inner right, connective ≠ Connective.not →
      run
        (.connection connective
          (left ++ [.connection connective inner] ++ right)) =
        run (.connection connective (left ++ inner ++ right))) ∧
    ∀ connective operands kept,
      Thinned (fun operand => (run operand).outcome = .ok none) operands kept →
        run (.connection connective operands) =
          run (.connection connective kept) := by
  simp only [ending_of_pinned pinned anchored]
  constructor
  · intro connective left inner right joins
    rw [report_flatten joins]
  · intro connective operands kept thinned
    have silent := thinned.imp fun operand => report_silent registered
    rw [report_connection, inOrder_of_thinned silent, ← report_connection]

/-- A comparison of the inventory, in front of an inner disjunction. -/
def namedSearch : Tree :=
  .comparison .equal [.leaf "hostname", .leaf "a"]

/-- An inner disjunction whose first and last operands restrict nothing. -/
def partlyEmptySearch : List Tree :=
  [ .comparison .greater [.leaf "soon"],
    .comparison .less [.leaf "memory", .leaf "8"],
    .connection .and [] ]

/-- The inner disjunction dissolves, and one operand of it is left. -/
theorem compile_flattens_connections_inventory :
    let journal : Journal := ⟨[.key "status"], none⟩
    let run (tree : Tree) :=
      SearchM.ending
        (tree.compile Catalog.inventory Catalog.inventoryNextDay) journal
    let kept : List Tree :=
      [namedSearch, .comparison .less [.leaf "memory", .leaf "8"]]
    Catalog.inventory.Registered ∧
      Catalog.inventory.reference = some Catalog.inventoryDay ∧
      Thinned (fun operand => (run operand).outcome = .ok none)
        (namedSearch :: partlyEmptySearch) kept ∧
      run (.connection .or [namedSearch, .connection .or partlyEmptySearch]) =
        run (.connection .or kept) ∧
      run (.connection .or kept) =
        ⟨.ok (some ⟨"name[]= = ? OR memory[]= < ?", [.text "a", .integer 8]⟩),
          [ .key "status", .key "name", .operator .equal,
            .parameter (.text "a"), .key "memory", .operator .less,
            .parameter (.integer 8) ]⟩ := by
  intro journal run kept
  have pinned : Catalog.inventory.reference = some Catalog.inventoryDay := rfl
  have flattens :=
    compile_flattens_connections Catalog.registered_inventory pinned
      Catalog.inventoryNextDay journal (Or.inl rfl)
  have thinned : Thinned (fun operand => (run operand).outcome = .ok none)
      (namedSearch :: partlyEmptySearch) kept :=
    .keep namedSearch (.drop rfl (.keep _ (.drop rfl .nil)))
  refine ⟨Catalog.registered_inventory, pinned, thinned, ?_, rfl⟩
  calc
    run (.connection .or [namedSearch, .connection .or partlyEmptySearch]) =
        run (.connection .or (namedSearch :: partlyEmptySearch)) :=
      flattens.1 .or [namedSearch] partlyEmptySearch [] (by decide)
    _ = run (.connection .or kept) := flattens.2 .or _ kept thinned

end Tree

end SearchPhrase
