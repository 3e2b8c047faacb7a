import Mathlib.Data.List.AList
import SearchPhrase.Proofs.Schema.Lookup

/-!
# Indexes of catalogs

A large catalog is searched through an index.  It keeps the fields in an array,
a table with the place of every name, and the places of the default fields.  The
table grows with each registration, and the list of default fields is made once
at the end.

Three things could go wrong with it: a place could lie outside of the array, a
name could lead to another field than in the catalog, and a registration could
accept or refuse another field.  None of them happens.  Registration keeps the
table in step with the fields, and from this the index and the catalog agree on
every name.
-/

namespace SearchPhrase

namespace Catalog

/-! ## Drafts and indexes -/

/-- A table of names with the places of their fields. -/
abbrev Places := AList fun _ : String => Nat

/--
A catalog under construction, with the place of each name among its fields.
-/
structure Draft where
  fields : Array Field := #[]
  places : Places := ∅
  reference : Option Instant := none

/--
The fields of a catalog, with the places of their names and of the default
fields.
-/
structure Index where
  fields : Array Field
  places : Places
  defaults : List Nat

/-- A place at which an index has no field. -/
structure MissingField where
  place : Nat
deriving DecidableEq, Repr

namespace Draft

/-- The table with a place for each of some names. -/
def enter (places : Places) (place : Nat) (names : List String) : Places :=
  names.foldl (fun entered name => entered.insert name place) places

/-- Add a field at the end, and its names to the table. -/
def register (draft : Draft) (field : Field) : Except CatalogError Draft :=
  match field.flaw? with
  | some flaw => .error (.invalidField field.name flaw)
  | none =>
      match field.names.find? fun name => (draft.places.lookup name).isSome with
      | some name => .error (.duplicateName name)
      | none =>
          .ok { draft with
            fields := draft.fields.push field
            places := enter draft.places draft.fields.size field.names }

/-- The draft with its searches pinned to an instant. -/
def pinned (draft : Draft) (reference : Instant) : Draft :=
  { draft with reference := some reference }

/--
The index of a draft, with the places of the fields that values without a field
search.
-/
def index (draft : Draft) : Index where
  fields := draft.fields
  places := draft.places
  defaults :=
    (draft.fields.toList.zipIdx.filter fun entry => !entry.1.onlyExplicit).map
      Prod.snd

/-- The catalog with the fields of a draft. -/
def catalog (draft : Draft) : Catalog where
  fields := draft.fields.toList
  reference := draft.reference

/--
A draft that is built by registering fields and by pinning it to instants.
-/
inductive Registered : Draft → Prop where
  | empty : Registered {}
  | register {draft larger : Draft} {field : Field}
      (before : Registered draft)
      (added : draft.register field = .ok larger) :
      Registered larger
  | pinned {draft : Draft} (before : Registered draft) (reference : Instant) :
      Registered (draft.pinned reference)

end Draft

namespace Index

/-- The field at a place. -/
def fieldAt (index : Index) (place : Nat) : Except MissingField Field :=
  match index.fields[place]? with
  | some field => .ok field
  | none => .error ⟨place⟩

/--
The place that a name leads to, by itself or by the part before its first dot.
-/
def place? (index : Index) (name : String) : Option Nat :=
  match index.places.lookup name with
  | some place => some place
  | none => (stem? name).bind fun stem => index.places.lookup stem

/-- The field that a name reaches, fetched from its place. -/
def field? (index : Index) (name : String) :
    Except MissingField (Option Field) :=
  match index.place? name with
  | some place => (index.fieldAt place).map some
  | none => .ok none

/-- The default fields, each fetched from its place. -/
def defaultFields (index : Index) : Except MissingField (List Field) :=
  index.defaults.mapM index.fieldAt

end Index

/-! ## The table of names -/

namespace Draft

/-- The table gives for each name the place of the first field that has it. -/
def InStep (draft : Draft) : Prop :=
  ∀ name : String,
    draft.places.lookup name =
      draft.fields.toList.findIdx? fun field => field.names.contains name

theorem lookup_enter
    (places : Places) (place : Nat) (names : List String) (name : String) :
    (enter places place names).lookup name =
      if name ∈ names then some place else places.lookup name := by
  unfold enter
  induction names generalizing places with
  | nil => simp
  | cons first rest ih =>
      rw [List.foldl_cons, ih]
      by_cases inRest : name ∈ rest
      · simp [inRest]
      · by_cases same : name = first
        · subst same
          simp [inRest]
        · simp [inRest, same, AList.lookup_insert_ne same]

theorem InStep.isSome_lookup
    {draft : Draft} (inStep : draft.InStep) (name : String) :
    (draft.places.lookup name).isSome = draft.catalog.takes name := by
  rw [inStep name, List.findIdx?_isSome, takes, named?, List.isSome_find?]
  rfl

/-- A draft in step accepts and refuses the same fields as its catalog. -/
theorem InStep.catalog_register {draft : Draft} (inStep : draft.InStep)
    (field : Field) :
    (draft.register field).map Draft.catalog =
      draft.catalog.register field := by
  simp only [register, Catalog.register, inStep.isSome_lookup]
  cases field.flaw? with
  | some flaw => rfl
  | none =>
      cases field.names.find? draft.catalog.takes with
      | some name => rfl
      | none => simp [Except.map, catalog]

theorem register_eq_ok
    {draft larger : Draft} {field : Field}
    (added : draft.register field = .ok larger) :
    larger = { draft with
      fields := draft.fields.push field
      places := enter draft.places draft.fields.size field.names } := by
  unfold register at added
  split at added
  · cases added
  · split at added
    · cases added
    · cases added
      rfl

/--
Registration keeps the table in step with the fields.  No earlier field has a
name of the added one, so that the first place of the name is the last one.
-/
theorem InStep.register
    {draft larger : Draft} {field : Field} (inStep : draft.InStep)
    (added : draft.register field = .ok larger) :
    larger.InStep := by
  have accepted := inStep.catalog_register field
  rw [added] at accepted
  obtain ⟨-, free, -⟩ := Catalog.register_eq_ok accepted.symm
  obtain rfl := register_eq_ok added
  intro name
  simp only [lookup_enter, Array.toList_push, List.findIdx?_append]
  by_cases named : name ∈ field.names
  · have absent : draft.places.lookup name = none := by
      rw [← Option.not_isSome_iff_eq_none, inStep.isSome_lookup]
      exact List.find?_eq_none.mp free name named
    rw [inStep name] at absent
    rw [absent]
    simp [named]
  · rw [if_neg named, inStep name]
    simp [named]

theorem Registered.inStep {draft : Draft} (registered : draft.Registered) :
    draft.InStep := by
  induction registered with
  | empty => exact fun name => rfl
  | register before added ih => exact ih.register added
  | pinned before reference ih => exact ih

end Draft

/-- Every registered catalog is that of a registered draft. -/
theorem Registered.exists_draft {catalog : Catalog}
    (registered : catalog.Registered) :
    ∃ draft : Draft, draft.Registered ∧ draft.catalog = catalog := by
  induction registered with
  | empty => exact ⟨{}, .empty, rfl⟩
  | @register catalog larger field before added ih =>
      obtain ⟨draft, drafted, rfl⟩ := ih
      have accepted := drafted.inStep.catalog_register field
      rw [added] at accepted
      cases outcome : draft.register field with
      | error error =>
          rw [outcome] at accepted
          cases accepted
      | ok next =>
          rw [outcome] at accepted
          exact ⟨next, drafted.register outcome, Except.ok.inj accepted⟩
  | pinned before reference ih =>
      obtain ⟨draft, drafted, rfl⟩ := ih
      exact ⟨draft.pinned reference, drafted.pinned reference, rfl⟩

/-! ## Indexes agree with catalogs -/

namespace Draft

/-- A place in the table is that of the field that the catalog finds. -/
theorem InStep.fieldAt_of_place
    {draft : Draft} (inStep : draft.InStep) {name : String} {place : Nat}
    (entered : draft.places.lookup name = some place) :
    ∃ field, draft.fields[place]? = some field ∧
      draft.catalog.named? name = some field := by
  rw [inStep name, List.findIdx?_eq_some_iff_getElem] at entered
  obtain ⟨bound, named, first⟩ := entered
  refine ⟨draft.fields.toList[place], ?_, ?_⟩
  · rw [← Array.getElem?_toList]
    exact List.getElem?_eq_getElem bound
  · rw [named?, List.find?_eq_some_iff_getElem]
    refine ⟨named, place, bound, rfl, fun earlier before => ?_⟩
    rw [Bool.not_eq_true']
    exact Bool.eq_false_iff.mpr (first earlier before)

theorem InStep.named?_of_absent
    {draft : Draft} (inStep : draft.InStep) {name : String}
    (absent : draft.places.lookup name = none) :
    draft.catalog.named? name = none := by
  rw [inStep name, List.findIdx?_eq_none_iff] at absent
  rw [named?, List.find?_eq_none]
  intro field member
  rw [absent field member]
  exact Bool.false_ne_true

@[simp]
theorem index_places (draft : Draft) : draft.index.places = draft.places :=
  rfl

theorem fieldAt_index
    {draft : Draft} {place : Nat} {field : Field}
    (found : draft.fields[place]? = some field) :
    draft.index.fieldAt place = .ok field := by
  simp [Index.fieldAt, index, found]

theorem InStep.field?_index
    {draft : Draft} (inStep : draft.InStep) (name : String) :
    draft.index.field? name = .ok (draft.catalog.field? name) := by
  rw [Index.field?, Index.place?, index_places, Catalog.field?]
  cases entered : draft.places.lookup name with
  | some place =>
      obtain ⟨field, found, named⟩ := inStep.fieldAt_of_place entered
      simp [fieldAt_index found, named, Except.map]
  | none =>
      rw [inStep.named?_of_absent entered]
      cases stem? name with
      | none => rfl
      | some stem =>
          cases enteredStem : draft.places.lookup stem with
          | some place =>
              obtain ⟨field, found, named⟩ :=
                inStep.fieldAt_of_place enteredStem
              simp [enteredStem, fieldAt_index found, named, Except.map]
          | none => simp [enteredStem, inStep.named?_of_absent enteredStem]

theorem mapM_fieldAt
    {index : Index} {entries : List (Field × Nat)}
    (placed : ∀ entry ∈ entries, index.fieldAt entry.2 = .ok entry.1) :
    (entries.map Prod.snd).mapM index.fieldAt = .ok (entries.map Prod.fst) := by
  induction entries with
  | nil => rfl
  | cons first rest ih =>
      rw [List.forall_mem_cons] at placed
      rw [List.map_cons, List.mapM_cons, placed.1, ih placed.2]
      rfl

theorem getElem?_of_mem_zipIdx
    {draft : Draft} {entry : Field × Nat}
    (member : entry ∈ draft.fields.toList.zipIdx) :
    draft.fields[entry.2]? = some entry.1 := by
  rw [← Array.getElem?_toList]
  exact List.mem_zipIdx_iff_getElem?.mp member

theorem defaultFields_index (draft : Draft) :
    draft.index.defaultFields = .ok draft.catalog.defaultFields := by
  have placed :
      ∀ entry ∈ draft.fields.toList.zipIdx.filter fun entry =>
        !entry.1.onlyExplicit,
      draft.index.fieldAt entry.2 = .ok entry.1 := by
    intro entry member
    exact fieldAt_index (getElem?_of_mem_zipIdx (List.mem_filter.mp member).1)
  have kept :
      (draft.fields.toList.zipIdx.filter fun entry => !entry.1.onlyExplicit).map
      Prod.fst = draft.catalog.defaultFields := by
    rw [Catalog.defaultFields, catalog,
      ← List.zipIdx_map_fst 0 draft.fields.toList, List.filter_map]
    simp [Function.comp_def]
  rw [Index.defaultFields, ← kept]
  exact mapM_fieldAt placed

theorem InStep.place_lt_size
    {draft : Draft} (inStep : draft.InStep) {name : String} {place : Nat}
    (entered : draft.places.lookup name = some place) :
    place < draft.fields.size := by
  obtain ⟨field, found, -⟩ := inStep.fieldAt_of_place entered
  exact (Array.getElem?_eq_some_iff.mp found).1

theorem lt_size_of_mem_defaults
    {draft : Draft} {place : Nat} (member : place ∈ draft.index.defaults) :
    place < draft.fields.size := by
  obtain ⟨entry, inEntries, rfl⟩ := List.mem_map.mp member
  have found := getElem?_of_mem_zipIdx (List.mem_filter.mp inEntries).1
  exact (Array.getElem?_eq_some_iff.mp found).1

end Draft

/--
Looking up is right in every registered catalog.  No two fields share a name,
and a name leads to the field that it reaches, if there is one.  The index that
the same registrations build has only places at which there is a field, so that
looking up a name or the default fields never misses one, and it gives what the
catalog gives: the default fields in the order of their registration.
-/
theorem lookup_in_registered_catalog
    {catalog : Catalog} (registered : catalog.Registered) :
    catalog.fields.Pairwise Field.Apart ∧
    (∀ name field, catalog.field? name = some field ↔
      catalog.Reaches name field) ∧
    (∃ draft : Draft, draft.Registered ∧ draft.catalog = catalog) ∧
    ∀ draft : Draft, draft.Registered → draft.catalog = catalog →
      (∀ (name : String) place, draft.index.places.lookup name = some place →
        place < draft.index.fields.size) ∧
      (∀ place ∈ draft.index.defaults, place < draft.index.fields.size) ∧
      (∀ name, draft.index.field? name = .ok (catalog.field? name)) ∧
      draft.index.defaultFields =
        .ok
          (catalog.fields.filter fun field => field.onlyExplicit = false) := by
  refine ⟨registered.apart,
    fun name field => field?_eq_some_iff registered.apart,
    registered.exists_draft, ?_⟩
  rintro draft drafted rfl
  refine ⟨fun name place => drafted.inStep.place_lt_size,
    fun place => Draft.lt_size_of_mem_defaults, drafted.inStep.field?_index, ?_⟩
  simpa [Catalog.defaultFields] using draft.defaultFields_index

/--
An alias with a further part reaches its field, in the inventory and through the
index.
-/
theorem lookup_in_registered_catalog_inventory :
    inventory.Registered ∧
      inventory.field? "hostname.first" = inventoryFields.head? ∧
      ∃ draft : Draft, draft.Registered ∧ draft.catalog = inventory ∧
        draft.index.field? "hostname.first" = .ok inventoryFields.head? ∧
        ∀ place, draft.index.places.lookup "hostname" = some place →
          place < draft.index.fields.size := by
  have reached :
      inventory.field? "hostname.first" = inventoryFields.head? := rfl
  obtain ⟨-, -, ⟨draft, drafted, same⟩, indexed⟩ :=
    lookup_in_registered_catalog registered_inventory
  obtain ⟨bounded, -, found, -⟩ := indexed draft drafted same
  refine ⟨registered_inventory, reached, draft, drafted, same, ?_,
    bounded "hostname"⟩
  rw [found, reached]

end Catalog

end SearchPhrase
