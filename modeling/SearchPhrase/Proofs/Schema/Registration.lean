import SearchPhrase.Filter.Compilation

/-!
# Registered catalogs

Searches are compiled against catalogs that were built by registration.  Such a
catalog starts without fields, and every field in it passed the checks that
registration makes.  In particular the names of its fields are well shaped, so
that none of them holds a character with a meaning of its own in a filter.
-/

namespace SearchPhrase

/-! ## Names of fields -/

/-- A text that is well shaped as the name of a field. -/
structure FieldName where
  text : String
  wellShaped : Field.isName text = true
deriving DecidableEq

namespace FieldName

/-- The characters of a name. -/
def characters (name : FieldName) : List Char :=
  name.text.toList

@[ext]
theorem ext
    {left right : FieldName}
    (equal : left.characters = right.characters) :
    left = right := by
  cases left
  cases right
  simpa [characters, String.toList_inj] using equal

theorem isNamePart_of_mem
    (name : FieldName) {character : Char}
    (member : character ∈ name.characters) :
    Field.isNamePart character = true := by
  have wellShaped := name.wellShaped
  simp only [characters] at member
  unfold Field.isName at wellShaped
  split at wellShaped
  · next empty => simp [empty] at member
  · next first rest shape =>
      rw [shape] at member
      simp only [Bool.and_eq_true, List.all_eq_true] at wellShaped
      rcases List.mem_cons.mp member with rfl | inRest
      · simp [Field.isNamePart, wellShaped.1]
      · exact wellShaped.2 character inRest

theorem notMem
    (name : FieldName) {character : Char}
    (excluded : Field.isNamePart character = false) :
    character ∉ name.characters := by
  intro member
  have part := name.isNamePart_of_mem member
  rw [excluded] at part
  exact Bool.noConfusion part

theorem characters_ne_nil (name : FieldName) : name.characters ≠ [] := by
  intro empty
  have wellShaped := name.wellShaped
  simp only [characters] at empty
  simp [Field.isName, empty] at wellShaped

end FieldName

/-! ## Registration -/

namespace Catalog

/--
A catalog that is built by registering fields and by pinning it to instants.
-/
inductive Registered : Catalog → Prop where
  | empty : Registered Catalog.empty
  | register {catalog larger : Catalog} {field : Field}
      (before : Registered catalog)
      (added : catalog.register field = .ok larger) :
      Registered larger
  | pinned {catalog : Catalog}
      (before : Registered catalog) (reference : Instant) :
      Registered (catalog.pinned reference)

/-- Inversion of a registration: what was checked, and what was added. -/
theorem register_eq_ok
    {catalog larger : Catalog} {field : Field}
    (added : catalog.register field = .ok larger) :
    field.flaw? = none ∧ field.names.find? catalog.takes = none ∧
      larger = { catalog with fields := catalog.fields ++ [field] } := by
  unfold register at added
  split at added
  · cases added
  · next sound =>
      split at added
      · cases added
      · next free =>
          cases added
          exact ⟨sound, free, rfl⟩

/-- The names of a field without flaws are well shaped. -/
theorem isName_of_flaw?_eq_none
    {field : Field} (sound : field.flaw? = none)
    {name : String} (member : name ∈ field.names) :
    Field.isName name = true := by
  unfold Field.flaw? at sound
  split at sound
  · cases sound
  · next none_malformed =>
      have shaped := List.find?_eq_none.mp none_malformed name member
      simpa using shaped

/-- Every name and alias in a registered catalog is well shaped. -/
theorem Registered.isName
    {catalog : Catalog} (registered : catalog.Registered)
    {field : Field} (member : field ∈ catalog.fields)
    {name : String} (named : name ∈ field.names) :
    Field.isName name = true := by
  induction registered with
  | empty => simp [Catalog.empty] at member
  | register before added ih =>
      obtain ⟨sound, -, rfl⟩ := register_eq_ok added
      rcases List.mem_append.mp member with earlier | last
      · exact ih earlier
      · rw [List.mem_singleton.mp last] at named
        exact isName_of_flaw?_eq_none sound named
  | pinned before reference ih => exact ih member

theorem Registered.isName_name
    {catalog : Catalog} (registered : catalog.Registered)
    {field : Field} (member : field ∈ catalog.fields) :
    Field.isName field.name = true :=
  registered.isName member List.mem_cons_self

theorem Registered.registerAll
    {catalog larger : Catalog} (registered : catalog.Registered)
    {fields : List Field} (added : catalog.registerAll fields = .ok larger) :
    larger.Registered := by
  induction fields generalizing catalog with
  | nil =>
      cases added
      exact registered
  | cons field rest ih =>
      unfold Catalog.registerAll at added
      split at added
      · next next registration =>
          exact ih (registered.register registration) added
      · cases added

theorem registered_ofFields
    {fields : List Field} {catalog : Catalog}
    (added : ofFields fields = .ok catalog) :
    catalog.Registered :=
  Registered.empty.registerAll added

/-- The fields of an inventory of machines. -/
def inventoryFields : List Field :=
  [ { name := "name", type := .string, aliases := ["hostname"] },
    { name := "memory", type := .integer },
    { name := "updated", type := .timestamp, onlyExplicit := true },
    { name := "status", type := .integer,
      values := [⟨"active", .flag true⟩, ⟨"inactive", .flag false⟩] } ]

/-- The start of the day to which the inventory is pinned. -/
def inventoryDay : Instant :=
  .midnight ⟨2024, 3, 13, by decide, by decide, by decide⟩

/-- The start of the day after. -/
def inventoryNextDay : Instant :=
  .midnight ⟨2024, 3, 14, by decide, by decide, by decide⟩

/-- The catalog of an inventory of machines, for examples. -/
def inventory : Catalog where
  fields := inventoryFields
  reference := some inventoryDay

theorem registered_inventory : inventory.Registered := by
  have added :
      ofFields inventoryFields = .ok { fields := inventoryFields } := rfl
  exact (registered_ofFields added).pinned inventoryDay

/-! ## Fields that are reached -/

theorem mem_fields_of_named?
    {catalog : Catalog} {name : String} {field : Field}
    (found : catalog.named? name = some field) :
    field ∈ catalog.fields :=
  List.mem_of_find?_eq_some found

theorem mem_fields_of_field?
    {catalog : Catalog} {name : String} {field : Field}
    (reached : catalog.field? name = some field) :
    field ∈ catalog.fields := by
  unfold field? at reached
  split at reached
  · next named =>
      cases reached
      exact mem_fields_of_named? named
  · obtain ⟨stem, -, named⟩ := Option.bind_eq_some_iff.mp reached
    exact mem_fields_of_named? named

theorem mem_fields_of_mem_defaultFields
    {catalog : Catalog} {field : Field}
    (member : field ∈ catalog.defaultFields) :
    field ∈ catalog.fields :=
  (List.mem_filter.mp member).1

theorem mem_fields_of_mem_candidates
    {catalog : Catalog} {reference : Instant} {value : String}
    {operator : Option Comparison} {fields : List Field} {field : Field}
    (found : catalog.candidates reference value operator = .ok fields)
    (member : field ∈ fields) :
    field ∈ catalog.fields := by
  unfold candidates at found
  split at found
  · cases found
  · cases found
    exact mem_fields_of_mem_defaultFields (List.mem_filter.mp member).1

end Catalog

end SearchPhrase
