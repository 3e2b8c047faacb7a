import Mathlib.Data.List.Nodup
import SearchPhrase.Proofs.Json.Rereading
import SearchPhrase.Proofs.Schema.Acceptance
import SearchPhrase.Schema.Document

/-!
# Reloading schemas

A schema that has been saved as a document is loaded again as it was.  Every
field is decoded from its record unchanged, whatever its settings are.  The
fields of a registered catalog are acceptable, so they are registered again, and
the catalog that results looks up every name alike.  Only the instant to which a
catalog is pinned is not part of a document.
-/

namespace SearchPhrase

/-! ## Parts of documents -/

namespace Json

theorem member?_ofMembers
    {members : List (String × Json)} (distinct : (members.map Prod.fst).Nodup)
    {name : String} {value : Json} (listed : (name, value) ∈ members) :
    (ofMembers members).member? name = some value := by
  induction members with
  | nil => cases listed
  | cons entry others ih =>
      obtain ⟨first, firstValue⟩ := entry
      rw [List.map_cons, List.nodup_cons] at distinct
      rcases List.mem_cons.mp listed with same | later
      · cases same
        simp [ofMembers, member?]
      · have differs : first ≠ name := by
          rintro rfl
          exact distinct.1 (List.mem_map.mpr ⟨(first, value), later, rfl⟩)
        have found := ih distinct.2 later
        simp only [ofMembers, member?] at found
        simpa [ofMembers, member?, differs] using found

/-- A record is read from the object that has exactly its members. -/
theorem record?_ofMembers
    {members : List (String × Json)} {names : List String}
    (listed : members.map Prod.fst = names) (distinct : names.Nodup) :
    (ofMembers members).record? names =
      some (members.map fun entry => some entry.2) := by
  subst listed
  have named : (members.map fun entry => (some entry.1, entry.2)).all
      (fun entry => entry.1.isSome) = true := by
    simp
  have once (name : String) :
      (members.map fun entry => (some entry.1, entry.2)).countP
        (fun entry => entry.1 == some name) ≤ 1 := by
    calc
      _ = (members.map Prod.fst).count name := by
        rw [List.count, List.countP_map, List.countP_map]
        rfl
      _ ≤ 1 := List.nodup_iff_count_le_one.mp distinct name
  have found :
      ∀ entry ∈ members, (ofMembers members).member? entry.1 = some entry.2 :=
    fun _ listed => member?_ofMembers distinct listed
  rw [ofMembers, record?, if_pos, List.map_map]
  · exact congrArg some (List.map_congr_left found)
  · exact Bool.and_eq_true_iff.mpr
      ⟨named, List.all_eq_true.mpr fun name _ => decide_eq_true (once name)⟩

@[simp]
theorem text?_ofText (content : String) :
    (ofText content).text? = some content :=
  rfl

@[simp]
theorem keyword?_ofText (content : String) :
    (ofText content).keyword? = some content :=
  rfl

theorem list?_ofList
    {α : Type} {encode : α → Json} {decode : Json → Option α}
    (decoded : ∀ part, decode (encode part) = some part) (parts : List α) :
    (ofList encode parts).list? decode = some parts := by
  induction parts with
  | nil => rfl
  | cons part parts ih =>
      rw [ofList, list?] at ih ⊢
      rw [List.map_cons, List.mapM_cons, decoded, ih]
      rfl

theorem nullable?_ofOption
    {α : Type} {encode : α → Json} {decode : Json → Option α}
    (decoded : ∀ part, decode (encode part) = some part)
    (present : ∀ part, encode part ≠ .null) (part : Option α) :
    (ofOption encode part).nullable? decode = some part := by
  cases part with
  | none => rfl
  | some part =>
      have notNull := present part
      have read := decoded part
      rw [ofOption]
      generalize encode part = json at notNull read
      cases json with
      | null => exact absurd rfl notNull
      | _ => simp [nullable?, read]

theorem writable_ofMembers
    {members : List (String × Json)}
    (parts : ∀ entry ∈ members, entry.2.Writable) :
    (ofMembers members).Writable := by
  refine .object fun entry listed => ?_
  obtain ⟨source, inMembers, rfl⟩ := List.mem_map.mp listed
  exact parts source inMembers

theorem writable_ofList
    {α : Type} {encode : α → Json} (encoded : ∀ part, (encode part).Writable)
    (parts : List α) :
    (ofList encode parts).Writable := by
  refine .array fun element listed => ?_
  obtain ⟨part, -, rfl⟩ := List.mem_map.mp listed
  exact encoded part

theorem writable_ofOption
    {α : Type} {encode : α → Json} (encoded : ∀ part, (encode part).Writable)
    (part : Option α) :
    (ofOption encode part).Writable := by
  cases part with
  | none => exact .null
  | some part => exact encoded part

end Json

/-! ## Fields -/

/--
What is stored is read as the first of a truth value, an integer of sixty-four
bits and a text that the scalar can be.
-/
theorem StoredValue.ofJson?_eq_or (json : Json) :
    StoredValue.ofJson? json =
      (json.bool?.map StoredValue.flag).or
        (((json.integer?.bind Numeral.int64?).map StoredValue.integer).or
          (json.text?.map StoredValue.text)) := by
  cases json <;>
    simp [StoredValue.ofJson?, Json.bool?, Json.integer?, Json.text?]

theorem StoredValue.ofJson?_toJson (stored : StoredValue) :
    StoredValue.ofJson? stored.toJson = some stored := by
  cases stored with
  | flag value => rfl
  | integer value => rw [toJson, ofJson?, Numeral.int64?_toInt, Option.map_some]
  | text value => rfl

theorem NamedValue.ofJson?_toJson (value : NamedValue) :
    NamedValue.ofJson? value.toJson = some value := by
  have parts : value.toJson.record? ["name", "value"] =
      some [some (.ofText value.name), some value.stored.toJson] :=
    Json.record?_ofMembers rfl (by decide)
  rw [ofJson?, parts]
  simp [StoredValue.ofJson?_toJson]

theorem Comparison.ofJson?_toJson (operator : Comparison) :
    Comparison.ofJson? operator.toJson = some operator := by
  simp [toJson, ofJson?]

/-- A field is decoded from its record, whatever its settings are. -/
theorem Field.ofJson?_toJson (field : Field) :
    Field.ofJson? field.toJson = some field := by
  have parts : field.toJson.record? ["name", "type", "only_explicit", "aliases",
      "operators", "values", "default_operator"] =
      some [some (.ofText field.name), some (.ofText field.type.name),
        some (.bool field.onlyExplicit), some (.ofList .ofText field.aliases),
        some (.ofOption (.ofList Comparison.toJson) field.operators),
        some (.ofList NamedValue.toJson field.values),
        some (.ofOption Comparison.toJson field.defaultOperator)] :=
    Json.record?_ofMembers rfl (by decide)
  have type :
      FieldType.ofJson? (.ofText field.type.name) = some field.type := by
    simp [FieldType.ofJson?]
  have aliases :
      (Json.ofList .ofText field.aliases).list? Json.text? =
        some field.aliases :=
    Json.list?_ofList Json.text?_ofText field.aliases
  have operators :
      (Json.ofOption (.ofList Comparison.toJson) field.operators).nullable?
        (Json.list? Comparison.ofJson?) = some field.operators :=
    Json.nullable?_ofOption (Json.list?_ofList Comparison.ofJson?_toJson) nofun
      field.operators
  have values :
      (Json.ofList NamedValue.toJson field.values).list? NamedValue.ofJson? =
        some field.values :=
    Json.list?_ofList NamedValue.ofJson?_toJson field.values
  have defaultOperator :
      (Json.ofOption Comparison.toJson field.defaultOperator).nullable?
          Comparison.ofJson? =
        some field.defaultOperator :=
    Json.nullable?_ofOption Comparison.ofJson?_toJson nofun
      field.defaultOperator
  rw [ofJson?, parts]
  simp [setting?, type, aliases, operators, values, defaultOperator, Json.bool?]

theorem Schema.fields?_toJson (fields : List Field) :
    Schema.fields? (Schema.toJson fields) = some fields := by
  have parts : (Schema.toJson fields).record? ["fields"] =
      some [some (.ofList Field.toJson fields)] :=
    Json.record?_ofMembers rfl (by decide)
  rw [fields?, parts]
  exact Json.list?_ofList Field.ofJson?_toJson fields

/-! ## Documents as texts -/

theorem StoredValue.writable_toJson (stored : StoredValue) :
    stored.toJson.Writable := by
  cases stored with
  | flag value => exact .bool value
  | integer value => exact .integer value.toInt
  | text value => exact .text (some value)

theorem NamedValue.writable_toJson (value : NamedValue) :
    value.toJson.Writable := by
  refine Json.writable_ofMembers ?_
  simp only [List.forall_mem_cons]
  exact ⟨.text _, value.stored.writable_toJson, List.forall_mem_nil _⟩

theorem Field.writable_toJson (field : Field) : field.toJson.Writable := by
  have operator (operator : Comparison) : operator.toJson.Writable := .text _
  refine Json.writable_ofMembers ?_
  simp only [List.forall_mem_cons]
  exact ⟨.text _, .text _, .bool _, Json.writable_ofList (fun _ => .text _) _,
    Json.writable_ofOption (Json.writable_ofList operator) _,
    Json.writable_ofList NamedValue.writable_toJson _,
    Json.writable_ofOption operator _, List.forall_mem_nil _⟩

theorem Schema.writable_toJson (fields : List Field) :
    (Schema.toJson fields).Writable := by
  refine Json.writable_ofMembers ?_
  simp only [List.forall_mem_cons]
  exact ⟨Json.writable_ofList Field.writable_toJson fields,
    List.forall_mem_nil _⟩

namespace Catalog

theorem ofJson_toJson (fields : List Field) :
    ofJson (Schema.toJson fields) = ofFields fields := by
  rw [ofJson, Schema.fields?_toJson]

theorem ofText_render (fields : List Field) :
    ofText (Schema.toJson fields).render = ofFields fields := by
  rw [ofText, Json.parse?_render (Schema.writable_toJson fields)]
  exact ofJson_toJson fields

/--
Schemas survive being saved and loaded again.  A stored value is read as the
first of a truth value, an integer of sixty-four bits and a text that its scalar
can be, and still every field is decoded from its own record, also through a
text.  The document of a registered catalog lists its fields, and it is
accepted, as a value and as a text.  The catalog that results has the same
fields in the same order and the same default fields, and it finds the same
field by every name.
-/
theorem schema_survives_reloading
    {catalog : Catalog} (registered : catalog.Registered) :
    (∀ json, StoredValue.ofJson? json =
      (json.bool?.map StoredValue.flag).or
        (((json.integer?.bind Numeral.int64?).map StoredValue.integer).or
          (json.text?.map StoredValue.text))) ∧
    (∀ field : Field, Field.ofJson? field.toJson = some field ∧
      (Json.parse? field.toJson.render).bind Field.ofJson? = some field) ∧
    Schema.fields? (Schema.toJson catalog.fields) = some catalog.fields ∧
    ∃ reloaded,
      ofJson (Schema.toJson catalog.fields) = .ok reloaded ∧
      ofText (Schema.toJson catalog.fields).render = .ok reloaded ∧
      reloaded.fields = catalog.fields ∧
      reloaded.defaultFields = catalog.defaultFields ∧
      ∀ name, reloaded.field? name = catalog.field? name := by
  have acceptable : Acceptable catalog.fields :=
    ⟨fun _ listed => registered.sound listed, registered.apart⟩
  have accepted := ofFields_of_acceptable acceptable
  refine ⟨StoredValue.ofJson?_eq_or, fun field => ⟨field.ofJson?_toJson, ?_⟩,
    Schema.fields?_toJson _, { fields := catalog.fields },
    (ofJson_toJson _).trans accepted, (ofText_render _).trans accepted, rfl,
    rfl, fun _ => rfl⟩
  rw [Json.parse?_render field.writable_toJson]
  exact field.ofJson?_toJson

/-- A field with every setting, and with a stored value of each kind. -/
def detailedField : Field where
  name := "state"
  type := .string
  onlyExplicit := true
  aliases := ["state.code", "s"]
  operators := some [.equal, .unlike]
  values := [⟨"on", .flag true⟩, ⟨"many", .integer (-5)⟩, ⟨"\"ö\"", .text "1"⟩]
  defaultOperator := some .different

/--
The inventory with a detailed field is reloaded from its text, which does not
pin it.
-/
theorem schema_survives_reloading_detailed :
    ∃ catalog : Catalog,
      catalog.Registered ∧ catalog.reference = some inventoryDay ∧
        catalog.fields = inventoryFields ++ [detailedField] ∧
        ∃ reloaded, ofText (Schema.toJson catalog.fields).render =
          .ok reloaded ∧
          reloaded.fields = inventoryFields ++ [detailedField] ∧
          reloaded.field? "s.second" = some detailedField := by
  have added : ofFields (inventoryFields ++ [detailedField]) =
      .ok { fields := inventoryFields ++ [detailedField] } := rfl
  have registered := (registered_ofFields added).pinned inventoryDay
  obtain ⟨-, -, -, reloaded, -, loaded, same, -, found⟩ :=
    schema_survives_reloading registered
  exact ⟨_, registered, rfl, rfl, reloaded, loaded, same, found "s.second"⟩

end Catalog

end SearchPhrase
