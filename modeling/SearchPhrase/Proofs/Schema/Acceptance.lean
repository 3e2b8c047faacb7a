import Mathlib.Data.List.Induction
import Mathlib.Data.List.Nodup
import SearchPhrase.Proofs.Schema.Lookup

/-!
# Acceptance of schemas

Fields are registered one after the other, each against those before it.
Whether all of them are accepted does not depend on their order: every field has
to be sound on its own, and no two of them may share a name.  Which error
refuses a schema does depend on the order.  It is that of the first field that
cannot be added to the fields before it, and of several things that are wrong
with this field the first one counts: its names are looked at first, then its
enumerated values, and only then the names that are taken.
-/

namespace SearchPhrase

/--
A list that grows by accepted items is accepted, or has a first item that is
refused after those before it.
-/
theorem accepted_or_first_refused
    {α : Type} {Accepted : List α → Prop} {Refuses : List α → α → Prop}
    (empty : Accepted [])
    (step : ∀ before item, Accepted before →
      Accepted (before ++ [item]) ∨ Refuses before item)
    (items : List α) :
    Accepted items ∨ ∃ before item rest,
      items = before ++ item :: rest ∧ Accepted before ∧
        Refuses before item := by
  induction items using List.reverseRecOn with
  | nil => exact Or.inl empty
  | append_singleton items last ih =>
      rcases ih with accepted | ⟨before, item, rest, rfl, accepted, refused⟩
      · rcases step items last accepted with grown | refused
        · exact Or.inl grown
        · exact Or.inr ⟨items, last, [], rfl, accepted, refused⟩
      · exact Or.inr ⟨before, item, rest ++ [last], by simp, accepted, refused⟩

/-! ## Sound fields -/

namespace Field

/-- An ASCII letter or digit, or an underscore. -/
def IsWordCharacter (character : Char) : Prop :=
  ('A' ≤ character ∧ character ≤ 'Z') ∨ ('a' ≤ character ∧ character ≤ 'z') ∨
    ('0' ≤ character ∧ character ≤ '9') ∨ character = '_'

/--
The shape of names: a word character, and then word characters, dots and
hyphens.
-/
def HasNameShape (name : String) : Prop :=
  ∃ first rest, name = String.ofList (first :: rest) ∧ IsWordCharacter first ∧
    ∀ character ∈ rest, IsWordCharacter character ∨ character = '.' ∨
      character = '-'

theorem isNameStart_iff {character : Char} :
    isNameStart character = true ↔ IsWordCharacter character := by
  change ((((decide ('A' ≤ character ∧ character ≤ 'Z') ||
      (decide ('a' ≤ character) && decide (character ≤ 'z'))) ||
    (decide ('0' ≤ character) && decide (character ≤ '9'))) ||
      character == '_') = true) ↔ _
  simp only [Bool.or_eq_true, Bool.and_eq_true, decide_eq_true_eq, beq_iff_eq,
    or_assoc, IsWordCharacter]

theorem isNamePart_iff {character : Char} :
    isNamePart character = true ↔
      IsWordCharacter character ∨ character = '.' ∨ character = '-' := by
  simp only [isNamePart, Bool.or_eq_true, isNameStart_iff, beq_iff_eq, or_assoc]

theorem isName_iff {name : String} :
    isName name = true ↔ HasNameShape name := by
  unfold isName HasNameShape
  split
  · next empty =>
      simp only [Bool.false_eq_true, false_iff, not_exists]
      rintro first rest ⟨rfl, -⟩
      simp at empty
  · next first rest shape =>
      have written : name = String.ofList (first :: rest) := by
        rw [← shape, String.ofList_toList]
      simp only [written, String.ofList_inj, List.cons.injEq, Bool.and_eq_true,
        isNameStart_iff, List.all_eq_true, isNamePart_iff]
      constructor
      · rintro ⟨start, parts⟩
        exact ⟨first, rest, ⟨rfl, rfl⟩, start, parts⟩
      · rintro ⟨_, _, ⟨rfl, rfl⟩, start, parts⟩
        exact ⟨start, parts⟩

instance : DecidablePred HasNameShape :=
  fun _ => decidable_of_iff _ isName_iff

/-- Enumerated values have names, and no two of them the same one. -/
def ValuesSound (values : List NamedValue) : Prop :=
  (∀ value ∈ values, value.name ≠ "") ∧ (values.map NamedValue.name).Nodup

instance : DecidablePred ValuesSound :=
  fun _ => inferInstanceAs (Decidable (_ ∧ _))

/-- A field has well shaped names and sound enumerated values. -/
def Sound (field : Field) : Prop :=
  (∀ name ∈ field.names, HasNameShape name) ∧ ValuesSound field.values

instance : DecidablePred Sound :=
  fun _ => inferInstanceAs (Decidable (_ ∧ _))

/-- The first thing that is wrong with a field on its own. -/
inductive Flawed (field : Field) : FieldFlaw → Prop where
  | malformedName {name : String} {left right : List String}
      (names : field.names = left ++ name :: right)
      (earlier : ∀ other ∈ left, HasNameShape other)
      (malformed : ¬ HasNameShape name) :
      Flawed field (.malformedName name)
  | unnamedValue {value : NamedValue} {left right : List NamedValue}
      (names : ∀ name ∈ field.names, HasNameShape name)
      (values : field.values = left ++ value :: right)
      (earlier : ValuesSound left)
      (unnamed : value.name = "") :
      Flawed field .unnamedValue
  | repeatedValue {value : NamedValue} {left right : List NamedValue}
      (names : ∀ name ∈ field.names, HasNameShape name)
      (values : field.values = left ++ value :: right)
      (earlier : ValuesSound left)
      (repeated : value.name ∈ left.map NamedValue.name) :
      Flawed field (.repeatedValue value.name)

/-! ## The first flaw -/

theorem valuesSound_append_singleton {before : List NamedValue}
    {value : NamedValue} :
    ValuesSound (before ++ [value]) ↔
      ValuesSound before ∧ value.name ≠ "" ∧
        value.name ∉ before.map NamedValue.name := by
  simp only [ValuesSound, List.forall_mem_append, List.map_append,
    List.map_singleton, List.nodup_append, List.nodup_singleton,
    List.mem_singleton, forall_eq, true_and]
  constructor
  · rintro ⟨⟨named, last⟩, distinct, differ⟩
    exact ⟨⟨named, distinct⟩, last, fun known => differ _ known rfl⟩
  · rintro ⟨⟨named, distinct⟩, last, fresh⟩
    refine ⟨⟨named, last⟩, distinct, ?_⟩
    rintro _ known rfl
    exact fresh known

theorem valuesSound_or_flawed (values : List NamedValue) :
    ValuesSound values ∨ ∃ before value rest,
      values = before ++ value :: rest ∧ ValuesSound before ∧
        (value.name = "" ∨ value.name ∈ before.map NamedValue.name) := by
  refine accepted_or_first_refused ⟨by simp, List.nodup_nil⟩ ?_ values
  intro before value sound
  rw [valuesSound_append_singleton]
  by_cases unnamed : value.name = ""
  · exact Or.inr (Or.inl unnamed)
  · by_cases known : value.name ∈ before.map NamedValue.name
    · exact Or.inr (Or.inr known)
    · exact Or.inl ⟨sound, unnamed, known⟩

/-- After sound values, the names that were seen are theirs. -/
theorem valueFlaw?_append
    {before : List NamedValue} (sound : ValuesSound before)
    (rest : List NamedValue) :
    valueFlaw? [] (before ++ rest) =
      valueFlaw? (before.map NamedValue.name).reverse rest := by
  induction before using List.reverseRecOn generalizing rest with
  | nil => rfl
  | append_singleton before value ih =>
      obtain ⟨earlier, named, fresh⟩ := valuesSound_append_singleton.mp sound
      rw [List.append_assoc, ih earlier, List.singleton_append, valueFlaw?]
      simp [named, fresh]

/-- A field with well shaped names has the flaws of its values only. -/
theorem flaw?_of_wellShaped
    {field : Field} (wellShaped : ∀ name ∈ field.names, HasNameShape name) :
    field.flaw? = valueFlaw? [] field.values := by
  have noneMalformed : (field.names.find? fun name => !isName name) = none := by
    rw [List.find?_eq_none]
    intro name member
    simp [isName_iff.mpr (wellShaped name member)]
  rw [flaw?, noneMalformed]

theorem Sound.flaw?_eq_none {field : Field} (sound : field.Sound) :
    field.flaw? = none := by
  have values := valueFlaw?_append sound.2 []
  rw [List.append_nil] at values
  rw [flaw?_of_wellShaped sound.1, values]
  rfl

/--
The first thing that is wrong with a field is the flaw that is reported.  A name
that occurs among sound values is not empty, which is asked first.
-/
theorem Flawed.flaw?_eq_some
    {field : Field} {flaw : FieldFlaw} (flawed : field.Flawed flaw) :
    field.flaw? = some flaw := by
  cases flawed with
  | @malformedName name left right names earlier malformed =>
      have first :
          (field.names.find? fun name => !isName name) = some name := by
        refine List.find?_eq_some_iff_append.mpr ⟨?_, left, right, names, ?_⟩
        · simpa using mt isName_iff.mp malformed
        · intro other member
          simp [isName_iff.mpr (earlier other member)]
      rw [flaw?, first]
  | unnamedValue wellShaped values earlier unnamed =>
      rw [flaw?_of_wellShaped wellShaped, values, valueFlaw?_append earlier,
        valueFlaw?]
      simp [unnamed]
  | repeatedValue wellShaped values earlier repeated =>
      obtain ⟨other, member, same⟩ := List.mem_map.mp repeated
      have named := earlier.1 other member
      rw [same] at named
      rw [flaw?_of_wellShaped wellShaped, values, valueFlaw?_append earlier,
        valueFlaw?]
      simp [named, repeated]

theorem sound_or_flawed (field : Field) :
    field.Sound ∨ ∃ flaw, field.Flawed flaw := by
  cases found : field.names.find? fun name => !isName name with
  | some name =>
      obtain ⟨malformed, left, right, names, earlier⟩ :=
        List.find?_eq_some_iff_append.mp found
      refine Or.inr
        ⟨_, .malformedName names (fun other member => ?_) (fun shaped => ?_)⟩
      · exact isName_iff.mp (by simpa using earlier other member)
      · simp [isName_iff.mpr shaped] at malformed
  | none =>
      have shaped : ∀ name ∈ field.names, HasNameShape name := by
        intro name member
        exact isName_iff.mp
          (by simpa using List.find?_eq_none.mp found name member)
      rcases valuesSound_or_flawed field.values with
        sound | ⟨left, value, right, values, earlier, unnamed | repeated⟩
      · exact Or.inl ⟨shaped, sound⟩
      · exact Or.inr ⟨_, .unnamedValue shaped values earlier unnamed⟩
      · exact Or.inr ⟨_, .repeatedValue shaped values earlier repeated⟩

theorem flaw?_eq_none_iff {field : Field} :
    field.flaw? = none ↔ field.Sound := by
  constructor
  · intro flawless
    rcases field.sound_or_flawed with sound | ⟨flaw, flawed⟩
    · exact sound
    · rw [flawed.flaw?_eq_some] at flawless
      cases flawless
  · exact Sound.flaw?_eq_none

end Field

/-! ## Acceptable schemas -/

namespace Catalog

/-- Every field is sound on its own, and no two of them share a name. -/
def Acceptable (fields : List Field) : Prop :=
  (∀ field ∈ fields, field.Sound) ∧ fields.Pairwise Field.Apart

instance : DecidablePred Acceptable :=
  fun _ => inferInstanceAs (Decidable (_ ∧ _))

/--
A field cannot be added to the fields before it, for the first reason that
applies.
-/
inductive Refused (before : List Field) (field : Field) :
    CatalogError → Prop where
  | flawed {flaw : FieldFlaw} (flawed : field.Flawed flaw) :
      Refused before field (.invalidField field.name flaw)
  | takenName {name : String} {left right : List String}
      (sound : field.Sound)
      (names : field.names = left ++ name :: right)
      (earlier : ∀ other ∈ left, ∀ old ∈ before, other ∉ old.names)
      (taken : ∃ old ∈ before, name ∈ old.names) :
      Refused before field (.duplicateName name)

theorem acceptable_append_singleton {before : List Field} {field : Field} :
    Acceptable (before ++ [field]) ↔
      Acceptable before ∧ field.Sound ∧ ∀ old ∈ before, old.Apart field := by
  simp only [Acceptable, List.pairwise_append, List.forall_mem_append,
    List.forall_mem_singleton, List.pairwise_singleton, true_and]
  constructor
  · rintro ⟨⟨sound, last⟩, apart, free⟩
    exact ⟨⟨sound, apart⟩, last, free⟩
  · rintro ⟨⟨sound, apart⟩, last, free⟩
    exact ⟨⟨sound, last⟩, apart, free⟩

/-- Every field of a registered catalog is sound. -/
theorem Registered.sound
    {catalog : Catalog} (registered : catalog.Registered)
    {field : Field} (member : field ∈ catalog.fields) : field.Sound := by
  induction registered with
  | empty => simp [Catalog.empty] at member
  | register before added ih =>
      obtain ⟨flawless, -, rfl⟩ := register_eq_ok added
      rcases List.mem_append.mp member with earlier | last
      · exact ih earlier
      · rw [List.mem_singleton.mp last]
        exact Field.flaw?_eq_none_iff.mp flawless
  | pinned before reference ih => exact ih member

/-- Acceptance does not depend on the order of the fields. -/
theorem acceptable_perm {fields permuted : List Field}
    (same : fields.Perm permuted) :
    Acceptable fields ↔ Acceptable permuted := by
  unfold Acceptable
  rw [same.pairwise_iff fun apart => Std.Symm.symm _ _ apart]
  simp only [same.mem_iff]

theorem register_of_sound
    {catalog : Catalog} {field : Field} (sound : field.Sound)
    (free : ∀ old ∈ catalog.fields, old.Apart field) :
    catalog.register field =
      .ok { catalog with fields := catalog.fields ++ [field] } := by
  rw [register, sound.flaw?_eq_none, find?_takes_eq_none_iff.mpr free]

/-- A field that is refused is refused with the error that says why. -/
theorem Refused.register_eq_error
    {catalog : Catalog} {field : Field} {error : CatalogError}
    (refused : Refused catalog.fields field error) :
    catalog.register field = .error error := by
  cases refused with
  | flawed flawed => rw [register, flawed.flaw?_eq_some]
  | @takenName name left right sound names earlier taken =>
      have first : field.names.find? catalog.takes = some name := by
        refine List.find?_eq_some_iff_append.mpr
          ⟨takes_iff.mpr taken, left, right, names, ?_⟩
        intro other member
        rw [Bool.not_eq_true', ← Bool.not_eq_true, takes_iff]
        rintro ⟨old, inBefore, named⟩
        exact earlier other member old inBefore named
      rw [register, sound.flaw?_eq_none, first]

theorem free_or_refused (before : List Field) (field : Field) :
    (field.Sound ∧ ∀ old ∈ before, old.Apart field) ∨
      ∃ error, Refused before field error := by
  rcases field.sound_or_flawed with sound | ⟨flaw, flawed⟩
  · let catalog : Catalog := { fields := before }
    cases found : field.names.find? catalog.takes with
    | none => exact Or.inl ⟨sound, find?_takes_eq_none_iff.mp found⟩
    | some name =>
        obtain ⟨taken, left, right, names, earlier⟩ :=
          List.find?_eq_some_iff_append.mp found
        refine Or.inr ⟨_, .takenName sound names ?_ (takes_iff.mp taken)⟩
        intro other member old inBefore named
        have untaken := earlier other member
        rw [takes_iff.mpr ⟨old, inBefore, named⟩] at untaken
        cases untaken
  · exact Or.inr ⟨_, .flawed flawed⟩

theorem acceptable_or_refused (fields : List Field) :
    Acceptable fields ∨ ∃ before field rest,
      fields = before ++ field :: rest ∧ Acceptable before ∧
        ∃ error, Refused before field error := by
  refine accepted_or_first_refused ⟨by simp, List.Pairwise.nil⟩ ?_ fields
  intro before field acceptable
  rw [acceptable_append_singleton]
  exact (free_or_refused before field).imp_left (And.intro acceptable)

/-! ## Registering a list of fields -/

/--
Acceptable fields are all registered, and registration goes on with what follows
them.
-/
theorem ofFields_append
    {before : List Field} (acceptable : Acceptable before) (rest : List Field) :
    ofFields (before ++ rest) = registerAll { fields := before } rest := by
  induction before using List.reverseRecOn generalizing rest with
  | nil => rfl
  | append_singleton before field ih =>
      obtain ⟨earlier, sound, free⟩ := acceptable_append_singleton.mp acceptable
      rw [List.append_assoc, ih earlier, List.singleton_append, registerAll,
        register_of_sound sound free]

theorem ofFields_of_acceptable {fields : List Field}
    (acceptable : Acceptable fields) :
    ofFields fields = .ok { fields := fields } := by
  have all := ofFields_append acceptable []
  rw [List.append_nil] at all
  exact all

theorem ofFields_of_refused
    {before rest : List Field} {field : Field} {error : CatalogError}
    (acceptable : Acceptable before) (refused : Refused before field error) :
    ofFields (before ++ field :: rest) = .error error := by
  have failed : register { fields := before } field = .error error :=
    Refused.register_eq_error refused
  rw [ofFields_append acceptable, registerAll, failed]

/-- Fields are all registered if they are acceptable, in their order. -/
theorem ofFields_eq_ok_iff {fields : List Field} {catalog : Catalog} :
    ofFields fields = .ok catalog ↔
      Acceptable fields ∧ catalog = { fields := fields } := by
  constructor
  · intro added
    rcases acceptable_or_refused fields with
      acceptable | ⟨before, field, rest, rfl, earlier, error, refused⟩
    · rw [ofFields_of_acceptable acceptable] at added
      exact ⟨acceptable, (Except.ok.inj added).symm⟩
    · rw [ofFields_of_refused earlier refused] at added
      cases added
  · rintro ⟨acceptable, rfl⟩
    exact ofFields_of_acceptable acceptable

theorem exists_ofFields_iff {fields : List Field} :
    (∃ catalog, ofFields fields = .ok catalog) ↔ Acceptable fields := by
  simp [ofFields_eq_ok_iff]

/--
The error of a schema is that of the first field that is refused after those
before it.
-/
theorem ofFields_eq_error_iff {fields : List Field} {error : CatalogError} :
    ofFields fields = .error error ↔ ∃ before field rest,
      fields = before ++ field :: rest ∧ Acceptable before ∧
        Refused before field error := by
  constructor
  · intro failed
    rcases acceptable_or_refused fields with
      acceptable | ⟨before, field, rest, rfl, earlier, other, refused⟩
    · rw [ofFields_of_acceptable acceptable] at failed
      cases failed
    · rw [ofFields_of_refused earlier refused] at failed
      cases failed
      exact ⟨before, field, rest, rfl, earlier, refused⟩
  · rintro ⟨before, field, rest, rfl, earlier, refused⟩
    exact ofFields_of_refused earlier refused

theorem Refused.not_acceptable
    {before : List Field} {field : Field} {error : CatalogError}
    (acceptable : Acceptable before) (refused : Refused before field error) :
    ¬ Acceptable (before ++ [field]) := by
  rw [← exists_ofFields_iff, ofFields_of_refused acceptable refused]
  simp

/--
What names reach depends on which fields there are, and not on their order.
-/
theorem field?_eq_of_perm
    {catalog other : Catalog} (apart : catalog.fields.Pairwise Field.Apart)
    (otherApart : other.fields.Pairwise Field.Apart)
    (same : catalog.fields.Perm other.fields) (name : String) :
    catalog.field? name = other.field? name := by
  ext field
  rw [field?_eq_some_iff apart, field?_eq_some_iff otherApart]
  simp only [Reaches, same.mem_iff]

/--
A schema is accepted if its fields are sound and have no names in common, so
that any order of its fields is accepted, and then every name reaches the same
field.  Otherwise the error is the reason for the first field that cannot be
added to those before it.
-/
theorem acceptance_of_schema (fields : List Field) :
    ((∃ catalog, ofFields fields = .ok catalog) ↔
      (∀ field ∈ fields,
        (∀ name ∈ field.names, Field.HasNameShape name) ∧
        (∀ value ∈ field.values, value.name ≠ "") ∧
        (field.values.map NamedValue.name).Nodup) ∧
      fields.Pairwise Field.Apart) ∧
    (∀ permuted : List Field, fields.Perm permuted →
      ((∃ catalog, ofFields fields = .ok catalog) ↔
        ∃ catalog, ofFields permuted = .ok catalog) ∧
      ∀ catalog other, ofFields fields = .ok catalog →
        ofFields permuted = .ok other →
        ∀ name, catalog.field? name = other.field? name) ∧
    ∀ error, ofFields fields = .error error ↔ ∃ before field rest,
      fields = before ++ field :: rest ∧ Acceptable before ∧
        ¬ Acceptable (before ++ [field]) ∧ Refused before field error := by
  refine ⟨exists_ofFields_iff, ?_, ?_⟩
  · intro permuted same
    refine ⟨?_, ?_⟩
    · rw [exists_ofFields_iff, exists_ofFields_iff, acceptable_perm same]
    · intro catalog other added otherAdded
      obtain ⟨acceptable, rfl⟩ := ofFields_eq_ok_iff.mp added
      obtain ⟨otherAcceptable, rfl⟩ := ofFields_eq_ok_iff.mp otherAdded
      exact field?_eq_of_perm acceptable.2 otherAcceptable.2 same
  · intro error
    rw [ofFields_eq_error_iff]
    constructor
    · rintro ⟨before, field, rest, shape, earlier, refused⟩
      exact ⟨before, field, rest, shape, earlier,
        refused.not_acceptable earlier, refused⟩
    · rintro ⟨before, field, rest, shape, earlier, -, refused⟩
      exact ⟨before, field, rest, shape, earlier, refused⟩

/-- A field that repeats a value, and an alias of the inventory. -/
def repetitiveField : Field where
  name := "state"
  type := .integer
  aliases := ["hostname"]
  values := [⟨"on", .flag true⟩, ⟨"on", .flag false⟩]

/--
The inventory is accepted in reverse and looked up alike.  Of the two things
that are wrong with a further field the repeated value is reported.
-/
theorem acceptance_of_schema_reversed :
    inventoryFields.Perm inventoryFields.reverse ∧
      (∃ catalog, ofFields inventoryFields.reverse = .ok catalog ∧
        catalog.field? "hostname.first" = inventoryFields.head?) ∧
      ofFields (inventoryFields ++ [repetitiveField]) =
        .error (.invalidField "state" (.repeatedValue "on")) := by
  have reordered : inventoryFields.Perm inventoryFields.reverse :=
    (List.reverse_perm inventoryFields).symm
  have added :
      ofFields inventoryFields = .ok { fields := inventoryFields } := rfl
  refine ⟨reordered, ?_, ?_⟩
  · obtain ⟨accepted, same⟩ :=
      (acceptance_of_schema inventoryFields).2.1 _ reordered
    obtain ⟨catalog, reversed⟩ := accepted.mp ⟨_, added⟩
    have alike := same _ catalog added reversed "hostname.first"
    exact ⟨catalog, reversed, alike.symm.trans rfl⟩
  · have values :
        repetitiveField.values =
          [⟨"on", .flag true⟩] ++ [⟨"on", .flag false⟩] := rfl
    have flawed : repetitiveField.Flawed (.repeatedValue "on") :=
      .repeatedValue (by decide) values (by decide) (by decide)
    exact ((acceptance_of_schema _).2.2 _).mpr
      ⟨inventoryFields, repetitiveField, [], rfl, by decide, by decide,
        .flawed flawed⟩

end Catalog

end SearchPhrase
