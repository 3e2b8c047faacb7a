import Mathlib.Data.List.Pairwise
import SearchPhrase.Proofs.Schema.Registration

/-!
# Looking up fields

A catalog looks for a name among its fields in order and gives the first field
that has it.  In a registered catalog no two fields share a name, so that there
is at most one such field and the order does not matter.  What a name reaches is
then a relation between names and fields: the field that has the name, or else
the field that has the part of it before its first dot.
-/

namespace SearchPhrase

/-- Two fields have no name in common. -/
def Field.Apart (left right : Field) : Prop :=
  ∀ name ∈ left.names, name ∉ right.names

instance (left right : Field) : Decidable (left.Apart right) :=
  inferInstanceAs (Decidable (∀ name ∈ left.names, name ∉ right.names))

instance : Std.Symm Field.Apart where
  symm _ _ apart name inRight inLeft := apart name inLeft inRight

namespace Catalog

/-! ## Names that are taken -/

theorem takes_iff {catalog : Catalog} {name : String} :
    catalog.takes name = true ↔
      ∃ field ∈ catalog.fields, name ∈ field.names := by
  simp [takes, named?]

/-- A registration finds the names of the new field free. -/
theorem find?_takes_eq_none_iff {catalog : Catalog} {field : Field} :
    field.names.find? catalog.takes = none ↔
      ∀ old ∈ catalog.fields, old.Apart field := by
  simp only [List.find?_eq_none, takes_iff]
  constructor
  · intro free old member name inOld inNew
    exact free name inNew ⟨old, member, inOld⟩
  · rintro apart name inNew ⟨old, member, inOld⟩
    exact apart old member name inOld inNew

/-- The fields of a registered catalog have no names in common. -/
theorem Registered.apart {catalog : Catalog} (registered : catalog.Registered) :
    catalog.fields.Pairwise Field.Apart := by
  induction registered with
  | empty => exact List.Pairwise.nil
  | register before added ih =>
      obtain ⟨-, free, rfl⟩ := register_eq_ok added
      rw [List.pairwise_append]
      refine ⟨ih, List.pairwise_singleton _ _, ?_⟩
      intro old inOld new inNew
      rw [List.mem_singleton.mp inNew]
      exact find?_takes_eq_none_iff.mp free old inOld
  | pinned before reference ih => exact ih

/-- A name that two fields have is a name of one field. -/
theorem eq_of_shared_name
    {fields : List Field} (apart : fields.Pairwise Field.Apart)
    {left right : Field} (inLeft : left ∈ fields) (inRight : right ∈ fields)
    {name : String} (namesLeft : name ∈ left.names)
    (namesRight : name ∈ right.names) :
    left = right := by
  by_contra different
  have separate : left.Apart right :=
    apart.forall inLeft inRight different
  exact separate name namesLeft namesRight

theorem named?_eq_some_iff
    {catalog : Catalog} (apart : catalog.fields.Pairwise Field.Apart)
    {name : String} {field : Field} :
    catalog.named? name = some field ↔
      field ∈ catalog.fields ∧ name ∈ field.names := by
  constructor
  · intro found
    have named := List.find?_some found
    exact ⟨mem_fields_of_named? found, by simpa using named⟩
  · rintro ⟨member, named⟩
    obtain ⟨first, found⟩ :=
      Option.isSome_iff_exists.mp (takes_iff.mpr ⟨field, member, named⟩)
    have namedFirst : name ∈ first.names := by simpa using List.find?_some found
    rw [found,
      eq_of_shared_name apart (mem_fields_of_named? found) member
        namedFirst named]

/-! ## Names that reach a field -/

theorem stem?_append {stem : String} (undotted : '.' ∉ stem.toList)
    (rest : String) :
    stem? (stem ++ "." ++ rest) = some stem := by
  have dot : ".".toList = ['.'] := by decide
  have before : ∀ character ∈ stem.toList, (character != '.') = true := by
    intro character member
    rw [bne_iff_ne]
    rintro rfl
    exact undotted member
  simp [stem?, dot, List.takeWhile_append_of_pos before]

theorem exists_stem {name : String} (dotted : '.' ∈ name.toList) :
    ∃ stem rest, name = stem ++ "." ++ rest ∧ '.' ∉ stem.toList := by
  obtain ⟨before, after, shape, undotted⟩ := List.eq_append_cons_of_mem dotted
  refine ⟨String.ofList before, String.ofList after, ?_,
    by simpa using undotted⟩
  rw [← String.toList_inj]
  simp [shape]

/-- The part of a name before its first dot is what a dot and a rest follow. -/
theorem stem?_eq_some_iff {name stem : String} :
    stem? name = some stem ↔
      ∃ rest, name = stem ++ "." ++ rest ∧ '.' ∉ stem.toList := by
  constructor
  · intro found
    have dotted : '.' ∈ name.toList := by
      unfold stem? at found
      split at found
      · next dotted => exact List.contains_iff_mem.mp dotted
      · cases found
    obtain ⟨before, rest, rfl, undotted⟩ := exists_stem dotted
    rw [stem?_append undotted, Option.some.injEq] at found
    exact ⟨rest, by rw [found], by rwa [← found]⟩
  · rintro ⟨rest, rfl, undotted⟩
    exact stem?_append undotted rest

/--
A name reaches a field of a catalog: the field that has it, or the field that
has the part before its first dot if no field has the whole name.
-/
def Reaches (catalog : Catalog) (name : String) (field : Field) : Prop :=
  field ∈ catalog.fields ∧
    (name ∈ field.names ∨
      (∀ other ∈ catalog.fields, name ∉ other.names) ∧
        ∃ stem rest, name = stem ++ "." ++ rest ∧ '.' ∉ stem.toList ∧
        stem ∈ field.names)

/-- Looking up a name gives the field that it reaches. -/
theorem field?_eq_some_iff
    {catalog : Catalog} (apart : catalog.fields.Pairwise Field.Apart)
    {name : String} {field : Field} :
    catalog.field? name = some field ↔ catalog.Reaches name field := by
  unfold field? Reaches
  cases found : catalog.named? name with
  | some first =>
      obtain ⟨member, named⟩ := (named?_eq_some_iff apart).mp found
      simp only [Option.some.injEq]
      constructor
      · rintro rfl
        exact ⟨member, Or.inl named⟩
      · rintro ⟨inFields, whole | ⟨unnamed, -⟩⟩
        · exact eq_of_shared_name apart member inFields named whole
        · exact absurd named (unnamed first member)
  | none =>
      have unnamed : ∀ other ∈ catalog.fields, name ∉ other.names := by
        intro other member named
        rw [(named?_eq_some_iff apart).mpr ⟨member, named⟩] at found
        cases found
      simp only [Option.bind_eq_some_iff, named?_eq_some_iff apart,
        stem?_eq_some_iff]
      constructor
      · rintro ⟨stem, ⟨rest, shape, undotted⟩, member, named⟩
        exact ⟨member, Or.inr ⟨unnamed, stem, rest, shape, undotted, named⟩⟩
      · rintro ⟨member, whole | ⟨-, stem, rest, shape, undotted, named⟩⟩
        · exact absurd whole (unnamed field member)
        · exact ⟨stem, ⟨rest, shape, undotted⟩, member, named⟩

end Catalog

end SearchPhrase
