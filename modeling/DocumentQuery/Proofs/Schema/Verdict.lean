import DocumentQuery.Proofs.Schema.Validation
import Mathlib.Data.Fintype.Basic
import Mathlib.Order.Bounds.Basic
import Mathlib.Order.WellFounded

/-!
# What validation answers

A schema may be wrong in several ways at once.  The first field, in the order of the schema, that
clashes with an earlier one decides the answer, and its name comes before its path.  Only a schema
without clashes is asked for its identifier.  All identifiers lie at the same path, so that two of
them clash before they could be counted.
-/

namespace DocumentQuery.Entity

/-! ## Clashes by position -/

/-- Whether the field at an index has the name of an earlier field. -/
def NameTaken (fields : List Field) (index : Fin fields.length) : Prop :=
  ∃ earlier < index, fields[earlier].name = fields[index].name

/-- Whether the field at an index lies at the path of an earlier field. -/
def PathTaken (fields : List Field) (index : Fin fields.length) : Prop :=
  ∃ earlier < index, fields[earlier].path = fields[index].path

instance (fields : List Field) (index : Fin fields.length) : Decidable (NameTaken fields index) :=
  inferInstanceAs (Decidable (∃ _, _ ∧ _))

instance (fields : List Field) (index : Fin fields.length) : Decidable (PathTaken fields index) :=
  inferInstanceAs (Decidable (∃ _, _ ∧ _))

/-- Whether the field at an index clashes with an earlier field. -/
def Clashes (fields : List Field) (index : Fin fields.length) : Prop :=
  NameTaken fields index ∨ PathTaken fields index

theorem mem_map_take_iff {α : Type} (fields : List Field) (index : Fin fields.length)
    (key : Field → α) (value : α) :
    value ∈ (fields.take index).map key ↔ ∃ earlier < index, key fields[earlier] = value := by
  simp only [List.mem_map, List.mem_take_iff_getElem]
  constructor
  · intro ⟨field, ⟨earlier, bound, found⟩, same⟩
    rw [lt_min_iff] at bound
    rw [← found] at same
    exact ⟨⟨earlier, bound.2⟩, bound.1, same⟩
  · intro ⟨earlier, before, same⟩
    exact ⟨fields[earlier], ⟨earlier, lt_min before earlier.isLt, rfl⟩, same⟩

theorem clash?_take (entity : String) (fields : List Field) (index : Fin fields.length) :
    clash? entity (fields.take index) fields[index] =
      if NameTaken fields index then some (.duplicateField entity fields[index].name)
      else if PathTaken fields index then some (.duplicatePath entity fields[index].path)
      else none := by
  simp only [clash?, mem_map_take_iff]
  rfl

/-! ## The search -/

/-- As long as no field clashes, the search goes on behind it. -/
theorem firstClash?_drop (entity : String) (fields : List Field) (count : Nat)
    (bound : count ≤ fields.length)
    (free : ∀ index : Fin fields.length, index.val < count → ¬ Clashes fields index) :
    firstClash? entity [] fields =
      firstClash? entity (fields.take count) (fields.drop count) := by
  induction count with
  | zero => rfl
  | succ count ih =>
      have before := ih (by omega) fun index earlier => free index (by omega)
      have next := free ⟨count, by omega⟩ (by simp)
      rw [Clashes, not_or] at next
      have noClash := clash?_take entity fields ⟨count, by omega⟩
      rw [if_neg next.1, if_neg next.2] at noClash
      simp only [Fin.getElem_fin] at noClash
      rw [before, List.drop_eq_getElem_cons (by omega), firstClash?, noClash,
        List.take_concat_get']

/-- The first field that clashes is the one that is found. -/
theorem firstClash?_of_isLeast (entity : String) (fields : List Field)
    {index : Fin fields.length} (first : IsLeast {index | Clashes fields index} index) :
    firstClash? entity [] fields =
      some (if NameTaken fields index then .duplicateField entity fields[index].name
        else .duplicatePath entity fields[index].path) := by
  have free : ∀ earlier : Fin fields.length, earlier.val < index.val →
      ¬ Clashes fields earlier := by
    intro earlier before clashes
    exact absurd (first.2 clashes) (Fin.not_le.mpr before)
  have found := clash?_take entity fields index
  simp only [Fin.getElem_fin] at found
  rw [firstClash?_drop entity fields index (by omega) free, List.drop_eq_getElem_cons index.isLt,
    firstClash?, found]
  by_cases name : NameTaken fields index
  · simp [name]
  · simp [name, first.1.resolve_left name]

theorem firstClash?_of_free (entity : String) (fields : List Field)
    (free : ∀ index, ¬ Clashes fields index) : firstClash? entity [] fields = none := by
  rw [firstClash?_drop entity fields fields.length (by omega) fun index _ => free index,
    List.drop_length]
  rfl

/-! ## Identifiers -/

/-- Fields at distinct paths have at most one identifier among them. -/
theorem countP_id_le_one {fields : List Field} (distinct : (fields.map Field.path).Nodup) :
    fields.countP Field.id ≤ 1 := by
  have atPath : fields.countP Field.id ≤ (fields.map Field.path).count Field.idPath := by
    rw [List.count, List.countP_map]
    apply List.countP_mono_left
    intro field _ isId
    simp [Field.path, isId]
  exact atPath.trans (List.nodup_iff_count_le_one.mp distinct _)

/-! ## The verdict -/

theorem validate_of_isLeast {entity : Entity} {index : Fin entity.fields.length}
    (first : IsLeast {index | Clashes entity.fields index} index) :
    entity.validate = .error (if NameTaken entity.fields index
      then .duplicateField entity.name entity.fields[index].name
      else .duplicatePath entity.name entity.fields[index].path) := by
  rw [validate, firstClash?_of_isLeast entity.name entity.fields first]

theorem validate_of_free {entity : Entity} (free : ∀ index, ¬ Clashes entity.fields index) :
    entity.validate =
      if ∃ field ∈ entity.fields, field.id = true then .ok ()
      else .error (.missingIdentifier entity.name) := by
  have noClash := firstClash?_of_free entity.name entity.fields free
  have distinct := ((firstClash?_eq_none_iff entity.name [] entity.fields).mp noClash).2.2
  have atMostOne := countP_id_le_one distinct
  by_cases identified : ∃ field ∈ entity.fields, field.id = true
  · have one : entity.fields.countP Field.id = 1 := by
      have := List.countP_pos_iff.mpr identified
      omega
    simp only [validate, noClash, one, if_pos identified]
  · have nothing : entity.fields.countP Field.id = 0 := by
      rw [List.countP_eq_zero]
      exact fun field member isId => identified ⟨field, member, isId⟩
    simp only [validate, noClash, nothing, if_neg identified]

/-- Of clashing fields, one is the first. -/
theorem exists_isLeast_clashes {fields : List Field} {index : Fin fields.length}
    (clashes : Clashes fields index) : ∃ first, IsLeast {index | Clashes fields index} first := by
  rcases wellFounded_lt.has_min {index | Clashes fields index} ⟨index, clashes⟩ with
    ⟨first, member, least⟩
  exact ⟨first, member, fun other clash => not_lt.mp (least other clash)⟩

theorem validate_ne_severalIdentifiers (entity : Entity) (name : String) (count : Nat) :
    entity.validate ≠ .error (.severalIdentifiers name count) := by
  by_cases free : ∀ index, ¬ Clashes entity.fields index
  · rw [validate_of_free free]
    split <;> simp
  · push Not at free
    rcases free with ⟨index, clashes⟩
    rcases exists_isLeast_clashes clashes with ⟨first, isFirst⟩
    rw [validate_of_isLeast isFirst]
    split <;> simp

/-- In a valid schema, different names stand for different paths. -/
theorem injOn_path {entity : Entity} (valid : entity.validate = .ok ()) :
    Set.InjOn (fun name => (entity.field? name).map Field.path)
      {name | (entity.field? name).isSome} := by
  intro first firstKnown second secondKnown same
  rcases Option.isSome_iff_exists.mp firstKnown with ⟨firstField, firstFound⟩
  rcases Option.isSome_iff_exists.mp secondKnown with ⟨secondField, secondFound⟩
  simp only [firstFound, secondFound, Option.map_some, Option.some.injEq] at same
  rw [field?_eq_some_iff valid] at firstFound secondFound
  rw [← firstFound.2, ← secondFound.2, field_eq_of_path_eq valid firstFound.1 secondFound.1 same]

/-- The first field that clashes with an earlier one is reported, by its name if that is taken and
by its path otherwise.  Without clashes, only the identifier can be missing.  So a schema is valid
if names and paths are distinct and there is one identifier, its names then stand for different
paths, and there never are several identifiers to complain about. -/
theorem validate_verdict (entity : Entity) :
    (∀ index, IsLeast {index | Clashes entity.fields index} index →
      entity.validate = .error (if NameTaken entity.fields index
        then .duplicateField entity.name entity.fields[index].name
        else .duplicatePath entity.name entity.fields[index].path)) ∧
    ((∀ index, ¬ Clashes entity.fields index) →
      entity.validate =
        if ∃ field ∈ entity.fields, field.id = true then .ok ()
        else .error (.missingIdentifier entity.name)) ∧
    (entity.validate = .ok () ↔
      (entity.fields.map Field.name).Nodup ∧ (entity.fields.map Field.path).Nodup ∧
        entity.fields.countP Field.id = 1) ∧
    (entity.validate = .ok () →
      Set.InjOn (fun name => (entity.field? name).map Field.path)
        {name | (entity.field? name).isSome}) ∧
    ∀ name count, entity.validate ≠ .error (.severalIdentifiers name count) := by
  refine ⟨?_, ?_, validate_eq_ok_iff entity, injOn_path, validate_ne_severalIdentifiers entity⟩
  · intro index first
    exact validate_of_isLeast first
  · intro free
    exact validate_of_free free

/-- A plain field called `_id` takes the path of the identifier, and what is wrong behind it is not
reported. -/
example : validate
      { name := "Book"
        collection := "books"
        fields := [{ name := "title" }, { name := "_id" }, .identifier "isbn",
          { name := "title" }, .identifier "code"] } =
    .error (.duplicatePath "Book" "_id") := rfl

end DocumentQuery.Entity
