import DocumentQuery.Schema.Validation
import Mathlib.Data.List.Nodup

/-!
# What a valid schema guarantees

Validation goes through the fields once and compares each with those before it.  A
schema that passes has fields with distinct names at distinct paths, so a name stands
for one field and a path for one field, and one of the fields is the identifier.
-/

namespace DocumentQuery.Entity

theorem clash?_eq_none_iff (entity : String) (earlier : List Field) (field : Field) :
    clash? entity earlier field = none ↔
      field.name ∉ earlier.map Field.name ∧ field.path ∉ earlier.map Field.path := by
  unfold clash?
  split
  next taken => simp [taken]
  next free =>
    split
    next taken => simp [taken]
    next pathFree => simp only [free, pathFree, not_false_eq_true, and_self]

/-- No field clashes if the fields differ from the earlier ones and among themselves. -/
theorem firstClash?_eq_none_iff (entity : String) (earlier fields : List Field) :
    firstClash? entity earlier fields = none ↔
      (∀ field ∈ fields,
        field.name ∉ earlier.map Field.name ∧ field.path ∉ earlier.map Field.path) ∧
      (fields.map Field.name).Nodup ∧ (fields.map Field.path).Nodup := by
  induction fields generalizing earlier with
  | nil => simp [firstClash?]
  | cons field fields ih =>
      have step : firstClash? entity earlier (field :: fields) = none ↔
          clash? entity earlier field = none ∧
            firstClash? entity (earlier ++ [field]) fields = none := by
        rw [firstClash?]
        cases clash? entity earlier field <;> simp
      rw [step, clash?_eq_none_iff, ih]
      simp only [List.map_append, List.map_cons, List.map_nil, List.mem_append,
        List.mem_singleton, not_or, List.forall_mem_cons, List.nodup_cons]
      constructor
      · rintro ⟨fresh, later, names, paths⟩
        refine ⟨⟨fresh, fun other member => ⟨(later other member).1.1, (later other member).2.1⟩⟩,
          ⟨?_, names⟩, ?_, paths⟩
        · rintro taken
          rcases List.mem_map.mp taken with ⟨other, member, same⟩
          exact (later other member).1.2 same
        · rintro taken
          rcases List.mem_map.mp taken with ⟨other, member, same⟩
          exact (later other member).2.2 same
      · rintro ⟨⟨fresh, later⟩, ⟨nameFree, names⟩, pathFree, paths⟩
        refine ⟨fresh, fun other member => ⟨⟨(later other member).1, ?_⟩,
          (later other member).2, ?_⟩, names, paths⟩
        · intro same
          exact nameFree (same ▸ List.mem_map_of_mem member)
        · intro same
          exact pathFree (same ▸ List.mem_map_of_mem member)

/-- A schema is valid if its fields have distinct names and distinct paths and exactly
one of them is the identifier. -/
theorem validate_eq_ok_iff (entity : Entity) :
    entity.validate = .ok () ↔
      (entity.fields.map Field.name).Nodup ∧ (entity.fields.map Field.path).Nodup ∧
        entity.fields.countP Field.id = 1 := by
  have clashes := firstClash?_eq_none_iff entity.name [] entity.fields
  simp only [List.map_nil, List.not_mem_nil, not_false_eq_true, and_self, implies_true,
    true_and] at clashes
  rw [← and_assoc, ← clashes]
  unfold validate
  cases firstClash? entity.name [] entity.fields with
  | some error => simp
  | none =>
      simp only [true_and]
      split
      next none => simp [none]
      next one => simp [one]
      next notOne =>
        simp only [reduceCtorEq, false_iff]
        exact notOne

theorem field_eq_of_name_eq {entity : Entity} (valid : entity.validate = .ok ())
    {first second : Field} (firstMember : first ∈ entity.fields)
    (secondMember : second ∈ entity.fields) (same : first.name = second.name) :
    first = second := by
  have distinct := ((validate_eq_ok_iff entity).mp valid).1
  exact List.inj_on_of_nodup_map distinct firstMember secondMember same

theorem field_eq_of_path_eq {entity : Entity} (valid : entity.validate = .ok ())
    {first second : Field} (firstMember : first ∈ entity.fields)
    (secondMember : second ∈ entity.fields) (same : first.path = second.path) :
    first = second := by
  have distinct := ((validate_eq_ok_iff entity).mp valid).2.1
  exact List.inj_on_of_nodup_map distinct firstMember secondMember same

/-- In a valid schema a name stands for the one field that has it. -/
theorem field?_eq_some_iff {entity : Entity} (valid : entity.validate = .ok ()) (name : String)
    (field : Field) :
    entity.field? name = some field ↔ field ∈ entity.fields ∧ field.name = name := by
  constructor
  · intro found
    have named := List.find?_some found
    exact ⟨List.mem_of_find?_eq_some found, eq_of_beq named⟩
  · intro ⟨member, named⟩
    rw [← named]
    cases found : entity.field? field.name with
    | none => exact absurd (List.find?_eq_none.mp found field member) (by simp)
    | some other =>
        have sameName := List.find?_some found
        rw [field_eq_of_name_eq valid (List.mem_of_find?_eq_some found) member
          (eq_of_beq sameName)]

/-- A valid schema has fields, so there is something to keep of every document. -/
theorem paths_ne_nil {entity : Entity} (valid : entity.validate = .ok ()) :
    entity.paths ≠ [] := by
  have identified := ((validate_eq_ok_iff entity).mp valid).2.2
  intro empty
  have length := congrArg List.length empty
  rw [paths, List.length_mergeSort, List.length_map, List.length_nil,
    List.length_eq_zero_iff] at length
  rw [length] at identified
  cases identified

end DocumentQuery.Entity
