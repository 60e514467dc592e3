import DocumentQuery.Proofs.Schema.Validation
import Mathlib.Data.String.Basic
import Mathlib.Tactic.SplitIfs

/-!
# The paths of a schema

The paths of a valid schema are listed in the order of their bytes.  Texts are compared by their
characters, which comes to the same, since a character with a greater code has greater bytes.  Each
field has one path in the list, and in which order the schema lists its fields does not matter.
-/

namespace DocumentQuery

/-! ## Texts by their bytes -/

/-- The bytes of a text. -/
def utf8Bytes (text : String) : List UInt8 := text.toByteArray.data.toList

theorem utf8Bytes_eq_flatMap (text : String) :
    utf8Bytes text = text.toList.flatMap String.utf8EncodeChar := by
  have encoded : text.toByteArray = text.toList.utf8Encode := by
    rw [← String.toByteArray_ofList, String.ofList_toList]
  rw [utf8Bytes, encoded, List.utf8Encode, List.data_toByteArray]

theorem uint8_ofNat_lt_iff {first second : Nat} (firstFits : first < 256)
    (secondFits : second < 256) : UInt8.ofNat first < UInt8.ofNat second ↔ first < second := by
  rw [UInt8.lt_iff_toNat_lt, UInt8.toNat_ofNat_of_lt' firstFits,
    UInt8.toNat_ofNat_of_lt' secondFits]

theorem uint8_ofNat_eq_iff {first second : Nat} (firstFits : first < 256)
    (secondFits : second < 256) : UInt8.ofNat first = UInt8.ofNat second ↔ first = second := by
  rw [← UInt8.toNat_inj, UInt8.toNat_ofNat_of_lt' firstFits, UInt8.toNat_ofNat_of_lt' secondFits]

/-- The bytes of a greater character are greater, whatever follows. -/
theorem utf8EncodeChar_append_lt {first second : Char} (less : first < second)
    (firstRest secondRest : List UInt8) :
    String.utf8EncodeChar first ++ firstRest < String.utf8EncodeChar second ++ secondRest := by
  have order : first.val.toNat < second.val.toNat := less
  have bound : second.val.toNat < 0x110000 := by
    have valid : second.val.toNat.isValidChar := second.valid
    rcases valid with low | high <;> omega
  unfold String.utf8EncodeChar
  generalize first.val.toNat = a at order ⊢
  generalize second.val.toNat = b at order bound ⊢
  -- The bytes behind the first are digits to the base 64, and the highest that differs decides.
  have low : a / 64 < b / 64 ∨ a / 64 = b / 64 ∧ a % 64 < b % 64 := by omega
  have middle : a / 64 < b / 64 →
      a / 4096 < b / 4096 ∨ a / 4096 = b / 4096 ∧ a / 64 % 64 < b / 64 % 64 := by omega
  have high : a / 4096 < b / 4096 →
      a / 262144 < b / 262144 ∨ a / 262144 = b / 262144 ∧ a / 4096 % 64 < b / 4096 % 64 := by
    omega
  have top : a / 262144 % 8 = a / 262144 ∧ b / 262144 % 8 = b / 262144 := by omega
  dsimp only
  split_ifs <;>
    simp only [List.cons_append, List.nil_append, List.cons_lt_cons_iff] <;>
    simp (disch := omega) only [uint8_ofNat_lt_iff, uint8_ofNat_eq_iff] <;>
    omega

theorem flatMap_utf8EncodeChar_lt {first second : List Char} (less : first < second) :
    first.flatMap String.utf8EncodeChar < second.flatMap String.utf8EncodeChar := by
  induction first generalizing second with
  | nil =>
      cases second with
      | nil => exact absurd less (List.not_lt_nil _)
      | cons char second =>
          rcases List.exists_cons_of_ne_nil (String.utf8EncodeChar_ne_nil (c := char)) with
            ⟨byte, bytes, encoded⟩
          rw [List.flatMap_nil, List.flatMap_cons, encoded, List.cons_append]
          exact List.nil_lt_cons _ _
  | cons char first ih =>
      cases second with
      | nil => exact absurd less (List.not_lt_nil _)
      | cons other second =>
          rw [List.flatMap_cons, List.flatMap_cons]
          rcases List.cons_lt_cons_iff.mp less with smaller | ⟨rfl, rest⟩
          · exact utf8EncodeChar_append_lt smaller _ _
          · exact List.append_left_lt (ih rest)

/-- A text that comes first by its characters comes first by its bytes. -/
theorem utf8Bytes_lt {first second : String} (less : first < second) :
    utf8Bytes first < utf8Bytes second := by
  rw [utf8Bytes_eq_flatMap, utf8Bytes_eq_flatMap]
  exact flatMap_utf8EncodeChar_lt (String.lt_iff.mp less)

namespace Entity

/-! ## Sorted paths -/

/-- Every field has its path among the paths. -/
theorem paths_perm (entity : Entity) : entity.paths.Perm (entity.fields.map Field.path) :=
  List.mergeSort_perm _ _

theorem pairwise_le_paths (entity : Entity) : entity.paths.Pairwise (· ≤ ·) := by
  have sorted : entity.paths.Pairwise fun first second => decide (first ≤ second) = true := by
    apply List.pairwise_mergeSort
    · intro first second third below above
      simp only [decide_eq_true_eq] at below above ⊢
      exact below.trans above
    · intro first second
      simpa using le_total first second
  exact sorted.imp of_decide_eq_true

theorem nodup_paths {entity : Entity} (valid : entity.validate = .ok ()) : entity.paths.Nodup :=
  entity.paths_perm.nodup_iff.mpr ((validate_eq_ok_iff entity).mp valid).2.1

theorem pairwise_utf8Bytes_paths {entity : Entity} (valid : entity.validate = .ok ()) :
    entity.paths.Pairwise fun first second => utf8Bytes first < utf8Bytes second := by
  apply (entity.pairwise_le_paths.and (nodup_paths valid)).imp
  intro first second order
  exact utf8Bytes_lt (lt_of_le_of_ne order.1 order.2)

theorem idPath_mem_paths {entity : Entity} (valid : entity.validate = .ok ()) :
    Field.idPath ∈ entity.paths := by
  have identified : 0 < entity.fields.countP Field.id := by
    rw [((validate_eq_ok_iff entity).mp valid).2.2]
    exact Nat.one_pos
  rcases List.countP_pos_iff.mp identified with ⟨field, member, isId⟩
  rw [entity.paths_perm.mem_iff, List.mem_map]
  exact ⟨field, member, if_pos isId⟩

/-! ## The order of the fields -/

variable {entity : Entity} {fields : List Field}

theorem validate_permuted (permuted : fields.Perm entity.fields)
    (valid : entity.validate = .ok ()) : validate { entity with fields } = .ok () := by
  rw [validate_eq_ok_iff] at valid ⊢
  have names := (permuted.map Field.name).nodup_iff
  have paths := (permuted.map Field.path).nodup_iff
  exact ⟨names.mpr valid.1, paths.mpr valid.2.1, (permuted.countP_eq _).trans valid.2.2⟩

theorem field?_permuted (permuted : fields.Perm entity.fields) (valid : entity.validate = .ok ())
    (name : String) : field? { entity with fields } name = entity.field? name := by
  apply Option.ext
  intro field
  rw [field?_eq_some_iff (validate_permuted permuted valid), field?_eq_some_iff valid,
    permuted.mem_iff]

theorem paths_permuted (permuted : fields.Perm entity.fields) :
    paths { entity with fields } = entity.paths := by
  apply List.Perm.eq_of_pairwise (fun _ _ _ _ => le_antisymm) (pairwise_le_paths _)
    (pairwise_le_paths _)
  exact (paths_perm _).trans ((permuted.map Field.path).trans (paths_perm _).symm)

end Entity

end DocumentQuery
