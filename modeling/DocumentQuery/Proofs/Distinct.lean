import Mathlib.Data.List.Induction

/-!
# Lists without repetition

`List.eraseDups` keeps every element where it first occurs.  A list that is collected from the
left, one element at a time and only if it is new, comes to the same.
-/

namespace DocumentQuery

variable {α : Type} [BEq α] [LawfulBEq α]

/-- A further element is kept if it is new. -/
theorem eraseDups_append_singleton (earlier : List α) (last : α) :
    (earlier ++ [last]).eraseDups =
      if last ∈ earlier.eraseDups then earlier.eraseDups else earlier.eraseDups ++ [last] := by
  rw [List.eraseDups_append]
  by_cases occurred : last ∈ earlier
  · simp [List.removeAll, occurred]
  · simp [List.removeAll, occurred, List.eraseDups_cons]

theorem nodup_eraseDups (list : List α) : list.eraseDups.Nodup := by
  induction list using List.reverseRecOn with
  | nil => simp
  | append_singleton earlier last ih =>
      rw [eraseDups_append_singleton]
      split
      next => exact ih
      next new => exact List.nodup_append.mpr ⟨ih, by simp, by grind⟩

theorem eraseDups_of_nodup {list : List α} (distinct : list.Nodup) : list.eraseDups = list := by
  induction list using List.reverseRecOn with
  | nil => simp
  | append_singleton earlier last ih =>
      have parts := List.nodup_append.mp distinct
      have new : last ∉ earlier := fun member => parts.2.2 last member last (by simp) rfl
      rw [eraseDups_append_singleton, ih parts.1, if_neg new]

end DocumentQuery
