import DocumentQuery.Proofs.Filter.Idempotence

/-!
# The list of guards

The guards around a conjunction or a negation are those of the sensitive paths below it, in the
order in which they first occur and whatever the nesting.  A conjunction is spared the guards that
it holds itself.
-/

namespace DocumentQuery.Filter

/-- The paths that a logical operation is guarded for: its sensitive paths from left to right,
each where it first occurs, without those for which a conjunction holds a guard itself. -/
def guardedPaths (operator : Logical) (operands : List Filter) : List String :=
  (logical operator operands).sensitivePaths.eraseDups.filter fun path =>
    !(operator == .and && operands.any (isGuardOf path))

theorem unguardedPaths_eq_guardedPaths (operator : Logical) (operands : List Filter) :
    unguardedPaths operator operands = guardedPaths operator operands := by
  unfold unguardedPaths guardedPaths
  rw [addSensitiveAll_nil operator]
  cases operator with
  | and => rfl
  | or | nor => exact (List.filter_eq_self.mpr fun _ _ => rfl).symm

theorem mem_guardedPaths_iff (operator : Logical) (operands : List Filter) (path : String) :
    path ∈ guardedPaths operator operands ↔
      path ∈ (logical operator operands).sensitivePaths ∧
        ¬ (operator = .and ∧ field path false .notNull ∈ operands) := by
  rw [guardedPaths, List.mem_filter, List.mem_eraseDups, Bool.not_eq_true', ← Bool.not_eq_true,
    Bool.and_eq_true, beq_iff_eq, any_isGuardOf_iff]
  rfl

/-- A conjunction or a negation is left alone if there is nothing to guard.  Otherwise it is
joined, as it is, with one guard for each of its sensitive paths that has none yet, in the order
in which they first occur. -/
theorem enforceNullSafety_eq_guardedPaths {operator : Logical} (notOr : operator ≠ .or)
    (operands : List Filter) :
    (logical operator operands).enforceNullSafety =
      (if guardedPaths operator operands = [] then logical operator operands
        else logical .and (logical operator operands ::
          (guardedPaths operator operands).map fun path => field path false .notNull)) ∧
    (guardedPaths operator operands).Nodup ∧
    ∀ path, path ∈ guardedPaths operator operands ↔
      path ∈ (logical operator operands).sensitivePaths ∧
        ¬ (operator = .and ∧ field path false .notNull ∈ operands) := by
  refine ⟨?_, (nodup_eraseDups _).filter _, mem_guardedPaths_iff operator operands⟩
  rw [enforceNullSafety_logical notOr, unguardedPaths_eq_guardedPaths, withGuards]
  by_cases nothing : guardedPaths operator operands = []
  · rw [if_pos (List.isEmpty_iff.mpr nothing), if_pos nothing]
  · rw [if_neg (mt List.isEmpty_iff.mp nothing), if_neg nothing]
    rfl

/-- The operands of `(year >= 1950 or price > 5) and not (title = "Emma" or price < 9) and
year is not null and stock > 0`, where the year, the price and the title may be null. -/
def reprints : List Filter :=
  [.logical .or
      [.field "year" true (.compare .greaterOrEqual (.int 1950)),
        .field "price" true (.compare .greater (.int 5))],
    .logical .nor
      [.logical .or
        [.field "title" true (.compare .equal (.string "Emma")),
          .field "price" true (.compare .less (.int 9))]],
    .guard "year", .field "stock" false (.compare .greater (.int 0))]

/-- The price is guarded once and before the title, and the year not again. -/
theorem enforceNullSafety_reprints :
    Logical.and ≠ .or ∧
      (logical .and reprints).sensitivePaths = ["year", "price", "title", "price"] ∧
      (logical .and reprints).enforceNullSafety =
        logical .and [logical .and reprints, guard "price", guard "title"] := by
  have notOr : Logical.and ≠ .or := by decide
  have paths : guardedPaths .and reprints = ["price", "title"] := by decide
  have guarded := (enforceNullSafety_eq_guardedPaths notOr reprints).1
  rw [paths] at guarded
  exact ⟨notOr, rfl, guarded⟩

end DocumentQuery.Filter
