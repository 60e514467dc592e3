import DocumentQuery.Proofs.Filter.NullSafety
import Mathlib.Logic.Function.Iterate

/-!
# Enforcing null safety again

The guards around a conjunction or a negation are there to be found when null safety is
enforced again, so that nothing is added a second time.  But guards are looked for among
the operands of the outermost conjunction only.  A conjunction with guards of its own for
some of its sensitive paths is wrapped in guards for the others, and then its own guards
are out of sight.  Such conjunctions, as alternatives of a filter, are the only ones that
keep growing.  What the filter accepts does not change after the first time.
-/

namespace DocumentQuery.Filter

/-! ## Guards around a filter -/

theorem withGuards_eq_self_iff (filter : Filter) (paths : List String) :
    filter.withGuards paths = filter ↔ paths = [] := by
  unfold withGuards
  split
  next empty => simpa using empty
  next nonempty =>
    refine iff_of_false ?_ (by simpa using nonempty)
    -- A filter is larger than its operands.
    intro same
    have size := congrArg sizeOf same
    simp only [logical.sizeOf_spec, List.cons.sizeOf_spec] at size
    omega

theorem any_isGuardOf_iff (operands : List Filter) (path : String) :
    operands.any (isGuardOf path) = true ↔ guard path ∈ operands := by
  rw [List.any_eq_true]
  constructor
  · intro found
    rcases found with ⟨operand, member, isGuard⟩
    exact eq_guard_of_isGuardOf isGuard ▸ member
  · intro member
    exact ⟨guard path, member, by simp⟩

/-- Guards add no sensitive paths. -/
theorem mem_sensitivePaths_guarded (filter : Filter) (paths : List String) (path : String) :
    path ∈ (logical .and (filter :: paths.map guard)).sensitivePaths ↔
      path ∈ filter.sensitivePaths := by
  simp only [mem_sensitivePaths_logical, List.mem_cons, exists_eq_or_imp]
  apply or_iff_left
  intro found
  rcases found with ⟨operand, member, sensitive⟩
  rcases List.mem_map.mp member with ⟨guarded, _, rfl⟩
  cases sensitive

theorem mem_sensitivePaths_withGuards (filter : Filter) (paths : List String) (path : String) :
    path ∈ (filter.withGuards paths).sensitivePaths ↔ path ∈ filter.sensitivePaths := by
  unfold withGuards
  split
  next => rfl
  next => exact mem_sensitivePaths_guarded filter paths path

/-- A sensitive path of a conjunction is guarded unless an operand does so. -/
theorem mem_unguardedPaths_and_iff (operands : List Filter) (path : String) :
    path ∈ unguardedPaths .and operands ↔
      path ∈ (logical .and operands).sensitivePaths ∧ guard path ∉ operands := by
  rw [← mem_addSensitiveAll_nil_iff, ← any_isGuardOf_iff, unguardedPaths, List.mem_filter]
  simp

theorem guard_mem_guarded_iff (operator : Logical) (operands : List Filter)
    (paths : List String) (path : String) :
    guard path ∈ logical operator operands :: paths.map guard ↔ path ∈ paths := by
  simp [guard]

/-- Guards around a logical operation are enough if they cover its sensitive paths.  What
guards it holds inside does not count. -/
theorem unguardedPaths_guarded_eq_nil_iff (operator : Logical) (operands : List Filter)
    (paths : List String) :
    unguardedPaths .and (logical operator operands :: paths.map guard) = [] ↔
      ∀ path ∈ (logical operator operands).sensitivePaths, path ∈ paths := by
  simp only [List.eq_nil_iff_forall_not_mem, mem_unguardedPaths_and_iff,
    mem_sensitivePaths_guarded, guard_mem_guarded_iff, not_and, Decidable.not_not]

/-! ## The second time -/

theorem enforceNullSafety_logical {operator : Logical} (notOr : operator ≠ .or)
    (operands : List Filter) :
    (logical operator operands).enforceNullSafety =
      (logical operator operands).withGuards (unguardedPaths operator operands) := by
  cases operator with
  | or => exact absurd rfl notOr
  | and | nor => rfl

theorem enforceNullSafety_logical_of_ne_nil {operator : Logical} (notOr : operator ≠ .or)
    {operands : List Filter} (unguarded : unguardedPaths operator operands ≠ []) :
    (logical operator operands).enforceNullSafety =
      logical .and (logical operator operands ::
        (unguardedPaths operator operands).map guard) := by
  rw [enforceNullSafety_logical notOr, withGuards, if_neg (by simpa using unguarded)]

/-- A conjunction or negation is left alone the second time if there was nothing to
guard, or if all its sensitive paths were guarded the first time. -/
theorem enforceNullSafety_twice_logical_iff {operator : Logical} (notOr : operator ≠ .or)
    (operands : List Filter) :
    (logical operator operands).enforceNullSafety.enforceNullSafety =
        (logical operator operands).enforceNullSafety ↔
      unguardedPaths operator operands = [] ∨
        ∀ path ∈ (logical operator operands).sensitivePaths,
          path ∈ unguardedPaths operator operands := by
  by_cases settled : unguardedPaths operator operands = []
  · have once := enforceNullSafety_logical notOr operands
    have same := (withGuards_eq_self_iff (logical operator operands) _).mpr settled
    rw [once, same, once, same]
    exact iff_of_true rfl (Or.inl settled)
  · rw [enforceNullSafety_logical_of_ne_nil notOr settled,
      enforceNullSafety_logical (by decide), withGuards_eq_self_iff,
      unguardedPaths_guarded_eq_nil_iff]
    exact (or_iff_right settled).symm

/-- Whether a filter is a conjunction with guards of its own for some of its sensitive
paths and not for all of them. -/
def IsHalfGuarded : Filter → Prop
  | logical .and operands =>
      (∃ path ∈ (logical .and operands).sensitivePaths, guard path ∈ operands) ∧
        ∃ path ∈ (logical .and operands).sensitivePaths, guard path ∉ operands
  | _ => False

theorem enforceNullSafety_twice_and_iff (operands : List Filter) :
    (logical .and operands).enforceNullSafety.enforceNullSafety =
        (logical .and operands).enforceNullSafety ↔
      ¬ (logical .and operands).IsHalfGuarded := by
  rw [enforceNullSafety_twice_logical_iff (by decide), List.eq_nil_iff_forall_not_mem]
  simp only [mem_unguardedPaths_and_iff, IsHalfGuarded]
  constructor
  · intro leftAlone halfGuarded
    rcases halfGuarded with ⟨⟨held, heldSensitive, present⟩, free, freeSensitive, absent⟩
    cases leftAlone with
    | inl nothing => exact nothing free ⟨freeSensitive, absent⟩
    | inr all => exact (all held heldSensitive).2 present
  · intro whole
    by_cases own : ∃ path ∈ (logical .and operands).sensitivePaths, guard path ∈ operands
    · left
      intro path unguarded
      exact whole ⟨own, path, unguarded.1, unguarded.2⟩
    · right
      intro path sensitive
      exact ⟨sensitive, fun present => own ⟨path, sensitive, present⟩⟩

theorem enforceNullSafety_twice_nor (operands : List Filter) :
    (logical .nor operands).enforceNullSafety.enforceNullSafety =
      (logical .nor operands).enforceNullSafety := by
  rw [enforceNullSafety_twice_logical_iff (by decide)]
  right
  intro path sensitive
  exact (mem_addSensitiveAll_nil_iff .nor operands path).mpr sensitive

theorem enforceNullSafety_twice_field (path : String) (sensitive : Bool)
    (condition : Condition) :
    (field path sensitive condition).enforceNullSafety.enforceNullSafety =
      (field path sensitive condition).enforceNullSafety := by
  cases sensitive with
  | false => rfl
  | true =>
      change (logical .and [field path true condition, guard path]).enforceNullSafety = _
      simp [enforceNullSafety, withGuards, unguardedPaths, addSensitiveAll, addSensitive,
        addPath, guard, isGuardOf]

/-! ## Growing without end -/

/-- A conjunction that was half guarded is so again with its new guards, which are the
ones that it lacked, while those that it had are now inside. -/
theorem isHalfGuarded_enforceNullSafety {filter : Filter} (halfGuarded : filter.IsHalfGuarded) :
    filter.enforceNullSafety.IsHalfGuarded ∧ filter.enforceNullSafety ≠ filter := by
  cases filter with
  | field path sensitive condition => exact halfGuarded.elim
  | logical operator operands =>
      cases operator with
      | or | nor => exact halfGuarded.elim
      | and =>
          rcases halfGuarded with ⟨⟨held, heldSensitive, present⟩, free, freeSensitive, absent⟩
          have lacking : free ∈ unguardedPaths .and operands :=
            (mem_unguardedPaths_and_iff operands free).mpr ⟨freeSensitive, absent⟩
          have notLacking : held ∉ unguardedPaths .and operands := fun unguarded =>
            ((mem_unguardedPaths_and_iff operands held).mp unguarded).2 present
          have unguarded := List.ne_nil_of_mem lacking
          constructor
          · rw [enforceNullSafety_logical_of_ne_nil (by decide) unguarded]
            simp only [IsHalfGuarded, mem_sensitivePaths_guarded, guard_mem_guarded_iff]
            exact ⟨⟨free, freeSensitive, lacking⟩, held, heldSensitive, notLacking⟩
          · rw [enforceNullSafety_logical (by decide), Ne, withGuards_eq_self_iff]
            exact unguarded

/-- A half guarded conjunction grows each time null safety is enforced. -/
theorem iterate_enforceNullSafety_ne {filter : Filter} (halfGuarded : filter.IsHalfGuarded)
    (times : Nat) :
    enforceNullSafety^[times + 1] filter ≠ enforceNullSafety^[times] filter := by
  have still : (enforceNullSafety^[times] filter).IsHalfGuarded := by
    induction times with
    | zero => exact halfGuarded
    | succ times ih =>
        rw [Function.iterate_succ_apply']
        exact (isHalfGuarded_enforceNullSafety ih).1
  rw [Function.iterate_succ_apply']
  exact (isHalfGuarded_enforceNullSafety still).2

/-! ## What is accepted the second time -/

theorem branches_withGuards {filter : Filter} (single : filter.branches = [filter])
    (paths : List String) :
    (filter.withGuards paths).branches = [filter.withGuards paths] := by
  unfold withGuards
  split
  next => exact single
  next => rfl

/-- With its guards, a filter that is no disjunction leaves no sensitive field null, so
that further guards change nothing. -/
theorem accepts_enforceNullSafety_twice_of_withGuards {filter : Filter} {paths : List String}
    (single : filter.branches = [filter])
    (once : filter.enforceNullSafety = filter.withGuards paths)
    (verdict : String → Condition → Bool) :
    filter.enforceNullSafety.enforceNullSafety.accepts verdict =
      filter.enforceNullSafety.accepts verdict := by
  have accepted := @accepts_enforceNullSafety_iff verdict filter
  have again := @accepts_enforceNullSafety_iff verdict filter.enforceNullSafety
  rw [single] at accepted
  rw [once, branches_withGuards single] at again
  simp only [List.mem_singleton, exists_eq_left, mem_sensitivePaths_withGuards]
    at accepted again
  rw [Bool.eq_iff_iff, once, again, ← once]
  exact and_iff_left_of_imp fun holds => (accepted.mp holds).2

theorem accepts_enforceNullSafety_twice (filter : Filter)
    (verdict : String → Condition → Bool) :
    filter.enforceNullSafety.enforceNullSafety.accepts verdict =
      filter.enforceNullSafety.accepts verdict := by
  induction filter using inductionOn with
  | field path sensitive condition =>
      exact accepts_enforceNullSafety_twice_of_withGuards rfl rfl verdict
  | logical operator operands ih =>
      cases operator with
      | and | nor => exact accepts_enforceNullSafety_twice_of_withGuards rfl rfl verdict
      | or =>
          simp only [enforceNullSafety, enforceNullSafetyAll_eq_map, accepts,
            acceptsEach_eq_map, List.map_map]
          congr 1
          exact List.map_congr_left ih

/-- A filter with its guards is left alone when null safety is enforced again exactly if
none of its alternatives is half guarded.  In any case it goes on to accept the same
documents. -/
theorem enforceNullSafety_idempotent_iff (filter : Filter) :
    (filter.enforceNullSafety.enforceNullSafety = filter.enforceNullSafety ↔
      ∀ branch ∈ filter.branches, ¬ branch.IsHalfGuarded) ∧
    ∀ verdict, filter.enforceNullSafety.enforceNullSafety.accepts verdict =
      filter.enforceNullSafety.accepts verdict := by
  refine ⟨?_, accepts_enforceNullSafety_twice filter⟩
  induction filter using inductionOn with
  | field path sensitive condition =>
      refine iff_of_true (enforceNullSafety_twice_field path sensitive condition) ?_
      simp [branches, IsHalfGuarded]
  | logical operator operands ih =>
      cases operator with
      | and =>
          rw [enforceNullSafety_twice_and_iff]
          simp [branches]
      | nor =>
          refine iff_of_true (enforceNullSafety_twice_nor operands) ?_
          simp [branches, IsHalfGuarded]
      | or =>
          simp only [enforceNullSafety, enforceNullSafetyAll_eq_map, logical.injEq, true_and,
            List.map_map, List.map_inj_left, branches, branchesOfAll_eq_flatMap,
            List.forall_mem_flatMap]
          exact forall₂_congr ih

/-- The conjunction of `price > 5`, `year >= 1950` and `price is not null`, where the
price and the year may be null. -/
def pricedAndDated : Filter :=
  .logical .and
    [.field "price" true (.compare .greater (.int 5)),
      .field "year" true (.compare .greaterOrEqual (.int 1950)), .guard "price"]

/-- The first time adds a guard for the year, and the second time one for the price. -/
theorem enforceNullSafety_twice_pricedAndDated :
    pricedAndDated.enforceNullSafety = .logical .and [pricedAndDated, .guard "year"] ∧
      pricedAndDated.enforceNullSafety.enforceNullSafety =
        .logical .and [pricedAndDated.enforceNullSafety, .guard "price"] ∧
      pricedAndDated.enforceNullSafety.enforceNullSafety ≠
        pricedAndDated.enforceNullSafety := by
  refine ⟨rfl, rfl, ?_⟩
  intro same
  cases same

end DocumentQuery.Filter
