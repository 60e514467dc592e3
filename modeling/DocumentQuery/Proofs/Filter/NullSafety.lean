import DocumentQuery.Filter.NullSafety
import DocumentQuery.Proofs.Distinct
import DocumentQuery.Proofs.Filter.Meaning

/-!
# What null safety guarantees

Enforcing null safety changes what a filter accepts in one way only: an alternative
counts when it is accepted and none of its sensitive fields is null.  All results on
null safety follow from that statement, `accepts_enforceNullSafety_iff`, which holds
for any verdicts on the conditions.
-/

namespace DocumentQuery

/-- Whether a condition compares a field with an operand. -/
def Condition.isComparison : Condition → Bool
  | compare _ _ => true
  | isNull | notNull => false

/-- Whether a condition compares a field with null. -/
def Condition.comparesWithNull : Condition → Bool
  | compare _ operand => operand.isNull
  | isNull | notNull => false

namespace Filter

/-! ## Sensitive paths -/

/-- The paths of the sensitive conditions of a filter, from left to right. -/
def sensitivePaths (filter : Filter) : List String :=
  (filter.conditions.filter FieldCondition.sensitive).map FieldCondition.path

theorem mem_sensitivePaths_iff (filter : Filter) (path : String) :
    path ∈ filter.sensitivePaths ↔
      ∃ found ∈ filter.conditions, found.sensitive = true ∧ found.path = path := by
  simp only [sensitivePaths, List.mem_map, List.mem_filter, and_assoc]

/-- The sensitive paths of a logical operation are those of its operands. -/
theorem sensitivePaths_logical (operator : Logical) (operands : List Filter) :
    (logical operator operands).sensitivePaths = operands.flatMap sensitivePaths := by
  simp only [sensitivePaths, conditions, conditionsOfAll_eq_flatMap, List.filter_flatMap,
    List.map_flatMap]
  rfl

theorem mem_sensitivePaths_logical (operator : Logical) (operands : List Filter)
    (path : String) :
    path ∈ (logical operator operands).sensitivePaths ↔
      ∃ operand ∈ operands, path ∈ operand.sensitivePaths := by
  rw [sensitivePaths_logical, List.mem_flatMap]

/-! ## Collected paths

The traversal of a filter carries what it has found so far.  The sensitive paths come out
as if all of them were listed from left to right and each was kept where it first
occurs. -/

theorem addPath_eraseDups (paths : List String) (path : String) :
    addPath paths.eraseDups path = (paths ++ [path]).eraseDups := by
  rw [eraseDups_append_singleton]
  rfl

theorem addSensitiveAll_eraseDups_of_each {filters : List Filter}
    (each : ∀ filter ∈ filters, ∀ paths : List String,
      addSensitive paths.eraseDups filter = (paths ++ filter.sensitivePaths).eraseDups)
    (paths : List String) :
    addSensitiveAll paths.eraseDups filters =
      (paths ++ filters.flatMap sensitivePaths).eraseDups := by
  induction filters generalizing paths with
  | nil => simp [addSensitiveAll]
  | cons filter filters ih =>
      have first := each filter List.mem_cons_self paths
      have others := ih (fun other member => each other (List.mem_cons_of_mem _ member))
        (paths ++ filter.sensitivePaths)
      rw [addSensitiveAll, first, others, List.append_assoc, List.flatMap_cons]

/-- Whatever was found before a filter, the traversal goes on with the sensitive paths of the
filter from left to right. -/
theorem addSensitive_eraseDups (filter : Filter) (paths : List String) :
    addSensitive paths.eraseDups filter = (paths ++ filter.sensitivePaths).eraseDups := by
  induction filter using inductionOn generalizing paths with
  | field path sensitive condition =>
      cases sensitive with
      | false => simp [addSensitive, sensitivePaths, conditions]
      | true => exact addPath_eraseDups paths path
  | logical operator operands ih =>
      rw [addSensitive, sensitivePaths_logical]
      exact addSensitiveAll_eraseDups_of_each (fun operand member paths => ih operand member paths)
        paths

theorem addSensitiveAll_nil (operator : Logical) (operands : List Filter) :
    addSensitiveAll [] operands = (logical operator operands).sensitivePaths.eraseDups := by
  have collected := addSensitiveAll_eraseDups_of_each
    (fun filter (_ : filter ∈ operands) paths => addSensitive_eraseDups filter paths) []
  rw [sensitivePaths_logical]
  exact collected

theorem mem_addSensitiveAll_nil_iff (operator : Logical) (operands : List Filter)
    (path : String) :
    path ∈ addSensitiveAll [] operands ↔ path ∈ (logical operator operands).sensitivePaths := by
  rw [addSensitiveAll_nil operator, List.mem_eraseDups]

/-! ## Guards -/

variable {verdict : String → Condition → Bool}

theorem eq_guard_of_isGuardOf {path : String} {filter : Filter}
    (isGuard : filter.isGuardOf path = true) : filter = guard path := by
  unfold isGuardOf at isGuard
  split at isGuard
  next other =>
    rw [eq_of_beq isGuard]
    rfl
  next => cases isGuard

/-- Guards add the condition that their fields are not null. -/
theorem accepts_withGuards_iff (filter : Filter) (paths : List String) :
    (filter.withGuards paths).accepts verdict = true ↔
      filter.accepts verdict = true ∧ ∀ path ∈ paths, verdict path .notNull = true := by
  unfold withGuards
  split
  next empty =>
    rw [List.isEmpty_iff] at empty
    simp [empty]
  next => simp [accepts, Logical.verdict, guard]

/-- A path is left without a guard only by a conjunction that holds its guard. -/
theorem mem_unguardedPaths_or_guard {operator : Logical} {operands : List Filter}
    {path : String} (sensitive : path ∈ (logical operator operands).sensitivePaths) :
    path ∈ unguardedPaths operator operands ∨ (operator = .and ∧ guard path ∈ operands) := by
  have collected := (mem_addSensitiveAll_nil_iff operator operands path).mpr sensitive
  cases operator with
  | or | nor => exact Or.inl collected
  | and =>
      by_cases held : operands.any (isGuardOf path) = true
      · rcases List.any_eq_true.mp held with ⟨operand, member, isGuard⟩
        exact Or.inr ⟨rfl, eq_guard_of_isGuardOf isGuard ▸ member⟩
      · exact Or.inl (List.mem_filter.mpr ⟨collected, by simpa using held⟩)

theorem mem_sensitivePaths_of_mem_unguardedPaths {operator : Logical}
    {operands : List Filter} {path : String}
    (unguarded : path ∈ unguardedPaths operator operands) :
    path ∈ (logical operator operands).sensitivePaths := by
  rw [← mem_addSensitiveAll_nil_iff]
  cases operator with
  | or | nor => exact unguarded
  | and => exact (List.mem_filter.mp unguarded).1

/-- Around an accepted operation, the guards amount to the condition that no
sensitive field below it is null. -/
theorem accepts_withGuards_unguardedPaths_iff (operator : Logical) (operands : List Filter) :
    ((logical operator operands).withGuards (unguardedPaths operator operands)).accepts
        verdict = true ↔
      (logical operator operands).accepts verdict = true ∧
        ∀ path ∈ (logical operator operands).sensitivePaths, verdict path .notNull = true := by
  rw [accepts_withGuards_iff]
  refine and_congr_right fun accepted => ?_
  constructor
  · intro guarded path sensitive
    rcases mem_unguardedPaths_or_guard sensitive with unguarded | ⟨isAnd, held⟩
    · exact guarded path unguarded
    · subst isAnd
      simp only [accepts, Logical.verdict, acceptsEach_eq_map, List.all_map,
        List.all_eq_true] at accepted
      exact accepted (guard path) held
  · intro nonNull path unguarded
    exact nonNull path (mem_sensitivePaths_of_mem_unguardedPaths unguarded)

/-- A guarded filter accepts what one of its alternatives accepts without a null at a
sensitive path of that alternative. -/
theorem accepts_enforceNullSafety_iff (filter : Filter) :
    filter.enforceNullSafety.accepts verdict = true ↔
      ∃ branch ∈ filter.branches, branch.accepts verdict = true ∧
        ∀ path ∈ branch.sensitivePaths, verdict path .notNull = true := by
  induction filter using inductionOn with
  | field path sensitive condition =>
      rw [enforceNullSafety, accepts_withGuards_iff]
      cases sensitive <;> simp [branches, sensitivePaths, conditions]
  | logical operator operands ih =>
      cases operator with
      | and | nor =>
          simp only [branches, List.mem_singleton, exists_eq_left]
          exact accepts_withGuards_unguardedPaths_iff _ operands
      | or =>
          rw [exists_mem_branches_or]
          simp only [enforceNullSafety, enforceNullSafetyAll_eq_map, accepts, Logical.verdict,
            acceptsEach_eq_map, List.map_map, List.any_map, List.any_eq_true]
          exact exists_congr fun operand => and_congr_right fun member => ih operand member

end Filter

/-! ## Soundness -/

/-- On a value that is there, the store and ternary logic decide alike. -/
theorem Store.truth_eq_ofBool_verdict (store : Store) (document : Document) (path : String)
    (condition : Condition) (operand : condition.comparesWithNull = false)
    (present : condition.isComparison = true → document.isNull path = false) :
    store.truth document path condition = .ofBool (store.verdict document path condition) := by
  cases condition with
  | isNull | notNull => rfl
  | compare operator value =>
      have known : value.nonNull? = some value := by
        simpa [Value.nonNull?, Condition.comparesWithNull] using operand
      rcases (document.isNull_eq_false_iff path).mp (present rfl) with ⟨found, fieldValue⟩
      simp only [truth, verdict, ternary, known, fieldValue]

namespace Filter

variable (store : Store) (document : Document)

variable {document} in
/-- A filter compares only fields with values if its sensitive fields have values and
the others do too. -/
theorem nonNull_of_isComparison {filter : Filter}
    (required : ∀ found ∈ filter.conditions, found.sensitive = false →
      found.condition.isComparison = true → document.isNull found.path = false)
    (nonNull : ∀ path ∈ filter.sensitivePaths, document.isNull path = false)
    {found : FieldCondition} (member : found ∈ filter.conditions)
    (isComparison : found.condition.isComparison = true) :
    document.isNull found.path = false := by
  cases sensitive : found.sensitive with
  | false => exact required found member sensitive isComparison
  | true =>
      apply nonNull
      exact (mem_sensitivePaths_iff filter found.path).mpr ⟨found, member, sensitive, rfl⟩

/-- Where no comparison of a filter meets a null, the store and ternary logic agree on
the filter. -/
theorem truth_eq_ofBool_accepts_of_nonNull (filter : Filter)
    (operands : ∀ found ∈ filter.conditions, found.condition.comparesWithNull = false)
    (required : ∀ found ∈ filter.conditions, found.sensitive = false →
      found.condition.isComparison = true → document.isNull found.path = false)
    (nonNull : ∀ path ∈ filter.sensitivePaths, document.isNull path = false) :
    filter.truth (store.truth document) = .ofBool (filter.accepts (store.verdict document)) := by
  apply truth_eq_ofBool_accepts
  intro found member
  apply store.truth_eq_ofBool_verdict document _ _ (operands found member)
  exact nonNull_of_isComparison required nonNull member

/-- Where no comparison is with null and every field without a guard has a value, a
guarded filter accepts what makes one of its alternatives true and leaves no sensitive
field of that alternative null. -/
theorem accepts_enforceNullSafety_iff_truth (filter : Filter)
    (operands : ∀ found ∈ filter.conditions, found.condition.comparesWithNull = false)
    (required : ∀ found ∈ filter.conditions, found.sensitive = false →
      found.condition.isComparison = true → document.isNull found.path = false) :
    filter.enforceNullSafety.accepts (store.verdict document) = true ↔
      ∃ branch ∈ filter.branches, branch.truth (store.truth document) = .yes ∧
        ∀ path ∈ branch.sensitivePaths, document.isNull path = false := by
  rw [accepts_enforceNullSafety_iff]
  refine exists_congr fun branch => and_congr_right fun member => ?_
  have agreement := truth_eq_ofBool_accepts_of_nonNull store document branch
    (fun found membership => operands found (mem_conditions_of_mem_branches member membership))
    (fun found membership => required found (mem_conditions_of_mem_branches member membership))
  simp only [Store.verdict_notNull, Bool.not_eq_true']
  refine and_congr_left fun nonNull => ?_
  rw [agreement nonNull, Ternary.ofBool_eq_yes_iff]

/-- A guarded filter accepts only documents for which the condition of the query is
true, provided that no comparison is with null and that every field without a guard has
a value. -/
theorem truth_eq_yes_of_accepts_enforceNullSafety (filter : Filter)
    (operands : ∀ found ∈ filter.conditions, found.condition.comparesWithNull = false)
    (required : ∀ found ∈ filter.conditions, found.sensitive = false →
      found.condition.isComparison = true → document.isNull found.path = false)
    (accepted : filter.enforceNullSafety.accepts (store.verdict document) = true) :
    filter.truth (store.truth document) = .yes := by
  rw [accepts_enforceNullSafety_iff_truth store document filter operands required] at accepted
  rcases accepted with ⟨branch, member, holds, nonNull⟩
  rw [truth_eq_yes_iff_branches]
  exact ⟨branch, member, holds⟩

/-- Three alternatives: one with a guard of its own, a negated disjunction over a field
with and a field without a guard, and a negation of the latter alone. -/
def offered : Filter :=
  .logical .or
    [.logical .and [.field "price" true (.compare .greater (.int 5)), .guard "price"],
      .logical .nor [.logical .or
        [.field "stock" false (.compare .equal (.int 0)),
          .field "price" true (.compare .less (.int 1))]],
      .logical .nor [.field "stock" false (.compare .equal (.int 0))]]

/-- A store that calls every comparison with a null price true still answers right. -/
theorem truth_offered_of_accepts :
    offered.enforceNullSafety.accepts (OrderedStore.wholeNumbers.verdict
        (.ofFields [("price", .null), ("stock", .int 2)])) = true ∧
      offered.truth (OrderedStore.wholeNumbers.truth
        (.ofFields [("price", .null), ("stock", .int 2)])) = .yes :=
  ⟨by decide, truth_eq_yes_of_accepts_enforceNullSafety _ _ offered
    (by decide) (by decide) (by decide)⟩

/-! ## Conservativity -/

theorem mem_sensitivePaths_of_mem_branches {filter branch : Filter}
    (member : branch ∈ filter.branches) {path : String} (sensitive : path ∈ branch.sensitivePaths) :
    path ∈ filter.sensitivePaths := by
  rw [mem_sensitivePaths_iff] at sensitive ⊢
  rcases sensitive with ⟨found, membership, isSensitive⟩
  exact ⟨found, mem_conditions_of_mem_branches member membership, isSensitive⟩

variable {verdict : String → Condition → Bool}

theorem accepts_of_accepts_enforceNullSafety {filter : Filter}
    (accepted : filter.enforceNullSafety.accepts verdict = true) :
    filter.accepts verdict = true := by
  rw [accepts_enforceNullSafety_iff] at accepted
  rcases accepted with ⟨branch, member, holds, _⟩
  exact (accepts_iff_branches filter).mpr ⟨branch, member, holds⟩

theorem accepts_enforceNullSafety_of_nonNull {filter : Filter}
    (nonNull : ∀ path ∈ filter.sensitivePaths, verdict path .notNull = true)
    (accepted : filter.accepts verdict = true) :
    filter.enforceNullSafety.accepts verdict = true := by
  rw [accepts_iff_branches] at accepted
  rcases accepted with ⟨branch, member, holds⟩
  rw [accepts_enforceNullSafety_iff]
  refine ⟨branch, member, holds, ?_⟩
  intro path sensitive
  exact nonNull path (mem_sensitivePaths_of_mem_branches member sensitive)

/-- Guards never add a document, and they change nothing where no sensitive path is null.  With
them a document is refused exactly if each alternative that accepts it has a sensitive path that is
null.  This holds however the conditions are decided, as long as the guards are decided right. -/
theorem enforceNullSafety_conservative (filter : Filter) (document : Document)
    (verdict : String → Condition → Bool)
    (guards : ∀ path, verdict path .notNull = !document.isNull path) :
    (filter.enforceNullSafety.accepts verdict = true → filter.accepts verdict = true) ∧
    ((∀ path ∈ filter.sensitivePaths, document.isNull path = false) →
      (filter.enforceNullSafety.accepts verdict = true ↔ filter.accepts verdict = true)) ∧
    (filter.enforceNullSafety.accepts verdict = false ↔
      ∀ branch ∈ filter.branches, branch.accepts verdict = true →
        ∃ path ∈ branch.sensitivePaths, document.isNull path = true) ∧
    (filter.accepts verdict = true → filter.enforceNullSafety.accepts verdict = false →
      ∃ path ∈ filter.sensitivePaths, document.isNull path = true) := by
  have refusal : filter.enforceNullSafety.accepts verdict = false ↔
      ∀ branch ∈ filter.branches, branch.accepts verdict = true →
        ∃ path ∈ branch.sensitivePaths, document.isNull path = true := by
    rw [← Bool.not_eq_true, accepts_enforceNullSafety_iff]
    simp [guards]
  refine ⟨accepts_of_accepts_enforceNullSafety, ?_, refusal, ?_⟩
  · intro nonNull
    refine ⟨accepts_of_accepts_enforceNullSafety, accepts_enforceNullSafety_of_nonNull ?_⟩
    intro path sensitive
    rw [guards, nonNull path sensitive, Bool.not_false]
  · intro accepted refused
    rcases (accepts_iff_branches filter).mp accepted with ⟨branch, member, holds⟩
    rcases refusal.mp refused branch member holds with ⟨path, sensitive, isNull⟩
    exact ⟨path, mem_sensitivePaths_of_mem_branches member sensitive, isNull⟩

/-- Two alternatives, `price < 9` and the negation of `title = null`, where the price and the
title may be null. -/
def bargains : Filter :=
  .logical .or
    [.field "price" true (.compare .less (.int 9)),
      .logical .nor [.field "title" true (.compare .equal .null)]]

/-- A document without a price and a title passes `price < 9` in a store that calls every
comparison with a null field true, and is lost to the guard of the price. -/
theorem bargains_lost_to_guards :
    let document := Document.ofFields [("price", .null)]
    let verdict := OrderedStore.wholeNumbers.verdict document
    (∀ path, verdict path .notNull = !document.isNull path) ∧
      bargains.accepts verdict = true ∧ bargains.enforceNullSafety.accepts verdict = false ∧
      ∃ path ∈ bargains.sensitivePaths, document.isNull path = true := by
  intro document verdict
  have guards : ∀ path, verdict path .notNull = !document.isNull path := fun _ => rfl
  have accepted : bargains.accepts verdict = true := by decide
  have refused : bargains.enforceNullSafety.accepts verdict = false := by decide
  exact ⟨guards, accepted, refused,
    (enforceNullSafety_conservative bargains document verdict guards).2.2.2 accepted refused⟩

end Filter

end DocumentQuery
