import DocumentQuery.Proofs.Compiler.Meaning

/-!
# Comparisons with null

In ternary logic a comparison with null is unknown, and a query that makes no other
should select nothing.  In the store a comparison with null has an answer: on a field
with a value, inequality holds and nothing else does.  The guards see to it that the
fields have values, so a command selects nothing exactly when its condition fails in
two-valued logic with every inequality true and every other comparison false.
-/

namespace DocumentQuery

/-! ## Conditions in two-valued logic -/

namespace Predicate

mutual

/-- Whether a condition holds in two-valued logic, by verdicts on its comparisons and
null checks. -/
def accepts (verdict : Predicate → Bool) : Predicate → Bool
  | junction .and operands _ => (acceptsEach verdict operands).all id
  | junction .or operands _ => (acceptsEach verdict operands).any id
  | negation operand _ => !accepts verdict operand
  | group inner _ => accepts verdict inner
  | atom => verdict atom

/-- Whether each of several conditions holds in two-valued logic. -/
def acceptsEach (verdict : Predicate → Bool) : List Predicate → List Bool
  | [] => []
  | predicate :: predicates => accepts verdict predicate :: acceptsEach verdict predicates

end

@[simp] theorem acceptsEach_eq_map (verdict : Predicate → Bool) (predicates : List Predicate) :
    acceptsEach verdict predicates = predicates.map (accepts verdict) := by
  induction predicates with
  | nil => rfl
  | cons predicate predicates ih => simp [acceptsEach, ih]

/-- Whether a condition is an inequality. -/
def isInequality : Predicate → Bool
  | comparison _ .notEqual _ _ => true
  | _ => false

variable {entity : Entity} {aliasName : Option String}

/-- A filter accepts what its condition does in two-valued logic, if the verdicts on
comparisons and null checks are those on their filters. -/
theorem accepts_of_toFilter {verdict : String → Condition → Bool} {decides : Predicate → Bool}
    {predicate : Predicate} {filter : Filter}
    (compiled : predicate.toFilter entity aliasName = .ok filter)
    (agree : ∀ atom ∈ predicate.atoms, ∀ path sensitive condition,
      atom.toFilter entity aliasName = .ok (.field path sensitive condition) →
        verdict path condition = decides atom) :
    filter.accepts verdict = predicate.accepts decides := by
  induction predicate using inductionOn generalizing filter with
  | comparison left operator right span =>
      rcases Entity.eq_field_of_comparisonFilter compiled with ⟨path, sensitive, condition, rfl⟩
      exact agree _ (List.mem_singleton_self _) _ _ _ compiled
  | junction connective operands span ih =>
      rcases toFilter_junction_eq_ok compiled with ⟨filters, operandsCompiled, rfl⟩
      have each : filters.map (Filter.accepts verdict) = operands.map (accepts decides) := by
        apply map_eq_map_of_toFilters _ operandsCompiled
        intro operand member inner innerCompiled
        apply ih operand member innerCompiled
        intro atom atomMember
        exact agree atom (mem_atoms_junction member atomMember)
      cases connective <;>
        simp only [Filter.accepts, Compiler.junctionOperator, Logical.verdict,
          Filter.acceptsEach_eq_map, each, accepts, acceptsEach_eq_map]
  | negation operand span ih =>
      rcases toFilter_negation_eq_ok compiled with ⟨inner, innerCompiled, rfl⟩
      have same := ih innerCompiled agree
      simp [Filter.accepts, Logical.verdict, accepts, same]
  | nullCheck subject negated span =>
      rcases Entity.nullCheckFilter_eq_ok compiled with
        ⟨path, pathSpan, field, named, rfl, rfl⟩
      exact agree _ (List.mem_singleton_self _) _ _ _ compiled
  | group inner span ih => exact ih compiled agree

end Predicate

/-! ## Null as an operand -/

theorem Store.ternary_none_right (store : Store) (operator : Comparison) (left : Option Value) :
    store.ternary operator left none = .unknown := by
  cases left <;> rfl

/-- What a condition comes to on a field with a value, if null is what it compares
with. -/
def Condition.onValue : Condition → Bool
  | compare operator _ => operator.againstNull false
  | isNull => false
  | notNull => true

/-- On a field with a value, every store answers a comparison with null alike. -/
theorem Store.verdict_eq_onValue (store : Store) {document : Document} {path : String}
    {condition : Condition} (withNull : condition.comparesWithNull = true)
    (present : document.isNull path = false) :
    store.verdict document path condition = condition.onValue := by
  cases condition with
  | isNull | notNull => cases withNull
  | compare operator operand =>
      rw [Condition.comparesWithNull] at withNull
      have unknown : operand.nonNull? = none := by
        rw [Value.nonNull?, if_pos withNull]
      rw [Document.isNull] at present
      simp only [verdict, unknown, Condition.onValue, present]

theorem Condition.isComparison_of_comparesWithNull {condition : Condition}
    (withNull : condition.comparesWithNull = true) : condition.isComparison = true := by
  cases condition with
  | isNull | notNull => cases withNull
  | compare operator operand => rfl

/-- Where every comparison is with null and every field without a guard has a value, a
guarded filter accepts what leaves no sensitive field of an alternative null that holds
of values. -/
theorem Filter.accepts_enforceNullSafety_iff_onValue (store : Store) (document : Document)
    (filter : Filter)
    (operands : ∀ found ∈ filter.conditions, found.condition.comparesWithNull = true)
    (required : ∀ found ∈ filter.conditions, found.sensitive = false →
      found.condition.isComparison = true → document.isNull found.path = false) :
    filter.enforceNullSafety.accepts (store.verdict document) = true ↔
      ∃ branch ∈ filter.branches, branch.accepts (fun _ condition => condition.onValue) = true ∧
        ∀ path ∈ branch.sensitivePaths, document.isNull path = false := by
  rw [accepts_enforceNullSafety_iff]
  refine exists_congr fun branch => and_congr_right fun member => ?_
  simp only [Store.verdict_notNull, Bool.not_eq_true']
  refine and_congr_left fun nonNull => ?_
  rw [accepts_congr branch]
  intro found membership
  have withNull := operands found (mem_conditions_of_mem_branches member membership)
  apply store.verdict_eq_onValue withNull
  apply nonNull_of_isComparison _ nonNull membership
  · exact Condition.isComparison_of_comparesWithNull withNull
  · intro other otherMembership
    exact required other (mem_conditions_of_mem_branches member otherMembership)

/-! ## What is selected -/

namespace Predicate

variable {entity : Entity} {aliasName : Option String}

/-- A comparison with null is unknown, and so is what is built from such comparisons. -/
theorem truth_eq_unknown (store : Store) (read : AttributePath → Option Value)
    {predicate : Predicate} {filter : Filter}
    (compiled : predicate.toFilter entity aliasName = .ok filter)
    (literals : ∀ atom ∈ predicate.atoms, atom.comparedLiteral? = some .null) :
    predicate.truth store read = .unknown := by
  induction predicate using inductionOn generalizing filter with
  | comparison left operator right span =>
      have compared := literals _ (List.mem_singleton_self _)
      rcases Entity.comparisonFilter_eq_ok compiled with
        ⟨path, value, field, named, sides | sides⟩
      all_goals
        rcases sides with ⟨pathSpan, valueSpan, rfl, rfl, rfl⟩
        cases compared
      · exact store.ternary_none_right operator (read path)
      · rfl
  | junction connective operands span ih =>
      rcases toFilter_junction_eq_ok compiled with ⟨filters, operandsCompiled, rfl⟩
      have each : filters.map (fun _ => Ternary.unknown) = operands.map (truth store read) := by
        apply map_eq_map_of_toFilters _ operandsCompiled
        intro operand member inner innerCompiled
        symm
        apply ih operand member innerCompiled
        intro atom atomMember
        exact literals atom (mem_atoms_junction member atomMember)
      rw [List.map_const'] at each
      cases filters with
      | nil =>
          rw [toFilter, operandsCompiled] at compiled
          cases connective <;> cases compiled
      | cons first rest =>
          cases connective with
          | and =>
              rw [truth, truthOfEach_eq_map, ← each]
              exact Ternary.all_replicate_unknown rest.length
          | or =>
              rw [truth, truthOfEach_eq_map, ← each]
              exact Ternary.any_replicate_unknown rest.length
  | negation operand span ih =>
      rcases toFilter_negation_eq_ok compiled with ⟨inner, innerCompiled, rfl⟩
      rw [truth, ih innerCompiled literals]
      rfl
  | nullCheck subject negated span => cases literals _ (List.mem_singleton_self _)
  | group inner span ih => exact ih compiled literals

/-- A condition that compares with null only has a filter that does. -/
theorem comparesWithNull_eq_true {predicate : Predicate} {filter : Filter}
    (compiled : predicate.toFilter entity aliasName = .ok filter)
    (literals : ∀ atom ∈ predicate.atoms, atom.comparedLiteral? = some .null)
    {found : FieldCondition} (member : found ∈ filter.conditions) :
    found.condition.comparesWithNull = true := by
  rcases mem_conditions_cases compiled member with
    ⟨atom, atomMember, field, fieldMember, samePath, comparison | check⟩
  · rcases comparison with ⟨operator, value, compared, condition, sensitive⟩
    rw [literals atom atomMember] at compared
    cases compared
    rw [condition]
    rfl
  · rw [literals atom atomMember] at check
    cases check.1

/-- On a field with a value, a comparison with null holds if it is an inequality. -/
theorem onValue_eq_isInequality {atom : Predicate} {path : String} {sensitive : Bool}
    {condition : Condition}
    (compiled : atom.toFilter entity aliasName = .ok (.field path sensitive condition))
    (compared : atom.comparedLiteral? = some .null) :
    condition.onValue = atom.isInequality := by
  cases atom with
  | comparison left operator right span =>
      rcases Entity.comparisonFilter_eq_ok compiled with ⟨name, value, field, named, sides | sides⟩
      all_goals
        rcases sides with ⟨pathSpan, valueSpan, rfl, rfl, same⟩
        injection same with samePath sameSensitive sameCondition
        subst sameCondition
        cases operator <;> rfl
  | junction | negation | nullCheck | group => cases compared

/-- The filter of comparisons with null holds of values where the inequalities make its
condition hold. -/
theorem accepts_onValue_of_toFilter {predicate : Predicate} {filter : Filter}
    (compiled : predicate.toFilter entity aliasName = .ok filter)
    (literals : ∀ atom ∈ predicate.atoms, atom.comparedLiteral? = some .null) :
    filter.accepts (fun _ condition => condition.onValue) = predicate.accepts isInequality := by
  apply accepts_of_toFilter compiled
  intro atom member path sensitive condition atomCompiled
  exact onValue_eq_isInequality atomCompiled (literals atom member)

theorem accepts_iff_onValue_of_toFilter (store : Store) {document : Document}
    {predicate : Predicate} {filter : Filter}
    (compiled : predicate.toFilter entity aliasName = .ok filter)
    (literals : ∀ atom ∈ predicate.atoms, atom.comparedLiteral? = some .null)
    (fits : document.Fits entity) :
    filter.enforceNullSafety.accepts (store.verdict document) = true ↔
      ∃ branch ∈ filter.branches, branch.accepts (fun _ condition => condition.onValue) = true ∧
        ∀ path ∈ branch.sensitivePaths, document.isNull path = false := by
  apply Filter.accepts_enforceNullSafety_iff_onValue
  · intro found member
    exact comparesWithNull_eq_true compiled literals member
  · intro found member
    exact nonNull_of_fits compiled fits member

end Predicate

/-- A document with the same value at every path. -/
def Document.filledWith (value : Value) : Document := ⟨fun _ => some value⟩

/-- The condition of a statement that makes no comparison but with null is unknown.  The
command selects no fitting document exactly when the condition fails with its
inequalities true and its other comparisons false. -/
theorem Statement.selects_nothing_iff (store : Store) {statement : Statement} {entity : Entity}
    {command : Command} {predicate : Predicate}
    (condition : statement.condition = some predicate)
    (literals : ∀ atom ∈ predicate.atoms, atom.comparedLiteral? = some .null)
    (compiled : statement.compile entity = .ok command) :
    ∃ filter, command.filter? = some filter ∧
      (∀ read, predicate.truth store read = .unknown) ∧
      ((∀ document : Document, document.Fits entity →
          filter.accepts (store.verdict document) = false) ↔
        predicate.accepts Predicate.isInequality = false) := by
  rcases Statement.exists_filter_of_compile compiled condition with
    ⟨filter, _, filterCompiled, same⟩
  refine ⟨filter.enforceNullSafety, same,
    fun read => Predicate.truth_eq_unknown store read filterCompiled literals, ?_⟩
  rw [← Predicate.accepts_onValue_of_toFilter filterCompiled literals]
  constructor
  · intro selectsNothing
    rw [Bool.eq_false_iff]
    intro holds
    rcases (Filter.accepts_iff_branches filter).mp holds with ⟨branch, member, branchHolds⟩
    have fits : (Document.filledWith (.boolean true)).Fits entity := fun _ _ _ => rfl
    have selected := (Predicate.accepts_iff_onValue_of_toFilter store filterCompiled literals
      fits).mpr ⟨branch, member, branchHolds, fun _ _ => rfl⟩
    rw [selectsNothing _ fits] at selected
    cases selected
  · intro fails document fits
    rw [Bool.eq_false_iff]
    intro selected
    rw [Predicate.accepts_iff_onValue_of_toFilter store filterCompiled literals fits] at selected
    rcases selected with ⟨branch, member, branchHolds, _⟩
    rw [Bool.eq_false_iff] at fails
    exact fails ((Filter.accepts_iff_branches filter).mpr ⟨branch, member, branchHolds⟩)

/-- The condition `title = null or not (null <> b.price)`. -/
def Predicate.incomplete : Predicate :=
  .junction .or
    [.comparison (.attribute ["title"]) .equal (.constant .null) .nowhere,
      .negation (.group
        (.comparison (.constant .null) .notEqual (.attribute ["b", "price"]) .nowhere)
        .nowhere) .nowhere] .nowhere

theorem Statement.incomplete_selects_nothing :
    ∃ command filter, (ofBooks .incomplete).compile .books = .ok command ∧
      command.filter? = some filter ∧ ∀ document : Document, document.Fits .books →
        filter.accepts (OrderedStore.wholeNumbers.verdict document) = false := by
  have literals : ∀ atom ∈ Predicate.incomplete.atoms, atom.comparedLiteral? = some .null := by
    simp [Predicate.incomplete, Predicate.atoms, Predicate.comparedLiteral?,
      Expression.attribute, Expression.constant]
  have succeeds : ∃ command, (ofBooks .incomplete).compile .books = .ok command := ⟨_, rfl⟩
  rcases succeeds with ⟨command, compiled⟩
  have condition : (ofBooks .incomplete).condition = some .incomplete := rfl
  rcases selects_nothing_iff OrderedStore.wholeNumbers.toStore condition literals compiled with
    ⟨filter, same, _, selectsNothing⟩
  exact ⟨command, filter, compiled, same, selectsNothing.mpr (by decide)⟩

/-- The condition `title <> null`. -/
def Predicate.titled : Predicate :=
  .comparison (.attribute ["title"]) .notEqual (.constant .null) .nowhere

/-- The condition `title <> null` is unknown of every book, yet a book with a title is
selected. -/
theorem Statement.titled_selects_unknown :
    ∃ command filter, (ofBooks .titled).compile .books = .ok command ∧
      command.filter? = some filter ∧
      (Document.ofFields [("_id", .int 1), ("title", .string "X"), ("stock", .int 2)]).Fits
        .books ∧
      (∀ read, Predicate.titled.truth OrderedStore.wholeNumbers.toStore read = .unknown) ∧
      filter.accepts (OrderedStore.wholeNumbers.verdict
        (.ofFields [("_id", .int 1), ("title", .string "X"), ("stock", .int 2)])) = true :=
  ⟨_, _, rfl, rfl, by decide, fun _ => Store.ternary_none_right _ _ _, by decide⟩

end DocumentQuery
