import DocumentQuery.Proofs.Compiler.Meaning

/-!
# Commands that select exactly what the query means

Guards keep a command from selecting too much.  They can also make it select too
little, as a guard asks for a value where the condition may be true without one.  On
strict conditions they do not: such a condition is true only if every attribute that
it compares has a value.
-/

namespace DocumentQuery

/-! ## Strict conditions -/

namespace Predicate

mutual

/-- Whether a condition under an even or an odd number of negations has its conjunctions
under an even and its disjunctions under an odd number of them. -/
def isStrict (odd : Bool) : Predicate → Bool
  | junction .and operands _ => !odd && areStrict odd operands
  | junction .or operands _ => odd && areStrict odd operands
  | negation operand _ => isStrict (!odd) operand
  | group inner _ => isStrict odd inner
  | comparison _ _ _ _ | nullCheck _ _ _ => true

/-- Whether all of several conditions are strict. -/
def areStrict (odd : Bool) : List Predicate → Bool
  | [] => true
  | predicate :: predicates => isStrict odd predicate && areStrict odd predicates

end

theorem areStrict_iff (odd : Bool) (predicates : List Predicate) :
    areStrict odd predicates = true ↔
      ∀ predicate ∈ predicates, predicate.isStrict odd = true := by
  induction predicates with
  | nil => simp [areStrict]
  | cons predicate predicates ih => simp [areStrict, ih]

variable {entity : Entity} {aliasName : Option String} {store : Store} {document : Document}

/-- A comparison that is known to hold or to fail is of a field with a value. -/
theorem nonNull_of_truth_field {path : String} {sensitive known : Bool}
    {operator : Comparison} {operand : Value}
    (decided : (Filter.field path sensitive (.compare operator operand)).truth
      (store.truth document) = .ofBool known) : document.isNull path = false := by
  rw [Document.isNull_eq_false_iff]
  simp only [Filter.truth, Store.truth] at decided
  cases found : document.value? path with
  | some value => exact ⟨value, rfl⟩
  | none =>
      rw [found] at decided
      cases known <;> cases decided

/-- The operands of a strict junction are all true where it is true, or all false where
it is false, whichever of the two makes it strict. -/
theorem truth_operand_of_isStrict {connective : Connective} {operands : List Predicate}
    {span : Span} {odd : Bool} {filters : List Filter} {meaning : String → Condition → Ternary}
    (strict : (junction connective operands span).isStrict odd = true)
    (decided : (Filter.logical (Compiler.junctionOperator connective) filters).truth meaning =
      .ofBool (!odd)) :
    ∀ filter ∈ filters, filter.truth meaning = .ofBool (!odd) := by
  intro filter member
  have value := List.mem_map_of_mem (f := Filter.truth meaning) member
  simp only [Filter.truth, Filter.truthOfEach_eq_map] at decided
  cases connective with
  | and =>
      rw [isStrict, Bool.and_eq_true, Bool.not_eq_true'] at strict
      rcases strict with ⟨rfl, _⟩
      exact (Ternary.all_eq_yes_iff _).mp decided _ value
  | or =>
      rw [isStrict, Bool.and_eq_true] at strict
      rcases strict with ⟨rfl, _⟩
      exact (Ternary.any_eq_no_iff _).mp decided _ value

/-- A strict condition that is true under an even number of negations, or false under an
odd number of them, leaves no sensitive field null. -/
theorem nonNull_of_isStrict {predicate : Predicate} {filter : Filter} {odd : Bool}
    (strict : predicate.isStrict odd = true)
    (compiled : predicate.toFilter entity aliasName = .ok filter)
    (decided : filter.truth (store.truth document) = .ofBool (!odd)) :
    ∀ path ∈ filter.sensitivePaths, document.isNull path = false := by
  induction predicate using inductionOn generalizing filter odd with
  | comparison left operator right span =>
      rcases Entity.comparisonFilter_eq_ok compiled with
        ⟨name, value, field, named, sides | sides⟩
      all_goals
        rcases sides with ⟨pathSpan, valueSpan, rfl, rfl, rfl⟩
        intro path member
        rcases (Filter.mem_sensitivePaths_iff _ _).mp member with ⟨found, membership, _, rfl⟩
        rw [Filter.conditions, List.mem_singleton] at membership
        subst membership
        exact nonNull_of_truth_field decided
  | junction connective operands span ih =>
      rcases toFilter_junction_eq_ok compiled with ⟨filters, operandsCompiled, rfl⟩
      intro path member
      rcases (Filter.mem_sensitivePaths_logical _ _ _).mp member with
        ⟨inner, innerMember, inOperand⟩
      rcases exists_of_mem_toFilters operandsCompiled innerMember with
        ⟨operand, operandMember, innerCompiled⟩
      have innerDecided := truth_operand_of_isStrict strict decided inner innerMember
      have innerStrict : operand.isStrict odd = true := by
        cases connective with
        | and | or =>
            rw [isStrict, Bool.and_eq_true, areStrict_iff] at strict
            exact strict.2 operand operandMember
      exact ih operand operandMember innerStrict innerCompiled innerDecided path inOperand
  | negation operand span ih =>
      rcases toFilter_negation_eq_ok compiled with ⟨inner, innerCompiled, rfl⟩
      have innerDecided : inner.truth (store.truth document) = .ofBool (!!odd) := by
        rw [← Ternary.not_eq_ofBool_iff, ← decided]
        simp [Filter.truth, Logical.truth]
      intro path member
      rcases (Filter.mem_sensitivePaths_logical _ _ _).mp member with
        ⟨other, otherMember, inOperand⟩
      rw [List.mem_singleton.mp otherMember] at inOperand
      exact ih strict innerCompiled innerDecided path inOperand
  | nullCheck subject negated span =>
      rcases Entity.nullCheckFilter_eq_ok compiled with
        ⟨name, nameSpan, field, named, rfl, rfl⟩
      intro path member
      cases member
  | group inner span ih => exact ih strict compiled decided

/-! ## Exactness -/

/-- The conditions of a filter compare nothing with null unless the query does. -/
theorem comparesWithNull_eq_false {predicate : Predicate} {filter : Filter}
    (compiled : predicate.toFilter entity aliasName = .ok filter)
    (literals : ∀ atom ∈ predicate.atoms, atom.comparedLiteral? ≠ some .null)
    {found : FieldCondition} (member : found ∈ filter.conditions) :
    found.condition.comparesWithNull = false := by
  rcases mem_conditions_cases compiled member with
    ⟨atom, atomMember, field, fieldMember, samePath, comparison | check⟩
  · rcases comparison with ⟨operator, value, compared, condition, sensitive⟩
    have nonNull := literals atom atomMember
    rw [compared] at nonNull
    rw [condition]
    cases value with
    | null => exact absurd rfl nonNull
    | string | integer | long | double | decimal | boolean => rfl
  · rcases check with ⟨compared, sensitive, condition | condition⟩
    all_goals
      rw [condition]
      rfl

/-- The guarded filter of a strict condition accepts exactly the fitting documents of
which the condition is true. -/
theorem accepts_iff_truth_eq_yes (store : OrderedStore) {predicate : Predicate}
    {filter : Filter} (compiled : predicate.toFilter entity aliasName = .ok filter)
    (literals : ∀ atom ∈ predicate.atoms, atom.comparedLiteral? ≠ some .null)
    (strict : ∀ branch ∈ predicate.branches, branch.isStrict false = true)
    (fits : document.Fits entity) {read : AttributePath → Option Value}
    (reading : entity.IsReading aliasName document read) :
    filter.enforceNullSafety.accepts (store.verdict document) = true ↔
      predicate.truth store.toStore read = .yes := by
  rw [← truth_of_toFilter store reading compiled, Filter.truth_eq_yes_iff_branches,
    Filter.accepts_enforceNullSafety_iff_truth store.toStore document filter
      (fun _ member => comparesWithNull_eq_false compiled literals member)
      (fun _ member => nonNull_of_fits compiled fits member)]
  constructor
  · rintro ⟨branch, member, holds, _⟩
    exact ⟨branch, member, holds⟩
  · rintro ⟨branch, member, holds⟩
    rcases exists_branch_of_mem_branches compiled member with
      ⟨source, sourceMember, sourceCompiled⟩
    exact ⟨branch, member, holds,
      nonNull_of_isStrict (strict source sourceMember) sourceCompiled holds⟩

end Predicate

/-- The command of a statement with a strict condition selects exactly the fitting
documents of which the condition is true, with attributes read where the schema puts
them. -/
theorem Statement.selects_iff_truth_eq_yes (store : OrderedStore) {statement : Statement}
    {entity : Entity} {command : Command} {predicate : Predicate}
    (condition : statement.condition = some predicate)
    (literals : ∀ atom ∈ predicate.atoms, atom.comparedLiteral? ≠ some .null)
    (strict : ∀ branch ∈ predicate.branches, branch.isStrict false = true)
    (compiled : statement.compile entity = .ok command) :
    ∃ filter, command.filter? = some filter ∧ ∀ document : Document, document.Fits entity →
      (∃ read, entity.IsReading statement.aliasText document read) ∧
      ∀ read, entity.IsReading statement.aliasText document read →
        (filter.accepts (store.verdict document) = true ↔
          predicate.truth store.toStore read = .yes) := by
  rcases Statement.exists_filter_of_compile compiled condition with
    ⟨filter, valid, filterCompiled, same⟩
  refine ⟨filter.enforceNullSafety, same, ?_⟩
  intro document fits
  refine ⟨⟨_, Entity.isReading_attributeValue? valid document⟩, ?_⟩
  intro read reading
  exact Predicate.accepts_iff_truth_eq_yes store filterCompiled literals strict fits reading

/-- The condition `not (b.price > 20 or b.stock = 0) or (title is null and 3 <= b.price)`. -/
def Predicate.affordable : Predicate :=
  .junction .or
    [.negation (.group (.junction .or
        [.comparison (.attribute ["b", "price"]) .greater (.constant (.integer 20)) .nowhere,
          .comparison (.attribute ["b", "stock"]) .equal (.constant (.integer 0)) .nowhere]
        .nowhere) .nowhere) .nowhere,
      .group (.junction .and
        [.nullCheck (.attribute ["title"]) false .nowhere,
          .comparison (.constant (.integer 3)) .lessOrEqual (.attribute ["b", "price"]) .nowhere]
        .nowhere) .nowhere] .nowhere

/-- A cheap book in stock is selected, and a book without a price is not, even in a
store that calls every comparison with a null field true. -/
theorem Statement.selects_affordable :
    ∃ command filter, (ofBooks .affordable).compile .books = .ok command ∧
      command.filter? = some filter ∧
      filter.accepts (OrderedStore.wholeNumbers.verdict
        (.ofFields [("_id", .int 1), ("cost", .int 7), ("stock", .int 2)])) = true ∧
      filter.accepts (OrderedStore.wholeNumbers.verdict
        (.ofFields [("_id", .int 1), ("cost", .null), ("stock", .int 2)])) = false := by
  have literals : ∀ atom ∈ Predicate.affordable.atoms, atom.comparedLiteral? ≠ some .null := by
    simp [Predicate.affordable, Predicate.atoms, Predicate.comparedLiteral?,
      Expression.attribute, Expression.constant]
  have succeeds : ∃ command, (ofBooks .affordable).compile .books = .ok command := ⟨_, rfl⟩
  rcases succeeds with ⟨command, compiled⟩
  have condition : (ofBooks .affordable).condition = some .affordable := rfl
  have reading (document : Document) : Entity.books.IsReading (some "b") document
      (Entity.books.attributeValue? (some "b") document) :=
    Entity.isReading_attributeValue? rfl document
  rcases selects_iff_truth_eq_yes .wholeNumbers condition literals (by decide) compiled with
    ⟨filter, same, selects⟩
  refine ⟨command, filter, compiled, same, ?_, ?_⟩
  · rw [(selects _ (by decide)).2 _ (reading _)]
    decide
  · rw [Bool.eq_false_iff, Ne, (selects _ (by decide)).2 _ (reading _)]
    decide

end DocumentQuery
