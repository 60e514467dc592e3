import DocumentQuery.Proofs.Compiler.Attributes
import DocumentQuery.Proofs.Filter.NullSafety
import DocumentQuery.Proofs.Statement.Basic

/-!
# The meaning of conditions

A condition has a truth value in ternary logic once it is known what its attributes
hold.  Compilation keeps that value: the filter of a condition is as true of a
document as the condition is.
-/

namespace DocumentQuery

/-! ## Truth of conditions -/

/-- What an expression stands for.  Null is no value, and neither has a function call
one. -/
def Expression.value? (read : AttributePath → Option Value) : Expression → Option Value
  | literal value _ => value.value?
  | path name _ => read name
  | call _ _ _ => none

namespace Predicate

mutual

/-- The truth of a condition, by what its attributes hold.  Comparisons are judged with
their sides as written, and parentheses mean nothing. -/
def truth (store : Store) (read : AttributePath → Option Value) : Predicate → Ternary
  | comparison left operator right _ =>
      store.ternary operator (left.value? read) (right.value? read)
  | junction .and operands _ => .all (truthOfEach store read operands)
  | junction .or operands _ => .any (truthOfEach store read operands)
  | negation operand _ => (truth store read operand).not
  | nullCheck subject false _ => .ofBool (subject.value? read).isNone
  | nullCheck subject true _ => .ofBool (subject.value? read).isSome
  | group inner _ => truth store read inner

/-- The truth of each of several conditions. -/
def truthOfEach (store : Store) (read : AttributePath → Option Value) :
    List Predicate → List Ternary
  | [] => []
  | predicate :: predicates => truth store read predicate :: truthOfEach store read predicates

end

@[simp] theorem truthOfEach_eq_map (store : Store) (read : AttributePath → Option Value)
    (predicates : List Predicate) :
    truthOfEach store read predicates = predicates.map (truth store read) := by
  induction predicates with
  | nil => rfl
  | cons predicate predicates ih => simp [truthOfEach, ih]

mutual

/-- The comparisons and null checks of a condition, from left to right. -/
def atoms : Predicate → List Predicate
  | junction _ operands _ => atomsOfAll operands
  | negation operand _ => atoms operand
  | group inner _ => atoms inner
  | predicate => [predicate]

/-- The comparisons and null checks of several conditions, from left to right. -/
def atomsOfAll : List Predicate → List Predicate
  | [] => []
  | predicate :: predicates => atoms predicate ++ atomsOfAll predicates

end

mutual

/-- The alternatives of a condition: what its outermost disjunctions join, parentheses
aside. -/
def branches : Predicate → List Predicate
  | junction .or operands _ => branchesOfAll operands
  | group inner _ => branches inner
  | predicate => [predicate]

/-- The alternatives of several conditions. -/
def branchesOfAll : List Predicate → List Predicate
  | [] => []
  | predicate :: predicates => branches predicate ++ branchesOfAll predicates

end

/-- The literal that an attribute is compared with, on either side. -/
def comparedLiteral? : Predicate → Option Literal
  | comparison (.path _ _) _ (.literal value _) _ => some value
  | comparison (.literal value _) _ (.path _ _) _ => some value
  | _ => none

@[simp] theorem atomsOfAll_eq_flatMap (predicates : List Predicate) :
    atomsOfAll predicates = predicates.flatMap atoms := by
  induction predicates with
  | nil => rfl
  | cons predicate predicates ih => simp [atomsOfAll, ih]

theorem mem_atoms_junction {connective : Connective} {operands : List Predicate} {span : Span}
    {operand atom : Predicate} (member : operand ∈ operands) (found : atom ∈ operand.atoms) :
    atom ∈ (junction connective operands span).atoms := by
  rw [atoms, atomsOfAll_eq_flatMap, List.mem_flatMap]
  exact ⟨operand, member, found⟩

@[simp] theorem branchesOfAll_eq_flatMap (predicates : List Predicate) :
    branchesOfAll predicates = predicates.flatMap branches := by
  induction predicates with
  | nil => rfl
  | cons predicate predicates ih => simp [branchesOfAll, ih]

end Predicate

theorem Field.isSensitive_eq_false_iff (field : Field) :
    field.isSensitive = false ↔
      field.id = true ∨ field.primitive = true ∨ field.nullable = false := by
  rw [isSensitive_eq]
  cases field.id <;> cases field.primitive <;> cases field.nullable <;> decide

/-- A document fits an entity when every field that may not be null has a value: the
identifier, the fields of a primitive type and those declared so. -/
def Document.Fits (document : Document) (entity : Entity) : Prop :=
  ∀ field ∈ entity.fields, (field.id = true ∨ field.primitive = true ∨ field.nullable = false) →
    document.isNull field.place = false

instance (document : Document) (entity : Entity) : Decidable (document.Fits entity) :=
  inferInstanceAs (Decidable (∀ field ∈ entity.fields, _ → _))

/-! ## Queries about books -/

/-- Books, which may lack a title and a price. -/
def Entity.books : Entity where
  name := "Book"
  collection := "books"
  fields := [.identifier "isbn", { name := "title" },
    { name := "price", column := some "cost" }, { name := "stock", nullable := false }]

/-- The query `from Book b where` the condition. -/
def Statement.ofBooks (condition : Predicate) : Statement where
  entity := ⟨"Book", .nowhere⟩
  aliasName := some ⟨"b", .nowhere⟩
  condition := some condition
  span := .nowhere

/-! ## What compiles -/

theorem exists_of_bind_eq_ok {ε α β : Type} {result : Except ε α} {next : α → Except ε β}
    {value : β} (succeeded : (result >>= next) = .ok value) :
    ∃ first, result = .ok first ∧ next first = .ok value := by
  cases result with
  | error error => cases succeeded
  | ok first => exact ⟨first, rfl, succeeded⟩

namespace Entity

variable {entity : Entity} {aliasName : Option String}

theorem exists_fieldOf?_of_resolve {path : AttributePath} {resolved : ResolvedField}
    (succeeded : entity.resolve aliasName path = .ok resolved) :
    ∃ field, entity.fieldOf? aliasName path = some field ∧
      resolved = ⟨field.path, field.isSensitive⟩ := by
  cases named : entity.fieldOf? aliasName path with
  | none =>
      rw [resolve_of_fieldOf?_eq_none named] at succeeded
      cases succeeded
  | some field =>
      rw [resolve_of_fieldOf? named] at succeeded
      cases succeeded
      exact ⟨field, rfl, rfl⟩

/-- A comparison that compiles is one of an attribute with a literal, on either side. -/
theorem comparisonFilter_eq_ok {left right : Expression} {operator : Comparison}
    {filter : Filter}
    (compiled : entity.comparisonFilter aliasName left operator right = .ok filter) :
    ∃ path value field, entity.fieldOf? aliasName path = some field ∧
      ((∃ pathSpan valueSpan, left = .path path pathSpan ∧ right = .literal value valueSpan ∧
          filter = .field field.path field.isSensitive (.compare operator (.ofLiteral value))) ∨
        (∃ pathSpan valueSpan, left = .literal value valueSpan ∧ right = .path path pathSpan ∧
          filter = .field field.path field.isSensitive
            (.compare operator.converse (.ofLiteral value)))) := by
  cases left with
  | call name arguments span => cases compiled
  | path path span =>
      cases right with
      | path | call => cases compiled
      | literal value valueSpan =>
          rcases exists_of_bind_eq_ok compiled with ⟨resolved, succeeded, built⟩
          rcases exists_fieldOf?_of_resolve succeeded with ⟨field, named, rfl⟩
          cases built
          exact ⟨path, value, field, named, Or.inl ⟨span, valueSpan, rfl, rfl, rfl⟩⟩
  | literal value span =>
      cases right with
      | literal | call => cases compiled
      | path path pathSpan =>
          rcases exists_of_bind_eq_ok compiled with ⟨resolved, succeeded, built⟩
          rcases exists_fieldOf?_of_resolve succeeded with ⟨field, named, rfl⟩
          cases built
          exact ⟨path, value, field, named, Or.inr ⟨pathSpan, span, rfl, rfl, rfl⟩⟩

theorem eq_field_of_comparisonFilter {left right : Expression} {operator : Comparison}
    {filter : Filter}
    (compiled : entity.comparisonFilter aliasName left operator right = .ok filter) :
    ∃ path sensitive condition, filter = .field path sensitive condition := by
  rcases comparisonFilter_eq_ok compiled with ⟨path, value, field, named, sides | sides⟩
  · rcases sides with ⟨pathSpan, valueSpan, rfl, rfl, same⟩
    exact ⟨_, _, _, same⟩
  · rcases sides with ⟨pathSpan, valueSpan, rfl, rfl, same⟩
    exact ⟨_, _, _, same⟩

/-- A null check that compiles is one of an attribute. -/
theorem nullCheckFilter_eq_ok {subject : Expression} {negated : Bool} {filter : Filter}
    (compiled : entity.nullCheckFilter aliasName subject negated = .ok filter) :
    ∃ path span field, entity.fieldOf? aliasName path = some field ∧
      subject = .path path span ∧
      filter = .field field.path false (if negated then .notNull else .isNull) := by
  cases subject with
  | literal value span => cases compiled
  | call name arguments span => cases compiled
  | path path span =>
      rcases exists_of_bind_eq_ok compiled with ⟨resolved, succeeded, built⟩
      rcases exists_fieldOf?_of_resolve succeeded with ⟨field, named, rfl⟩
      cases built
      exact ⟨path, span, field, named, rfl, rfl⟩

end Entity

namespace Predicate

variable {entity : Entity} {aliasName : Option String}

theorem toFilters_cons_eq_ok {predicate : Predicate} {predicates : List Predicate}
    {filters : List Filter}
    (compiled : toFilters entity aliasName (predicate :: predicates) = .ok filters) :
    ∃ head tail, predicate.toFilter entity aliasName = .ok head ∧
      toFilters entity aliasName predicates = .ok tail ∧ filters = head :: tail := by
  rw [toFilters] at compiled
  rcases exists_of_bind_eq_ok compiled with ⟨head, headCompiled, compiled⟩
  rcases exists_of_bind_eq_ok compiled with ⟨tail, tailCompiled, compiled⟩
  cases compiled
  exact ⟨head, tail, headCompiled, tailCompiled, rfl⟩

/-- What holds of each operand and its filter holds of the operands and their filters. -/
theorem map_eq_map_of_toFilters {α : Type} {predicates : List Predicate} {filters : List Filter}
    {image : Filter → α} {source : Predicate → α}
    (each : ∀ predicate ∈ predicates, ∀ filter,
      predicate.toFilter entity aliasName = .ok filter → image filter = source predicate)
    (compiled : toFilters entity aliasName predicates = .ok filters) :
    filters.map image = predicates.map source := by
  induction predicates generalizing filters with
  | nil =>
      cases compiled
      rfl
  | cons predicate predicates ih =>
      rcases toFilters_cons_eq_ok compiled with ⟨head, tail, headCompiled, tailCompiled, rfl⟩
      have rest := ih (fun other member => each other (List.mem_cons_of_mem _ member)) tailCompiled
      rw [List.map_cons, List.map_cons, rest,
        each predicate List.mem_cons_self head headCompiled]

/-- Every filter of the operands is the filter of one of them. -/
theorem exists_of_mem_toFilters {predicates : List Predicate} {filters : List Filter}
    (compiled : toFilters entity aliasName predicates = .ok filters) {filter : Filter}
    (member : filter ∈ filters) :
    ∃ predicate ∈ predicates, predicate.toFilter entity aliasName = .ok filter := by
  induction predicates generalizing filters with
  | nil =>
      cases compiled
      cases member
  | cons predicate predicates ih =>
      rcases toFilters_cons_eq_ok compiled with ⟨head, tail, headCompiled, tailCompiled, rfl⟩
      rcases List.mem_cons.mp member with rfl | member
      · exact ⟨predicate, List.mem_cons_self, headCompiled⟩
      · rcases ih tailCompiled member with ⟨other, otherMember, otherCompiled⟩
        exact ⟨other, List.mem_cons_of_mem _ otherMember, otherCompiled⟩

/-- A junction that compiles is the logical operation on the filters of its operands. -/
theorem toFilter_junction_eq_ok {connective : Connective} {operands : List Predicate}
    {span : Span} {filter : Filter}
    (compiled : (junction connective operands span).toFilter entity aliasName = .ok filter) :
    ∃ filters, toFilters entity aliasName operands = .ok filters ∧
      filter = .logical (Compiler.junctionOperator connective) filters := by
  rw [toFilter] at compiled
  rcases exists_of_bind_eq_ok compiled with ⟨filters, operandsCompiled, joined⟩
  refine ⟨filters, operandsCompiled, ?_⟩
  cases connective <;> cases filters <;> cases joined <;> rfl

theorem toFilter_negation_eq_ok {operand : Predicate} {span : Span} {filter : Filter}
    (compiled : (negation operand span).toFilter entity aliasName = .ok filter) :
    ∃ inner, operand.toFilter entity aliasName = .ok inner ∧ filter = .logical .nor [inner] := by
  rw [toFilter] at compiled
  rcases exists_of_bind_eq_ok compiled with ⟨inner, innerCompiled, built⟩
  cases built
  exact ⟨inner, innerCompiled, rfl⟩

/-! ## Preservation of truth -/

/-- The filter of a condition is as true of a document as the condition, with attributes
read where the schema puts them. -/
theorem truth_of_toFilter (store : OrderedStore) {document : Document}
    {read : AttributePath → Option Value}
    (reading : entity.IsReading aliasName document read) {predicate : Predicate} {filter : Filter}
    (compiled : predicate.toFilter entity aliasName = .ok filter) :
    filter.truth (store.truth document) = predicate.truth store.toStore read := by
  induction predicate using inductionOn generalizing filter with
  | comparison left operator right span =>
      rcases Entity.comparisonFilter_eq_ok compiled with
        ⟨path, value, field, named, sides | sides⟩
      all_goals
        rcases sides with ⟨pathSpan, valueSpan, rfl, rfl, rfl⟩
        simp only [Filter.truth, Store.truth, truth, Expression.value?, Value.nonNull?_ofLiteral,
          Entity.value?_of_isReading named reading]
      exact store.ternary_converse operator _ _
  | junction connective operands span ih =>
      rcases toFilter_junction_eq_ok compiled with ⟨filters, operandsCompiled, rfl⟩
      have each := map_eq_map_of_toFilters
        (fun operand member _ operandCompiled => ih operand member operandCompiled)
        operandsCompiled
      cases connective <;>
        simp only [Filter.truth, Compiler.junctionOperator, Logical.truth,
          Filter.truthOfEach_eq_map, each, truth, truthOfEach_eq_map]
  | negation operand span ih =>
      rcases toFilter_negation_eq_ok compiled with ⟨inner, innerCompiled, rfl⟩
      simp only [Filter.truth, Filter.truthOfEach_eq_map, List.map_cons, List.map_nil,
        Logical.truth, Ternary.any_singleton, ih innerCompiled, truth]
  | nullCheck subject negated span =>
      rcases Entity.nullCheckFilter_eq_ok compiled with ⟨path, pathSpan, field, named, rfl, rfl⟩
      have value := Entity.value?_of_isReading named reading
      cases negated <;>
        simp [Filter.truth, Store.truth, truth, Expression.value?, value, Document.isNull]
  | group inner span ih => exact ih compiled

/-! ## Where the conditions of a filter come from -/

/-- Every condition of a filter is the filter of a comparison or null check. -/
theorem exists_atom_of_mem_conditions {predicate : Predicate} {filter : Filter}
    (compiled : predicate.toFilter entity aliasName = .ok filter) {found : FieldCondition}
    (member : found ∈ filter.conditions) :
    ∃ atom ∈ predicate.atoms, atom.toFilter entity aliasName =
      .ok (.field found.path found.sensitive found.condition) := by
  induction predicate using inductionOn generalizing filter with
  | comparison left operator right span =>
      rcases Entity.eq_field_of_comparisonFilter compiled with ⟨path, sensitive, condition, rfl⟩
      simp only [Filter.conditions, List.mem_singleton] at member
      subst member
      exact ⟨_, List.mem_singleton_self _, compiled⟩
  | junction connective operands span ih =>
      rcases toFilter_junction_eq_ok compiled with ⟨filters, operandsCompiled, rfl⟩
      simp only [Filter.conditions, Filter.conditionsOfAll_eq_flatMap, List.mem_flatMap] at member
      rcases member with ⟨inner, innerMember, member⟩
      rcases exists_of_mem_toFilters operandsCompiled innerMember with
        ⟨operand, operandMember, innerCompiled⟩
      rcases ih operand operandMember innerCompiled member with ⟨atom, atomMember, atomCompiled⟩
      exact ⟨atom, mem_atoms_junction operandMember atomMember, atomCompiled⟩
  | negation operand span ih =>
      rcases toFilter_negation_eq_ok compiled with ⟨inner, innerCompiled, rfl⟩
      simp only [Filter.conditions, Filter.conditionsOfAll_eq_flatMap, List.flatMap_cons,
        List.flatMap_nil, List.append_nil] at member
      exact ih innerCompiled member
  | nullCheck subject negated span =>
      rcases Entity.nullCheckFilter_eq_ok compiled with ⟨path, pathSpan, field, named, rfl, rfl⟩
      simp only [Filter.conditions, List.mem_singleton] at member
      subst member
      exact ⟨_, List.mem_singleton_self _, compiled⟩
  | group inner span ih => exact ih compiled member

/-- The atoms of a condition are comparisons and null checks. -/
theorem mem_atoms_cases {predicate atom : Predicate} (member : atom ∈ predicate.atoms) :
    (∃ left operator right span, atom = comparison left operator right span) ∨
      ∃ subject negated span, atom = nullCheck subject negated span := by
  induction predicate using inductionOn with
  | comparison left operator right span =>
      exact Or.inl ⟨left, operator, right, span, List.mem_singleton.mp member⟩
  | junction connective operands span ih =>
      simp only [atoms, atomsOfAll_eq_flatMap, List.mem_flatMap] at member
      rcases member with ⟨operand, operandMember, member⟩
      exact ih operand operandMember member
  | negation operand span ih => exact ih member
  | nullCheck subject negated span =>
      exact Or.inr ⟨subject, negated, span, List.mem_singleton.mp member⟩
  | group inner span ih => exact ih member

/-- A condition of a filter either compares a field of the entity, as sensitive as the
field is, with a literal of the query, or it checks a field for null. -/
theorem mem_conditions_cases {predicate : Predicate} {filter : Filter}
    (compiled : predicate.toFilter entity aliasName = .ok filter) {found : FieldCondition}
    (member : found ∈ filter.conditions) :
    ∃ atom ∈ predicate.atoms, ∃ field ∈ entity.fields, found.path = field.path ∧
      ((∃ operator value, atom.comparedLiteral? = some value ∧
          found.condition = .compare operator (.ofLiteral value) ∧
          found.sensitive = field.isSensitive) ∨
        (atom.comparedLiteral? = none ∧ found.sensitive = false ∧
          (found.condition = .isNull ∨ found.condition = .notNull))) := by
  rcases exists_atom_of_mem_conditions compiled member with ⟨atom, atomMember, atomCompiled⟩
  refine ⟨atom, atomMember, ?_⟩
  rcases mem_atoms_cases atomMember with
    ⟨left, operator, right, span, rfl⟩ | ⟨subject, negated, span, rfl⟩
  · rcases Entity.comparisonFilter_eq_ok atomCompiled with
      ⟨path, value, field, named, sides | sides⟩
    all_goals
      rcases sides with ⟨pathSpan, valueSpan, rfl, rfl, same⟩
      injection same with samePath sameSensitive sameCondition
      exact ⟨field, Entity.mem_fields_of_fieldOf? named, samePath,
        Or.inl ⟨_, value, rfl, sameCondition, sameSensitive⟩⟩
  · rcases Entity.nullCheckFilter_eq_ok atomCompiled with
      ⟨path, pathSpan, field, named, rfl, same⟩
    injection same with samePath sameSensitive sameCondition
    refine ⟨field, Entity.mem_fields_of_fieldOf? named, samePath,
      Or.inr ⟨rfl, sameSensitive, ?_⟩⟩
    cases negated with
    | false => exact Or.inl sameCondition
    | true => exact Or.inr sameCondition

/-- A comparison without a guard is of a field that has a value in every document that
fits. -/
theorem nonNull_of_fits {predicate : Predicate} {filter : Filter} {document : Document}
    (compiled : predicate.toFilter entity aliasName = .ok filter) (fits : document.Fits entity)
    {found : FieldCondition} (member : found ∈ filter.conditions)
    (unguarded : found.sensitive = false) (isComparison : found.condition.isComparison = true) :
    document.isNull found.path = false := by
  rcases mem_conditions_cases compiled member with
    ⟨atom, atomMember, field, fieldMember, samePath, comparison | check⟩
  · rcases comparison with ⟨operator, value, compared, condition, sensitive⟩
    rw [samePath, field.path_eq_place]
    apply fits field fieldMember
    rw [← Field.isSensitive_eq_false_iff, ← sensitive]
    exact unguarded
  · rcases check with ⟨compared, sensitive, condition | condition⟩
    all_goals
      rw [condition] at isComparison
      cases isComparison

/-- Every alternative of a filter is the filter of an alternative of the condition. -/
theorem exists_branch_of_mem_branches {predicate : Predicate} {filter branch : Filter}
    (compiled : predicate.toFilter entity aliasName = .ok filter)
    (member : branch ∈ filter.branches) :
    ∃ source ∈ predicate.branches, source.toFilter entity aliasName = .ok branch := by
  induction predicate using inductionOn generalizing filter with
  | comparison left operator right span =>
      rcases Entity.eq_field_of_comparisonFilter compiled with ⟨path, sensitive, condition, rfl⟩
      simp only [Filter.branches, List.mem_singleton] at member
      subst member
      exact ⟨_, List.mem_singleton_self _, compiled⟩
  | junction connective operands span ih =>
      rcases toFilter_junction_eq_ok compiled with ⟨filters, operandsCompiled, rfl⟩
      cases connective with
      | and =>
          simp only [Compiler.junctionOperator, Filter.branches, List.mem_singleton] at member
          subst member
          exact ⟨_, List.mem_singleton_self _, compiled⟩
      | or =>
          simp only [Compiler.junctionOperator, Filter.branches,
            Filter.branchesOfAll_eq_flatMap, List.mem_flatMap] at member
          rcases member with ⟨inner, innerMember, member⟩
          rcases exists_of_mem_toFilters operandsCompiled innerMember with
            ⟨operand, operandMember, innerCompiled⟩
          rcases ih operand operandMember innerCompiled member with
            ⟨source, sourceMember, sourceCompiled⟩
          refine ⟨source, ?_, sourceCompiled⟩
          simp only [branches, branchesOfAll_eq_flatMap, List.mem_flatMap]
          exact ⟨operand, operandMember, sourceMember⟩
  | negation operand span ih =>
      rcases toFilter_negation_eq_ok compiled with ⟨inner, innerCompiled, rfl⟩
      simp only [Filter.branches, List.mem_singleton] at member
      subst member
      exact ⟨_, List.mem_singleton_self _, compiled⟩
  | nullCheck subject negated span =>
      rcases Entity.nullCheckFilter_eq_ok compiled with ⟨path, pathSpan, field, named, rfl, rfl⟩
      simp only [Filter.branches, List.mem_singleton] at member
      subst member
      exact ⟨_, List.mem_singleton_self _, compiled⟩
  | group inner span ih => exact ih compiled member

end Predicate

theorem Entity.validate_of_check {entity : Entity} (checked : entity.check = .ok ()) :
    entity.validate = .ok () := by
  rw [check] at checked
  cases outcome : entity.validate with
  | error error =>
      rw [outcome] at checked
      cases checked
  | ok => rfl

/-- The filter of a command is the guarded filter of the condition, and its schema is
valid. -/
theorem Statement.exists_filter_of_compile {statement : Statement} {entity : Entity}
    {command : Command} {predicate : Predicate}
    (compiled : statement.compile entity = .ok command)
    (condition : statement.condition = some predicate) :
    ∃ filter, entity.validate = .ok () ∧
      predicate.toFilter entity statement.aliasText = .ok filter ∧
      command.filter? = some filter.enforceNullSafety := by
  rw [Statement.compile_eq] at compiled
  rcases exists_of_bind_eq_ok compiled with ⟨_, checked, compiled⟩
  unfold Statement.toCommand at compiled
  split at compiled
  next =>
    rw [condition] at compiled
    rcases exists_of_bind_eq_ok compiled with ⟨filter, filterCompiled, built⟩
    cases built
    exact ⟨filter, Entity.validate_of_check checked, filterCompiled, rfl⟩
  next => cases compiled

end DocumentQuery
