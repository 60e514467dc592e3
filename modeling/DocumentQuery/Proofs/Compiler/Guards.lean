import DocumentQuery.Proofs.Compiler.EntryPoints
import DocumentQuery.Proofs.Compiler.Preservation
import DocumentQuery.Proofs.Statement.Parts
import Mathlib.Data.List.Forall2

/-!
# Where guards stand

The filter that a command matches with differs from the filter of the condition in one
way: guards were put beside some of its parts.  Each of them guards an attribute that
may be null and that the condition compares.  A null check asks for no guard, and neither
does an attribute that always has a value.
-/

namespace DocumentQuery

/-! ## Filters with guards -/

namespace Filter

/-- The second filter is the first with guards: some parts of it, none inside another,
were put in a conjunction with guards of paths that may be guarded. -/
inductive AddsGuards (mayGuard : String → Prop) : Filter → Filter → Prop where
  | same (filter : Filter) : AddsGuards mayGuard filter filter
  | guarded (filter : Filter) {paths : List String} (nonempty : paths ≠ [])
      (allowed : ∀ path ∈ paths, mayGuard path) :
      AddsGuards mayGuard filter (logical .and (filter :: paths.map guard))
  | inside (operator : Logical) {operands others : List Filter}
      (each : List.Forall₂ (AddsGuards mayGuard) operands others) :
      AddsGuards mayGuard (logical operator operands) (logical operator others)

variable {mayGuard : String → Prop}

theorem addsGuards_withGuards (filter : Filter) {paths : List String}
    (allowed : ∀ path ∈ paths, mayGuard path) :
    AddsGuards mayGuard filter (filter.withGuards paths) := by
  unfold withGuards
  split
  next => exact .same filter
  next nonempty => exact .guarded filter (by simpa using nonempty) allowed

/-- Enforcing null safety adds guards for sensitive paths and does nothing else. -/
theorem addsGuards_enforceNullSafety {filter : Filter}
    (allowed : ∀ path ∈ filter.sensitivePaths, mayGuard path) :
    AddsGuards mayGuard filter filter.enforceNullSafety := by
  induction filter using inductionOn with
  | field path sensitive condition =>
      apply addsGuards_withGuards
      cases sensitive with
      | false => simp
      | true => exact allowed
  | logical operator operands ih =>
      cases operator with
      | and | nor =>
          apply addsGuards_withGuards
          intro path unguarded
          exact allowed path (mem_sensitivePaths_of_mem_unguardedPaths unguarded)
      | or =>
          rw [enforceNullSafety, enforceNullSafetyAll_eq_map]
          apply AddsGuards.inside
          rw [List.forall₂_map_right_iff, List.forall₂_same]
          intro operand member
          apply ih operand member
          intro path sensitive
          apply allowed
          rw [mem_sensitivePaths_logical]
          exact ⟨operand, member, sensitive⟩

/-- Where nothing may be guarded, nothing is changed. -/
theorem eq_of_addsGuards (unneeded : ∀ path, ¬ mayGuard path) {filter other : Filter}
    (adds : AddsGuards mayGuard filter other) : other = filter := by
  have unguarded {paths : List String} (allowed : ∀ path ∈ paths, mayGuard path) :
      paths = [] := by
    rw [List.eq_nil_iff_forall_not_mem]
    intro path member
    exact unneeded path (allowed path member)
  induction filter using inductionOn generalizing other with
  | field path sensitive condition =>
      cases adds with
      | same => rfl
      | guarded _ nonempty allowed => exact absurd (unguarded allowed) nonempty
  | logical operator operands ih =>
      cases adds with
      | same => rfl
      | guarded _ nonempty allowed => exact absurd (unguarded allowed) nonempty
      | inside _ each =>
          congr 1
          induction each with
          | nil => rfl
          | cons head _ tailSame =>
              rw [ih _ List.mem_cons_self head,
                tailSame fun operand member => ih operand (List.mem_cons_of_mem _ member)]

end Filter

/-! ## Attributes that need guards -/

namespace Predicate

/-- The paths that stand alone on a side of a comparison. -/
def sidePaths : Predicate → List AttributePath
  | comparison left _ right _ => left.path?.toList ++ right.path?.toList
  | junction _ _ _ | negation _ _ | nullCheck _ _ _ | group _ _ => []

/-- The paths that a condition compares.  Those that it only checks for null are not among
them. -/
def comparedPaths (predicate : Predicate) : List AttributePath :=
  predicate.atoms.flatMap sidePaths

end Predicate

/-- Whether the attribute at a path may be null and is compared by a condition. -/
def Entity.NeedsGuard (entity : Entity) (aliasName : Option String) (predicate : Predicate)
    (path : String) : Prop :=
  ∃ field ∈ entity.fields, field.path = path ∧
    (∀ other ∈ entity.fields, other.path = path → other = field) ∧
    field.id = false ∧ field.primitive = false ∧ field.nullable = true ∧
    ∃ compared ∈ predicate.comparedPaths, field.name = compared.attributeName aliasName

theorem Field.isSensitive_iff (field : Field) :
    field.isSensitive = true ↔
      field.id = false ∧ field.primitive = false ∧ field.nullable = true := by
  rw [isSensitive_eq]
  cases field.id <;> cases field.primitive <;> cases field.nullable <;> decide

namespace Predicate

variable {entity : Entity} {aliasName : Option String}

theorem exists_compared_of_mem_conditions {predicate : Predicate} {filter : Filter}
    (compiled : predicate.toFilter entity aliasName = .ok filter) {found : FieldCondition}
    (member : found ∈ filter.conditions) (sensitive : found.sensitive = true) :
    ∃ field ∈ entity.fields, field.path = found.path ∧ field.isSensitive = true ∧
      ∃ compared ∈ predicate.comparedPaths, field.name = compared.attributeName aliasName := by
  rcases exists_atom_of_mem_conditions compiled member with ⟨atom, atomMember, atomCompiled⟩
  rcases mem_atoms_cases atomMember with
    ⟨left, operator, right, span, rfl⟩ | ⟨subject, negated, span, rfl⟩
  · rcases Entity.comparisonFilter_eq_ok atomCompiled with ⟨path, value, field, named, sides⟩
    have compared : path ∈ predicate.comparedPaths := by
      refine List.mem_flatMap.mpr ⟨_, atomMember, ?_⟩
      rcases sides with ⟨_, _, rfl, rfl, _⟩ | ⟨_, _, rfl, rfl, _⟩ <;>
        simp [sidePaths, Expression.path?]
    have same : found.path = field.path ∧ found.sensitive = field.isSensitive := by
      rcases sides with ⟨_, _, _, _, same⟩ | ⟨_, _, _, _, same⟩ <;>
        exact ⟨(Filter.field.inj same).1, (Filter.field.inj same).2.1⟩
    exact ⟨field, Entity.mem_fields_of_fieldOf? named, same.1.symm, same.2 ▸ sensitive,
      path, compared, Entity.name_of_fieldOf? named⟩
  · rcases Entity.nullCheckFilter_eq_ok atomCompiled with ⟨_, _, _, _, _, same⟩
    rw [(Filter.field.inj same).2.1] at sensitive
    cases sensitive

/-- The sensitive paths of a filter are those of attributes that need guards. -/
theorem needsGuard_of_mem_sensitivePaths (valid : entity.validate = .ok ())
    {predicate : Predicate} {filter : Filter}
    (compiled : predicate.toFilter entity aliasName = .ok filter) {path : String}
    (sensitive : path ∈ filter.sensitivePaths) : entity.NeedsGuard aliasName predicate path := by
  rcases (Filter.mem_sensitivePaths_iff filter path).mp sensitive with
    ⟨found, member, isSensitive, rfl⟩
  rcases exists_compared_of_mem_conditions compiled member isSensitive with
    ⟨field, fieldMember, samePath, fieldSensitive, compared⟩
  rcases (Field.isSensitive_iff field).mp fieldSensitive with ⟨notId, notPrimitive, nullable⟩
  refine ⟨field, fieldMember, samePath, ?_, notId, notPrimitive, nullable, compared⟩
  intro other otherMember otherPath
  exact Entity.field_eq_of_path_eq valid otherMember fieldMember (otherPath.trans samePath.symm)

end Predicate

/-- A command with a condition comes from a valid schema and from the filter of the
condition. -/
theorem Statement.exists_compileFilter_of_compile {statement : Statement} {entity : Entity}
    {command : Command} {predicate : Predicate}
    (condition : statement.condition = some predicate)
    (compiled : statement.compile entity = .ok command) :
    ∃ filter, entity.validate = .ok () ∧
      predicate.toFilter entity statement.aliasText = .ok filter ∧
      statement.compileFilter entity = .ok (some filter) ∧
      command.filter? = some filter.enforceNullSafety := by
  rcases exists_filter_of_compile compiled condition with
    ⟨filter, valid, filterCompiled, matched⟩
  rw [compile_eq_map_compileFilter] at compiled
  cases written : statement.compileFilter entity with
  | error error =>
      rw [written] at compiled
      cases compiled
  | ok found =>
      have built := (valid_and_toFilter_of_compileFilter written).2
      unfold toFilter at built
      split at built
      next =>
        rw [condition] at built
        simp only [filterCompiled] at built
        cases built
        exact ⟨filter, valid, filterCompiled, rfl, matched⟩
      next => cases built

/-- Guards stand only where a null is possible.  A command matches with the filter of its
condition, to which guards were added for attributes that may be null and are compared,
and nothing else was done.  So if each attribute that is compared is the identifier, or
of a primitive type, or required, then the filter is kept as it is. -/
theorem Statement.addsGuards_of_compile {statement : Statement} {entity : Entity}
    {command : Command} {predicate : Predicate}
    (condition : statement.condition = some predicate)
    (compiled : statement.compile entity = .ok command) :
    ∃ written matched, statement.compileFilter entity = .ok (some written) ∧
      command.filter? = some matched ∧
      written.AddsGuards (entity.NeedsGuard statement.aliasText predicate) matched ∧
      ((∀ path ∈ predicate.comparedPaths, ∀ field ∈ entity.fields,
          field.name = path.attributeName statement.aliasText →
            field.id = true ∨ field.primitive = true ∨ field.nullable = false) →
        matched = written) := by
  rcases exists_compileFilter_of_compile condition compiled with
    ⟨filter, valid, filterCompiled, written, matched⟩
  have adds : filter.AddsGuards (entity.NeedsGuard statement.aliasText predicate)
      filter.enforceNullSafety := by
    apply Filter.addsGuards_enforceNullSafety
    intro path sensitive
    exact Predicate.needsGuard_of_mem_sensitivePaths valid filterCompiled sensitive
  refine ⟨filter, filter.enforceNullSafety, written, matched, adds, ?_⟩
  intro required
  apply Filter.eq_of_addsGuards _ adds
  intro path needed
  rcases needed with
    ⟨field, member, _, _, notId, notPrimitive, nullable, compared, comparedMember, named⟩
  have always := required compared comparedMember field member named
  simp [notId, notPrimitive, nullable] at always

/-- The condition `not (b.stock > 3 or (isbn = 7 and title is null))`. -/
def Predicate.scarceAndTitled : Predicate :=
  .negation (.group (.junction .or
    [.comparison (.attribute ["b", "stock"]) .greater (.constant (.integer 3)) .nowhere,
      .group (.junction .and
        [.comparison (.attribute ["isbn"]) .equal (.constant (.integer 7)) .nowhere,
          .nullCheck (.attribute ["title"]) false .nowhere] .nowhere) .nowhere] .nowhere)
    .nowhere) .nowhere

/-- A price may be null and gets a guard, around the negation.  The stock and the number
of a book are never null, and a title that is only checked for null needs no guard. -/
theorem Statement.addsGuards_books :
    (∃ command written, (ofBooks .cheapAndTitled).compile .books = .ok command ∧
      (ofBooks .cheapAndTitled).compileFilter .books = .ok (some written) ∧
      command.filter? = some (.logical .and [written, .guard "cost"]) ∧
      written.AddsGuards (Entity.books.NeedsGuard (some "b") .cheapAndTitled)
        (.logical .and [written, .guard "cost"])) ∧
    ∃ command written, (ofBooks .scarceAndTitled).compile .books = .ok command ∧
      (ofBooks .scarceAndTitled).compileFilter .books = .ok (some written) ∧
      command.filter? = some written := by
  constructor
  · have condition : (ofBooks .cheapAndTitled).condition = some .cheapAndTitled := rfl
    have succeeds : ∃ command written, (ofBooks .cheapAndTitled).compile .books = .ok command ∧
        (ofBooks .cheapAndTitled).compileFilter .books = .ok (some written) ∧
        command.filter? = some (.logical .and [written, .guard "cost"]) :=
      ⟨_, _, rfl, rfl, rfl⟩
    rcases succeeds with ⟨command, written, compiled, sameWritten, sameMatched⟩
    rcases addsGuards_of_compile condition compiled with
      ⟨filter, matched, isWritten, isMatched, adds, _⟩
    rw [sameWritten] at isWritten
    rw [sameMatched] at isMatched
    cases isWritten
    cases isMatched
    exact ⟨command, written, compiled, sameWritten, sameMatched, adds⟩
  · have condition : (ofBooks .scarceAndTitled).condition = some .scarceAndTitled := rfl
    have required : ∀ path ∈ Predicate.scarceAndTitled.comparedPaths,
        ∀ field ∈ Entity.books.fields, field.name = path.attributeName (some "b") →
          field.id = true ∨ field.primitive = true ∨ field.nullable = false := by decide
    have succeeds : ∃ command, (ofBooks .scarceAndTitled).compile .books = .ok command :=
      ⟨_, rfl⟩
    rcases succeeds with ⟨command, compiled⟩
    rcases addsGuards_of_compile condition compiled with
      ⟨written, matched, isWritten, isMatched, _, kept⟩
    rw [kept required] at isMatched
    exact ⟨command, written, compiled, isWritten, isMatched⟩

end DocumentQuery
