import DocumentQuery.Proofs.Compiler.EntryPoints
import DocumentQuery.Proofs.Compiler.Meaning
import DocumentQuery.Proofs.Statement.Parts

/-!
# The name of the alias

The alias is a name that a statement gives to its entity for its own use.  Another name
will do as well, as long as it is not taken for the alias in a path where something else
was meant.  An alias that no path makes use of can be left out.
-/

namespace DocumentQuery

/-! ## Paths that begin with the alias -/

namespace AttributePath

/-- Whether a path begins with a name and goes on after it. -/
def IsLedBy (name : String) (path : AttributePath) : Prop :=
  2 ≤ path.segments.length ∧ path.segments.head? = some name

instance (name : String) (path : AttributePath) : Decidable (path.IsLedBy name) :=
  inferInstanceAs (Decidable (_ ∧ _))

/-- The path with another name in front, if the old one leads it. -/
def rename (old new : String) (path : AttributePath) : AttributePath :=
  if path.IsLedBy old then ⟨new :: path.segments.tail, path.span⟩ else path

theorem withoutAlias_eq_ite (name : String) (path : AttributePath) :
    path.withoutAlias name =
      if path.IsLedBy name then ⟨path.segments.tail, path.span⟩ else path := by
  rcases path with ⟨_ | ⟨first, _ | ⟨second, rest⟩⟩, span⟩
  · simp [withoutAlias, IsLedBy]
  · simp [withoutAlias, IsLedBy]
  · simp [withoutAlias, IsLedBy]

/-- Under the new alias a renamed path says what the path said under the old one. -/
theorem withoutAlias_rename {old new : String} {path : AttributePath}
    (free : ¬ path.IsLedBy new) :
    (path.rename old new).withoutAlias new = path.withoutAlias old := by
  rw [withoutAlias_eq_ite, withoutAlias_eq_ite, rename]
  by_cases led : path.IsLedBy old
  · have renamed : IsLedBy new ⟨new :: path.segments.tail, path.span⟩ := by
      have several := led.1
      refine ⟨?_, rfl⟩
      rw [List.length_cons, List.length_tail]
      omega
    rw [if_pos led, if_pos led, if_pos renamed]
    rfl
  · rw [if_neg led, if_neg led, if_neg free]

end AttributePath

theorem Entity.resolve_withoutAlias (entity : Entity) (name : String) (path : AttributePath) :
    entity.resolve none (path.withoutAlias name) = entity.resolve (some name) path := rfl

/-! ## Changing the paths of a condition -/

namespace Expression

mutual

/-- The expression with every path in it changed. -/
def mapPaths (change : AttributePath → AttributePath) : Expression → Expression
  | literal value span => literal value span
  | path target span => path (change target) span
  | call name arguments span => call name (mapPathsOfEach change arguments) span

def mapPathsOfEach (change : AttributePath → AttributePath) : List Expression → List Expression
  | [] => []
  | expression :: expressions =>
      expression.mapPaths change :: mapPathsOfEach change expressions

end

@[simp] theorem mapPathsOfEach_eq_map (change : AttributePath → AttributePath)
    (expressions : List Expression) :
    mapPathsOfEach change expressions = expressions.map (mapPaths change) := by
  induction expressions with
  | nil => rfl
  | cons expression expressions ih => rw [mapPathsOfEach, List.map_cons, ih]

theorem mapPaths_id (expression : Expression) : expression.mapPaths id = expression := by
  induction expression using inductionOn with
  | literal value span => rfl
  | path target span => rfl
  | call name arguments span ih =>
      rw [mapPaths, mapPathsOfEach_eq_map, List.map_congr_left ih, List.map_id']

end Expression

namespace Predicate

mutual

/-- The condition with every path in it changed. -/
def mapPaths (change : AttributePath → AttributePath) : Predicate → Predicate
  | comparison left operator right span =>
      comparison (left.mapPaths change) operator (right.mapPaths change) span
  | junction connective operands span =>
      junction connective (mapPathsOfEach change operands) span
  | negation operand span => negation (operand.mapPaths change) span
  | nullCheck subject negated span => nullCheck (subject.mapPaths change) negated span
  | group inner span => group (inner.mapPaths change) span

def mapPathsOfEach (change : AttributePath → AttributePath) : List Predicate → List Predicate
  | [] => []
  | predicate :: predicates => predicate.mapPaths change :: mapPathsOfEach change predicates

end

@[simp] theorem mapPathsOfEach_eq_map (change : AttributePath → AttributePath)
    (predicates : List Predicate) :
    mapPathsOfEach change predicates = predicates.map (mapPaths change) := by
  induction predicates with
  | nil => rfl
  | cons predicate predicates ih => rw [mapPathsOfEach, List.map_cons, ih]

theorem mapPaths_id (predicate : Predicate) : predicate.mapPaths id = predicate := by
  induction predicate using inductionOn with
  | comparison left operator right span =>
      rw [mapPaths, Expression.mapPaths_id, Expression.mapPaths_id]
  | junction connective operands span ih =>
      rw [mapPaths, mapPathsOfEach_eq_map, List.map_congr_left ih, List.map_id']
  | negation operand span ih => rw [mapPaths, ih]
  | nullCheck subject negated span => rw [mapPaths, Expression.mapPaths_id]
  | group inner span ih => rw [mapPaths, ih]

end Predicate

/-! ## Compiling with other paths -/

/-- Whether changed paths mean under another alias what the paths meant before. -/
def Entity.ResolvesAlike (entity : Entity) (aliasName newAlias : Option String)
    (change : AttributePath → AttributePath) (paths : List AttributePath) : Prop :=
  ∀ path ∈ paths, entity.resolve newAlias (change path) = entity.resolve aliasName path

variable {entity other : Entity} {aliasName newAlias : Option String}
variable {change : AttributePath → AttributePath}

theorem Entity.comparisonFilter_mapPaths {left right : Expression} (operator : Comparison)
    (alike : ∀ path ∈ left.paths ++ right.paths,
      other.resolve newAlias (change path) = entity.resolve aliasName path) :
    other.comparisonFilter newAlias (left.mapPaths change) operator (right.mapPaths change) =
      entity.comparisonFilter aliasName left operator right := by
  cases left with
  | call name arguments span => rfl
  | path path span =>
      cases right with
      | path | call => rfl
      | literal value literalSpan =>
          have same := alike path (by simp)
          simp only [Expression.mapPaths, comparisonFilter, same]
  | literal value span =>
      cases right with
      | literal | call => rfl
      | path path pathSpan =>
          have same := alike path (by simp)
          simp only [Expression.mapPaths, comparisonFilter, same]

theorem Entity.nullCheckFilter_mapPaths {subject : Expression} (negated : Bool)
    (alike : ∀ path ∈ subject.paths,
      other.resolve newAlias (change path) = entity.resolve aliasName path) :
    other.nullCheckFilter newAlias (subject.mapPaths change) negated =
      entity.nullCheckFilter aliasName subject negated := by
  cases subject with
  | literal | call => rfl
  | path path span =>
      have same := alike path (by simp)
      simp only [Expression.mapPaths, nullCheckFilter, same]

namespace Predicate

theorem toFilters_map_mapPaths {operands : List Predicate}
    (each : ∀ operand ∈ operands,
      (operand.mapPaths change).toFilter other newAlias = operand.toFilter entity aliasName) :
    toFilters other newAlias (operands.map (mapPaths change)) =
      toFilters entity aliasName operands := by
  induction operands with
  | nil => rfl
  | cons operand operands ih =>
      rw [List.map_cons, toFilters, toFilters, each operand List.mem_cons_self,
        ih fun later member => each later (List.mem_cons_of_mem _ member)]

/-- Conditions whose paths mean the same, also for another entity, compile alike, to the same
filter or the same error. -/
theorem toFilter_mapPaths {predicate : Predicate}
    (alike : ∀ path ∈ predicate.paths,
      other.resolve newAlias (change path) = entity.resolve aliasName path) :
    (predicate.mapPaths change).toFilter other newAlias =
      predicate.toFilter entity aliasName := by
  induction predicate using inductionOn with
  | comparison left operator right span =>
      rw [paths_comparison] at alike
      exact Entity.comparisonFilter_mapPaths operator alike
  | junction connective operands span ih =>
      rw [paths_junction] at alike
      have each := toFilters_map_mapPaths fun operand member =>
        ih operand member fun path inOperand =>
          alike path (List.mem_flatMap.mpr ⟨operand, member, inOperand⟩)
      rw [mapPaths, mapPathsOfEach_eq_map, toFilter, toFilter, each]
  | negation operand span ih =>
      rw [paths_negation] at alike
      rw [mapPaths, toFilter, toFilter, ih alike]
  | nullCheck subject negated span =>
      rw [paths_nullCheck] at alike
      exact Entity.nullCheckFilter_mapPaths negated alike
  | group inner span ih =>
      rw [paths_group] at alike
      exact ih alike

end Predicate

/-! ## Statements -/

namespace Statement

/-- The statement with another alias, also in front of the paths that the old one led. -/
def renameAlias (old : String) (new : Identifier) (statement : Statement) : Statement :=
  { statement with
    aliasName := some new
    condition := statement.condition.map (Predicate.mapPaths (.rename old new.name)) }

/-- The statement without its alias. -/
def dropAlias (statement : Statement) : Statement := { statement with aliasName := none }

theorem compile_eq_of_toFilter_eq {statement other : Statement}
    (same : other.toFilter entity = statement.toFilter entity) :
    other.compile entity = statement.compile entity ∧
      other.compileFilter entity = statement.compileFilter entity := by
  have sameFilter : other.compileFilter entity = statement.compileFilter entity := by
    rw [compileFilter_eq, compileFilter_eq, same]
  rw [compile_eq_map_compileFilter, compile_eq_map_compileFilter, sameFilter]
  exact ⟨rfl, rfl⟩

/-- Another alias and other paths do not matter as long as the paths mean the same. -/
theorem toFilter_mapPaths {statement : Statement} {newAlias : Option Identifier}
    (alike : entity.ResolvesAlike statement.aliasText (newAlias.map Identifier.name) change
      statement.paths) :
    toFilter entity { statement with
      aliasName := newAlias
      condition := statement.condition.map (Predicate.mapPaths change) } =
      statement.toFilter entity := by
  rcases statement with ⟨name, aliasName, condition, span⟩
  cases condition with
  | none => rfl
  | some predicate =>
      have same := Predicate.toFilter_mapPaths alike
      simp only [toFilter, aliasText, Option.map_some] at same ⊢
      rw [same]

theorem toFilter_renameAlias {statement : Statement} {old new : Identifier}
    (named : statement.aliasName = some old)
    (free : ∀ path ∈ statement.paths, ¬ path.IsLedBy new.name) :
    (statement.renameAlias old.name new).toFilter entity = statement.toFilter entity := by
  apply toFilter_mapPaths
  intro path member
  rw [aliasText, named, Option.map_some, Option.map_some, ← Entity.resolve_withoutAlias,
    ← Entity.resolve_withoutAlias, AttributePath.withoutAlias_rename (free path member)]

theorem toFilter_dropAlias {statement : Statement} {old : Identifier}
    (named : statement.aliasName = some old)
    (free : ∀ path ∈ statement.paths, ¬ path.IsLedBy old.name) :
    statement.dropAlias.toFilter entity = statement.toFilter entity := by
  have alike : entity.ResolvesAlike statement.aliasText (Option.map Identifier.name none) id
      statement.paths := by
    intro path member
    rw [aliasText, named, Option.map_some, Option.map_none, ← Entity.resolve_withoutAlias,
      AttributePath.withoutAlias_eq_ite, if_neg (free path member), id]
  have same := toFilter_mapPaths alike
  rw [funext Predicate.mapPaths_id, Option.map_id'] at same
  exact same

/-- The name of the alias does not matter.  A statement compiles to the same command and
the same filter, or fails with the same error, if its alias gets a name that leads none
of its paths, and also if the alias is left out where it leads none of them. -/
theorem compile_renameAlias (entity : Entity) {statement : Statement} {old : Identifier}
    (named : statement.aliasName = some old) :
    (∀ new : Identifier, (∀ path ∈ statement.paths, ¬ path.IsLedBy new.name) →
      (statement.renameAlias old.name new).compile entity = statement.compile entity ∧
      (statement.renameAlias old.name new).compileFilter entity =
        statement.compileFilter entity) ∧
    ((∀ path ∈ statement.paths, ¬ path.IsLedBy old.name) →
      statement.dropAlias.compile entity = statement.compile entity ∧
      statement.dropAlias.compileFilter entity = statement.compileFilter entity) := by
  constructor
  · intro new free
    exact compile_eq_of_toFilter_eq (toFilter_renameAlias named free)
  · intro free
    exact compile_eq_of_toFilter_eq (toFilter_dropAlias named free)

end Statement

/-- The condition that a path is above 20 and that `stock = 0`. -/
def Predicate.soldOutAbove (price : List String) : Predicate :=
  .junction .and
    [.comparison (.attribute price) .greater (.constant (.integer 20)) .nowhere,
      .comparison (.attribute ["stock"]) .equal (.constant (.integer 0)) .nowhere] .nowhere

/-- With `b.price` the alias can be called `book`, and with `price` it is not needed. -/
theorem Statement.compile_soldOutAbove_renamed :
    (∀ path ∈ (ofBooks (.soldOutAbove ["b", "price"])).paths, ¬ path.IsLedBy "book") ∧
    (∃ command, (ofBooks (.soldOutAbove ["b", "price"])).compile .books = .ok command ∧
      ((ofBooks (.soldOutAbove ["b", "price"])).renameAlias "b" ⟨"book", .nowhere⟩).compile
        .books = .ok command) ∧
    (∀ path ∈ (ofBooks (.soldOutAbove ["price"])).paths, ¬ path.IsLedBy "b") ∧
    ∃ command, (ofBooks (.soldOutAbove ["price"])).compile .books = .ok command ∧
      (ofBooks (.soldOutAbove ["price"])).dropAlias.compile .books = .ok command := by
  have free : ∀ path ∈ (ofBooks (.soldOutAbove ["b", "price"])).paths,
      ¬ path.IsLedBy "book" := by decide
  have unused : ∀ path ∈ (ofBooks (.soldOutAbove ["price"])).paths, ¬ path.IsLedBy "b" := by
    decide
  have named (condition : Predicate) : (ofBooks condition).aliasName = some ⟨"b", .nowhere⟩ := rfl
  have succeeds : ∃ command, (ofBooks (.soldOutAbove ["b", "price"])).compile .books =
      .ok command := ⟨_, rfl⟩
  have plainSucceeds : ∃ command, (ofBooks (.soldOutAbove ["price"])).compile .books =
      .ok command := ⟨_, rfl⟩
  rcases succeeds with ⟨command, compiled⟩
  rcases plainSucceeds with ⟨plain, plainCompiled⟩
  refine ⟨free, ⟨command, compiled, ?_⟩, unused, plain, plainCompiled, ?_⟩
  · rw [← compiled]
    exact ((compile_renameAlias .books (named _)).1 ⟨"book", .nowhere⟩ free).1
  · rw [← plainCompiled]
    exact ((compile_renameAlias .books (named _)).2 unused).1

end DocumentQuery
