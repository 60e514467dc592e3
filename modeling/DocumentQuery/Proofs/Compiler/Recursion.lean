import DocumentQuery.Compiler.Query
import DocumentQuery.Proofs.Statement.Basic

/-!
# Compilation as a recursion

The compiler hands values over through a slot and keeps errors aside while it walks
over a condition.  `Predicate.toFilter` compiles the same condition by plain recursion,
without any state.  The two agree: a walk puts down exactly what the recursion
returns, and it leaves the compiler as it was.
-/

namespace DocumentQuery

/-! ## The recursion -/

namespace Entity

/-- The field that a path names.  The alias in front of it is no part of the name. -/
def fieldOf? (entity : Entity) (aliasName : Option String) (path : AttributePath) :
    Option Field :=
  entity.field? (aliasName.elim path path.withoutAlias).display

theorem resolve_of_fieldOf? {entity : Entity} {aliasName : Option String}
    {path : AttributePath} {field : Field} (named : entity.fieldOf? aliasName path = some field) :
    entity.resolve aliasName path = .ok ⟨field.path, field.isSensitive⟩ := by
  cases aliasName <;>
    simp only [fieldOf?, Option.elim] at named <;>
    simp only [resolve, named]

theorem resolve_of_fieldOf?_eq_none {entity : Entity} {aliasName : Option String}
    {path : AttributePath} (unnamed : entity.fieldOf? aliasName path = none) :
    entity.resolve aliasName path =
      .error (.unknownField entity.name (aliasName.elim path path.withoutAlias).display) := by
  cases aliasName <;>
    simp only [fieldOf?, Option.elim] at unnamed <;>
    simp only [resolve, unnamed, Option.elim]

/-- The filter of a comparison between an attribute and a literal.  An operator changes
sides with its operands. -/
def comparisonFilter (entity : Entity) (aliasName : Option String) :
    Expression → Comparison → Expression → Except CompileError Filter
  | .path path _, operator, .literal value _ => do
      let field ← entity.resolve aliasName path
      return .field field.path field.sensitive (.compare operator (.ofLiteral value))
  | .literal value _, operator, .path path _ => do
      let field ← entity.resolve aliasName path
      return .field field.path field.sensitive (.compare operator.converse (.ofLiteral value))
  | left, _, _ => .error (.comparisonShape left.span.line left.span.column)

/-- The filter of a null check.  Only attributes can be checked. -/
def nullCheckFilter (entity : Entity) (aliasName : Option String) :
    Expression → Bool → Except CompileError Filter
  | .path path _, negated => do
      let field ← entity.resolve aliasName path
      return .field field.path false (if negated then .notNull else .isNull)
  | .call name _ _, _ => .error (.functionCall name)
  | .literal _ _, _ => .error (.handoff (.tagMismatch "field path" "field value"))

end Entity

/-- Filters joined by a connective.  There has to be one. -/
def Connective.joinFilters (connective : Connective) : List Filter → Except CompileError Filter
  | [] => match connective with
      | .and => .error (.filter (.noOperands .and))
      | .or => .error (.filter (.noOperands .or))
  | filters => match connective with
      | .and => .ok (.logical .and filters)
      | .or => .ok (.logical .or filters)

namespace Predicate

mutual

/-- The filter of a condition. -/
def toFilter (entity : Entity) (aliasName : Option String) :
    Predicate → Except CompileError Filter
  | comparison left operator right _ => entity.comparisonFilter aliasName left operator right
  | junction connective operands _ => do
      let filters ← toFilters entity aliasName operands
      connective.joinFilters filters
  | negation operand _ => do
      let filter ← toFilter entity aliasName operand
      return .logical .nor [filter]
  | nullCheck subject negated _ => entity.nullCheckFilter aliasName subject negated
  | group inner _ => toFilter entity aliasName inner

/-- The filters of several conditions, up to the first error. -/
def toFilters (entity : Entity) (aliasName : Option String) :
    List Predicate → Except CompileError (List Filter)
  | [] => return []
  | predicate :: predicates => do
      let filter ← toFilter entity aliasName predicate
      let filters ← toFilters entity aliasName predicates
      return filter :: filters

end

end Predicate

/-- The name under which a statement speaks of its entity, if it gives one. -/
def Statement.aliasText (statement : Statement) : Option String :=
  statement.aliasName.map Identifier.name

/-- The command that matches with a filter, if there is one, and keeps all fields. -/
def Entity.commandWith (entity : Entity) (filter : Option Filter) : Command where
  collection := entity.collection
  pipeline := (filter.map Stage.filtering).toList ++
    if entity.paths.isEmpty then [] else [.projection entity.paths]

/-- The command of a statement. -/
def Statement.toCommand (entity : Entity) (statement : Statement) :
    Except CompileError Command :=
  if statement.entity.name = entity.name then
    match statement.condition with
    | none => .ok (entity.commandWith none)
    | some predicate => do
        let filter ← predicate.toFilter entity statement.aliasText
        return entity.commandWith (some filter.enforceNullSafety)
  else .error (.otherEntity entity.name statement.entity.name)

/-! ## One exchange -/

namespace Handoff

variable {Kind : Type} [DecidableEq Kind] {Content : Kind → Type}

/-- Nothing is put down and no violation is remembered. -/
structure Clear (handoff : Handoff Content) : Prop where
  slot : handoff.slot = none
  fault : handoff.fault = none

variable {handoff : Handoff Content}

/-- A receiver gets the value that is put down under its tag. -/
theorem collect_put (clear : handoff.Clear) (tag : Tag Kind) (value : Content tag.kind) :
    (((handoff.enter tag).put tag value).leave handoff.expected).collect tag =
      (.ok value, handoff) := by
  rcases handoff with ⟨expected, slot, fault, depth⟩
  rcases clear with ⟨rfl, rfl⟩
  simp [put, enter, leave, collect, open?]

/-- A value put down under another tag is refused. -/
theorem collect_put_other (clear : handoff.Clear) {tag other : Tag Kind}
    (different : tag ≠ other) (value : Content other.kind) :
    (((handoff.enter tag).put other value).leave handoff.expected).collect tag =
      (.error (.tagMismatch tag.name other.name), handoff) := by
  rcases handoff with ⟨expected, slot, fault, depth⟩
  rcases clear with ⟨rfl, rfl⟩
  simp [put, enter, leave, collect, remember, different]

/-- A receiver complains if nothing is put down. -/
theorem collect_nothing (clear : handoff.Clear) (tag : Tag Kind) :
    ((handoff.enter tag).leave handoff.expected).collect tag =
      (.error (.nothingPut tag.name), handoff) := by
  rcases handoff with ⟨expected, slot, fault, depth⟩
  rcases clear with ⟨rfl, rfl⟩
  simp [enter, leave, collect]

end Handoff

namespace Compiler

/-- A compiler between two exchanges: nothing is put down and nothing went wrong.  It may
be in the middle of a walk, with receivers waiting. -/
structure Idle (compiler : Compiler) : Prop where
  failure : compiler.failure = none
  clear : compiler.handoff.Clear

theorem idle_of_alias (aliasName : Option String) : ({ aliasName } : Compiler).Idle :=
  ⟨rfl, rfl, rfl⟩

/-- The compiler with one more receiver waiting. -/
def awaiting (compiler : Compiler) (tag : Tag Part) : Compiler :=
  { compiler with handoff := compiler.handoff.enter tag }

theorem Idle.awaiting {compiler : Compiler} (idle : compiler.Idle) (tag : Tag Part) :
    (compiler.awaiting tag).Idle :=
  ⟨idle.failure, idle.clear.slot, idle.clear.fault⟩

variable {compiler : Compiler}

/-- With the slot free, a receiver walks on and takes what is put down. -/
theorem ask_of_idle (idle : compiler.Idle) (tag : Tag Part) (walk : Compiler → Compiler) :
    compiler.ask tag walk =
      let inner := walk (compiler.awaiting tag)
      let collected := (inner.handoff.leave compiler.handoff.expected).collect tag
      { inner with handoff := collected.2 }.conclude collected.1 := by
  unfold ask
  rw [idle.clear.slot]
  rfl

/-- What a walk settles under the tag of its receiver is what the receiver gets.  The
exchange leaves no trace but the alias. -/
theorem ask_of_settle_with_alias (idle : compiler.Idle) {tag : Tag Part}
    {walk : Compiler → Compiler} {aliasName : Option String}
    {result : Except CompileError tag.kind.Content}
    (settles : walk (compiler.awaiting tag) =
      { compiler.awaiting tag with aliasName }.settle tag result) :
    compiler.ask tag walk = (result, { compiler with aliasName }) := by
  rw [ask_of_idle idle, settles]
  rcases compiler with ⟨previous, failure, handoff⟩
  rcases idle with ⟨rfl, clear⟩
  cases result with
  | ok value =>
      simp only [settle, put, awaiting, Handoff.collect_put clear]
      rfl
  | error error =>
      simp only [settle, fail, awaiting, Handoff.collect_nothing clear]
      rfl

/-- A walk that keeps the alias leaves no trace at all. -/
theorem ask_of_settle (idle : compiler.Idle) {tag : Tag Part} {walk : Compiler → Compiler}
    {result : Except CompileError tag.kind.Content}
    (settles : walk (compiler.awaiting tag) = (compiler.awaiting tag).settle tag result) :
    compiler.ask tag walk = (result, compiler) :=
  ask_of_settle_with_alias idle settles

/-- A value put down under another tag is refused, and the exchange leaves no trace. -/
theorem ask_of_put_other (idle : compiler.Idle) {tag other : Tag Part}
    (different : tag ≠ other) {walk : Compiler → Compiler} {value : other.kind.Content}
    (puts : walk (compiler.awaiting tag) = (compiler.awaiting tag).put other value) :
    compiler.ask tag walk =
      (.error (.handoff (.tagMismatch tag.name other.name)), compiler) := by
  rw [ask_of_idle idle, puts]
  rcases compiler with ⟨aliasName, failure, handoff⟩
  rcases idle with ⟨rfl, clear⟩
  simp only [put, awaiting, Handoff.collect_put_other clear different]
  rfl

/-! ## Expressions -/

theorem ask_path (idle : compiler.Idle) (entity : Entity) (path : AttributePath) (span : Span) :
    (compiler.ask Part.fieldPath.tag fun compiler =>
      compiler.visitExpression entity (.path path span)) =
      (entity.resolve compiler.aliasName path, compiler) :=
  ask_of_settle idle rfl

theorem ask_literal (idle : compiler.Idle) (entity : Entity) (value : Literal) (span : Span) :
    (compiler.ask Part.fieldValue.tag fun compiler =>
      compiler.visitExpression entity (.literal value span)) =
      (.ok (Value.ofLiteral value), compiler) :=
  ask_of_settle idle rfl

theorem compileComparison_eq (idle : compiler.Idle) (entity : Entity) (left : Expression)
    (operator : Comparison) (right : Expression) :
    compiler.compileComparison entity left operator right =
      (entity.comparisonFilter compiler.aliasName left operator right, compiler) := by
  cases left with
  | call name arguments span => rfl
  | path path span =>
      cases right with
      | path | call => rfl
      | literal value literalSpan =>
          simp only [compileComparison, orient?, ask_path idle, Entity.comparisonFilter]
          cases entity.resolve compiler.aliasName path with
          | error error => rfl
          | ok field =>
              simp only [ask_literal idle]
              rfl
  | literal value span =>
      cases right with
      | literal | call => rfl
      | path path pathSpan =>
          simp only [compileComparison, orient?, ask_path idle, Entity.comparisonFilter]
          cases entity.resolve compiler.aliasName path with
          | error error => rfl
          | ok field =>
              simp only [ask_literal idle]
              rfl

theorem compileNullCheck_eq (idle : compiler.Idle) (entity : Entity) (subject : Expression)
    (negated : Bool) :
    compiler.compileNullCheck entity subject negated =
      (entity.nullCheckFilter compiler.aliasName subject negated, compiler) := by
  cases subject with
  | path path span =>
      simp only [compileNullCheck, ask_path idle, Entity.nullCheckFilter]
      cases entity.resolve compiler.aliasName path <;> rfl
  | call name arguments span =>
      have refused : (compiler.ask Part.fieldPath.tag fun compiler =>
          compiler.visitExpression entity (.call name arguments span)) =
          (.error (.functionCall name), compiler) := ask_of_settle idle rfl
      simp only [compileNullCheck, refused, Entity.nullCheckFilter]
  | literal value span =>
      have refused : (compiler.ask Part.fieldPath.tag fun compiler =>
          compiler.visitExpression entity (.literal value span)) = _ :=
        ask_of_put_other idle (by decide) rfl
      simp only [compileNullCheck, refused, Entity.nullCheckFilter]
      rfl

/-! ## Conditions -/

theorem join_junctionOperator (connective : Connective) (filters : List Filter) :
    join (junctionOperator connective) filters = connective.joinFilters filters := by
  cases connective <;> cases filters <;> rfl

/-- Operands are compiled one after the other if each of them settles what the recursion
returns. -/
theorem compileOperands_eq (entity : Entity) (operands : List Predicate)
    (settles : ∀ operand ∈ operands, ∀ compiler : Compiler, compiler.Idle →
      visitPredicate entity operand compiler =
        compiler.settle Part.filter.tag (operand.toFilter entity compiler.aliasName))
    (idle : compiler.Idle) :
    compileOperands entity operands compiler =
      (Predicate.toFilters entity compiler.aliasName operands, compiler) := by
  induction operands with
  | nil => rfl
  | cons operand operands ih =>
      have asked : (compiler.ask Part.filter.tag fun compiler =>
          visitPredicate entity operand compiler) =
          (operand.toFilter entity compiler.aliasName, compiler) :=
        ask_of_settle idle
          (settles operand List.mem_cons_self _ (idle.awaiting Part.filter.tag))
      have rest := ih fun other member => settles other (List.mem_cons_of_mem _ member)
      rw [compileOperands, asked, Predicate.toFilters]
      cases operand.toFilter entity compiler.aliasName with
      | error error => rfl
      | ok filter =>
          simp only [rest]
          cases Predicate.toFilters entity compiler.aliasName operands <;> rfl

/-- A walk over a condition settles what the recursion returns. -/
theorem visitPredicate_eq_settle (entity : Entity) (predicate : Predicate)
    (compiler : Compiler) (idle : compiler.Idle) :
    visitPredicate entity predicate compiler =
      compiler.settle Part.filter.tag (predicate.toFilter entity compiler.aliasName) := by
  induction predicate using Predicate.inductionOn generalizing compiler with
  | comparison left operator right span =>
      rw [visitPredicate, compileComparison_eq idle, Predicate.toFilter]
  | junction connective operands span ih =>
      rw [visitPredicate, compileOperands_eq entity operands ih idle, Predicate.toFilter]
      simp only [funext (join_junctionOperator connective)]
      rfl
  | negation operand span ih =>
      have asked : (compiler.ask Part.filter.tag fun compiler =>
          visitPredicate entity operand compiler) =
          (operand.toFilter entity compiler.aliasName, compiler) :=
        ask_of_settle idle (ih _ (idle.awaiting Part.filter.tag))
      rw [visitPredicate, asked, Predicate.toFilter]
      cases operand.toFilter entity compiler.aliasName <;> rfl
  | nullCheck subject negated span =>
      rw [visitPredicate, compileNullCheck_eq idle, Predicate.toFilter]
  | group inner span ih =>
      rw [visitPredicate, ih compiler idle, Predicate.toFilter]

/-- An idle compiler compiles a condition as the recursion does and is idle again. -/
theorem compilePredicate_eq (idle : compiler.Idle) (entity : Entity) (predicate : Predicate) :
    compiler.compilePredicate entity predicate =
      (predicate.toFilter entity compiler.aliasName, compiler) :=
  ask_of_settle idle
    (visitPredicate_eq_settle entity predicate _ (idle.awaiting Part.filter.tag))

/-! ## Statements -/

theorem compileSelection_eq (idle : compiler.Idle) (entity : Entity) {statement : Statement}
    (sameEntity : statement.entity.name = entity.name) :
    compiler.compileSelection entity statement =
      (statement.toCommand entity, { compiler with aliasName := statement.aliasText }) := by
  have renamedIdle : ({ compiler with aliasName := statement.aliasText } : Compiler).Idle :=
    ⟨idle.failure, idle.clear⟩
  simp only [compileSelection, Statement.toCommand, if_pos sameEntity]
  cases statement.condition with
  | none => rfl
  | some predicate =>
      have compiled := compilePredicate_eq renamedIdle entity predicate
      simp only [Statement.aliasText] at compiled
      simp only [compiled, Statement.aliasText]
      cases predicate.toFilter entity (statement.aliasName.map Identifier.name) <;> rfl

/-- An idle compiler compiles a statement as the recursion does and is idle again.  It
remembers the alias of the last statement about its entity. -/
theorem compileStatement_eq (idle : compiler.Idle) (entity : Entity) (statement : Statement) :
    compiler.compileStatement entity statement =
      (statement.toCommand entity,
        { compiler with
          aliasName := if statement.entity.name = entity.name then statement.aliasText
            else compiler.aliasName }) := by
  apply ask_of_settle_with_alias idle
  by_cases sameEntity : statement.entity.name = entity.name
  · rw [visitStatement, compileSelection_eq (idle.awaiting _) entity sameEntity,
      if_pos sameEntity]
  · simp only [visitStatement, compileSelection, Statement.toCommand, if_neg sameEntity]
    rfl

end Compiler

/-- A statement is compiled by the recursion once its schema is checked. -/
theorem Statement.compile_eq (entity : Entity) (statement : Statement) :
    statement.compile entity = (do entity.check; statement.toCommand entity) := by
  rw [Statement.compile, Compiler.compileStatement_eq ⟨rfl, rfl, rfl⟩]

/-! ## Errors of the recursion -/

namespace Predicate

variable {entity : Entity} {aliasName : Option String}

/-- The error about several conditions is the error about one of them. -/
theorem exists_of_toFilters_eq_error {predicates : List Predicate} {error : CompileError}
    (failed : toFilters entity aliasName predicates = .error error) :
    ∃ predicate ∈ predicates, predicate.toFilter entity aliasName = .error error := by
  induction predicates with
  | nil => cases failed
  | cons predicate predicates ih =>
      rw [toFilters] at failed
      cases head : predicate.toFilter entity aliasName with
      | error first =>
          rw [head] at failed
          cases failed
          exact ⟨predicate, List.mem_cons_self, head⟩
      | ok filter =>
          rw [head] at failed
          cases tail : toFilters entity aliasName predicates with
          | error first =>
              rw [tail] at failed
              cases failed
              rcases ih tail with ⟨other, member, otherFailed⟩
              exact ⟨other, List.mem_cons_of_mem _ member, otherFailed⟩
          | ok filters =>
              rw [tail] at failed
              cases failed

theorem resolve_ne_handoff (path : AttributePath) (violation : Violation) :
    entity.resolve aliasName path ≠ .error (.handoff violation) := by
  cases named : entity.fieldOf? aliasName path with
  | some field =>
      rw [Entity.resolve_of_fieldOf? named]
      nofun
  | none =>
      rw [Entity.resolve_of_fieldOf?_eq_none named]
      nofun

theorem comparisonFilter_ne_handoff (left : Expression) (operator : Comparison)
    (right : Expression) (violation : Violation) :
    entity.comparisonFilter aliasName left operator right ≠ .error (.handoff violation) := by
  intro failed
  cases left with
  | call name arguments span => cases failed
  | path path span =>
      cases right with
      | path | call => cases failed
      | literal value literalSpan =>
          cases resolved : entity.resolve aliasName path <;>
            rw [Entity.comparisonFilter, resolved] at failed <;> cases failed
          exact resolve_ne_handoff path violation resolved
  | literal value span =>
      cases right with
      | literal | call => cases failed
      | path path pathSpan =>
          cases resolved : entity.resolve aliasName path <;>
            rw [Entity.comparisonFilter, resolved] at failed <;> cases failed
          exact resolve_ne_handoff path violation resolved

/-- Handing over goes wrong only where a literal is checked for null. -/
theorem violation_of_toFilter_eq_error {predicate : Predicate} {violation : Violation}
    (failed : predicate.toFilter entity aliasName = .error (.handoff violation)) :
    violation = .tagMismatch "field path" "field value" := by
  induction predicate using inductionOn with
  | comparison left operator right span =>
      exact absurd failed (comparisonFilter_ne_handoff left operator right violation)
  | junction connective operands span ih =>
      rw [toFilter] at failed
      cases each : toFilters entity aliasName operands with
      | error first =>
          rw [each] at failed
          cases failed
          rcases exists_of_toFilters_eq_error each with ⟨operand, member, operandFailed⟩
          exact ih operand member operandFailed
      | ok filters =>
          rw [each] at failed
          cases connective <;> cases filters <;> cases failed
  | negation operand span ih =>
      rw [toFilter] at failed
      cases inner : operand.toFilter entity aliasName with
      | error first =>
          rw [inner] at failed
          cases failed
          exact ih inner
      | ok filter =>
          rw [inner] at failed
          cases failed
  | nullCheck subject negated span =>
      cases subject with
      | path path pathSpan =>
          rw [toFilter, Entity.nullCheckFilter] at failed
          cases resolved : entity.resolve aliasName path <;>
            rw [resolved] at failed <;> cases failed
          exact absurd resolved (resolve_ne_handoff path violation)
      | call name arguments callSpan => cases failed
      | literal value literalSpan =>
          cases failed
          rfl
  | group inner span ih => exact ih failed

end Predicate

namespace Compiler

/-- Compiling a condition, whatever the alias, returns what the recursion returns and
leaves the compiler ready for the next condition.  No error is hidden behind a complaint
about handing over: the only one is about a literal that is checked for null. -/
theorem compilePredicate_eq_toFilter (entity : Entity) (aliasName : Option String)
    (predicate : Predicate) :
    ({ aliasName } : Compiler).compilePredicate entity predicate =
        (predicate.toFilter entity aliasName, { aliasName }) ∧
      ∀ violation, predicate.toFilter entity aliasName = .error (.handoff violation) →
        violation = .tagMismatch "field path" "field value" :=
  ⟨compilePredicate_eq (idle_of_alias aliasName) entity predicate,
    fun _ failed => Predicate.violation_of_toFilter_eq_error failed⟩

end Compiler

end DocumentQuery
