import DocumentQuery.Proofs.Compiler.Recursion
import DocumentQuery.Proofs.Document.Rendering
import DocumentQuery.Proofs.Schema.Validation
import DocumentQuery.Tool.Run

/-!
# Two ways to compile a statement

A statement can be compiled to a command, or only its condition to a filter.  The two
fail for the same reasons, and the command matches with the guarded form of the filter.
So what the tool explains about a query is what it sends to the store.
-/

namespace DocumentQuery

/-! ## Statements -/

namespace Statement

variable {entity : Entity}

/-- The filter of the condition of a statement, if it has one. -/
def toFilter (entity : Entity) (statement : Statement) : Except CompileError (Option Filter) :=
  if statement.entity.name = entity.name then
    match statement.condition with
    | none => .ok none
    | some predicate => (predicate.toFilter entity statement.aliasText).map some
  else .error (.otherEntity entity.name statement.entity.name)

theorem compileFilter_eq (entity : Entity) (statement : Statement) :
    statement.compileFilter entity = (do entity.check; statement.toFilter entity) := by
  unfold compileFilter toFilter
  cases entity.check with
  | error error => rfl
  | ok checked =>
      by_cases sameEntity : statement.entity.name = entity.name
      · rw [if_pos sameEntity, if_neg (not_not_intro sameEntity)]
        cases statement.condition with
        | none => rfl
        | some predicate =>
            have compiled := Compiler.compilePredicate_eq
              (Compiler.idle_of_alias statement.aliasText) entity predicate
            simp only [aliasText] at compiled ⊢
            rw [compiled]
            cases predicate.toFilter entity (statement.aliasName.map Identifier.name) <;> rfl
      · rw [if_neg sameEntity, if_pos sameEntity]
        rfl

theorem toCommand_eq_map_toFilter (entity : Entity) (statement : Statement) :
    statement.toCommand entity = (statement.toFilter entity).map fun filter =>
      entity.commandWith (filter.map Filter.enforceNullSafety) := by
  unfold toCommand toFilter
  split
  next =>
    cases statement.condition with
    | none => rfl
    | some predicate =>
        simp only
        cases predicate.toFilter entity statement.aliasText <;> rfl
  next => rfl

/-- The command of a statement matches with the guarded filter of its condition. -/
theorem compile_eq_map_compileFilter (entity : Entity) (statement : Statement) :
    statement.compile entity = (statement.compileFilter entity).map fun filter =>
      entity.commandWith (filter.map Filter.enforceNullSafety) := by
  rw [compile_eq, compileFilter_eq]
  cases entity.check with
  | error error => rfl
  | ok checked => exact toCommand_eq_map_toFilter entity statement

/-- There is a filter when there is a condition. -/
theorem isSome_of_toFilter {statement : Statement} {filter : Option Filter}
    (compiled : statement.toFilter entity = .ok filter) :
    filter.isSome = statement.condition.isSome := by
  unfold toFilter at compiled
  split at compiled
  next =>
    split at compiled
    next without =>
      cases compiled
      rw [without]
      rfl
    next predicate condition =>
      cases result : predicate.toFilter entity statement.aliasText with
      | error error =>
          rw [result] at compiled
          cases compiled
      | ok inner =>
          rw [result] at compiled
          cases compiled
          rw [condition]
          rfl
  next => cases compiled

/-- A filter is compiled only after the schema is checked. -/
theorem valid_and_toFilter_of_compileFilter {statement : Statement} {filter : Option Filter}
    (compiled : statement.compileFilter entity = .ok filter) :
    entity.validate = .ok () ∧ statement.toFilter entity = .ok filter := by
  rw [compileFilter_eq, Entity.check] at compiled
  cases outcome : entity.validate with
  | error error =>
      rw [outcome] at compiled
      cases compiled
  | ok =>
      rw [outcome] at compiled
      exact ⟨rfl, compiled⟩

end Statement

/-- A valid schema has something to keep, so the projection is always there. -/
theorem Entity.pipeline_commandWith {entity : Entity} (valid : entity.validate = .ok ())
    (filter : Option Filter) :
    (entity.commandWith filter).pipeline =
      (filter.map Stage.filtering).toList ++ [.projection entity.paths] := by
  have kept := Entity.paths_ne_nil valid
  rw [commandWith]
  simp [kept]

@[simp] theorem Entity.filter?_commandWith (entity : Entity) (filter : Option Filter) :
    (entity.commandWith filter).filter? = filter := by
  cases filter with
  | some filter => rfl
  | none =>
      rw [Command.filter?, commandWith]
      cases entity.paths <;> rfl

/-! ## Documents of the tool -/

namespace Json

/-- The field of an object with the given name. -/
def member? (name : String) : Json → Option Json
  | object fields => fields.lookup name
  | _ => none

/-- What the first `$match` stage in the document of a command matches with. -/
def matched? (document : Json) : Option Json :=
  match document.member? "pipeline" with
  | some (array stages) => stages.findSome? (member? "$match")
  | _ => none

end Json

theorem Filter.document_ne_null (mode : EncodingMode) (filter : Filter) :
    filter.document mode ≠ .null := by
  cases filter with
  | field path sensitive condition => nofun
  | logical operator operands =>
      rw [document_logical]
      nofun

theorem Command.matched?_document (mode : EncodingMode) (command : Command) :
    (command.document mode).matched? = command.filter?.map (Filter.document mode) := by
  have each (stage : Stage) : (stage.document mode).member? "$match" =
      stage.filter?.map (Filter.document mode) := by
    cases stage <;> rfl
  change (command.pipeline.map (Stage.document mode)).findSome? (Json.member? "$match") = _
  rw [Command.filter?]
  induction command.pipeline with
  | nil => rfl
  | cons stage stages ih =>
      rw [List.map_cons, List.findSome?_cons, List.findSome?_cons, each, ih]
      cases stage.filter? <;> rfl

namespace Tool

/-- What the explanation of a filter looks like. -/
def explained (mode : EncodingMode) (filter : Option Filter) : Json :=
  .object [("filter", (filter.map (Filter.document mode)).getD .null),
    ("enforced", (filter.map fun filter => filter.enforceNullSafety.document mode).getD .null)]

theorem explanation_eq (entity : Entity) (mode : EncodingMode) (query : String) :
    explanation entity mode query =
      ((Statement.parse query).mapError .query).bind fun statement =>
        ((statement.compileFilter entity).mapError .compile).map (explained mode) := by
  unfold explanation
  cases Statement.parse query with
  | error error => rfl
  | ok statement =>
      change (((statement.compileFilter entity).mapError ToolError.compile).bind _) =
        ((statement.compileFilter entity).mapError ToolError.compile).map (explained mode)
      cases statement.compileFilter entity with
      | error error => rfl
      | ok filter =>
          cases filter with
          | none => rfl
          | some filter =>
              simp only [Except.mapError, Except.bind, Filter.toDocument_eq_ok]
              rfl

theorem commandDocument_eq (entity : Entity) (mode : EncodingMode) (query : String) :
    commandDocument entity mode query =
      ((Statement.parse query).mapError fun error => .compile (.query error)).bind
        fun statement => ((statement.compile entity).mapError .compile).map
          (Command.document mode) := by
  unfold commandDocument compileQuery
  simp only [Command.toDocument_eq_ok]
  cases Statement.parse query with
  | error error => rfl
  | ok statement =>
      change ((statement.compile entity).mapError ToolError.compile).bind _ =
        ((statement.compile entity).mapError ToolError.compile).map (Command.document mode)
      cases statement.compile entity <;> rfl

end Tool

/-- The reason why a query does not compile. -/
def ToolError.compileError? : ToolError → Option CompileError
  | .query error => some (.query error)
  | .compile error => some error
  | _ => none

/-- The two ways to compile a statement agree.  They fail with the same error, or the
command matches with the guarded filter, if there is a condition, and keeps all fields.
The explanation of a query shows what the document of its command matches with. -/
theorem Statement.compile_agrees_with_compileFilter (entity : Entity) :
    (∀ statement : Statement,
      match statement.compileFilter entity, statement.compile entity with
      | .error error, .error other => error = other
      | .ok filter, .ok command =>
          command.filter? = filter.map Filter.enforceNullSafety ∧
          filter.isSome = statement.condition.isSome ∧
          command.collection = entity.collection ∧
          command.pipeline =
            (command.filter?.map Stage.filtering).toList ++ [.projection entity.paths]
      | _, _ => False) ∧
    ∀ mode query,
      match Tool.explanation entity mode query, Tool.commandDocument entity mode query with
      | .error error, .error other =>
          ∃ cause, error.compileError? = some cause ∧ other.compileError? = some cause
      | .ok explanation, .ok document =>
          explanation.member? "enforced" = some (document.matched?.getD .null) ∧
          (explanation.member? "enforced" = some .null ↔ document.matched? = none)
      | _, _ => False := by
  constructor
  · intro statement
    rw [compile_eq_map_compileFilter]
    cases compiled : statement.compileFilter entity with
    | error error => rfl
    | ok filter =>
        rcases valid_and_toFilter_of_compileFilter compiled with ⟨valid, built⟩
        refine ⟨Entity.filter?_commandWith entity _, isSome_of_toFilter built, rfl, ?_⟩
        rw [Entity.filter?_commandWith]
        exact Entity.pipeline_commandWith valid _
  · intro mode query
    rw [Tool.explanation_eq, Tool.commandDocument_eq]
    cases parse query with
    | error error => exact ⟨.query error, rfl, rfl⟩
    | ok statement =>
        simp only [Except.mapError, Except.bind]
        rw [compile_eq_map_compileFilter]
        cases statement.compileFilter entity with
        | error error => exact ⟨error, rfl, rfl⟩
        | ok filter =>
            have matched : ((entity.commandWith (filter.map Filter.enforceNullSafety)).document
                mode).matched? =
                filter.map fun filter => filter.enforceNullSafety.document mode := by
              rw [Command.matched?_document, Entity.filter?_commandWith, Option.map_map]
              rfl
            simp only [Except.map, matched]
            refine ⟨rfl, ?_⟩
            cases filter with
            | none => exact ⟨fun _ => rfl, fun _ => rfl⟩
            | some filter =>
                refine ⟨fun isNull => ?_, nofun⟩
                exact absurd (Option.some.inj isNull) (Filter.document_ne_null mode _)

end DocumentQuery
