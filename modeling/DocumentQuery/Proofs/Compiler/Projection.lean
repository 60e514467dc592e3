import DocumentQuery.Proofs.Compiler.Alias
import DocumentQuery.Proofs.Compiler.Meaning
import DocumentQuery.Proofs.Document.Composition
import DocumentQuery.Proofs.Schema.Paths

/-!
# What a command keeps

The pipeline of a command ends with a projection to the fields of the entity.  A valid schema has
fields at distinct paths, among them the identifier, so that the projection is never left out and
that no path is written twice and takes the place of another.  The order in which the schema lists
its fields has no part in the command.
-/

namespace DocumentQuery

variable {entity : Entity} {fields : List Field}

/-! ## The order of the fields -/

theorem Entity.resolve_permuted (permuted : fields.Perm entity.fields)
    (valid : entity.validate = .ok ()) (aliasName : Option String) (path : AttributePath) :
    resolve { entity with fields } aliasName path = entity.resolve aliasName path := by
  simp only [resolve, field?_permuted permuted valid]

theorem Entity.commandWith_permuted (permuted : fields.Perm entity.fields)
    (filter : Option Filter) :
    commandWith { entity with fields } filter = entity.commandWith filter := by
  simp only [commandWith, paths_permuted permuted]

theorem Predicate.toFilter_permuted (permuted : fields.Perm entity.fields)
    (valid : entity.validate = .ok ()) (predicate : Predicate) (aliasName : Option String) :
    predicate.toFilter { entity with fields } aliasName = predicate.toFilter entity aliasName := by
  have same := toFilter_mapPaths fun path (_ : path ∈ predicate.paths) =>
    Entity.resolve_permuted permuted valid aliasName (id path)
  rwa [mapPaths_id] at same

namespace Statement

theorem toFilter_permuted (permuted : fields.Perm entity.fields)
    (valid : entity.validate = .ok ()) (statement : Statement) :
    statement.toFilter { entity with fields } = statement.toFilter entity := by
  simp only [toFilter, Predicate.toFilter_permuted permuted valid]

/-- A statement compiles to the same command in whatever order a valid schema lists its fields. -/
theorem compile_permuted (permuted : fields.Perm entity.fields)
    (valid : entity.validate = .ok ()) (statement : Statement) :
    statement.compile { entity with fields } = statement.compile entity := by
  rw [compile_eq, compile_eq, toCommand_eq_map_toFilter, toCommand_eq_map_toFilter,
    toFilter_permuted permuted valid, Entity.check, Entity.check,
    Entity.validate_permuted permuted valid, valid]
  simp only [Entity.commandWith_permuted permuted]

/-! ## The last stage -/

theorem exists_commandWith_of_compile {statement : Statement} {command : Command}
    (compiled : statement.compile entity = .ok command) :
    entity.validate = .ok () ∧ ∃ filter, command = entity.commandWith filter := by
  rw [compile_eq_map_compileFilter] at compiled
  cases filtered : statement.compileFilter entity with
  | error error =>
      rw [filtered] at compiled
      cases compiled
  | ok filter =>
      rw [filtered] at compiled
      cases compiled
      exact ⟨(valid_and_toFilter_of_compileFilter filtered).1, _, rfl⟩

end Statement

/-- The document of a command ends its pipeline with the paths of the entity. -/
theorem Entity.document_commandWith (valid : entity.validate = .ok ()) (filter : Option Filter)
    (mode : EncodingMode) :
    (entity.commandWith filter).document mode =
      .object [("aggregate", .string entity.collection),
        ("pipeline", .array ((filter.map Stage.filtering).toList.map (Stage.document mode) ++
          [.single "$project" (.object (entity.paths.map fun path => (path, .bool true)))]))] := by
  rw [Command.document, pipeline_commandWith valid, List.map_append, List.map_singleton,
    Stage.document_projection, eraseDups_of_nodup (nodup_paths valid)]
  rfl

/-- A command is rendered with a projection as its last stage.  The projection keeps exactly the
paths of the fields, one for each field and the identifier among them, in the strict order of their
bytes.  The command does not depend on the order of the fields in the schema. -/
theorem Statement.projection_of_compile {statement : Statement} {command : Command}
    (compiled : statement.compile entity = .ok command) (mode : EncodingMode) :
    (∃ (stages : List Json) (keys : List String),
      command.toDocument mode = .ok (.object [("aggregate", .string entity.collection),
        ("pipeline", .array (stages ++
          [.single "$project" (.object (keys.map fun key => (key, .bool true)))]))]) ∧
      (keys.Pairwise fun first second => utf8Bytes first < utf8Bytes second) ∧
      keys.Perm (entity.fields.map Field.path) ∧ "_id" ∈ keys) ∧
    ∀ fields : List Field, fields.Perm entity.fields →
      statement.compile { entity with fields } = .ok command := by
  rcases exists_commandWith_of_compile compiled with ⟨valid, filter, rfl⟩
  have rendered := Command.toDocument_eq_ok mode (entity.commandWith filter)
  rw [Entity.document_commandWith valid] at rendered
  constructor
  · exact ⟨_, entity.paths, rendered, Entity.pairwise_utf8Bytes_paths valid, entity.paths_perm,
      Entity.idPath_mem_paths valid⟩
  · intro fields permuted
    rw [compile_permuted permuted valid, compiled]

/-- An entity with paths outside the Latin letters. -/
def Entity.pieces : Entity where
  name := "Piece"
  collection := "pieces"
  fields := [{ name := "level", column := some "𝑥" }, .identifier "code",
    { name := "ligature", column := some "ﬀ", nullable := false }]

/-- The query `from Piece where level is null`. -/
def Statement.withoutLevel : Statement where
  entity := ⟨"Piece", .nowhere⟩
  aliasName := none
  condition := some (.nullCheck (.attribute ["level"]) false .nowhere)
  span := .nowhere

/-- Listed in either direction, the three fields give one command with their three paths. -/
theorem Statement.projection_pieces :
    ∃ command, withoutLevel.compile .pieces = .ok command ∧
      (∃ (stages : List Json) (keys : List String),
        command.toDocument .canonical = .ok (.object [("aggregate", .string "pieces"),
          ("pipeline", .array (stages ++
            [.single "$project" (.object (keys.map fun key => (key, .bool true)))]))]) ∧
        (keys.Pairwise fun first second => utf8Bytes first < utf8Bytes second) ∧
        keys.Perm ["𝑥", "_id", "ﬀ"] ∧ "_id" ∈ keys) ∧
      withoutLevel.compile { Entity.pieces with fields := Entity.pieces.fields.reverse } =
        .ok command := by
  have succeeds : ∃ command, withoutLevel.compile .pieces = .ok command := ⟨_, rfl⟩
  rcases succeeds with ⟨command, compiled⟩
  rcases projection_of_compile compiled .canonical with ⟨rendered, permuted⟩
  exact ⟨command, compiled, rendered, permuted _ (List.reverse_perm _)⟩

end DocumentQuery
