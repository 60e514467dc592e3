import DocumentQuery.Compiler.Walk

/-!
# Compiling queries

A query is compiled against the schema of its entity, which has to be valid.
-/

namespace DocumentQuery

/-- Check the schema of an entity. -/
def Entity.check (entity : Entity) : Except CompileError Unit := entity.validate.mapError .schema

/-- The command of a statement. -/
def Statement.compile (entity : Entity) (statement : Statement) : Except CompileError Command := do
  entity.check
  (Compiler.fresh.compileStatement entity statement).1

/-- The filter of a statement as it is written, if it has a condition. -/
def Statement.compileFilter (entity : Entity) (statement : Statement) :
    Except CompileError (Option Filter) := do
  entity.check
  if statement.entity.name ≠ entity.name then
    throw (.otherEntity entity.name statement.entity.name)
  match statement.condition with
  | none => return none
  | some predicate =>
      let compiler : Compiler := { aliasName := statement.aliasName.map Identifier.name }
      return some (← (compiler.compilePredicate entity predicate).1)

/-- The command of a query. -/
def compileQuery (entity : Entity) (query : String) : Except CompileError Command := do
  let statement ← (Statement.parse query).mapError .query
  statement.compile entity

end DocumentQuery
