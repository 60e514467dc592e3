import DocumentQuery.Command.Basic
import DocumentQuery.Compiler.Error
import DocumentQuery.Filter.NullSafety

/-!
# Compiling by a walk

The compiler walks over a statement.  Each node puts down the one value that it
stands for, and the node above receives it.  The first error is kept until the
next receiver returns it, ahead of any complaint about a value that is missing.
-/

namespace DocumentQuery

/-- What the compiler hands over. -/
inductive Part where
  | filter
  | fieldPath
  | fieldValue
  | command
  deriving DecidableEq, Repr

/-- Where an attribute lies in documents, and whether it may be null. -/
structure ResolvedField where
  path : String
  sensitive : Bool
  deriving DecidableEq, Repr

namespace Part

/-- The values of each part. -/
abbrev Content : Part → Type
  | filter => Filter
  | fieldPath => ResolvedField
  | fieldValue => Value
  | command => Command

/-- The tag under which a part is handed over. -/
def tag : Part → Tag Part
  | filter => ⟨"filter", filter⟩
  | fieldPath => ⟨"field path", fieldPath⟩
  | fieldValue => ⟨"field value", fieldValue⟩
  | command => ⟨"collection command", command⟩

end Part

/-- The field that an attribute path means, where the alias may lead the path. -/
def Entity.resolve (entity : Entity) (aliasName : Option String) (path : AttributePath) :
    Except CompileError ResolvedField :=
  let path := match aliasName with
    | some aliasName => path.withoutAlias aliasName
    | none => path
  match entity.field? path.display with
  | some field => .ok ⟨field.path, field.isSensitive⟩
  | none => .error (.unknownField entity.name path.display)

/-- A compiler at work: the alias of the statement, the first error that nobody
took yet, and the values that are handed over. -/
structure Compiler where
  aliasName : Option String := none
  failure : Option CompileError := none
  handoff : Handoff Part.Content := {}

namespace Compiler

/-- A compiler that has not seen any statement. -/
def fresh : Compiler := {}

/-- Keep an error, unless one is kept already. -/
def fail (compiler : Compiler) (error : CompileError) : Compiler :=
  { compiler with failure := compiler.failure.or (some error) }

/-- Put a value down. -/
def put (compiler : Compiler) (tag : Tag Part) (value : tag.kind.Content) : Compiler :=
  { compiler with handoff := compiler.handoff.put tag value }

/-- Put down what came of a node, or keep the error. -/
def settle (compiler : Compiler) (tag : Tag Part) :
    Except CompileError tag.kind.Content → Compiler
  | .ok value => compiler.put tag value
  | .error error => compiler.fail error

/-- Return what was received, unless an error is kept. -/
def conclude {α : Type} (compiler : Compiler) (result : Except Violation α) :
    Except CompileError α × Compiler :=
  match compiler.failure with
  | some failure => (.error failure, { compiler with failure := none })
  | none => (result.mapError .handoff, compiler)

/-- Walk over a part of the statement and receive what it puts down. -/
def ask (compiler : Compiler) (tag : Tag Part) (walk : Compiler → Compiler) :
    Except CompileError tag.kind.Content × Compiler :=
  match compiler.handoff.slot with
  | some held => compiler.conclude (.error (.occupied tag.name held.tag.name))
  | none =>
      let inner := walk { compiler with handoff := compiler.handoff.enter tag }
      let collected := (inner.handoff.leave compiler.handoff.expected).collect tag
      { inner with handoff := collected.2 }.conclude collected.1

/-! ## Expressions -/

/-- Walk over an expression.  Functions are not supported. -/
def visitExpression (entity : Entity) (compiler : Compiler) : Expression → Compiler
  | .literal value _ => compiler.put Part.fieldValue.tag (Value.ofLiteral value)
  | .path path _ => compiler.settle Part.fieldPath.tag (entity.resolve compiler.aliasName path)
  | .call name _ _ => compiler.fail (.functionCall name)

/-- Order a comparison so that the attribute comes first. -/
def orient? (left : Expression) (operator : Comparison) (right : Expression) :
    Option (Expression × Comparison × Expression) :=
  match left, right with
  | .path .., .literal .. => some (left, operator, right)
  | .literal .., .path .. => some (right, operator.converse, left)
  | _, _ => none

/-- The filter of a comparison. -/
def compileComparison (entity : Entity) (compiler : Compiler) (left : Expression)
    (operator : Comparison) (right : Expression) : Except CompileError Filter × Compiler :=
  match orient? left operator right with
  | none => (.error (.comparisonShape left.span.line left.span.column), compiler)
  | some (path, operator, literal) =>
      match compiler.ask Part.fieldPath.tag fun compiler =>
          compiler.visitExpression entity path with
      | (.error error, compiler) => (.error error, compiler)
      | (.ok field, compiler) =>
          match compiler.ask Part.fieldValue.tag fun compiler =>
              compiler.visitExpression entity literal with
          | (.error error, compiler) => (.error error, compiler)
          | (.ok value, compiler) =>
              (.ok (.field field.path field.sensitive (.compare operator value)), compiler)

/-- The filter of a null check.  It is never unknown, so it is not sensitive. -/
def compileNullCheck (entity : Entity) (compiler : Compiler) (subject : Expression)
    (negated : Bool) : Except CompileError Filter × Compiler :=
  match compiler.ask Part.fieldPath.tag fun compiler =>
      compiler.visitExpression entity subject with
  | (.error error, compiler) => (.error error, compiler)
  | (.ok field, compiler) =>
      (.ok (.field field.path false (if negated then .notNull else .isNull)), compiler)

/-! ## Conditions -/

/-- The operator that joins the filters of a junction. -/
def junctionOperator : Connective → Logical
  | .and => .and
  | .or => .or

/-- Join filters. -/
def join (operator : Logical) (operands : List Filter) : Except CompileError Filter :=
  (Filter.join operator operands).mapError .filter

mutual

/-- Walk over a condition. -/
def visitPredicate (entity : Entity) : Predicate → Compiler → Compiler
  | .comparison left operator right _, compiler =>
      let (result, compiler) := compiler.compileComparison entity left operator right
      compiler.settle Part.filter.tag result
  | .junction connective operands _, compiler =>
      let (result, compiler) := compileOperands entity operands compiler
      compiler.settle Part.filter.tag (result.bind (join (junctionOperator connective)))
  | .negation operand _, compiler =>
      let (result, compiler) := compiler.ask Part.filter.tag fun compiler =>
        visitPredicate entity operand compiler
      compiler.settle Part.filter.tag (result.bind fun filter => join .nor [filter])
  | .nullCheck subject negated _, compiler =>
      let (result, compiler) := compiler.compileNullCheck entity subject negated
      compiler.settle Part.filter.tag result
  | .group inner _, compiler => visitPredicate entity inner compiler

/-- The filters of the operands of a junction, up to the first error. -/
def compileOperands (entity : Entity) :
    List Predicate → Compiler → Except CompileError (List Filter) × Compiler
  | [], compiler => (.ok [], compiler)
  | operand :: operands, compiler =>
      match compiler.ask Part.filter.tag fun compiler =>
          visitPredicate entity operand compiler with
      | (.error error, compiler) => (.error error, compiler)
      | (.ok filter, compiler) =>
          let (result, compiler) := compileOperands entity operands compiler
          (result.map (filter :: ·), compiler)

end

/-- The filter of a condition as it is written. -/
def compilePredicate (entity : Entity) (compiler : Compiler) (predicate : Predicate) :
    Except CompileError Filter × Compiler :=
  compiler.ask Part.filter.tag fun compiler => visitPredicate entity predicate compiler

/-! ## Statements -/

/-- The command of a statement.  Its filter is null-safe, and all fields of the
entity are kept. -/
def compileSelection (entity : Entity) (compiler : Compiler) (statement : Statement) :
    Except CompileError Command × Compiler :=
  if statement.entity.name = entity.name then
    let compiler := { compiler with aliasName := statement.aliasName.map Identifier.name }
    let draft : CommandDraft := { collection := entity.collection }
    match statement.condition with
    | none => (.ok (draft.project entity.paths).build, compiler)
    | some predicate =>
        let (result, compiler) := compiler.compilePredicate entity predicate
        (result.map fun filter =>
          ((draft.withFilter filter.enforceNullSafety).project entity.paths).build, compiler)
  else (.error (.otherEntity entity.name statement.entity.name), compiler)

/-- Walk over a statement. -/
def visitStatement (entity : Entity) (statement : Statement) (compiler : Compiler) : Compiler :=
  let (result, compiler) := compiler.compileSelection entity statement
  compiler.settle Part.command.tag result

/-- The command of a statement, received from the walk over it. -/
def compileStatement (entity : Entity) (compiler : Compiler) (statement : Statement) :
    Except CompileError Command × Compiler :=
  compiler.ask Part.command.tag (visitStatement entity statement)

end Compiler

end DocumentQuery
