import DocumentQuery.Statement.Basic

/-!
# Parts of expressions and conditions

All conditions in a condition, and all expressions and paths in it, from left to right.
The arguments of function calls are included.
-/

namespace DocumentQuery

namespace Expression

mutual

/-- An expression with all expressions in it. -/
def parts : Expression → List Expression
  | literal value span => [literal value span]
  | path target span => [path target span]
  | call name arguments span => call name arguments span :: partsOfEach arguments

def partsOfEach : List Expression → List Expression
  | [] => []
  | expression :: expressions => expression.parts ++ partsOfEach expressions

end

@[simp] theorem partsOfEach_eq_flatMap (expressions : List Expression) :
    partsOfEach expressions = expressions.flatMap parts := by
  induction expressions with
  | nil => rfl
  | cons expression expressions ih => rw [partsOfEach, List.flatMap_cons, ih]

/-- The path that an expression is, if it is one. -/
def path? : Expression → Option AttributePath
  | path target _ => some target
  | literal _ _ | call _ _ _ => none

/-- All paths in an expression. -/
def paths (expression : Expression) : List AttributePath := expression.parts.filterMap path?

@[simp] theorem paths_path (target : AttributePath) (span : Span) :
    (path target span).paths = [target] := by
  simp [paths, parts, path?]

end Expression

namespace Predicate

mutual

/-- A condition with all conditions in it. -/
def parts : Predicate → List Predicate
  | comparison left operator right span => [comparison left operator right span]
  | junction connective operands span => junction connective operands span :: partsOfEach operands
  | negation operand span => negation operand span :: operand.parts
  | nullCheck subject negated span => [nullCheck subject negated span]
  | group inner span => group inner span :: inner.parts

def partsOfEach : List Predicate → List Predicate
  | [] => []
  | predicate :: predicates => predicate.parts ++ partsOfEach predicates

end

@[simp] theorem partsOfEach_eq_flatMap (predicates : List Predicate) :
    partsOfEach predicates = predicates.flatMap parts := by
  induction predicates with
  | nil => rfl
  | cons predicate predicates ih => rw [partsOfEach, List.flatMap_cons, ih]

/-- The expressions that a condition speaks about directly, with all expressions in them. -/
def ownExpressions : Predicate → List Expression
  | comparison left _ right _ => left.parts ++ right.parts
  | nullCheck subject _ _ => subject.parts
  | junction _ _ _ | negation _ _ | group _ _ => []

/-- All expressions in a condition. -/
def expressions (predicate : Predicate) : List Expression :=
  predicate.parts.flatMap ownExpressions

/-- All paths in a condition. -/
def paths (predicate : Predicate) : List AttributePath :=
  predicate.expressions.filterMap Expression.path?

section Contents

variable (left right subject : Expression) (operator : Comparison) (connective : Connective)
variable (operands : List Predicate) (operand inner : Predicate) (negated : Bool) (span : Span)

@[simp] theorem expressions_comparison :
    (comparison left operator right span).expressions = left.parts ++ right.parts := by
  simp [expressions, parts, ownExpressions]

@[simp] theorem expressions_junction :
    (junction connective operands span).expressions = operands.flatMap expressions := by
  rw [expressions, parts, partsOfEach_eq_flatMap, List.flatMap_cons, ownExpressions,
    List.nil_append, List.flatMap_assoc]
  rfl

@[simp] theorem expressions_negation :
    (negation operand span).expressions = operand.expressions := by
  simp [expressions, parts, ownExpressions]

@[simp] theorem expressions_nullCheck :
    (nullCheck subject negated span).expressions = subject.parts := by
  simp [expressions, parts, ownExpressions]

@[simp] theorem expressions_group : (group inner span).expressions = inner.expressions := by
  simp [expressions, parts, ownExpressions]

@[simp] theorem paths_comparison :
    (comparison left operator right span).paths = left.paths ++ right.paths := by
  simp [paths, Expression.paths]

@[simp] theorem paths_junction :
    (junction connective operands span).paths = operands.flatMap paths := by
  rw [paths, expressions_junction, List.filterMap_flatMap]
  rfl

@[simp] theorem paths_negation : (negation operand span).paths = operand.paths := by
  simp [paths]

@[simp] theorem paths_nullCheck : (nullCheck subject negated span).paths = subject.paths := by
  simp [paths, Expression.paths]

@[simp] theorem paths_group : (group inner span).paths = inner.paths := by
  simp [paths]

end Contents

end Predicate

/-- All paths in the condition of a statement. -/
def Statement.paths (statement : Statement) : List AttributePath :=
  statement.condition.elim [] Predicate.paths

end DocumentQuery
