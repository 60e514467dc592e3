import DocumentQuery.Comparison
import DocumentQuery.Statement.AttributePath
import DocumentQuery.Statement.Identifier
import DocumentQuery.Statement.Literal

/-!
# Statements

The abstract form of a query: an entity, an optional alias and an optional
condition.  Conditions are meant in ternary logic, where a comparison with null is
unknown.  Every node knows the text it was read from.
-/

namespace DocumentQuery

/-- The connectives of junctions. -/
inductive Connective where
  | and
  | or
  deriving DecidableEq, Repr

/-- The word of a connective. -/
def Connective.word : Connective → String
  | and => "and"
  | or => "or"

/-- What a comparison or a null check speaks about. -/
inductive Expression where
  | literal (value : Literal) (span : Span)
  | path (path : AttributePath) (span : Span)
  | call (name : String) (arguments : List Expression) (span : Span)
  deriving Repr, BEq

namespace Expression

/-- The text that an expression was read from. -/
def span : Expression → Span
  | literal _ span => span
  | path _ span => span
  | call _ _ span => span

end Expression

/-- A condition. -/
inductive Predicate where
  | comparison (left : Expression) (operator : Comparison) (right : Expression) (span : Span)
  | junction (connective : Connective) (operands : List Predicate) (span : Span)
  | negation (operand : Predicate) (span : Span)
  /-- Whether an expression is null, or is not null when `negated`. -/
  | nullCheck (subject : Expression) (negated : Bool) (span : Span)
  | group (inner : Predicate) (span : Span)
  deriving Repr, BEq

namespace Predicate

/-- The text that a condition was read from. -/
def span : Predicate → Span
  | comparison _ _ _ span => span
  | junction _ _ span => span
  | negation _ span => span
  | nullCheck _ _ span => span
  | group _ span => span

end Predicate

/-- A query for the entities that satisfy a condition. -/
structure Statement where
  entity : Identifier
  aliasName : Option Identifier
  condition : Option Predicate
  span : Span
  deriving Repr, BEq

end DocumentQuery
