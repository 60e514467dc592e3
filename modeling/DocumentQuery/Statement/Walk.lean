import DocumentQuery.Statement.Basic

/-!
# Walking over a statement

A walk visits the paths and literals of the condition of a statement from left to
right, the arguments of function calls included, and carries a state along.
-/

namespace DocumentQuery

/-- What to do at the leaves of a condition. -/
structure LeafVisitor (State : Type) where
  onPath : AttributePath → Span → State → State
  onLiteral : Literal → Span → State → State

namespace LeafVisitor

variable {State : Type}

mutual

/-- Visit the leaves of an expression. -/
def walkExpression (visitor : LeafVisitor State) : Expression → State → State
  | .literal value span, state => visitor.onLiteral value span state
  | .path path span, state => visitor.onPath path span state
  | .call _ arguments _, state => visitor.walkArguments arguments state

/-- Visit the leaves of expressions one after the other. -/
def walkArguments (visitor : LeafVisitor State) : List Expression → State → State
  | [], state => state
  | expression :: expressions, state =>
      visitor.walkArguments expressions (visitor.walkExpression expression state)

end

mutual

/-- Visit the leaves of a condition. -/
def walkPredicate (visitor : LeafVisitor State) : Predicate → State → State
  | .comparison left _ right _, state =>
      visitor.walkExpression right (visitor.walkExpression left state)
  | .junction _ operands _, state => visitor.walkOperands operands state
  | .negation operand _, state => visitor.walkPredicate operand state
  | .nullCheck subject _ _, state => visitor.walkExpression subject state
  | .group inner _, state => visitor.walkPredicate inner state

/-- Visit the leaves of conditions one after the other. -/
def walkOperands (visitor : LeafVisitor State) : List Predicate → State → State
  | [], state => state
  | predicate :: predicates, state =>
      visitor.walkOperands predicates (visitor.walkPredicate predicate state)

end

/-- Visit the leaves of a statement. -/
def walk (visitor : LeafVisitor State) (statement : Statement) (state : State) : State :=
  match statement.condition with
  | some predicate => visitor.walkPredicate predicate state
  | none => state

end LeafVisitor

/-- A path or literal of a condition. -/
inductive Leaf where
  | path (path : AttributePath)
  | literal (value : Literal)
  deriving Repr

/-- The visitor that writes down every leaf, the last one first. -/
def LeafVisitor.recorder : LeafVisitor (List Leaf) where
  onPath path _ visited := .path path :: visited
  onLiteral value _ visited := .literal value :: visited

/-- The leaves of a statement in the order of a walk. -/
def Statement.leaves (statement : Statement) : List Leaf :=
  (LeafVisitor.recorder.walk statement []).reverse

end DocumentQuery
