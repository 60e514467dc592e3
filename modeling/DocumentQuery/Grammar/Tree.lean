import DocumentQuery.Grammar.Rule
import DocumentQuery.Source.Position

/-!
# Syntax trees

The tree of a text has a leaf for every token and an inner node for every
phrase, each with the span of text it covers.  The span of a phrase may end in
layout, where its last part is an optional or repeated one that is missing.
-/

namespace DocumentQuery.Grammar

/-- A node of the syntax tree of a text. -/
inductive Tree where
  | token (rule : Rule) (span : Span) (lexeme : List Char)
  | phrase (rule : Rule) (span : Span) (children : List Tree)

namespace Tree

/-- The rule that a node was read by. -/
def rule : Tree → Rule
  | token rule _ _ => rule
  | phrase rule _ _ => rule

/-- The text that a node covers. -/
def span : Tree → Span
  | token _ span _ => span
  | phrase _ span _ => span

/-- The parts of a node. -/
def children : Tree → List Tree
  | token .. => []
  | phrase _ _ children => children

end Tree

end DocumentQuery.Grammar
