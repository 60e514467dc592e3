import DocumentQuery.Grammar.Parse
import DocumentQuery.Statement.Basic

/-!
# Reading a query

A query text is read by the grammar, and the statement is then built from the
leaves of its tree upwards.  Each node contributes a fragment that is put together
from the fragments of its parts.  A junction of a single operand is that operand,
and so is a condition without a `not`.  Parts are taken from left to right, so of
several literals out of range the first one is reported.
-/

namespace DocumentQuery

/-- Why a text is no query. -/
inductive ReadError where
  /-- The text does not follow the grammar at the given place. -/
  | malformed (line column : Nat) (detail : String)
  /-- A numeral stands for no literal. -/
  | invalidLiteral (text : String) (reason : String) (line column : Nat)
  deriving DecidableEq, Repr

namespace ReadError

/-- The line of an error. -/
def line : ReadError → Nat
  | malformed line _ _ => line
  | invalidLiteral _ _ line _ => line

/-- The column of an error. -/
def column : ReadError → Nat
  | malformed _ column _ => column
  | invalidLiteral _ _ _ column => column

/-- The wording of an error. -/
def message : ReadError → String
  | malformed line column detail => s!"Syntax error at line {line}, column {column}: {detail}"
  | invalidLiteral text reason line column =>
      s!"Invalid literal '{text}' at line {line}, column {column}: {reason}"

/-- The error of a reading that failed with the given attempts. -/
def ofAttempts (attempts : Grammar.Attempts) : ReadError :=
  malformed attempts.furthest.line attempts.furthest.column attempts.message

end ReadError

namespace Grammar

/-- What a node contributes to the statement. -/
inductive Fragment where
  /-- A keyword, a parenthesis or the end of the text. -/
  | mark (rule : Rule)
  | name (identifier : Identifier)
  | operator (operator : Comparison)
  | expression (expression : Expression)
  | predicate (predicate : Predicate)
  | statement (statement : Statement)

namespace Fragment

/-- The identifier that a fragment holds. -/
def name? : Fragment → Option Identifier
  | name identifier => some identifier
  | _ => none

/-- The expression that a fragment holds. -/
def expression? : Fragment → Option Expression
  | expression inner => some inner
  | _ => none

/-- The condition that a fragment holds. -/
def predicate? : Fragment → Option Predicate
  | predicate inner => some inner
  | _ => none

/-- The fragment of a token. -/
def ofToken (rule : Rule) (span : Span) (lexeme : List Char) : Except ReadError Fragment :=
  match rule with
  | .ident | .quotedIdent => .ok (name (.ofWritten lexeme span))
  | .dottedIdent => .ok (expression (.path (.ofText lexeme span) span))
  | .litString => .ok (expression (.literal (.ofQuoted lexeme) span))
  | .litNumber =>
      match Literal.ofNumeral lexeme with
      | .ok literal => .ok (expression (.literal literal span))
      | .error reason =>
          .error (.invalidLiteral (String.ofList lexeme) reason span.line span.column)
  | .compOp =>
      match Comparison.ofSymbol? lexeme with
      | some comparison => .ok (operator comparison)
      | none => .error (.malformed span.line span.column "unknown operator")
  | rule => .ok (mark rule)

/-- Join conditions by a connective; a single one stands for itself. -/
def junction (connective : Connective) (span : Span) (parts : List Fragment) : Fragment :=
  match parts.filterMap predicate? with
  | [operand] => predicate operand
  | operands => predicate (.junction connective operands span)

/-- The error of a phrase whose parts do not fit together. -/
def misfit (rule : Rule) (span : Span) : Except ReadError Fragment :=
  .error (.malformed span.line span.column ("unexpected parts of " ++ rule.label))

/-- The fragment of a phrase, from the fragments of its parts. -/
def ofPhrase (rule : Rule) (span : Span) (parts : List Fragment) : Except ReadError Fragment :=
  match rule, parts with
  | .litBoolean, [mark .kwTrue] => .ok (expression (.literal (.boolean true) span))
  | .litBoolean, [mark .kwFalse] => .ok (expression (.literal (.boolean false) span))
  | .literal, [mark .kwNull] => .ok (expression (.literal .null span))
  | .literal, [expression inner] => .ok (expression inner)
  | .fnCall, name function :: arguments =>
      .ok (expression (.call function.name (arguments.filterMap expression?) span))
  | .expression, [expression inner] => .ok (expression inner)
  | .nullCheck, [expression subject, mark .kwIs, mark .kwNull] =>
      .ok (predicate (.nullCheck subject false span))
  | .nullCheck, [expression subject, mark .kwIs, mark .kwNot, mark .kwNull] =>
      .ok (predicate (.nullCheck subject true span))
  | .comparison, [expression left, operator comparison, expression right] =>
      .ok (predicate (.comparison left comparison right span))
  | .grouped, [mark .lparen, predicate inner, mark .rparen] =>
      .ok (predicate (.group inner span))
  | .atom, [predicate inner] => .ok (predicate inner)
  | .negation, [mark .kwNot, predicate operand] => .ok (predicate (.negation operand span))
  | .negation, [predicate inner] => .ok (predicate inner)
  | .conjunction, parts => .ok (junction .and span parts)
  | .disjunction, parts => .ok (junction .or span parts)
  | .predicate, [predicate inner] => .ok (predicate inner)
  | .whereClause, [mark .kwWhere, predicate inner] => .ok (predicate inner)
  | .statement, parts =>
      match parts.filterMap name? with
      | [entity] =>
          .ok (statement ⟨entity, none, (parts.filterMap predicate?).head?, span⟩)
      | [entity, aliasName] =>
          .ok (statement ⟨entity, some aliasName, (parts.filterMap predicate?).head?, span⟩)
      | _ => misfit rule span
  | _, _ => misfit rule span

end Fragment

mutual

/-- The fragment of a tree. -/
def Tree.fragment : Tree → Except ReadError Fragment
  | .token rule span lexeme => Fragment.ofToken rule span lexeme
  | .phrase rule span children =>
      match Tree.fragments children with
      | .ok parts => Fragment.ofPhrase rule span parts
      | .error error => .error error

/-- The fragments of trees from left to right, up to the first error. -/
def Tree.fragments : List Tree → Except ReadError (List Fragment)
  | [] => .ok []
  | tree :: trees =>
      match tree.fragment with
      | .error error => .error error
      | .ok first =>
          match Tree.fragments trees with
          | .error error => .error error
          | .ok others => .ok (first :: others)

end

end Grammar

namespace Statement

/-- The statement of a syntax tree. -/
def ofTrees (trees : List Grammar.Tree) : Except ReadError Statement :=
  match Grammar.Tree.fragments trees with
  | .ok [.statement statement] => .ok statement
  | .ok _ => .error (.malformed 1 1 "no statement")
  | .error error => .error error

/-- Read a query. -/
def parse (text : String) : Except ReadError Statement :=
  match Grammar.Rule.statement.parse text.toList with
  | (some (_, trees), _) => ofTrees trees
  | (none, attempts) => .error (.ofAttempts attempts)

end Statement

end DocumentQuery
