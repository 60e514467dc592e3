import DocumentQuery.Grammar.Rule
import DocumentQuery.Source.Position

/-!
# Identifiers

The name of an entity or of its alias.  A name that is reserved, or that is not
shaped like an identifier, is written between backquotes.
-/

namespace DocumentQuery

/-- A name and where it stands. -/
structure Identifier where
  name : String
  span : Span
  deriving DecidableEq, Repr

namespace Identifier

/-- The words that mean something in a query. -/
def reservedWords : List String :=
  ["from", "where", "and", "or", "not", "is", "null", "true", "false"]

/-- Whether a name is reserved, in any mixture of ASCII cases. -/
def isReserved (name : String) : Bool :=
  reservedWords.any fun word => name.toList.map Char.toLower == word.toList

/-- Whether a text has the shape of an identifier. -/
def isShaped : List Char → Bool
  | [] => false
  | first :: rest => Grammar.isIdentStart first && rest.all Grammar.isIdentChar

/-- Remove the two backquotes around a text, if it has them. -/
def unquote (text : List Char) : List Char :=
  match text with
  | first :: rest =>
      if first = Grammar.Pattern.backquote ∧ rest.getLast? = some Grammar.Pattern.backquote then
        rest.dropLast
      else text
  | [] => text

/-- The identifier that a text of the query stands for. -/
def ofWritten (text : List Char) (span : Span) : Identifier :=
  ⟨String.ofList (unquote text), span⟩

/-- Whether a name has to be written between backquotes. -/
def mustQuote (identifier : Identifier) : Bool :=
  !isShaped identifier.name.toList || isReserved identifier.name

/-- The text of an identifier in a query. -/
def display (identifier : Identifier) : String :=
  if identifier.mustQuote then
    String.ofList (Grammar.Pattern.backquote :: identifier.name.toList ++
      [Grammar.Pattern.backquote])
  else identifier.name

end Identifier

end DocumentQuery
