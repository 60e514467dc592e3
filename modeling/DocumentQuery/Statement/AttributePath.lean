import DocumentQuery.Source.Position

/-!
# Attribute paths

A path names an attribute by segments, the first of which may be the alias of the
entity.
-/

namespace DocumentQuery

/-- The segments of a path and where it stands. -/
structure AttributePath where
  segments : List String
  span : Span
  deriving DecidableEq, Repr

namespace AttributePath

/-- Cut a text at every occurrence of a character. -/
def splitAt (mark : Char) : List Char → List (List Char)
  | [] => [[]]
  | c :: rest =>
      if c = mark then [] :: splitAt mark rest
      else match splitAt mark rest with
        | [] => [[c]]
        | first :: others => (c :: first) :: others

/-- The path written with points between its segments. -/
def ofText (text : List Char) (span : Span) : AttributePath :=
  ⟨(splitAt '.' text).map String.ofList, span⟩

/-- The path without the alias in front of it.  A path that is nothing but the
alias names an attribute. -/
def withoutAlias (aliasName : String) (path : AttributePath) : AttributePath :=
  match path.segments with
  | first :: second :: rest => if first = aliasName then ⟨second :: rest, path.span⟩ else path
  | _ => path

/-- The segments with points between them. -/
def display (path : AttributePath) : String := ".".intercalate path.segments

end AttributePath

end DocumentQuery
