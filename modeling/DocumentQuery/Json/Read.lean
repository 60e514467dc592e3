import DocumentQuery.Json.Record

/-!
# Documents from JSON text

A document is read from its text.  Arrays and objects may be nested up to a given
depth, and a name that is written twice in an object keeps its place and takes the
last value.
-/

namespace DocumentQuery.Json

/-- Read the fields of an object up to its end, of at most the given number, and
add them to those in front. -/
def readMembers (read : Reader Json) : Nat → Bool → Fields → Reader Fields
  | 0, _, _, _ => .error .truncated
  | bound + 1, first, fields, text =>
      match skipBlanks text with
      | '\x7d' :: rest => .ok (fields, rest)
      | text => do
          let (name, text) ← readName (← skipSeparator first text)
          let (value, text) ← read (← skipMark ':' text)
          readMembers read bound false (fields.insert name value) text

/-- Read a value with containers nested up to the given depth. -/
def readValue : Nat → Reader Json
  | 0, text =>
      let text := skipBlanks text
      if startsContainer text then .error .malformed else readScalar text
  | depth + 1, text =>
      match skipBlanks text with
      | '[' :: rest => do
          let (items, rest) ← readItems (readValue depth) (rest.length + 1) true rest
          return (.array items, rest)
      | '\x7b' :: rest => do
          let (fields, rest) ← readMembers (readValue depth) (rest.length + 1) true [] rest
          return (.object fields, rest)
      | rest => readScalar rest

/-- How deep the containers of a document may be nested. -/
def maxDepth : Nat := 127

/-- Read a document. -/
def read (text : String) : Except Fault Json := readAll (readValue maxDepth) text

end DocumentQuery.Json
