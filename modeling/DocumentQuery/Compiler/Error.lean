import DocumentQuery.Filter.Basic
import DocumentQuery.Handoff.Basic
import DocumentQuery.Schema.Validation
import DocumentQuery.Statement.Reader

/-!
# Errors of compilation

A query may be malformed, may not fit the schema, or may ask for something that
the document store has no filter for.
-/

namespace DocumentQuery

/-- Why a query has no command. -/
inductive CompileError where
  | handoff (violation : Violation)
  | filter (error : FilterError)
  /-- A comparison of anything but an attribute with a literal, at a position. -/
  | comparisonShape (line column : Nat)
  | functionCall (name : String)
  | unknownField (entity field : String)
  | otherEntity (expected found : String)
  | schema (error : SchemaError)
  | query (error : ReadError)
  deriving Repr

/-- The message of an error. -/
def CompileError.message : CompileError → String
  | handoff violation => violation.message
  | filter error => error.message
  | comparisonShape line column =>
      "Unsupported construct: comparison at line " ++ String.ofList (Numeral.digits line) ++
        ", column " ++ String.ofList (Numeral.digits column) ++
        " must compare one attribute with one literal"
  | functionCall name => "Unsupported construct: function call '" ++ name ++ "'"
  | unknownField entity field => "Unknown field '" ++ field ++ "' on entity '" ++ entity ++ "'"
  | otherEntity expected found =>
      "Query targets entity '" ++ found ++ "' but the schema describes '" ++ expected ++ "'"
  | schema error => error.message
  | query error => error.message

end DocumentQuery
