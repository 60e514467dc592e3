/-!
# Comparison operators

The six comparisons, shared by the conditions of a query and the filters of the
document store.
-/

namespace DocumentQuery

/-- The comparison operators. -/
inductive Comparison where
  | equal
  | notEqual
  | less
  | lessOrEqual
  | greater
  | greaterOrEqual
  deriving DecidableEq, Repr

namespace Comparison

/-- The operator that holds of the operands when they have changed sides. -/
def converse : Comparison → Comparison
  | equal => equal
  | notEqual => notEqual
  | less => greater
  | lessOrEqual => greaterOrEqual
  | greater => less
  | greaterOrEqual => lessOrEqual

/-- The sign of an operator. -/
def symbol : Comparison → String
  | equal => "="
  | notEqual => "<>"
  | less => "<"
  | lessOrEqual => "<="
  | greater => ">"
  | greaterOrEqual => ">="

/-- The operator with the given sign.  Inequality has two of them. -/
def ofSymbol? (text : List Char) : Option Comparison :=
  match text with
  | ['='] => some equal
  | ['<', '>'] | ['!', '='] => some notEqual
  | ['<'] => some less
  | ['<', '='] => some lessOrEqual
  | ['>'] => some greater
  | ['>', '='] => some greaterOrEqual
  | _ => none

end Comparison

end DocumentQuery
