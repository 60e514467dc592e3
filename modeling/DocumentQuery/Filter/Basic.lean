import DocumentQuery.Comparison
import DocumentQuery.Value.Basic

/-!
# Filters

What the document store is asked to match: conditions on single fields, joined by
`$and`, `$or` and `$nor`.  The store has only two truth values, so a condition on
a field carries whether that field may be null where the query meant ternary
logic.
-/

namespace DocumentQuery

/-- The logical operators of the store. -/
inductive Logical where
  | and
  | or
  | nor
  deriving DecidableEq, Repr

/-- The name of a logical operator. -/
def Logical.name : Logical → String
  | and => "$and"
  | or => "$or"
  | nor => "$nor"

/-- The name that the store has for a comparison. -/
def Comparison.operatorName : Comparison → String
  | equal => "$eq"
  | notEqual => "$ne"
  | less => "$lt"
  | lessOrEqual => "$lte"
  | greater => "$gt"
  | greaterOrEqual => "$gte"

/-- What is asked of a field. -/
inductive Condition where
  | compare (operator : Comparison) (operand : Value)
  | isNull
  | notNull
  deriving Repr, BEq

namespace Condition

/-- The comparison by which the store decides a condition. -/
def operator : Condition → Comparison
  | compare operator _ => operator
  | isNull => .equal
  | notNull => .notEqual

/-- The value that the store compares a field with. -/
def operand : Condition → Value
  | compare _ operand => operand
  | isNull | notNull => .null

end Condition

/-- A filter.  A condition on a field is `sensitive` when a null there would make
the condition of the query unknown. -/
inductive Filter where
  | field (path : String) (sensitive : Bool) (condition : Condition)
  | logical (operator : Logical) (operands : List Filter)
  deriving Repr, BEq

/-- Why a filter cannot be built. -/
inductive FilterError where
  | noOperands (operator : Logical)
  deriving DecidableEq, Repr

/-- The message of an error. -/
def FilterError.message : FilterError → String
  | noOperands operator =>
      "Invariant violation: " ++ operator.name ++ " requires at least one operand"

namespace Filter

/-- Join filters, of which there has to be one. -/
def join (operator : Logical) (operands : List Filter) : Except FilterError Filter :=
  if operands.isEmpty then .error (.noOperands operator) else .ok (logical operator operands)

/-- The condition that a field is not null. -/
def guard (path : String) : Filter := field path false .notNull

/-- Whether a filter is the guard of a path. -/
def isGuardOf (path : String) : Filter → Bool
  | field other false .notNull => other == path
  | _ => false

@[simp] theorem isGuardOf_guard (path other : String) :
    (guard other).isGuardOf path = (other == path) := rfl

mutual

/-- A filter in a message. -/
def display : Filter → String
  | field path _ condition =>
      path ++ " " ++ condition.operator.operatorName ++ " " ++ condition.operand.display
  | logical operator operands => operator.name ++ "(" ++ displayAll operands ++ ")"

/-- Filters in a message, divided by commas. -/
def displayAll : List Filter → String
  | [] => ""
  | [filter] => filter.display
  | filter :: filters => filter.display ++ ", " ++ displayAll filters

end

end Filter

end DocumentQuery
