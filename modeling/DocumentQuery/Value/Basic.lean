import DocumentQuery.Statement.Literal
import DocumentQuery.Time.Instant
import DocumentQuery.Value.Uuid

/-!
# Values

The typed operands of filters.  A literal of a query is a value; instants and
identifiers come only from other programs.
-/

namespace DocumentQuery

/-- A typed constant. -/
inductive Value where
  | null
  | boolean (value : Bool)
  | int (number : Int32)
  | long (number : Int64)
  | double (number : Float)
  | decimal (number : Decimal)
  | string (text : String)
  | timestamp (instant : Instant)
  | uuid (identifier : Uuid)
  deriving Repr

namespace Value

/-- Equality of values: doubles as numbers, decimals whatever their scale. -/
def equal : Value → Value → Bool
  | null, null => true
  | boolean a, boolean b => a == b
  | int a, int b => a == b
  | long a, long b => a == b
  | double a, double b => a == b
  | decimal a, decimal b => a.equal b
  | string a, string b => a == b
  | timestamp a, timestamp b => a == b
  | uuid a, uuid b => a == b
  | _, _ => false

instance : BEq Value := ⟨equal⟩

/-- The value of a literal. -/
def ofLiteral : Literal → Value
  | .string text => string text
  | .integer number => int number
  | .long number => long number
  | .double number => double number
  | .decimal number => decimal number
  | .boolean value => boolean value
  | .null => null

/-- The name of a value's type. -/
def typeLabel : Value → String
  | null => "null"
  | boolean _ => "bool"
  | int _ => "int"
  | long _ => "long"
  | double _ => "double"
  | decimal _ => "decimal"
  | string _ => "string"
  | timestamp _ => "date"
  | uuid _ => "uuid"

/-- Whether a value is null. -/
def isNull : Value → Bool
  | null => true
  | _ => false

/-- A value in a message.  What a query can hold is written as in a query. -/
def display : Value → String
  | null => Literal.null.display
  | boolean value => (Literal.boolean value).display
  | int number => (Literal.integer number).display
  | long number => (Literal.long number).display
  | double number => (Literal.double number).display
  | decimal number => (Literal.decimal number).display
  | string text => (Literal.string text).display
  | timestamp instant => instant.display
  | uuid identifier => identifier.text

end Value

end DocumentQuery
