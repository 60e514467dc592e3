import DocumentQuery.Json.Basic
import DocumentQuery.Value.Basic

/-!
# Values inside documents

Documents have fewer types than values, so some values are wrapped in an object
that names their type.  In canonical mode every number is wrapped, in relaxed mode
only what a plain document cannot hold.
-/

namespace DocumentQuery

/-- How values are written into documents. -/
inductive EncodingMode where
  | relaxed
  | canonical
  deriving DecidableEq, Repr

/-- An integer as text. -/
def integerText (number : Int) : Json := .string (String.ofList (Numeral.ofInt number))

/-- An instant in a document: to the millisecond, and readable only in relaxed
mode within the years of the common calendar. -/
def Instant.encode (mode : EncodingMode) (instant : Instant) : Json :=
  .single "$date" <|
    if mode = .relaxed ∧ 1970 ≤ instant.date.year ∧ instant.date.year ≤ 9999 then
      .string instant.millisText
    else .single "$numberLong" (integerText instant.millis)

/-- A double in a document. -/
def Double.encode (mode : EncodingMode) (number : Float) : Json :=
  if mode = .relaxed ∧ number.isFinite then .double number
  else .single "$numberDouble" (.string (Double.wrapped number))

/-- A value in a document. -/
def Value.encode (mode : EncodingMode) : Value → Json
  | null => .null
  | boolean value => .bool value
  | int number =>
      match mode with
      | .relaxed => .int number.toInt
      | .canonical => .single "$numberInt" (integerText number.toInt)
  | long number =>
      match mode with
      | .relaxed => .int number.toInt
      | .canonical => .single "$numberLong" (integerText number.toInt)
  | double number => Double.encode mode number
  | decimal number => .single "$numberDecimal" (.string (String.ofList number.text))
  | string text => .string text
  | timestamp instant => instant.encode mode
  | uuid identifier => .single "$uuid" (.string identifier.text)

end DocumentQuery
