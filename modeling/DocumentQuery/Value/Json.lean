import DocumentQuery.Json.Shape
import DocumentQuery.Statement.Json
import DocumentQuery.Value.Basic

/-!
# Values as data

A value is written under the name of its type.  Decimals, instants and
identifiers are texts.
-/

namespace DocumentQuery.Value

/-- A value as data. -/
def toJson : Value → Json
  | null => .string "Null"
  | boolean value => .single "Boolean" (.bool value)
  | int number => .single "Int" (.int number.toInt)
  | long number => .single "Long" (.int number.toInt)
  | double number => .single "Double" (.double number)
  | decimal number => .single "Decimal" (.string (String.ofList number.text))
  | string text => .single "String" (.string text)
  | timestamp instant => .single "Timestamp" (.string instant.exactText)
  | uuid identifier => .single "Uuid" (.string identifier.text)

/-- The value that data stands for. -/
def ofJson? (json : Json) : Option Value :=
  match json.alternative? with
  | some ("Null", content) => if Json.isUnit content then some null else none
  | some (name, some content) =>
      match name with
      | "Boolean" => content.bool?.map boolean
      | "Int" => content.int32?.map int
      | "Long" => content.int64?.map long
      | "Double" => content.double?.map double
      | "Decimal" => (Decimal.ofJson? content).map decimal
      | "String" => content.string?.map string
      | "Timestamp" => (content.string?.bind fun text => Instant.read? text.toList).map timestamp
      | "Uuid" => (content.string?.bind fun text => Uuid.read? text.toList).map uuid
      | _ => none
  | _ => none

/-- Whether a value is read back equal from its data. -/
def readsBack (value : Value) : Bool :=
  match ofJson? value.toJson with
  | some again => again == value
  | none => false

end DocumentQuery.Value
