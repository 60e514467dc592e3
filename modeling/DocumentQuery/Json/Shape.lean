import DocumentQuery.Json.Basic

/-!
# Shapes of data in documents

A record is an object, or an array of its fields in order.  An alternative of
several is a name, or an object with that name as its only field; the fields that
it comes with are always an object.  Integers have bounds, and a whole number may
stand for a double.
-/

namespace DocumentQuery.Json

mutual

/-- The number of nested arrays and objects, plus one. -/
def depth : Json → Nat
  | array items => depthItems items + 1
  | object fields => depthFields fields + 1
  | _ => 1

/-- The greatest depth of the items of an array. -/
def depthItems : List Json → Nat
  | [] => 0
  | item :: items => max item.depth (depthItems items)

/-- The greatest depth of the fields of an object. -/
def depthFields : List (String × Json) → Nat
  | [] => 0
  | (_, value) :: fields => max value.depth (depthFields fields)

end

/-- The fields of an object, each with its value if it is there. -/
def fields? (names : List String) : Json → Option (List (Option Json))
  | object fields => some (names.map fun name => fields.lookup name)
  | _ => none

/-- The fields of a record, each with its value if it is there.  An array has to
hold them all. -/
def record? (names : List String) : Json → Option (List (Option Json))
  | object fields => (object fields).fields? names
  | array items => if items.length = names.length then some (items.map some) else none
  | _ => none

/-- The name of an alternative and what it comes with. -/
def alternative? : Json → Option (String × Option Json)
  | string name => some (name, none)
  | object [(name, content)] => some (name, some content)
  | _ => none

/-- An alternative that comes with nothing. -/
def isUnit : Option Json → Bool
  | none | some null => true
  | some _ => false

/-- A value that may be null or missing. -/
def optional? {α : Type} (read : Json → Option α) : Option Json → Option (Option α)
  | none | some null => some none
  | some value => (read value).map some

/-- A natural number of 64 bits. -/
def nat? : Json → Option Nat
  | int number => if 0 ≤ number ∧ number ≤ 0xFFFFFFFFFFFFFFFF then some number.toNat else none
  | _ => none

/-- An integer within bounds. -/
def intBetween? (low high : Int) : Json → Option Int
  | int number => if low ≤ number ∧ number ≤ high then some number else none
  | _ => none

/-- A 32-bit integer. -/
def int32? (json : Json) : Option Int32 :=
  (intBetween? (-0x80000000) 0x7FFFFFFF json).map Int32.ofInt

/-- A 64-bit integer. -/
def int64? (json : Json) : Option Int64 :=
  (intBetween? (-0x8000000000000000) 0x7FFFFFFFFFFFFFFF json).map Int64.ofInt

/-- A number as a double. -/
def double? : Json → Option Float
  | int number => some (Float.ofInt number)
  | double number => some number
  | _ => none

/-- A truth value. -/
def bool? : Json → Option Bool
  | bool value => some value
  | _ => none

/-- A string. -/
def string? : Json → Option String
  | string text => some text
  | _ => none

/-- The items of an array. -/
def array? : Json → Option (List Json)
  | array items => some items
  | _ => none

end DocumentQuery.Json
