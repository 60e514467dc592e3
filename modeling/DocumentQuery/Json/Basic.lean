/-!
# Documents

A document is a JSON value whose objects keep their fields in the order in which
they were first written.  Integers and doubles are kept apart.
-/

namespace DocumentQuery

/-- A JSON value. -/
inductive Json where
  | null
  | bool (value : Bool)
  | int (number : Int)
  | double (number : Float)
  | string (text : String)
  | array (items : List Json)
  | object (fields : List (String × Json))
  deriving Inhabited

namespace Json

/-- The fields of an object, in order. -/
abbrev Fields := List (String × Json)

/-- Write a field.  A name that is already there keeps its place and takes the new
value. -/
def Fields.insert : Fields → String → Json → Fields
  | [], name, value => [(name, value)]
  | (other, old) :: fields, name, value =>
      if other = name then (other, value) :: fields
      else (other, old) :: Fields.insert fields name value

/-- An object with a single field. -/
def single (name : String) (value : Json) : Json := object [(name, value)]

end Json

end DocumentQuery
