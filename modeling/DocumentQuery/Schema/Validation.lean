import DocumentQuery.Number.Numeral
import DocumentQuery.Schema.Basic

/-!
# Validation of schemas

The fields of an entity differ in their names and in their paths, and exactly
one of them identifies the document.
-/

namespace DocumentQuery

/-- What is wrong with a schema. -/
inductive SchemaError where
  | duplicateField (entity field : String)
  | duplicatePath (entity path : String)
  | missingIdentifier (entity : String)
  | severalIdentifiers (entity : String) (count : Nat)
  deriving DecidableEq, Repr

/-- The message of an error. -/
def SchemaError.message : SchemaError → String
  | duplicateField entity field =>
      "Entity '" ++ entity ++ "' declares field '" ++ field ++ "' more than once"
  | duplicatePath entity path =>
      "Entity '" ++ entity ++ "' maps more than one field to path '" ++ path ++ "'"
  | missingIdentifier entity => "Entity '" ++ entity ++ "' has no identifier field"
  | severalIdentifiers entity count =>
      "Entity '" ++ entity ++ "' has " ++ String.ofList (Numeral.digits count) ++
        " identifier fields, expected exactly one"

namespace Entity

/-- How a field clashes with earlier ones.  A clash of names comes first. -/
def clash? (entity : String) (earlier : List Field) (field : Field) :
    Option SchemaError :=
  if field.name ∈ earlier.map Field.name then
    some (.duplicateField entity field.name)
  else if field.path ∈ earlier.map Field.path then
    some (.duplicatePath entity field.path)
  else none

/-- The first clash among fields that follow earlier ones. -/
def firstClash? (entity : String) (earlier : List Field) : List Field → Option SchemaError
  | [] => none
  | field :: fields =>
      match clash? entity earlier field with
      | some error => some error
      | none => firstClash? entity (earlier ++ [field]) fields

/-- Check a schema. -/
def validate (entity : Entity) : Except SchemaError Unit :=
  match firstClash? entity.name [] entity.fields with
  | some error => .error error
  | none =>
      match entity.fields.countP Field.id with
      | 0 => .error (.missingIdentifier entity.name)
      | 1 => .ok ()
      | count => .error (.severalIdentifiers entity.name count)

end Entity

end DocumentQuery
