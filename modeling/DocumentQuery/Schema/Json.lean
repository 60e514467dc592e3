import DocumentQuery.Json.Record
import DocumentQuery.Schema.Basic

/-!
# Schemas as JSON

All fields of a schema are written.  Of a field, only the name has to be
there when it is read.
-/

namespace DocumentQuery

namespace Field

/-- A field as data. -/
def toJson (field : Field) : Json :=
  .object
    [("name", .string field.name),
      ("column", match field.column with
        | some column => .string column
        | none => .null),
      ("id", .bool field.id), ("nullable", .bool field.nullable),
      ("primitive", .bool field.primitive)]

/-- How a field is read. -/
def slots : List (Json.Slot Field) :=
  [⟨"name", true, fun field text => do
      let (name, text) ← Json.readText text
      return ({ field with name }, text)⟩,
    ⟨"column", false, fun field text => do
      let (column, text) ← Json.readOptional Json.readText text
      return ({ field with column }, text)⟩,
    ⟨"id", false, fun field text => do
      let (id, text) ← Json.readBool text
      return ({ field with id }, text)⟩,
    ⟨"nullable", false, fun field text => do
      let (nullable, text) ← Json.readBool text
      return ({ field with nullable }, text)⟩,
    ⟨"primitive", false, fun field text => do
      let (primitive, text) ← Json.readBool text
      return ({ field with primitive }, text)⟩]

end Field

namespace Entity

/-- An entity as data. -/
def toJson (entity : Entity) : Json :=
  .object
    [("name", .string entity.name), ("collection", .string entity.collection),
      ("fields", .array (entity.fields.map Field.toJson))]

/-- How an entity is read. -/
def slots : List (Json.Slot Entity) :=
  [⟨"name", true, fun entity text => do
      let (name, text) ← Json.readText text
      return ({ entity with name }, text)⟩,
    ⟨"collection", true, fun entity text => do
      let (collection, text) ← Json.readText text
      return ({ entity with collection }, text)⟩,
    ⟨"fields", true, fun entity text => do
      let (fields, text) ←
        Json.readList (Json.readRecord Field.slots { name := "" }) text
      return ({ entity with fields }, text)⟩]

/-- Read the text of a schema. -/
def read (text : String) : Except Json.Fault Entity :=
  Json.readAll (Json.readRecord slots { name := "", collection := "" }) text

end Entity

end DocumentQuery
