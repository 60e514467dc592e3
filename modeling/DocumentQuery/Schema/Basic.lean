/-!
# Entities and their fields

An entity is kept in a collection of documents.  Its schema says where in a
document each field lies and whether it may be null.
-/

namespace DocumentQuery

/-- A field of an entity. -/
structure Field where
  name : String
  /-- The path of the field, where it differs from the name. -/
  column : Option String := none
  /-- Whether the field identifies the document. -/
  id : Bool := false
  nullable : Bool := true
  /-- Whether the field has a type without null. -/
  primitive : Bool := false
  deriving DecidableEq, Repr

namespace Field

/-- The path of the identifier in every document. -/
def idPath : String := "_id"

/-- A field that identifies its document. -/
def identifier (name : String) : Field := { name, id := true, nullable := false }

/-- The field at another path. -/
def atColumn (field : Field) (column : String) : Field :=
  { field with column := some column }

/-- The field without null. -/
def asRequired (field : Field) : Field := { field with nullable := false }

/-- The field with a primitive type. -/
def asPrimitive (field : Field) : Field := { field with primitive := true }

/-- Where in a document the field lies. -/
def path (field : Field) : String :=
  if field.id then idPath else field.column.getD field.name

/-- Whether the field may be null. -/
def isSensitive (field : Field) : Bool :=
  !(field.id || field.primitive || !field.nullable)

end Field

/-- An entity with its fields. -/
structure Entity where
  name : String
  collection : String
  fields : List Field := []
  deriving DecidableEq, Repr

namespace Entity

/-- The entity with a further field. -/
def addField (entity : Entity) (field : Field) : Entity :=
  { entity with fields := entity.fields ++ [field] }

/-- The field with the given name. -/
def field? (entity : Entity) (name : String) : Option Field :=
  entity.fields.find? fun field => field.name == name

/-- The field that identifies documents. -/
def identifier? (entity : Entity) : Option Field := entity.fields.find? Field.id

/-- The paths of all fields, in order. -/
def paths (entity : Entity) : List String :=
  (entity.fields.map Field.path).mergeSort fun first second => decide (first ≤ second)

end Entity

end DocumentQuery
