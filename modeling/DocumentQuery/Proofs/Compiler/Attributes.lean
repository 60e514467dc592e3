import DocumentQuery.Proofs.Compiler.Recursion
import DocumentQuery.Proofs.Filter.Meaning
import DocumentQuery.Proofs.Schema.Validation

/-!
# What literals and attributes stand for

The sides of a comparison have a meaning of their own, which is given here without the
compiler.  A literal stands for what is written, and null for no value.  An attribute is
named by its path, less the alias in front, and lies where the schema puts it.  The
compiler agrees: it keeps the value of a literal, and it finds an attribute where it is
read.
-/

namespace DocumentQuery

/-! ## Literals -/

/-- The value that a literal stands for.  Null is no value. -/
def Literal.value? : Literal → Option Value
  | string text => some (.string text)
  | integer number => some (.int number)
  | long number => some (.long number)
  | double number => some (.double number)
  | decimal number => some (.decimal number)
  | boolean value => some (.boolean value)
  | null => none

theorem Value.nonNull?_ofLiteral (literal : Literal) :
    (ofLiteral literal).nonNull? = literal.value? := by
  cases literal <;> rfl

/-- The operand of a literal is its value, or null if it has none. -/
theorem Value.ofLiteral_eq (literal : Literal) :
    ofLiteral literal = literal.value?.getD .null := by
  cases literal <;> rfl

/-! ## Attributes -/

/-- The attribute that a path speaks of.  The alias in front is left out, unless there
is nothing behind it. -/
def AttributePath.attributeName (aliasName : Option String) (path : AttributePath) : String :=
  ".".intercalate <|
    if 1 < path.segments.length ∧ path.segments.head? = aliasName then path.segments.tail
    else path.segments

theorem AttributePath.display_elim_withoutAlias (aliasName : Option String)
    (path : AttributePath) :
    (aliasName.elim path path.withoutAlias).display = path.attributeName aliasName := by
  rcases path with ⟨segments, span⟩
  unfold attributeName
  cases aliasName with
  | none =>
      cases segments with
      | nil => rfl
      | cons first rest => simp [display]
  | some aliasName =>
      rcases segments with _ | ⟨first, _ | ⟨second, rest⟩⟩
      · rfl
      · simp [withoutAlias, display]
      · by_cases same : first = aliasName
        · simp [withoutAlias, display, same]
        · simp [withoutAlias, display, same]

/-- Where a document has a field: the identifier at `_id`, any other field at its column,
or else under its own name. -/
def Field.place (field : Field) : String :=
  if field.id then "_id" else field.column.getD field.name

theorem Field.path_eq_place (field : Field) : field.path = field.place := rfl

/-- A field may be null if it is nullable, unless it is the identifier or of a primitive
type. -/
theorem Field.isSensitive_eq (field : Field) :
    field.isSensitive = (field.nullable && !field.id && !field.primitive) := by
  rw [isSensitive, Bool.not_or, Bool.not_or, Bool.not_not, Bool.and_comm, Bool.and_assoc]

namespace Entity

/-- What the attributes of a condition stand for in a document: each for the value at the
place of the field that it names. -/
def IsReading (entity : Entity) (aliasName : Option String) (document : Document)
    (read : AttributePath → Option Value) : Prop :=
  ∀ path, ∀ field ∈ entity.fields, field.name = path.attributeName aliasName →
    read path = document.value? field.place

/-- What a document holds at the first field that an attribute may name. -/
def attributeValue? (entity : Entity) (aliasName : Option String) (document : Document)
    (path : AttributePath) : Option Value :=
  (entity.fields.find? fun field => field.name = path.attributeName aliasName).bind fun field =>
    document.value? field.place

variable {entity : Entity} {aliasName : Option String}

/-- The attributes of a valid schema can be read. -/
theorem isReading_attributeValue? (valid : entity.validate = .ok ()) (document : Document) :
    entity.IsReading aliasName document (entity.attributeValue? aliasName document) := by
  intro path field member named
  unfold attributeValue?
  cases found : entity.fields.find? fun field => field.name = path.attributeName aliasName with
  | none => exact absurd named (by simpa using List.find?_eq_none.mp found field member)
  | some other =>
      -- A valid schema has no second field of that name.
      have otherNamed : other.name = path.attributeName aliasName := by
        simpa using List.find?_some found
      have same : other = field :=
        field_eq_of_name_eq valid (List.mem_of_find?_eq_some found) member
          (otherNamed.trans named.symm)
      rw [same, Option.bind_some]

/-! ## The compiler's look-up -/

section LookUp

variable {path : AttributePath} {field : Field}
  (named : entity.fieldOf? aliasName path = some field)

include named

theorem mem_fields_of_fieldOf? : field ∈ entity.fields :=
  List.mem_of_find?_eq_some named

theorem name_of_fieldOf? : field.name = path.attributeName aliasName := by
  rw [← AttributePath.display_elim_withoutAlias]
  simpa using List.find?_some named

/-- An attribute is read at the path that the compiler resolves it to. -/
theorem value?_of_isReading {document : Document} {read : AttributePath → Option Value}
    (reading : entity.IsReading aliasName document read) :
    read path = document.value? field.path :=
  reading path field (mem_fields_of_fieldOf? named) (name_of_fieldOf? named)

end LookUp

end Entity

end DocumentQuery
