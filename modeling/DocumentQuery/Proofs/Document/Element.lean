import DocumentQuery.Proofs.Document.Rendering

/-!
# The grammar of events

An element is a value, or a document of named elements, or an array of elements.  The events
that belong together are those of an element, and an element stands for a document: the items
of an array keep their order, and a name that is written twice keeps its place and takes the
last value.  Wherever a writer has room for an element, its events put the document of the
element there and change nothing else.
-/

namespace DocumentQuery

/-! ## Fields by their writes -/

namespace Json.Fields

/-- The fields that come of writes.  A name stands where it was first written and has the
value that was written last. -/
def ofWrites : List (String × Json) → Fields
  | [] => []
  | (name, value) :: later =>
      (name, (later.reverse.lookup name).getD value) ::
        (ofWrites later).filter fun field => field.1 ≠ name

theorem filter_insert_self (fields : Fields) (name : String) (value : Json) :
    (fields.insert name value).filter (fun field => field.1 ≠ name) =
      fields.filter fun field => field.1 ≠ name := by
  induction fields with
  | nil => simp [insert]
  | cons field fields ih =>
      obtain ⟨other, old⟩ := field
      rw [insert]
      by_cases same : other = name
      · simp [same]
      · simp only [same, if_false, List.filter_cons, ih]

theorem filter_insert_of_ne (fields : Fields) {name dropped : String} (kept : name ≠ dropped)
    (value : Json) :
    (fields.insert name value).filter (fun field => field.1 ≠ dropped) =
      Fields.insert (fields.filter fun field => field.1 ≠ dropped) name value := by
  induction fields with
  | nil => simp [insert, kept]
  | cons field fields ih =>
      obtain ⟨other, old⟩ := field
      rw [insert]
      by_cases same : other = name
      · subst same
        simp [insert, kept]
      · by_cases isDropped : other = dropped
        · simp [isDropped] at ih ⊢
          simp [ih, kept.symm]
        · simp [same, isDropped, insert] at ih ⊢
          exact ih

/-- One more write is a field inserted. -/
theorem ofWrites_append_singleton (writes : List (String × Json)) (name : String) (value : Json) :
    ofWrites (writes ++ [(name, value)]) = (ofWrites writes).insert name value := by
  induction writes with
  | nil => rfl
  | cons first later ih =>
      obtain ⟨firstName, firstValue⟩ := first
      rw [List.cons_append, ofWrites, ofWrites, ih, insert, List.reverse_append]
      by_cases same : firstName = name
      · subst same
        simp only [List.reverse_singleton, List.singleton_append, List.lookup_cons_self,
          Option.getD_some, if_true, filter_insert_self]
      · have other : (firstName == name) = false := beq_false_of_ne same
        simp only [List.reverse_singleton, List.singleton_append, List.lookup_cons, other, same,
          if_false, filter_insert_of_ne _ (Ne.symm same)]

end Json.Fields

/-! ## Elements -/

/-- A value, a document or an array. -/
inductive Element where
  | value (content : Value)
  | document (fields : List (String × Element))
  | array (items : List Element)

namespace Element

/-- Induction over elements, with the hypothesis for every field and every item. -/
@[elab_as_elim]
theorem inductionOn {motive : Element → Prop} (element : Element)
    (value : ∀ content, motive (.value content))
    (document : ∀ fields, (∀ field ∈ fields, motive field.2) → motive (.document fields))
    (array : ∀ items, (∀ item ∈ items, motive item) → motive (.array items)) :
    motive element := by
  refine @Element.rec motive (fun fields => ∀ field ∈ fields, motive field.2)
    (fun items => ∀ item ∈ items, motive item) (fun field => motive field.2)
    value document array ?_ ?_ ?_ ?_ ?_ element
  · nofun
  · intro head tail headIH tailIH field member
    rcases List.mem_cons.mp member with rfl | member
    · exact headIH
    · exact tailIH field member
  · nofun
  · intro head tail headIH tailIH item member
    rcases List.mem_cons.mp member with rfl | member
    · exact headIH
    · exact tailIH item member
  · intro name element ih
    exact ih

mutual

/-- The events that write an element. -/
def events : Element → List Event
  | value content => [.value content]
  | document fields => .startDocument :: (eventsOfFields fields ++ [.endDocument])
  | array items => .startArray :: (eventsOfItems items ++ [.endArray])

/-- The events that write the fields of a document. -/
def eventsOfFields : List (String × Element) → List Event
  | [] => []
  | (name, element) :: fields => .name name :: (element.events ++ eventsOfFields fields)

/-- The events that write the items of an array. -/
def eventsOfItems : List Element → List Event
  | [] => []
  | element :: elements => element.events ++ eventsOfItems elements

end

mutual

/-- The document that an element stands for. -/
def json (mode : EncodingMode) : Element → Json
  | value content => content.json mode
  | document fields => .object (Json.Fields.ofWrites (writes mode fields))
  | array items => .array (jsonOfItems mode items)

/-- The writes of the fields of a document. -/
def writes (mode : EncodingMode) : List (String × Element) → List (String × Json)
  | [] => []
  | (name, element) :: fields => (name, element.json mode) :: writes mode fields

/-- The documents that the items of an array stand for. -/
def jsonOfItems (mode : EncodingMode) : List Element → List Json
  | [] => []
  | element :: elements => element.json mode :: jsonOfItems mode elements

end

/-- Whether an element is an array. -/
def isArray : Element → Bool
  | array _ => true
  | value _ | document _ => false

end Element

/-! ## Writing elements -/

/-- Whether there is room for an element.  An array stands inside a document or an array. -/
def Writer.HasRoomFor (writer : Writer) (element : Element) : Prop :=
  writer.Ready ∧ (element.isArray = true → writer.frames ≠ [])

namespace Element

variable {mode : EncodingMode}

/-- Whether the events of an element put its document where there is room for it. -/
def Places (mode : EncodingMode) (element : Element) : Prop :=
  ∀ writer : Writer, writer.HasRoomFor element →
    writer.run mode element.events = writer.place (element.json mode)

theorem run_eventsOfFields {fields : List (String × Element)}
    (places : ∀ field ∈ fields, field.2.Places mode) (writer : Writer)
    (earlier : List (String × Json)) :
    (writer.push (.document (.ofWrites earlier) none)).run mode (eventsOfFields fields) =
      writer.push (.document (.ofWrites (earlier ++ writes mode fields)) none) := by
  induction fields generalizing earlier with
  | nil => simp [eventsOfFields, writes]
  | cons field fields ih =>
      obtain ⟨name, element⟩ := field
      have room : (writer.push (.document (.ofWrites earlier) (some name))).HasRoomFor element :=
        ⟨Writer.ready_push_named _ _, fun _ => List.cons_ne_nil _ _⟩
      have placed := places (name, element) List.mem_cons_self _ room
      have rest := ih (fun other member => places other (List.mem_cons_of_mem _ member))
        (earlier ++ [(name, element.json mode)])
      rw [List.append_assoc, List.singleton_append, Json.Fields.ofWrites_append_singleton] at rest
      rw [eventsOfFields, writes, Writer.run_cons, Writer.run_append]
      exact (congrArg (Writer.run mode · _) placed).trans rest

theorem run_eventsOfItems {items : List Element} (places : ∀ item ∈ items, item.Places mode)
    (writer : Writer) (earlier : List Json) :
    (writer.push (.array earlier)).run mode (eventsOfItems items) =
      writer.push (.array (earlier ++ jsonOfItems mode items)) := by
  induction items generalizing earlier with
  | nil => simp [eventsOfItems, jsonOfItems]
  | cons element elements ih =>
      have room : (writer.push (.array earlier)).HasRoomFor element :=
        ⟨Writer.ready_push_array _, fun _ => List.cons_ne_nil _ _⟩
      have placed := places element List.mem_cons_self _ room
      have rest := ih (fun other member => places other (List.mem_cons_of_mem _ member))
        (earlier ++ [element.json mode])
      rw [List.append_assoc, List.singleton_append] at rest
      rw [eventsOfItems, jsonOfItems, Writer.run_append]
      exact (congrArg (Writer.run mode · _) placed).trans rest

end Element

theorem Writer.startArray_of_ready {writer : Writer} (ready : writer.Ready)
    (inside : writer.frames ≠ []) : writer.startArray = writer.push (.array []) := by
  obtain ⟨frames, root, fault⟩ := writer
  cases frames with
  | nil => exact absurd rfl inside
  | cons frame frames =>
      cases frame with
      | array items => rfl
      | document fields pending =>
          cases pending with
          | none => exact absurd rfl (ready fields frames)
          | some name => rfl

/-- The events of an element put its document where there is room for it. -/
theorem Element.places (mode : EncodingMode) (element : Element) : element.Places mode := by
  induction element using Element.inductionOn with
  | value content =>
      intro writer room
      exact congrArg writer.place (content.encode_eq_json mode)
  | document fields ih =>
      intro writer room
      exact Writer.run_document room.1 (run_eventsOfFields ih writer [])
  | array items ih =>
      intro writer room
      rw [events, Writer.run_cons, Writer.step, Writer.startArray_of_ready room.1 (room.2 rfl),
        Writer.run_append, run_eventsOfItems ih]
      rfl

end DocumentQuery
