import DocumentQuery.Document.Render
import DocumentQuery.Proofs.Filter.Meaning

/-!
# Rendering as a recursion

Filters and commands are rendered by feeding events to a writer.  The documents that
come of it can also be built by plain recursion, with every name and every wrapper
written out.  Wherever a writer has room for a value, the events of a filter put its
document there and change nothing else, so the two agree and rendering never fails.
-/

namespace DocumentQuery

/-! ## The recursion -/

/-- A value as it stands in a document.  Numbers are plain in relaxed mode, unless they are
decimals or not finite, and so is an instant of a year from 1970 to 9999.  Everything else
that is not null, a boolean or a text is wrapped in an object that names its type. -/
def Value.json (mode : EncodingMode) : Value → Json
  | null => .null
  | boolean value => .bool value
  | string text => .string text
  | decimal number => .single "$numberDecimal" (.string (String.ofList number.text))
  | uuid identifier => .single "$uuid" (.string identifier.text)
  | int number =>
      match mode with
      | .relaxed => .int number.toInt
      | .canonical => .single "$numberInt" (.string (toString number.toInt))
  | long number =>
      match mode with
      | .relaxed => .int number.toInt
      | .canonical => .single "$numberLong" (.string (toString number.toInt))
  | double number =>
      if mode = .relaxed ∧ number.isFinite then .double number
      else .single "$numberDouble" (.string (Double.wrapped number))
  | timestamp instant =>
      if mode = .relaxed ∧ 1970 ≤ instant.date.year ∧ instant.date.year ≤ 9999 then
        .single "$date" (.string instant.millisText)
      else .single "$date" (.single "$numberLong" (.string (toString instant.millis)))

/-- What is asked of a field, as a document.  A check for null is a comparison with null. -/
def Condition.document (mode : EncodingMode) : Condition → Json
  | compare .equal operand => .single "$eq" (operand.json mode)
  | compare .notEqual operand => .single "$ne" (operand.json mode)
  | compare .less operand => .single "$lt" (operand.json mode)
  | compare .lessOrEqual operand => .single "$lte" (operand.json mode)
  | compare .greater operand => .single "$gt" (operand.json mode)
  | compare .greaterOrEqual operand => .single "$gte" (operand.json mode)
  | isNull => .single "$eq" .null
  | notNull => .single "$ne" .null

mutual

/-- The document of a filter. -/
def Filter.document (mode : EncodingMode) : Filter → Json
  | field path _ condition => .single path (condition.document mode)
  | logical .and operands => .single "$and" (.array (Filter.documents mode operands))
  | logical .or operands => .single "$or" (.array (Filter.documents mode operands))
  | logical .nor operands => .single "$nor" (.array (Filter.documents mode operands))

/-- The documents of several filters. -/
def Filter.documents (mode : EncodingMode) : List Filter → List Json
  | [] => []
  | filter :: filters => filter.document mode :: Filter.documents mode filters

end

theorem integerText_eq_toString (number : Int) :
    integerText number = .string (toString number) := by
  cases number with
  | ofNat number => rfl
  | negSucc number =>
      have written : Numeral.ofInt (.negSucc number) = ['-'] ++ Numeral.digits (number + 1) :=
        if_pos (Int.negSucc_lt_zero number)
      rw [integerText, written, String.ofList_append]
      rfl

/-- The writer's conversion of values is the one that is written out. -/
theorem Value.encode_eq_json (mode : EncodingMode) (value : Value) :
    value.encode mode = value.json mode := by
  cases value with
  | null | boolean | string | decimal | uuid | double => rfl
  | int | long =>
      cases mode with
      | relaxed => rfl
      | canonical => exact congrArg (Json.single _) (integerText_eq_toString _)
  | timestamp instant =>
      rw [encode, json, Instant.encode, integerText_eq_toString]
      split <;> rfl

theorem Condition.document_eq (mode : EncodingMode) (condition : Condition) :
    condition.document mode =
      .single condition.operator.operatorName (condition.operand.json mode) := by
  cases condition with
  | isNull | notNull => rfl
  | compare operator operand => cases operator <;> rfl

theorem Filter.documents_eq_map (mode : EncodingMode) (filters : List Filter) :
    Filter.documents mode filters = filters.map (Filter.document mode) := by
  induction filters with
  | nil => rfl
  | cons filter filters ih => rw [documents, ih, List.map_cons]

theorem Filter.document_logical (mode : EncodingMode) (operator : Logical)
    (operands : List Filter) :
    (logical operator operands).document mode =
      .single operator.name (.array (operands.map (document mode))) := by
  cases operator <;> rw [document, documents_eq_map, Logical.name]

theorem Filter.eventsAll_eq_flatMap (filters : List Filter) :
    Filter.eventsAll filters = filters.flatMap Filter.events := by
  induction filters with
  | nil => rfl
  | cons filter filters ih => rw [eventsAll, ih, List.flatMap_cons]

/-- The fields that a projection keeps. -/
def Stage.keptFields (fields : Json.Fields) (paths : List String) : Json.Fields :=
  paths.foldl (fun fields path => fields.insert path (.bool true)) fields

/-- The document of a stage. -/
def Stage.document (mode : EncodingMode) : Stage → Json
  | filtering filter => .single "$match" (filter.document mode)
  | projection paths => .single "$project" (.object (Stage.keptFields [] paths))

/-- The document of a command. -/
def Command.document (mode : EncodingMode) (command : Command) : Json :=
  .object [("aggregate", .string command.collection),
    ("pipeline", .array (command.pipeline.map (Stage.document mode)))]

/-! ## Parts of a document -/

namespace Writer

variable {mode : EncodingMode} {writer : Writer}

/-- Whether there is room for a value.  Inside a document a name comes first. -/
def Ready (writer : Writer) : Prop :=
  ∀ fields frames, writer.frames ≠ .document fields none :: frames

theorem ready_empty : empty.Ready := by
  intro fields frames
  nofun

theorem ready_push_array (items : List Json) : (writer.push (.array items)).Ready := by
  intro fields frames
  nofun

theorem ready_push_named (fields : Json.Fields) (name : String) :
    (writer.push (.document fields (some name))).Ready := by
  intro other frames
  nofun

theorem startDocument_of_ready (ready : writer.Ready) :
    writer.startDocument = writer.push (.document [] none) := by
  unfold startDocument
  split
  next fields frames same => exact absurd same (ready fields frames)
  next => rfl

/-- Events that write the fields of a document write the document. -/
theorem run_document (ready : writer.Ready) {body : List Event} {fields : Json.Fields}
    (written : (writer.push (.document [] none)).run mode body =
      writer.push (.document fields none)) :
    writer.run mode (.startDocument :: (body ++ [.endDocument])) =
      writer.place (.object fields) := by
  rw [run_cons, step, startDocument_of_ready ready, run_append, written]
  rfl

/-- Events that place a value put it under the name before them. -/
theorem run_named {events : List Event} {value : Json}
    (places : ∀ writer : Writer, writer.Ready → writer.run mode events = writer.place value)
    (fields : Json.Fields) (name : String) :
    (writer.push (.document fields none)).run mode (.name name :: events) =
      writer.push (.document (fields.insert name value) none) := by
  rw [run_cons]
  exact places _ (ready_push_named fields name)

theorem run_single {events : List Event} {value : Json}
    (places : ∀ writer : Writer, writer.Ready → writer.run mode events = writer.place value)
    (ready : writer.Ready) (name : String) :
    writer.run mode (.startDocument :: (.name name :: events ++ [.endDocument])) =
      writer.place (.single name value) :=
  run_document ready (run_named places [] name)

/-- Events that each place a value place them in an array one after the other. -/
theorem run_items {α : Type} {events : α → List Event} {document : α → Json} {items : List α}
    (places : ∀ item ∈ items, ∀ writer : Writer, writer.Ready →
      writer.run mode (events item) = writer.place (document item))
    (earlier : List Json) :
    (writer.push (.array earlier)).run mode (items.flatMap events) =
      writer.push (.array (earlier ++ items.map document)) := by
  induction items generalizing earlier with
  | nil => simp
  | cons item items ih =>
      have first : (writer.push (.array earlier)).run mode (events item) =
          writer.push (.array (earlier ++ [document item])) :=
        places item List.mem_cons_self _ (ready_push_array earlier)
      have rest := ih (fun other member => places other (List.mem_cons_of_mem _ member))
        (earlier ++ [document item])
      rw [List.flatMap_cons, run_append, first, rest, List.map_cons, List.append_assoc,
        List.singleton_append]

theorem run_array {α : Type} {events : α → List Event} {document : α → Json} {items : List α}
    (places : ∀ item ∈ items, ∀ writer : Writer, writer.Ready →
      writer.run mode (events item) = writer.place (document item))
    (fields : Json.Fields) (name : String) :
    (writer.push (.document fields none)).run mode
        (.name name :: .startArray :: (items.flatMap events ++ [.endArray])) =
      writer.push (.document (fields.insert name (.array (items.map document))) none) := by
  -- Behind its name the array is the innermost frame until it is closed.
  have opened : ((writer.push (.document fields none)).step mode (.name name)).step mode
      .startArray = (writer.push (.document fields (some name))).push (.array []) := rfl
  rw [run_cons, run_cons, opened, run_append, run_items places]
  rfl

end Writer

/-! ## Filters and commands -/

/-- The events of a filter put its document where there is room for a value. -/
theorem Filter.run_events (mode : EncodingMode) (filter : Filter) (writer : Writer)
    (ready : writer.Ready) :
    writer.run mode filter.events = writer.place (filter.document mode) := by
  induction filter using Filter.inductionOn generalizing writer with
  | field path sensitive condition =>
      have operand : ∀ writer : Writer, writer.Ready →
          writer.run mode [.value condition.operand] =
            writer.place (condition.operand.encode mode) := fun _ _ => rfl
      rw [document, Condition.document_eq, ← Value.encode_eq_json]
      exact Writer.run_single (fun _ inner => Writer.run_single operand inner _) ready path
  | logical operator operands ih =>
      rw [events, eventsAll_eq_flatMap, document_logical]
      have array : (writer.push (.document [] none)).run mode (.name operator.name ::
          .startArray :: (operands.flatMap events ++ [.endArray])) =
          writer.push (.document [(operator.name, .array (operands.map (document mode)))] none) :=
        Writer.run_array (fun operand member other otherReady => ih operand member other otherReady)
          [] operator.name
      simpa [Json.single] using Writer.run_document ready array

theorem Writer.run_kept (mode : EncodingMode) (writer : Writer) (fields : Json.Fields)
    (paths : List String) :
    (writer.push (.document fields none)).run mode
        (paths.flatMap fun path => [.name path, .value (.boolean true)]) =
      writer.push (.document (Stage.keptFields fields paths) none) := by
  induction paths generalizing fields with
  | nil => rfl
  | cons path paths ih =>
      rw [List.flatMap_cons, run_append]
      exact ih (fields.insert path (.bool true))

theorem Stage.run_events (mode : EncodingMode) (stage : Stage) (writer : Writer)
    (ready : writer.Ready) :
    writer.run mode stage.events = writer.place (stage.document mode) := by
  cases stage with
  | filtering filter =>
      exact Writer.run_single (fun other otherReady => filter.run_events mode other otherReady)
        ready "$match"
  | projection paths =>
      have kept : ∀ other : Writer, other.Ready → other.run mode (.startDocument ::
          (paths.flatMap (fun path => [.name path, .value (.boolean true)]) ++ [.endDocument])) =
          other.place (.object (keptFields [] paths)) :=
        fun other otherReady => Writer.run_document otherReady (other.run_kept mode [] paths)
      simpa [events, document] using Writer.run_single kept ready "$project"

theorem Command.run_events (mode : EncodingMode) (command : Command) (writer : Writer)
    (ready : writer.Ready) :
    writer.run mode command.events = writer.place (command.document mode) := by
  have collection : ∀ other : Writer, other.Ready →
      other.run mode [.value (.string command.collection)] =
        other.place (.string command.collection) := fun _ _ => rfl
  have body : (writer.push (.document [] none)).run mode
      ([.name "aggregate", .value (.string command.collection)] ++
        .name "pipeline" :: .startArray :: (command.pipeline.flatMap Stage.events ++
          [.endArray])) =
      writer.push (.document [("aggregate", .string command.collection),
        ("pipeline", .array (command.pipeline.map (Stage.document mode)))] none) := by
    rw [Writer.run_append, Writer.run_named collection,
      Writer.run_array fun stage _ other otherReady => stage.run_events mode other otherReady]
    rfl
  have written := Writer.run_document ready body
  simp only [events]
  simp only [List.cons_append, List.nil_append, List.append_assoc] at written ⊢
  exact written

/-- Events that put a document where there is room for it write that document. -/
theorem writeDocument_of_places {mode : EncodingMode} {events : List Event} {document : Json}
    (places : ∀ writer : Writer, writer.Ready → writer.run mode events = writer.place document) :
    writeDocument mode events = .ok document := by
  rw [writeDocument, places _ Writer.ready_empty]
  rfl

theorem Filter.toDocument_eq_ok (mode : EncodingMode) (filter : Filter) :
    filter.toDocument mode = .ok (filter.document mode) :=
  writeDocument_of_places (filter.run_events mode)

theorem Command.toDocument_eq_ok (mode : EncodingMode) (command : Command) :
    command.toDocument mode = .ok (command.document mode) :=
  writeDocument_of_places (command.run_events mode)

end DocumentQuery
