import DocumentQuery.Proofs.Document.Element
import Mathlib.Data.List.Induction

/-!
# Which events make a document

Events without misuse are those of a draft: perhaps a whole document, and after it the parts
that are not finished, each inside the next.  A draft says what may follow it.  An event that
may follow makes a further draft, and any other event is the first misuse and stays the fault
of the writer.  So every sequence of events is a draft or has a first misuse, and what comes
of it is told without running the writer.
-/

namespace DocumentQuery

/-! ## The first misuse stays -/

namespace Writer

variable {mode : EncodingMode} {writer : Writer} {cause : Misuse}

end Writer

/-! ## Drafts -/

/-- A document or an array that is not finished.  A document may hold a name that waits for
its value. -/
inductive Unfinished where
  | document (fields : List (String × Element)) (pending : Option String)
  | array (items : List Element)

namespace Unfinished

def isDocument : Unfinished → Bool
  | document _ _ => true
  | array _ => false

/-- Whether an element may come next. -/
def hasRoom : Unfinished → Bool
  | document _ pending => pending.isSome
  | array _ => true

/-- The events written so far. -/
def events : Unfinished → List Event
  | document fields pending =>
      .startDocument :: (Element.eventsOfFields fields ++ (pending.map Event.name).toList)
  | array items => .startArray :: Element.eventsOfItems items

/-- The frame of what was written so far. -/
def frame (mode : EncodingMode) : Unfinished → Frame
  | document fields pending => .document (.ofWrites (Element.writes mode fields)) pending
  | array items => .array (Element.jsonOfItems mode items)

/-- Whether each part, from the inside out, stands where the next one has room, and the
outermost one is a document. -/
def Nested : List Unfinished → Prop
  | [] => True
  | [outermost] => outermost.isDocument = true
  | _ :: outer :: others => outer.hasRoom = true ∧ Nested (outer :: others)

/-- Where there is room for it, an unfinished part becomes the innermost frame. -/
theorem run_events (mode : EncodingMode) {writer : Writer} (ready : writer.Ready)
    {part : Unfinished} (inside : part.isDocument = false → writer.frames ≠ []) :
    writer.run mode part.events = writer.push (part.frame mode) := by
  cases part with
  | document fields pending =>
      have places : ∀ field ∈ fields, field.2.Places mode := fun field _ => field.2.places mode
      have written := Element.run_eventsOfFields places writer []
      rw [Json.Fields.ofWrites] at written
      rw [events, Writer.run_cons, Writer.step, Writer.startDocument_of_ready ready,
        Writer.run_append, written]
      cases pending <;> rfl
  | array items =>
      have places : ∀ item ∈ items, item.Places mode := fun item _ => item.places mode
      rw [events, Writer.run_cons, Writer.step, Writer.startArray_of_ready ready (inside rfl),
        Element.run_eventsOfItems places]
      rfl

end Unfinished

/-- What was written without misuse: perhaps a whole document, and what is not finished after
it, from the inside out. -/
structure Draft where
  root : Option Element
  unfinished : List Unfinished
  root_not_array : ∀ element, root = some element → element.isArray = false
  nested : Unfinished.Nested unfinished

namespace Draft

/-- Nothing is written yet. -/
def blank : Draft := ⟨none, [], nofun, trivial⟩

/-- A whole document. -/
def whole (element : Element) (notArray : element.isArray = false) : Draft where
  root := some element
  unfinished := []
  root_not_array := by
    rintro _ ⟨⟩
    exact notArray
  nested := trivial

def events (draft : Draft) : List Event :=
  (draft.root.map Element.events).getD [] ++ draft.unfinished.reverse.flatMap Unfinished.events

/-- The writer that took the events. -/
def writer (mode : EncodingMode) (draft : Draft) : Writer where
  frames := draft.unfinished.map (Unfinished.frame mode)
  root := draft.root.map (Element.json mode)

section Opened

variable {draft : Draft} {inner : Unfinished} {outer : List Unfinished}

theorem nested_of_opened (opened : draft.unfinished = inner :: outer) :
    Unfinished.Nested (inner :: outer) :=
  opened ▸ draft.nested

/-- The draft around its innermost unfinished part. -/
def around (draft : Draft) (opened : draft.unfinished = inner :: outer) : Draft where
  root := draft.root
  unfinished := outer
  root_not_array := draft.root_not_array
  nested := by
    cases outer with
    | nil => trivial
    | cons next others => exact (nested_of_opened opened).2

theorem events_opened (opened : draft.unfinished = inner :: outer) :
    draft.events = (draft.around opened).events ++ inner.events := by
  simp [events, around, opened]

theorem ready_writer_around (opened : draft.unfinished = inner :: outer) (mode : EncodingMode) :
    ((draft.around opened).writer mode).Ready := by
  intro fields frames same
  cases outer with
  | nil => cases same
  | cons next others =>
      have room := (nested_of_opened opened).1
      cases next with
      | array items => cases same
      | document written pending =>
          cases pending with
          | none => cases room
          | some name => cases same

/-- An array stands inside another part. -/
theorem outer_ne_nil (opened : draft.unfinished = inner :: outer)
    (isArray : inner.isDocument = false) : outer ≠ [] := by
  rintro rfl
  have isDocument : inner.isDocument = true := nested_of_opened opened
  rw [isArray] at isDocument
  cases isDocument

end Opened

/-- The writer of a draft comes of its events. -/
theorem run_events (mode : EncodingMode) (draft : Draft) :
    Writer.empty.run mode draft.events = draft.writer mode := by
  induction opened : draft.unfinished generalizing draft with
  | nil =>
      cases written : draft.root with
      | none => simp [events, writer, opened, written, Writer.empty]
      | some element =>
          have notArray := draft.root_not_array element written
          have room : Writer.empty.HasRoomFor element :=
            ⟨Writer.ready_empty, by simp [notArray]⟩
          simp only [events, writer, opened, written, Option.map_some, Option.getD_some,
            List.reverse_nil, List.flatMap_nil, List.append_nil, List.map_nil]
          exact element.places mode _ room
  | cons inner outer ih =>
      have inside : inner.isDocument = false →
          ((draft.around opened).writer mode).frames ≠ [] := by
        intro isArray noFrames
        exact outer_ne_nil opened isArray (List.map_eq_nil_iff.mp noFrames)
      rw [events_opened opened, Writer.run_append, ih (draft.around opened) rfl,
        Unfinished.run_events mode (ready_writer_around opened mode) inside]
      simp [writer, Writer.push, around, opened]

/-! ## One more event -/

/-- Whether an element may come next. -/
def HasRoomFor (draft : Draft) (element : Element) : Prop :=
  match draft.unfinished with
  | [] => draft.root = none ∧ element.isArray = false
  | inner :: _ => inner.hasRoom = true

/-- What comes of a draft. -/
def outcome (mode : EncodingMode) (draft : Draft) : Except WriteError Json :=
  match draft.unfinished, draft.root with
  | [], none => .error .nothingWritten
  | [], some element => .ok (element.json mode)
  | _ :: outer, _ => .error (.unclosed (outer.length + 1))

end Draft

/-- A second document is noticed only when it ends, so that a misuse inside it comes first. -/
example : writeDocument .relaxed [.value .null, .startDocument, .endArray, .endDocument] =
    .error (.misuse .endArrayInDocument) := rfl

end DocumentQuery
