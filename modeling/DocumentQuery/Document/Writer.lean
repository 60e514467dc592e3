import DocumentQuery.Document.Encoding

/-!
# Writing documents

A document is written as a sequence of events.  The writer keeps the open
documents and arrays on a stack.  The first misuse is remembered and spoils the
result; the events after it still move the stack.
-/

namespace DocumentQuery

/-- A step in writing a document. -/
inductive Event where
  | startDocument
  | endDocument
  | startArray
  | endArray
  | name (name : String)
  | value (value : Value)
  deriving Repr

/-- A document or an array that is still open.  A document may hold a name that
waits for its value. -/
inductive Frame where
  | document (fields : Json.Fields) (pending : Option String)
  | array (items : List Json)

/-- An event at a place where it makes no sense. -/
inductive Misuse where
  | secondRoot
  | valueWithoutName
  | documentWithoutName
  | arrayWithoutName
  | nameAfterName (name : String)
  | nameOutsideDocument (name : String)
  | nameWithoutValue (name : String)
  | endDocumentInArray
  | endDocumentOutside
  | endArrayInDocument
  | endArrayOutside
  deriving DecidableEq, Repr

/-- Why no document came of a sequence of events. -/
inductive WriteError where
  | misuse (cause : Misuse)
  | unclosed (frames : Nat)
  | nothingWritten
  deriving DecidableEq, Repr

/-- What is wrong about an event. -/
def Misuse.reason : Misuse → String
  | secondRoot => "Multiple top-level values written"
  | valueWithoutName => "Value written inside a document without a name"
  | documentWithoutName => "Nested document started without a name"
  | arrayWithoutName => "Array started without a name"
  | nameAfterName name => "Name '" ++ name ++ "' written while another name is pending"
  | nameOutsideDocument name => "Name '" ++ name ++ "' written outside of a document"
  | nameWithoutValue name => "Document closed with no value for '" ++ name ++ "'"
  | endDocumentInArray => "end_document called while an array is open"
  | endDocumentOutside => "end_document called with no open document"
  | endArrayInDocument => "end_array called while a document is open"
  | endArrayOutside => "end_array called with no open array"

/-- The message of an error. -/
def WriteError.message (error : WriteError) : String :=
  "Invariant violation: " ++ match error with
    | misuse cause => cause.reason
    | unclosed frames =>
        String.ofList (Numeral.digits frames) ++ " unclosed document or array frame(s)"
    | nothingWritten => "No document was written"

/-- A document in the making: the open frames from the inside out, the finished
document and the first misuse. -/
structure Writer where
  frames : List Frame := []
  root : Option Json := none
  fault : Option Misuse := none

namespace Writer

/-- A writer without any event. -/
def empty : Writer := {}

/-- Remember a misuse, unless there was one before. -/
def fail (writer : Writer) (misuse : Misuse) : Writer :=
  { writer with fault := writer.fault.or (some misuse) }

/-- Open a frame. -/
def push (writer : Writer) (frame : Frame) : Writer :=
  { writer with frames := frame :: writer.frames }

/-- Put a finished value in its place: under the name that waits for it, at the
end of an array, or as the whole document. -/
def place (writer : Writer) (value : Json) : Writer :=
  match writer.frames with
  | [] =>
      match writer.root with
      | some _ => writer.fail .secondRoot
      | none => { writer with root := some value }
  | .document fields (some name) :: frames =>
      { writer with frames := .document (fields.insert name value) none :: frames }
  | .document _ none :: _ => writer.fail .valueWithoutName
  | .array items :: frames => { writer with frames := .array (items ++ [value]) :: frames }

/-- Open a document. -/
def startDocument (writer : Writer) : Writer :=
  match writer.frames with
  | .document _ none :: _ => (writer.fail .documentWithoutName).push (.document [] none)
  | _ => writer.push (.document [] none)

/-- Close the innermost frame as a document. -/
def endDocument (writer : Writer) : Writer :=
  match writer.frames with
  | [] => writer.fail .endDocumentOutside
  | .array _ :: _ => writer.fail .endDocumentInArray
  | .document fields none :: frames => { writer with frames }.place (.object fields)
  | .document fields (some name) :: frames =>
      ({ writer with frames }.fail (.nameWithoutValue name)).place (.object fields)

/-- Open an array.  An array is never a whole document. -/
def startArray (writer : Writer) : Writer :=
  match writer.frames with
  | .document _ (some _) :: _ | .array _ :: _ => writer.push (.array [])
  | _ => (writer.fail .arrayWithoutName).push (.array [])

/-- Close the innermost frame as an array. -/
def endArray (writer : Writer) : Writer :=
  match writer.frames with
  | [] => writer.fail .endArrayOutside
  | .document _ _ :: _ => writer.fail .endArrayInDocument
  | .array items :: frames => { writer with frames }.place (.array items)

/-- Name the next value of a document. -/
def nameNext (writer : Writer) (name : String) : Writer :=
  match writer.frames with
  | .document fields none :: frames =>
      { writer with frames := .document fields (some name) :: frames }
  | .document _ (some _) :: _ => writer.fail (.nameAfterName name)
  | _ => writer.fail (.nameOutsideDocument name)

/-- Take an event. -/
def step (mode : EncodingMode) (writer : Writer) : Event → Writer
  | .startDocument => writer.startDocument
  | .endDocument => writer.endDocument
  | .startArray => writer.startArray
  | .endArray => writer.endArray
  | .name name => writer.nameNext name
  | .value value => writer.place (value.encode mode)

/-- Take events in order. -/
def run (mode : EncodingMode) (writer : Writer) (events : List Event) : Writer :=
  events.foldl (step mode) writer

@[simp] theorem run_nil (mode : EncodingMode) (writer : Writer) : writer.run mode [] = writer := rfl

@[simp] theorem run_cons (mode : EncodingMode) (writer : Writer) (event : Event)
    (events : List Event) :
    writer.run mode (event :: events) = (writer.step mode event).run mode events := rfl

@[simp] theorem run_append (mode : EncodingMode) (writer : Writer) (first second : List Event) :
    writer.run mode (first ++ second) = (writer.run mode first).run mode second := by
  simp [run]

/-- The finished document. -/
def finish (writer : Writer) : Except WriteError Json :=
  match writer.fault, writer.frames, writer.root with
  | some misuse, _, _ => .error (.misuse misuse)
  | none, frame :: frames, _ => .error (.unclosed (frame :: frames).length)
  | none, [], none => .error .nothingWritten
  | none, [], some document => .ok document

end Writer

/-- The document that a sequence of events writes. -/
def writeDocument (mode : EncodingMode) (events : List Event) : Except WriteError Json :=
  (Writer.empty.run mode events).finish

end DocumentQuery
