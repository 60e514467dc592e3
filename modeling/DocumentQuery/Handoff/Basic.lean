/-!
# Handing values over

A walk over a tree cannot return values, so the part that finishes a value puts it
down and the part that asked for it receives it.  There is a single slot.  A tag
says what is expected in it: a value is accepted only under the tag that the
innermost receiver waits for.  The first violation is remembered and goes to the
receiver that finishes next.
-/

namespace DocumentQuery

/-- What a value is handed over as.  Two tags agree if both their names and their
kinds do. -/
structure Tag (Kind : Type) where
  name : String
  kind : Kind
  deriving DecidableEq, Repr

/-- What may go wrong in handing a value over, in terms of the names of tags. -/
inductive Violation where
  | occupied (tag occupant : String)
  | tagMismatch (expected actual : String)
  | unexpected (tag : String)
  | nothingPut (tag : String)
  deriving DecidableEq, Repr

/-- The message of a violation. -/
def Violation.message : Violation → String
  | occupied tag occupant =>
      "Shelf already holds a value shelved as '" ++ occupant ++ "' (while handling '" ++ tag ++ "')"
  | tagMismatch expected actual =>
      "Value shelved as '" ++ actual ++ "' while '" ++ expected ++ "' was expected"
  | unexpected tag => "Value shelved as '" ++ tag ++ "' outside of any unshelve"
  | nothingPut tag => "Nothing was shelved as '" ++ tag ++ "'"

/-- A value together with its tag. -/
structure Item {Kind : Type} (Content : Kind → Type) where
  tag : Tag Kind
  value : Content tag.kind

/-- The state of handing over: what the innermost receiver expects, the slot, the
first violation that nobody took yet, and the number of waiting receivers. -/
structure Handoff {Kind : Type} (Content : Kind → Type) where
  expected : Option (Tag Kind) := none
  slot : Option (Item Content) := none
  fault : Option Violation := none
  depth : Nat := 0

namespace Handoff

variable {Kind : Type} [DecidableEq Kind] {Content : Kind → Type}

/-- Nothing is put down and nobody waits. -/
def empty : Handoff Content := {}

/-- Whether the slot is free. -/
def isEmpty (handoff : Handoff Content) : Bool := handoff.slot.isNone

/-- Remember a violation, unless one is remembered already. -/
def remember (handoff : Handoff Content) (violation : Violation) : Handoff Content :=
  { handoff with fault := handoff.fault.or (some violation) }

/-- Put a value down for the innermost receiver.  If that is a violation, the value
is lost. -/
def put (handoff : Handoff Content) (tag : Tag Kind) (value : Content tag.kind) :
    Handoff Content :=
  match handoff.expected with
  | none => handoff.remember (.unexpected tag.name)
  | some expected =>
      if expected = tag then
        match handoff.slot with
        | some held => handoff.remember (.occupied tag.name held.tag.name)
        | none => { handoff with slot := some ⟨tag, value⟩ }
      else handoff.remember (.tagMismatch expected.name tag.name)

/-- A receiver starts to wait. -/
def enter (handoff : Handoff Content) (tag : Tag Kind) : Handoff Content :=
  { handoff with expected := some tag, depth := handoff.depth + 1 }

/-- The innermost receiver no longer waits.  What was expected before it is expected
again. -/
def leave (handoff : Handoff Content) (previous : Option (Tag Kind)) : Handoff Content :=
  { handoff with expected := previous, depth := handoff.depth - 1 }

/-- The content of an item, if it is of the wanted kind. -/
def open? (tag : Tag Kind) (item : Item Content) : Except Violation (Content tag.kind) :=
  if same : item.tag.kind = tag.kind then .ok (same ▸ item.value)
  else .error (.tagMismatch tag.name item.tag.name)

/-- Take what a receiver waited for.  The slot and the remembered violation are
cleared, and the violation comes first. -/
def collect (handoff : Handoff Content) (tag : Tag Kind) :
    Except Violation (Content tag.kind) × Handoff Content :=
  let result := match handoff.fault, handoff.slot with
    | some violation, _ => .error violation
    | none, some item => open? tag item
    | none, none => .error (.nothingPut tag.name)
  (result, { handoff with slot := none, fault := none })

end Handoff

end DocumentQuery
