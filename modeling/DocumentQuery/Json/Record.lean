import DocumentQuery.Json.Scan

/-!
# Records in JSON text

Data of a known type is read straight from its text, so the first thing that does
not fit decides about the fault.  A record is an object, or an array of its fields
in order.
-/

namespace DocumentQuery.Json

/-- Read a string. -/
def readText : Reader String := fun text =>
  match skipBlanks text with
  | '"' :: rest => readString rest
  | rest => .error (mismatchAt rest)

/-- Read a truth value. -/
def readBool : Reader Bool := fun text =>
  match skipBlanks text with
  | 't' :: rest => do return (true, ← skipWord ['r', 'u', 'e'] rest)
  | 'f' :: rest => do return (false, ← skipWord ['a', 'l', 's', 'e'] rest)
  | rest => .error (mismatchAt rest)

/-- Read null. -/
def readNull : Reader Unit := fun text =>
  match skipBlanks text with
  | 'n' :: rest => do return ((), ← skipWord ['u', 'l', 'l'] rest)
  | rest => .error (mismatchAt rest)

/-- Read null or something else. -/
def readOptional {α : Type} (read : Reader α) : Reader (Option α) := fun text =>
  match skipBlanks text with
  | 'n' :: rest => do return (none, ← skipWord ['u', 'l', 'l'] rest)
  | rest => do
      let (value, rest) ← read rest
      return (some value, rest)

/-- Go on to the next item of an array or field of an object, which a comma divides
from the one before it. -/
def skipSeparator (first : Bool) (text : List Char) : Except Fault (List Char) := do
  return skipBlanks (← if first then .ok text else skipMark ',' text)

/-! ## Lists -/

/-- Read the items of an array up to its end, of at most the given number. -/
def readItems {α : Type} (read : Reader α) : Nat → Bool → Reader (List α)
  | 0, _, _ => .error .truncated
  | bound + 1, first, text =>
      match skipBlanks text with
      | ']' :: rest => .ok ([], rest)
      | text => do
          match ← skipSeparator first text with
          | [] => .error .truncated
          | ']' :: _ => .error .malformed
          | text =>
              let (item, text) ← read text
              let (items, text) ← readItems read bound false text
              return (item :: items, text)

/-- Read an array. -/
def readList {α : Type} (read : Reader α) : Reader (List α) := fun text =>
  match skipBlanks text with
  | '[' :: rest => readItems read (rest.length + 1) true rest
  | rest => .error (mismatchAt rest)

/-! ## Records -/

/-- The place of a field in a record: its name, whether it has to be there, and how
it is read into the record. -/
structure Slot (ρ : Type) where
  name : String
  required : Bool
  read : ρ → Reader ρ

/-- Read the fields of an object up to its end, of at most the given number.  Fields
of other names are skipped. -/
def readFields {ρ : Type} (slots : List (Slot ρ)) :
    Nat → Bool → List String → ρ → Reader ρ
  | 0, _, _, _, _ => .error .truncated
  | bound + 1, first, seen, record, text =>
      match skipBlanks text with
      | '\x7d' :: rest =>
          if slots.all fun slot => !slot.required || seen.contains slot.name then
            .ok (record, rest)
          else .error .mismatched
      | text => do
          match ← skipSeparator first text with
          | '"' :: rest =>
              let (name, rest) ← readString rest
              match slots.find? fun slot => slot.name == name with
              | none =>
                  let rest ← skipAny (← skipMark ':' rest)
                  readFields slots bound false seen record rest
              | some slot =>
                  if seen.contains name then .error .mismatched
                  let (record, rest) ← slot.read record (← skipMark ':' rest)
                  readFields slots bound false (name :: seen) record rest
          | rest => .error (faultAt rest)

/-- Read the elements of an array as the fields of a record.  Fields at the end may be
missing if none of them is required. -/
def readElements {ρ : Type} : List (Slot ρ) → Bool → ρ → Reader ρ
  | [], _, record, text =>
      match skipBlanks text with
      | ']' :: rest => .ok (record, rest)
      | rest => .error (faultAt rest)
  | slot :: slots, first, record, text =>
      match skipBlanks text with
      | ']' :: rest =>
          if (slot :: slots).any Slot.required then .error .mismatched else .ok (record, rest)
      | text => do
          match ← skipSeparator first text with
          | [] => .error .truncated
          | ']' :: _ => .error .malformed
          | text =>
              let (record, text) ← slot.read record text
              readElements slots false record text

/-- Read a record, starting from one with all the defaults. -/
def readRecord {ρ : Type} (slots : List (Slot ρ)) (start : ρ) : Reader ρ := fun text =>
  match skipBlanks text with
  | '\x7b' :: rest => readFields slots (rest.length + 1) true [] start rest
  | '[' :: rest => readElements slots true start rest
  | rest => .error (mismatchAt rest)

/-! ## Alternatives -/

/-- The alternative with the given name. -/
def chooseName {α : Type} (choices : List (String × α)) (name : String) : Except Fault α :=
  match choices.lookup name with
  | some choice => .ok choice
  | none => .error .mismatched

/-- Read the name of a field, which has to be a string. -/
def readName : Reader String := fun text =>
  match skipBlanks text with
  | '"' :: rest => readString rest
  | rest => .error (faultAt rest)

/-- Read one of several alternatives: its name, or an object with null under that
name. -/
def readChoice {α : Type} (choices : List (String × α)) : Reader α := fun text =>
  match skipBlanks text with
  | '"' :: rest => do
      let (name, rest) ← readString rest
      return (← chooseName choices name, rest)
  | '\x7b' :: rest => do
      let (name, rest) ← readName rest
      let choice ← chooseName choices name
      let ((), rest) ← readNull (← skipMark ':' rest)
      return (choice, ← skipMark '\x7d' rest)
  | rest => .error (faultAt rest)

/-! ## Whole texts -/

/-- Read a whole text. -/
def readAll {α : Type} (read : Reader α) (text : String) : Except Fault α := do
  let (value, rest) ← read text.toList
  if (skipBlanks rest).isEmpty then .ok value else .error .malformed

end DocumentQuery.Json
