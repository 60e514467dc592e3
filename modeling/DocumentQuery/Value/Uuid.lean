import DocumentQuery.Number.Hexadecimal

/-!
# Identifiers of 128 bits

An identifier is written as 32 hexadecimal digits in five groups.  It is also read
without hyphens, between braces or after the name of its namespace.
-/

namespace DocumentQuery

/-- A universally unique identifier. -/
structure Uuid where
  bits : BitVec 128
  deriving DecidableEq, Repr

namespace Uuid

/-- The identifier with the given 32 digits. -/
def ofDigits? (digits : List Char) : Option Uuid :=
  if digits.length = 32 then
    (digits.mapM Hexadecimal.value?).map fun values =>
      ⟨BitVec.ofNat 128 (values.foldl (fun total value => total * 16 + value) 0)⟩
  else none

/-- The lengths of the five groups of digits. -/
def groups : List Nat := [8, 4, 4, 4, 12]

/-- The digits of groups divided by hyphens, if each has its length. -/
def joinGroups? : List Nat → List Char → Option (List Char)
  | [], text => if text.isEmpty then some [] else none
  | [last], text => if text.length = last then some text else none
  | group :: groups, text =>
      match text.drop group with
      | '-' :: rest => (joinGroups? groups rest).map (text.take group ++ ·)
      | _ => none

/-- Read an identifier with hyphens. -/
def readGrouped? (text : List Char) : Option Uuid :=
  (joinGroups? groups text).bind ofDigits?

/-- The name that may stand in front of an identifier, in any case. -/
def namespaceLabel : List Char := "urn:uuid:".toList

/-- Read an identifier in any of its forms. -/
def read? (text : List Char) : Option Uuid :=
  if text.length = 32 then ofDigits? text
  else if text.length = 38 then
    match text, text.getLast? with
    | '\x7b' :: rest, some '\x7d' => readGrouped? rest.dropLast
    | _, _ => none
  else if namespaceLabel.isPrefixOf (text.map Char.toLower) then
    readGrouped? (text.drop namespaceLabel.length)
  else readGrouped? text

/-- The digit at a place, counted from the left. -/
def digit (uuid : Uuid) (place : Nat) : Char :=
  Hexadecimal.digit (uuid.bits.toNat / Nat.pow 16 (31 - place) % 16)

/-- The 32 digits of an identifier. -/
def digits (uuid : Uuid) : List Char := (List.range 32).map uuid.digit

/-- Divide digits into groups by hyphens. -/
def splitGroups : List Nat → List Char → List Char
  | [], text => text
  | [_], text => text
  | group :: groups, text => text.take group ++ '-' :: splitGroups groups (text.drop group)

/-- An identifier in lower case with hyphens. -/
def text (uuid : Uuid) : String := String.ofList (splitGroups groups uuid.digits)

end Uuid

end DocumentQuery
