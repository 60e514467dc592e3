/-!
# Numerals

Decimal digits and the integers they stand for.  A 64-bit integer is read from
left to right, so digits that leave its range are noticed before a later
character that is no digit.
-/

namespace DocumentQuery.Numeral

/-- The number that a run of decimal digits stands for. -/
def value (digits : List Char) : Nat :=
  digits.foldl (fun number digit => 10 * number + (digit.toNat - '0'.toNat)) 0

/-- A power of ten. -/
def tenPower (exponent : Nat) : Nat := Nat.pow 10 exponent

/-- The decimal digits of a number. -/
def digits (number : Nat) : List Char := Nat.toDigits 10 number

/-- The numeral of an integer: its digits, after a hyphen when it is negative. -/
def ofInt (number : Int) : List Char :=
  if number < 0 then '-' :: digits number.natAbs else digits number.natAbs

/-- Whether a text is a non-empty run of decimal digits. -/
def isDigits (text : List Char) : Bool := !text.isEmpty && text.all Char.isDigit

/-- A sign in front, if there is one, and the rest: whether the sign is a
hyphen. -/
def splitSign : List Char → Bool × List Char
  | '-' :: rest => (true, rest)
  | '+' :: rest => (false, rest)
  | text => (false, text)

/-- Give a number its sign. -/
def applySign (negative : Bool) (number : Nat) : Int :=
  if negative then -(number : Int) else number

/-- Read an optional sign and digits. -/
def signed? (text : List Char) : Option Int :=
  match splitSign text with
  | (negative, rest) => if isDigits rest then some (applySign negative (value rest)) else none

/-- Why a text is no 64-bit integer. -/
inductive Fault where
  | tooLarge
  | tooSmall
  | invalidDigit
  deriving DecidableEq, Repr

/-- The wording of a fault. -/
def Fault.message : Fault → String
  | tooLarge => "number too large to fit in target type"
  | tooSmall => "number too small to fit in target type"
  | invalidDigit => "invalid digit found in string"

/-- Whether an integer fits 64 bits. -/
def fitsLong (number : Int) : Prop := -0x8000000000000000 ≤ number ∧ number < 0x8000000000000000

/-- Whether an integer fits 32 bits. -/
def fitsInteger (number : Int) : Prop := -0x80000000 ≤ number ∧ number < 0x80000000

instance (number : Int) : Decidable (fitsLong number) := inferInstanceAs (Decidable (_ ∧ _))

instance (number : Int) : Decidable (fitsInteger number) := inferInstanceAs (Decidable (_ ∧ _))

/-- Read a 64-bit integer with an optional sign. -/
def readLong (text : List Char) : Except Fault Int64 :=
  match splitSign text with
  | (negative, rest) =>
      let leading := rest.takeWhile Char.isDigit
      let number := applySign negative (value leading)
      if number < -0x8000000000000000 then .error .tooSmall
      else if 0x8000000000000000 ≤ number then .error .tooLarge
      else if isDigits rest then .ok (Int64.ofInt number)
      else .error .invalidDigit

end DocumentQuery.Numeral
