import DocumentQuery.Json.Basic
import DocumentQuery.Number.Double

/-!
# Numbers of JSON text

The digits of a number are taken up while they fit 64 bits.  What is left of them
only counts as a power of ten, and the double is the product or the quotient of
two doubles, which need not be the nearest one to the number that is written.
-/

namespace DocumentQuery.Json

/-- A number as it is written. -/
structure NumberText where
  negative : Bool
  /-- The digits in front of the point. -/
  whole : List Char
  /-- The digits behind the point, if there is one. -/
  fraction : List Char
  /-- The power of ten, if there is one. -/
  exponent : Option Int
  deriving Repr

/-- Take up digits while the number fits 64 bits, and leave the others. -/
def takeDigits : Nat → List Char → Nat × List Char
  | number, [] => (number, [])
  | number, digit :: digits =>
      let next := 10 * number + (digit.toNat - '0'.toNat)
      if next ≤ 0xFFFFFFFFFFFFFFFF then takeDigits next digits else (number, digit :: digits)

/-- The largest power of ten that is a double. -/
def maxExponent : Nat := 308

/-- Divide by a power of ten, in several steps if it is no double. -/
def divideByPower (number : Float) (places : Nat) : Float :=
  if places ≤ maxExponent then number / Double.ofScientific 1 places
  else if number == 0.0 then number
  else divideByPower (number / Double.ofScientific 1 maxExponent) (places - maxExponent)
termination_by places
decreasing_by simp [maxExponent] at *; omega

/-- Multiply by a power of ten, unless the product leaves the range of doubles. -/
def multiplyByPower? (number : Float) (places : Nat) : Option Float :=
  if maxExponent < places then if number == 0.0 then some number else none
  else
    let product := number * Double.ofScientific 1 places
    if product.isInf then none else some product

/-- The double for digits and a power of ten. -/
def scaled? (digits : Nat) (exponent : Int) : Option Float :=
  if 0 ≤ exponent then multiplyByPower? (Float.ofNat digits) exponent.toNat
  else some (divideByPower (Float.ofNat digits) (-exponent).toNat)

/-- A power of ten whose exponent does not fit 32 bits leaves nothing, or too
much. -/
def scaledBeyond? (digits : Nat) (exponent : Int) : Option Float :=
  if digits = 0 ∨ exponent < 0 then some 0.0 else none

namespace NumberText

/-- The magnitude of a number as a double, if it is in range. -/
def magnitude? (number : NumberText) : Option Float :=
  let (digits, wholeLeft) := takeDigits 0 number.whole
  let (digits, fractionLeft) := takeDigits digits number.fraction
  let exponent := number.exponent.getD 0
  if exponent.natAbs ≤ 0x7FFFFFFF then
    scaled? digits
      (exponent + wholeLeft.length - (number.fraction.length - fractionLeft.length : Nat))
  else scaledBeyond? digits exponent

/-- The integer that is written, if it is one that fits 64 bits.  There is no
negative zero among them. -/
def integer? (number : NumberText) : Option Int :=
  let integer := Numeral.applySign number.negative (Numeral.value number.whole)
  if number.fraction.isEmpty ∧ number.exponent.isNone ∧ integer ≤ 0xFFFFFFFFFFFFFFFF ∧
      -0x8000000000000000 ≤ integer ∧ ¬(number.negative ∧ integer = 0) then
    some integer
  else none

/-- The value of a number, if it is in range. -/
def value? (number : NumberText) : Option Json :=
  match number.integer? with
  | some integer => some (.int integer)
  | none =>
      number.magnitude?.map fun magnitude =>
        .double (if number.negative then -magnitude else magnitude)

end NumberText

end DocumentQuery.Json
