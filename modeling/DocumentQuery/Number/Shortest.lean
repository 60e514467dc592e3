/-!
# The fewest digits that read back

A finite double is an integer times a power of two.  The real numbers that round
to it form an interval around it, and the decimal chosen for it is the one with
the fewest digits in that interval, and of those the nearest.  All comparisons
are of natural numbers, so nothing is lost on the way.
-/

namespace DocumentQuery.Shortest

/-- A positive double `significand * 2 ^ exponent`. -/
structure Binary where
  significand : Nat
  exponent : Int
  /-- Whether the next smaller double is half as far away as the next larger. -/
  narrowBelow : Bool
  deriving DecidableEq, Repr

/-- The magnitude of a finite double, from its bits. -/
def Binary.ofBits (bits : UInt64) : Binary :=
  let exponent : Nat := bits.toNat / 0x10000000000000 % 0x800
  let fraction : Nat := bits.toNat % 0x10000000000000
  if exponent = 0 then ⟨fraction, -1074, false⟩
  else ⟨0x10000000000000 + fraction, (exponent : Int) - 1075, fraction = 0 && 1 < exponent⟩

/-- The decimal `digits * 10 ^ exponent`. -/
structure Digits where
  digits : Nat
  exponent : Int
  deriving DecidableEq, Repr

/-- Which of two equally near candidates is taken. -/
inductive Tie where
  | toEven
  | up
  deriving DecidableEq, Repr

/-- The value of a double and the ends of its interval over one denominator, in
units of `10 ^ unit`. -/
structure Scaled where
  value : Nat
  low : Nat
  high : Nat
  denominator : Nat

/-- Express a double in units of a power of ten. -/
def Binary.scaled (binary : Binary) (unit : Int) : Scaled :=
  let up := Nat.pow 2 (binary.exponent - 2).toNat * Nat.pow 10 (-unit).toNat
  { value := 4 * binary.significand * up
    low := (4 * binary.significand - if binary.narrowBelow then 1 else 2) * up
    high := (4 * binary.significand + 2) * up
    denominator := Nat.pow 2 (2 - binary.exponent).toNat * Nat.pow 10 unit.toNat }

/-- Whether a multiple of the unit rounds to the double.  The ends of the interval
do when the significand is even. -/
def Binary.accepts (binary : Binary) (scaled : Scaled) (multiple : Nat) : Bool :=
  let point := multiple * scaled.denominator
  if binary.significand % 2 = 0 then scaled.low ≤ point && point ≤ scaled.high
  else scaled.low < point && point < scaled.high

/-- The multiple of the unit that stands for the double: one of the two around its
value, the nearer if both round to it. -/
def Binary.onGrid? (tie : Tie) (binary : Binary) (unit : Int) : Option Digits :=
  let scaled := binary.scaled unit
  let below := scaled.value / scaled.denominator
  let above := below + 1
  let twice := 2 * scaled.value
  let middle := (below + above) * scaled.denominator
  match binary.accepts scaled below, binary.accepts scaled above with
  | false, false => none
  | true, false => some ⟨below, unit⟩
  | false, true => some ⟨above, unit⟩
  | true, true =>
      if twice < middle then some ⟨below, unit⟩
      else if middle < twice then some ⟨above, unit⟩
      else match tie with
        | .toEven => if below % 2 = 0 then some ⟨below, unit⟩ else some ⟨above, unit⟩
        | .up => some ⟨above, unit⟩

/-- The exponent of the leading decimal digit of a positive double. -/
def Binary.leading (binary : Binary) : Int :=
  let numerator := binary.significand * Nat.pow 2 binary.exponent.toNat
  let denominator := Nat.pow 2 (-binary.exponent).toNat
  if denominator ≤ numerator then
    ((Nat.toDigits 10 (numerator / denominator)).length : Int) - 1
  else
    let length := (Nat.toDigits 10 (denominator / numerator)).length
    if denominator = numerator * Nat.pow 10 (length - 1) then -((length : Int) - 1)
    else -(length : Int)

/-- Move trailing zeros of the digits into the exponent. -/
def Digits.strip : Nat → Digits → Digits
  | 0, decimal => decimal
  | bound + 1, decimal =>
      if decimal.digits ≠ 0 ∧ decimal.digits % 10 = 0 then
        strip bound ⟨decimal.digits / 10, decimal.exponent + 1⟩
      else decimal

/-- The digits of a positive double.  Seventeen always suffice; its exact value
stands in should none of the grids hold a candidate. -/
def Binary.digits (tie : Tie) (binary : Binary) : Digits :=
  let leading := binary.leading
  match (List.range 17).findSome? fun (count : Nat) =>
      binary.onGrid? tie (leading - count) with
  | some decimal => decimal.strip 17
  | none =>
      if 0 ≤ binary.exponent then ⟨binary.significand * Nat.pow 2 binary.exponent.toNat, 0⟩
      else ⟨binary.significand * Nat.pow 5 (-binary.exponent).toNat, binary.exponent⟩

end DocumentQuery.Shortest
