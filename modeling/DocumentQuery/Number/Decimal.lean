import DocumentQuery.Number.Numeral

/-!
# Decimals of any precision

A decimal is an integer and the number of its digits that stand behind the
point.  Trailing zeros are part of it: `1.50` and `1.5` are written differently
although they are equal numbers.
-/

namespace DocumentQuery

/-- The number `unscaled / 10 ^ scale`. -/
structure Decimal where
  unscaled : Int
  scale : Int
  deriving DecidableEq, Repr

namespace Decimal

/-! ## Comparing

Two decimals of different scales are compared over the larger scale.  The integer
of the other one is then multiplied by a power of ten, word by word and in 64
bits: what the sum of a product and a carry has beyond them is dropped.  Only a
product that needs more than 64 bits itself leads to exact arithmetic. -/

/-- The number of bits of a number. -/
def bitLength (number : Nat) : Nat := if number = 0 then 0 else Nat.log2 number + 1

/-- The words of 32 bits of a number, the lowest first. -/
def words (number : Nat) : List Nat :=
  if number = 0 then [] else number % 0x100000000 :: words (number / 0x100000000)
termination_by number
decreasing_by omega

/-- Whether words are those of other words times a factor plus a carry.  There is no
answer when a product needs more than 64 bits. -/
def wordsEqual? (factor : Nat) : List Nat → List Nat → Nat → Option Bool
  | [], [], carry => some (carry == 0)
  | [], _ :: _, _ => some false
  | a :: as, [], carry =>
      if a = carry % 0x100000000 then wordsEqual? factor as [] (carry / 0x100000000)
      else some false
  | a :: as, b :: bs, carry =>
      if 0xFFFFFFFFFFFFFFFF < b * factor then none
      else
        let sum := (b * factor + carry) % 0x10000000000000000
        if a = sum % 0x100000000 then wordsEqual? factor as bs (sum / 0x100000000)
        else some false

/-- Whether one number is the other one times a power of ten.  Powers of twenty and
more places are taken as they are; the lengths are compared first, so that they
stay in proportion to the digits at hand. -/
def equalScaled (a b places : Nat) : Bool :=
  if places < 20 then
    let factor := Numeral.tenPower places
    bitLength b + Nat.log2 factor ≤ bitLength a &&
      (wordsEqual? factor (words a) (words b) 0).getD (a == b * factor)
  else bitLength b + 3 * places ≤ bitLength a && a == b * Numeral.tenPower places

/-- Whether two decimals count as equal. -/
def equal (a b : Decimal) : Bool :=
  if a.unscaled.sign ≠ b.unscaled.sign then false
  else if a.unscaled = 0 then true
  else
    let left := a.unscaled.natAbs
    let right := b.unscaled.natAbs
    if a.scale = b.scale then left == right
    else if b.scale < a.scale then equalScaled left right (a.scale - b.scale).toNat
    else equalScaled right left (b.scale - a.scale).toNat

/-! ## Reading -/

/-- Read digits with an optional sign in front and underscores between them. -/
def readUnscaled? (text : List Char) : Option Int :=
  match Numeral.splitSign text with
  | (negative, rest) =>
      if rest.head? = some '_' then none
      else
        let digits := rest.filter (· != '_')
        if Numeral.isDigits digits then some (Numeral.applySign negative (Numeral.value digits))
        else none

/-- Read a numeral with an optional point and a power of ten to multiply it by. -/
def readScaled? (base : List Char) (exponent : Int) : Option Decimal :=
  let whole := base.takeWhile (· != '.')
  let fraction := (base.dropWhile (· != '.')).drop 1
  let scale := ((fraction.filter (· != '_')).length : Int) - exponent
  match readUnscaled? (whole ++ fraction) with
  | none => none
  | some unscaled => if Numeral.fitsLong scale then some ⟨unscaled, scale⟩ else none

/-- Whether a power of ten can be read: its exponent fits 128 bits. -/
def fitsExponent (exponent : Int) : Bool :=
  decide (-0x80000000000000000000000000000000 ≤ exponent ∧
    exponent < 0x80000000000000000000000000000000)

/-- Whether a character announces a power of ten. -/
def isExponentMark (c : Char) : Bool := c == 'e' || c == 'E'

/-- Read a decimal numeral: digits with an optional sign and point, and an
optional power of ten behind the letter `e`. -/
def read? (text : List Char) : Option Decimal :=
  let base := text.takeWhile (!isExponentMark ·)
  match text.dropWhile (!isExponentMark ·) with
  | [] => readScaled? base 0
  | _ :: exponent =>
      match Numeral.signed? exponent with
      | none => none
      | some exponent =>
          if fitsExponent exponent then readScaled? base exponent else none

/-! ## Writing -/

/-- Digits with a point behind the first one, if there are more. -/
def pointAfterFirst : List Char → List Char
  | first :: second :: rest => first :: '.' :: second :: rest
  | digits => digits

/-- Digits with the point in front of the last `scale` of them, padded with zeros
so that at least one digit stands in front of the point. -/
def positional (digits : List Char) (scale : Nat) : List Char :=
  let padded := List.replicate (scale + 1 - digits.length) '0' ++ digits
  padded.take (padded.length - scale) ++ '.' :: padded.drop (padded.length - scale)

/-- The numeral of a decimal without its sign.  A number whose digits start more
than five places behind the point is written with a power of ten, and so is one
that would need more than fifteen zeros behind its digits. -/
def magnitude (digits : List Char) (scale : Int) : List Char :=
  if scale - digits.length > 5 then
    pointAfterFirst digits ++ 'E' :: Numeral.ofInt (digits.length - 1 - scale)
  else if -scale > 15 then
    digits ++ 'e' :: '+' :: Numeral.ofInt (-scale)
  else if scale ≤ 0 then
    digits ++ List.replicate (-scale).toNat '0'
  else
    positional digits scale.toNat

/-- The numeral of a decimal.  Zero has no scale when written. -/
def text (decimal : Decimal) : List Char :=
  if decimal.unscaled = 0 then ['0']
  else
    let written := magnitude (Numeral.digits decimal.unscaled.natAbs) decimal.scale
    if decimal.unscaled < 0 then '-' :: written else written

end Decimal

end DocumentQuery
