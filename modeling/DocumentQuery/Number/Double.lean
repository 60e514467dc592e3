import DocumentQuery.Number.Decimal
import DocumentQuery.Number.Shortest

/-!
# Double precision numbers as text

A finite double is written with the fewest digits that read back.  A layout fixes
where positional notation ends and how an exponent is written.
-/

namespace DocumentQuery

/-- How finite doubles are laid out as text. -/
structure DoubleLayout where
  /-- The least exponent of the leading digit that is written positionally. -/
  plainFrom : Int
  /-- The least exponent of the leading digit that is again written with a power
  of ten. -/
  plainBelow : Int
  /-- Whether a positive exponent has a sign. -/
  exponentPlus : Bool
  tie : Shortest.Tie

namespace DoubleLayout

/-- Lay out digits that stand for `digits * 10 ^ exponent`.  A number written
positionally always has a digit on both sides of its point. -/
def place (layout : DoubleLayout) (digits : List Char) (exponent : Int) : List Char :=
  let leading := exponent + digits.length - 1
  if layout.plainFrom ≤ leading ∧ leading < layout.plainBelow then
    if 0 ≤ exponent then
      digits ++ List.replicate exponent.toNat '0' ++ ['.', '0']
    else if 0 ≤ leading then
      digits.take (leading + 1).toNat ++ '.' :: digits.drop (leading + 1).toNat
    else
      '0' :: '.' :: List.replicate (-leading - 1).toNat '0' ++ digits
  else
    let mantissa := match digits with
      | first :: second :: rest => first :: '.' :: second :: rest
      | short => short
    let sign := if layout.exponentPlus ∧ 0 ≤ leading then ['+'] else []
    mantissa ++ 'e' :: sign ++ Numeral.ofInt leading

/-- The text of a finite double. -/
def write (layout : DoubleLayout) (number : Float) : String :=
  let binary := Shortest.Binary.ofBits number.toBits
  let magnitude :=
    if binary.significand = 0 then ['0', '.', '0']
    else
      let decimal := binary.digits layout.tie
      layout.place (Numeral.digits decimal.digits) decimal.exponent
  String.ofList (if number.toBits >>> 63 == 1 then '-' :: magnitude else magnitude)

/-- Doubles in messages and inside typed wrappers. -/
def spelled : DoubleLayout where
  plainFrom := -4
  plainBelow := 16
  exponentPlus := false
  tie := .up

/-- Doubles as plain numbers of a document. -/
def plain : DoubleLayout where
  plainFrom := -5
  plainBelow := 16
  exponentPlus := true
  tie := .toEven

end DoubleLayout

namespace Double

/-- The text of any double, with the given word for infinity. -/
def spell (infinity : String) (number : Float) : String :=
  if number.isNaN then "NaN"
  else if number.isInf then
    if number < 0.0 then "-" ++ infinity else infinity
  else DoubleLayout.spelled.write number

/-- A double in a message. -/
def display (number : Float) : String := spell "inf" number

/-- A double inside a typed wrapper. -/
def wrapped (number : Float) : String := spell "Infinity" number

/-- The double nearest to `digits * 10 ^ exponent`.  A number beyond the range of
doubles is not computed: it is infinite, or zero. -/
def ofScientific (digits : Nat) (exponent : Int) : Float :=
  if digits = 0 then 0.0
  else
    let leading := exponent + (Numeral.digits digits).length - 1
    if 400 < leading then 1.0 / 0.0
    else if leading < -400 then 0.0
    else if 0 ≤ exponent then Float.ofScientific digits false exponent.toNat
    else Float.ofScientific digits true (-exponent).toNat

/-- Read digits with an optional point, at least one digit in all, times a power
of ten. -/
def readScaled? (base : List Char) (exponent : Int) : Option Float :=
  let whole := base.takeWhile (· != '.')
  let fraction := (base.dropWhile (· != '.')).drop 1
  if Numeral.isDigits (whole ++ fraction) then
    some (ofScientific (Numeral.value (whole ++ fraction)) (exponent - fraction.length))
  else none

/-- Read a double without its sign: a word for infinity or for no number, or a
numeral with an optional power of ten. -/
def readMagnitude? (text : List Char) : Option Float :=
  let lower := String.ofList (text.map Char.toLower)
  if lower == "inf" || lower == "infinity" then some (1.0 / 0.0)
  else if lower == "nan" then some (0.0 / 0.0)
  else
    let isMark := fun c => c == 'e' || c == 'E'
    let base := text.takeWhile (!isMark ·)
    match text.dropWhile (!isMark ·) with
    | [] => readScaled? base 0
    | _ :: exponent =>
        match Numeral.signed? exponent with
        | none => none
        | some exponent => readScaled? base exponent

/-- Read a double with an optional sign. -/
def read? (text : List Char) : Option Float :=
  match Numeral.splitSign text with
  | (negative, rest) => (readMagnitude? rest).map fun number => if negative then -number else number

/-- Halve a number as often as it stays whole, at most the given number of times: the
number, and how many times are left. -/
def halve (number : Nat) : Nat → Nat × Nat
  | 0 => (number, 0)
  | times + 1 => if number % 2 = 0 then halve (number / 2) times else (number, times + 1)

/-- A finite double as a decimal, which is exact.  Its scale is the least one that is
enough, except for the doubles below the normal range, which share one scale. -/
def toDecimal (number : Float) : Decimal :=
  let binary := Shortest.Binary.ofBits number.toBits
  let negative := number.toBits >>> 63 == 1
  let (significand, places) :=
    if binary.significand = 0 then (0, 0)
    else if binary.significand < 0x10000000000000 then (binary.significand, 1074)
    else halve (binary.significand * Nat.pow 2 binary.exponent.toNat) (-binary.exponent).toNat
  ⟨Numeral.applySign negative (significand * Nat.pow 5 places), places⟩

end Double

end DocumentQuery
