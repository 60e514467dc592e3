import DocumentQuery.Number.Numeral
import DocumentQuery.Time.Calendar

/-!
# Instants

An instant is a number of seconds since the start of 1970, in universal time,
and the nanoseconds beyond them.  A leap second belongs to the second before it:
its nanoseconds start at a full second.
-/

namespace DocumentQuery

/-- A point in time.  In a leap second `nanos` is at least a full second. -/
structure Instant where
  seconds : Int
  nanos : Nat
  deriving DecidableEq, Repr

namespace Instant

/-- The nanoseconds of a second. -/
def nanosPerSecond : Nat := 1000000000

/-- The date of an instant. -/
def date (instant : Instant) : Date := .ofDays (instant.seconds / 86400)

/-- The milliseconds since the start of 1970, rounded down.  A leap second counts
as the second that follows it. -/
def millis (instant : Instant) : Int :=
  instant.seconds * 1000 + (instant.nanos / 1000000 : Nat)

/-! ## Writing -/

/-- Digits padded with zeros in front to a width. -/
def padded (width number : Nat) : List Char :=
  let digits := Numeral.digits number
  List.replicate (width - digits.length) '0' ++ digits

/-- A year has four digits, and a sign only outside of those. -/
def yearText (year : Int) : List Char :=
  if 0 ≤ year ∧ year ≤ 9999 then padded 4 year.toNat
  else (if year < 0 then '-' else '+') :: padded 4 year.natAbs

/-- How much of a second is written. -/
inductive Precision where
  /-- Milliseconds, what is finer being cut off. -/
  | millis
  /-- Zero, three, six or nine digits, as few as are exact. -/
  | shortest
  deriving DecidableEq, Repr

/-- The fraction of a second with its point. -/
def fractionText (precision : Precision) (nanos : Nat) : List Char :=
  match precision with
  | .millis => '.' :: padded 3 (nanos / 1000000)
  | .shortest =>
      if nanos = 0 then []
      else if nanos % 1000000 = 0 then '.' :: padded 3 (nanos / 1000000)
      else if nanos % 1000 = 0 then '.' :: padded 6 (nanos / 1000)
      else '.' :: padded 9 nanos

/-- The date and time of an instant in universal time, before the mark of the
time zone.  A leap second is written as second sixty. -/
def localText (precision : Precision) (instant : Instant) : List Char :=
  let date := instant.date
  let second := (instant.seconds % 86400).toNat
  let leap := instant.nanos / nanosPerSecond
  yearText date.year ++ '-' :: padded 2 date.month ++ '-' :: padded 2 date.day ++
    'T' :: padded 2 (second / 3600) ++ ':' :: padded 2 (second / 60 % 60) ++
    ':' :: padded 2 (second % 60 + leap) ++ fractionText precision (instant.nanos % nanosPerSecond)

/-- An instant in a message. -/
def display (instant : Instant) : String :=
  String.ofList (instant.localText .shortest ++ ['+', '0', '0', ':', '0', '0'])

/-- An instant as exact text. -/
def exactText (instant : Instant) : String :=
  String.ofList (instant.localText .shortest ++ ['Z'])

/-- An instant to the millisecond. -/
def millisText (instant : Instant) : String :=
  String.ofList (instant.localText .millis ++ ['Z'])

/-! ## Reading

Date and time are read generously: blanks may stand around the numbers and marks
of each of them, a letter `T` or a blank divides them, and the zone is a letter
`Z`, the word `UTC` or an offset in hours and minutes. -/

/-- Whether a character is a blank of the Unicode standard. -/
def isBlank (c : Char) : Bool :=
  let code := c.toNat
  (9 ≤ code && code ≤ 13) || code == 0x20 || code == 0x85 || code == 0xA0 || code == 0x1680 ||
    (0x2000 ≤ code && code ≤ 0x200A) || code == 0x2028 || code == 0x2029 || code == 0x202F ||
    code == 0x205F || code == 0x3000

/-- What follows the blanks in front. -/
def skipBlanks (text : List Char) : List Char := text.dropWhile isBlank

/-- Read a number of at most the given number of digits, after blanks. -/
def readNumber? (most : Nat) (text : List Char) : Option (Nat × List Char) :=
  let text := skipBlanks text
  let digits := (text.take most).takeWhile Char.isDigit
  if digits.isEmpty then none else some (Numeral.value digits, text.drop digits.length)

/-- Read a mark, after blanks. -/
def readMark? (mark : Char) (text : List Char) : Option (List Char) :=
  match skipBlanks text with
  | [] => none
  | c :: rest => if c = mark then some rest else none

/-- Read a year: four digits, or a sign and any number of them. -/
def readYear? (text : List Char) : Option (Int × List Char) :=
  match skipBlanks text with
  | '-' :: rest =>
      if rest.head?.any Char.isDigit then
        (readNumber? rest.length rest).map fun (year, rest) => (-(year : Int), rest)
      else none
  | '+' :: rest =>
      if rest.head?.any Char.isDigit then
        (readNumber? rest.length rest).map fun (year, rest) => ((year : Int), rest)
      else none
  | rest => (readNumber? 4 rest).map fun (year, rest) => ((year : Int), rest)

/-- Read the fraction of a second as nanoseconds; what is finer is dropped. -/
def readFraction? : List Char → Option (Nat × List Char)
  | '.' :: rest =>
      let digits := rest.takeWhile Char.isDigit
      if digits.isEmpty then none
      else
        let kept := digits.take 9
        some (Numeral.value kept * Numeral.tenPower (9 - kept.length), rest.drop digits.length)
  | text => some (0, text)

/-- Read two digits. -/
def readPair? : List Char → Option (Nat × List Char)
  | a :: b :: rest => if a.isDigit && b.isDigit then some (Numeral.value [a, b], rest) else none
  | _ => none

/-- Read hours and minutes of an offset, in seconds. -/
def readHours? (text : List Char) : Option (Int × List Char) := do
  let (hours, rest) ← readPair? text
  let (minutes, rest) ← readPair? (rest.dropWhile fun c => c == ':' || isBlank c)
  if minutes < 60 ∧ hours < 24 then some (hours * 3600 + minutes * 60, rest) else none

/-- Read the mark of a time zone as the seconds it is ahead of universal time. -/
def readZone? (text : List Char) : Option (Int × List Char) :=
  match text with
  | 'Z' :: rest | 'z' :: rest => some (0, rest)
  | '+' :: rest => readHours? rest
  | '-' :: rest | '−' :: rest => (readHours? rest).map fun (offset, rest) => (-offset, rest)
  | _ =>
      if (text.take 3).map Char.toLower = ['u', 't', 'c'] then some (0, text.drop 3) else none

/-- Whether a year is one of those that are counted. -/
def isCounted (year : Int) : Bool := -262143 ≤ year && year ≤ 262142

/-- Read a date and a time with its zone.  Both in its zone and in universal time,
the year has to be one that is counted. -/
def read? (text : List Char) : Option Instant := do
  let (year, rest) ← readYear? text
  let rest ← readMark? '-' rest
  let (month, rest) ← readNumber? 2 rest
  let rest ← readMark? '-' rest
  let (day, rest) ← readNumber? 2 rest
  let rest ← match rest with
    | 't' :: rest | 'T' :: rest | ' ' :: rest => some rest
    | _ => none
  let (hour, rest) ← readNumber? 2 rest
  let rest ← readMark? ':' rest
  let (minute, rest) ← readNumber? 2 rest
  let rest ← readMark? ':' rest
  let (second, rest) ← readNumber? 2 rest
  let (nanos, rest) ← readFraction? rest
  let (offset, rest) ← readZone? (skipBlanks rest)
  let date : Date := ⟨year, month, day⟩
  if skipBlanks rest = [] ∧ date.isValid ∧ hour < 24 ∧ minute < 60 ∧ second ≤ 60 ∧
      isCounted year then
    let leap := second / 60
    let instant : Instant :=
      { seconds :=
          date.toDays * 86400 + hour * 3600 + minute * 60 + (second - leap : Nat) - offset
        nanos := leap * nanosPerSecond + nanos }
    if isCounted instant.date.year then some instant else none
  else none

end Instant

end DocumentQuery
