import DocumentQuery.Json.Number
import DocumentQuery.Number.Hexadecimal

/-!
# The lexical level of JSON text

Words, strings and numbers are read off the front of a text, and whole values are
skipped.  Reading stops at the first fault, and a text that breaks off is told
apart from one that is malformed.
-/

namespace DocumentQuery.Json

/-- What may be wrong with a text. -/
inductive Fault where
  /-- It is no JSON. -/
  | malformed
  /-- It ends too early. -/
  | truncated
  /-- It holds something else than what is wanted. -/
  | mismatched
  deriving DecidableEq, Repr

/-- Reading takes something off the front of a text. -/
abbrev Reader (α : Type) := List Char → Except Fault (α × List Char)

/-- The fault of a text that goes on in a wrong way, or not at all. -/
def faultAt (text : List Char) : Fault := if text.isEmpty then .truncated else .malformed

/-- Whether a character may stand between the parts of a text. -/
def isBlank (c : Char) : Bool := c == ' ' || c == '\n' || c == '\t' || c == '\r'

/-- What follows the blanks in front. -/
def skipBlanks (text : List Char) : List Char := text.dropWhile isBlank

/-- Take the given characters off the front. -/
def skipWord : List Char → List Char → Except Fault (List Char)
  | [], text => .ok text
  | _ :: _, [] => .error .truncated
  | c :: word, d :: text => if c = d then skipWord word text else .error .malformed

/-- Take a mark off the front, after blanks. -/
def skipMark (mark : Char) (text : List Char) : Except Fault (List Char) :=
  skipWord [mark] (skipBlanks text)

/-! ## Strings -/

/-- Read four hexadecimal digits.  The text breaks off if fewer than four bytes are
left of it. -/
def readUnit : Reader Nat := fun text =>
  match (text.take 4).mapM Hexadecimal.value? with
  | some [a, b, c, d] => .ok (((a * 16 + b) * 16 + c) * 16 + d, text.drop 4)
  | _ => .error (if (String.ofList text).utf8ByteSize < 4 then .truncated else .malformed)

/-- The character that an escape of one letter stands for. -/
def escaped? (c : Char) : Option Char :=
  [('"', '"'), ('\\', '\\'), ('/', '/'), ('b', '\x08'), ('f', '\x0c'), ('n', '\n'), ('r', '\r'),
    ('t', '\t')].lookup c

/-- Whether a number is the first half of a surrogate pair. -/
def isHighSurrogate (unit : Nat) : Bool := decide (0xD800 ≤ unit ∧ unit ≤ 0xDBFF)

/-- Whether a number is the second half of a surrogate pair. -/
def isLowSurrogate (unit : Nat) : Bool := decide (0xDC00 ≤ unit ∧ unit ≤ 0xDFFF)

/-- The character of a surrogate pair. -/
def pairChar (high low : Nat) : Char :=
  Char.ofNat (0x10000 + (high - 0xD800) * 0x400 + (low - 0xDC00))

/-- Read a numbered character.  Surrogates have to come in pairs. -/
def readNumberedChar : Reader Char := fun text => do
  let (unit, text) ← readUnit text
  if isLowSurrogate unit then .error .malformed
  else if isHighSurrogate unit then
    let (low, text) ← readUnit (← skipWord ['\\', 'u'] text)
    if isLowSurrogate low then return (pairChar unit low, text) else .error .malformed
  else return (Char.ofNat unit, text)

/-- Read an escape after its backslash, given how a numbered character is read. -/
def readEscape (numbered : Reader Char) : Reader Char
  | [] => .error .truncated
  | 'u' :: text => numbered text
  | c :: text =>
      match escaped? c with
      | some c => .ok (c, text)
      | none => .error .malformed

/-- Read the characters of a string up to its closing quote, of at most the given
number. -/
def readChars (numbered : Reader Char) : Nat → Reader (List Char)
  | 0, _ => .error .truncated
  | _ + 1, [] => .error .truncated
  | _ + 1, '"' :: text => .ok ([], text)
  | bound + 1, '\\' :: text => do
      let (c, text) ← readEscape numbered text
      let (rest, text) ← readChars numbered bound text
      return (c :: rest, text)
  | bound + 1, c :: text => do
      if c.toNat < 32 then .error .malformed
      let (rest, text) ← readChars numbered bound text
      return (c :: rest, text)

/-- Read a string after its opening quote. -/
def readString : Reader String := fun text => do
  let (chars, text) ← readChars readNumberedChar (text.length + 1) text
  return (String.ofList chars, text)

/-- Skip a string after its opening quote.  Its surrogates need not come in
pairs. -/
def skipString (text : List Char) : Except Fault (List Char) := do
  let lenient : Reader Char := fun text => do
    let (_, text) ← readUnit text
    return (' ', text)
  let (_, text) ← readChars lenient (text.length + 1) text
  return text

/-! ## Numbers -/

/-- Read digits, of which there has to be one.  A number may break off with a fault
of its own. -/
def readDigits (broken : Fault) : Reader (List Char) := fun text =>
  let digits := text.takeWhile Char.isDigit
  if digits.isEmpty then .error (if text.isEmpty then broken else .malformed)
  else .ok (digits, text.drop digits.length)

/-- Read the digits in front of a point.  Only zero itself starts with zero. -/
def readWhole (broken : Fault) : Reader (List Char) := fun text => do
  let (digits, text) ← readDigits broken text
  match digits with
  | '0' :: _ :: _ => .error .malformed
  | _ => return (digits, text)

/-- Read the digits after a point, if there is one. -/
def readFraction (broken : Fault) : Reader (List Char)
  | '.' :: text => readDigits broken text
  | text => .ok ([], text)

/-- Read a power of ten, if there is one. -/
def readExponent (broken : Fault) : Reader (Option Int)
  | c :: text =>
      if c = 'e' ∨ c = 'E' then do
        let (negative, text) := Numeral.splitSign text
        let (digits, text) ← readDigits broken text
        return (some (Numeral.applySign negative (Numeral.value digits)), text)
      else .ok (none, c :: text)
  | [] => .ok (none, [])

/-- Read a number. -/
def readNumber (broken : Fault) : Reader NumberText := fun text => do
  let (negative, text) := match text with
    | '-' :: rest => (true, rest)
    | text => (false, text)
  let (whole, text) ← readWhole broken text
  let (fraction, text) ← readFraction broken text
  let (exponent, text) ← readExponent broken text
  return (⟨negative, whole, fraction, exponent⟩, text)

/-! ## Values -/

/-- The words for null and for the truth values. -/
def words : List (List Char) :=
  [['n', 'u', 'l', 'l'], ['t', 'r', 'u', 'e'], ['f', 'a', 'l', 's', 'e']]

/-- Skip a word that starts with the given character, if there is one. -/
def skipConstant? (first : Char) (text : List Char) : Option (Except Fault (List Char)) :=
  (words.find? fun word => word.head? == some first).map fun word => skipWord word text

/-- Whether a number may start with a character. -/
def startsNumber (c : Char) : Bool := c == '-' || c.isDigit

/-- Read a value that is no container. -/
def readScalar : Reader Json
  | [] => .error .truncated
  | '"' :: text => do
      let (content, text) ← readString text
      return (.string content, text)
  | 'n' :: text => do return (.null, ← skipWord ['u', 'l', 'l'] text)
  | 't' :: text => do return (.bool true, ← skipWord ['r', 'u', 'e'] text)
  | 'f' :: text => do return (.bool false, ← skipWord ['a', 'l', 's', 'e'] text)
  | c :: text => do
      if !startsNumber c then .error .malformed
      let (number, text) ← readNumber .truncated (c :: text)
      match number.value? with
      | some value => return (value, text)
      | none => .error .malformed

/-- Whether a text starts with a container. -/
def startsContainer : List Char → Bool
  | '[' :: _ | '\x7b' :: _ => true
  | _ => false

/-- The fault of a text whose next value is not of the wanted kind.  A value that
is no container is read first, and has to be right. -/
def mismatchAt (text : List Char) : Fault :=
  if startsContainer text then .mismatched
  else
    match readScalar text with
    | .ok _ => .mismatched
    | .error fault => fault

mutual

/-- Skip a value of bounded depth, of which only the form matters.  A number that
breaks off is malformed here. -/
def skipValue : Nat → List Char → Except Fault (List Char)
  | 0, _ => .error .truncated
  | bound + 1, text =>
      match skipBlanks text with
      | [] => .error .truncated
      | '[' :: rest =>
          match skipBlanks rest with
          | ']' :: rest => .ok rest
          | rest => skipItems bound rest
      | '\x7b' :: rest =>
          match skipBlanks rest with
          | '\x7d' :: rest => .ok rest
          | rest => skipFields bound rest
      | '"' :: rest => skipString rest
      | c :: rest =>
          match skipConstant? c (c :: rest) with
          | some rest => rest
          | none =>
              if startsNumber c then (readNumber .malformed (c :: rest)).map Prod.snd
              else .error .malformed

/-- Skip the items of an array, of which there is one. -/
def skipItems : Nat → List Char → Except Fault (List Char)
  | 0, _ => .error .truncated
  | bound + 1, text => do
      let text ← skipValue bound text
      match skipBlanks text with
      | ',' :: rest => skipItems bound rest
      | ']' :: rest => .ok rest
      | rest => .error (faultAt rest)

/-- Skip the fields of an object, of which there is one. -/
def skipFields : Nat → List Char → Except Fault (List Char)
  | 0, _ => .error .truncated
  | bound + 1, text =>
      match skipBlanks text with
      | '"' :: rest => do
          let text ← skipValue bound (← skipMark ':' (← skipString rest))
          match skipBlanks text with
          | ',' :: rest => skipFields bound rest
          | '\x7d' :: rest => .ok rest
          | rest => .error (faultAt rest)
      | rest => .error (faultAt rest)

end

/-- Skip a value.  Every step takes a character or is followed by one that does. -/
def skipAny (text : List Char) : Except Fault (List Char) := skipValue (2 * text.length + 2) text

end DocumentQuery.Json
