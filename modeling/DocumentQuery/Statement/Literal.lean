import DocumentQuery.Number.Decimal
import DocumentQuery.Number.Double

/-!
# Literals

The constants of a query.  A string is written between single or double quotes,
with the quote doubled inside.  The suffix of a numeral gives its type; without
one, a numeral with a point is a double and any other an integer, of 64 bits if
32 are too few.
-/

namespace DocumentQuery

/-- A constant of a query. -/
inductive Literal where
  | string (text : String)
  | integer (number : Int32)
  | long (number : Int64)
  | double (number : Float)
  | decimal (number : Decimal)
  | boolean (value : Bool)
  | null
  deriving Repr

namespace Literal

/-- Equality of literals as values: doubles as numbers, decimals whatever their
scale. -/
def equal : Literal → Literal → Bool
  | string a, string b => a == b
  | integer a, integer b => a == b
  | long a, long b => a == b
  | double a, double b => a == b
  | decimal a, decimal b => a.equal b
  | boolean a, boolean b => a == b
  | null, null => true
  | _, _ => false

instance : BEq Literal := ⟨equal⟩

/-! ## Strings -/

/-- Write every quote twice. -/
def doubleQuotes (quote : Char) (text : List Char) : List Char :=
  text.flatMap fun c => if c = quote then [quote, quote] else [c]

/-- A text between quotes. -/
def quoteText (quote : Char) (text : List Char) : List Char :=
  quote :: doubleQuotes quote text ++ [quote]

/-- Read two quotes in a row as one, from the left. -/
def undoubleQuotes (quote : Char) : List Char → List Char
  | [] => []
  | [c] => [c]
  | c :: d :: rest =>
      if c = quote ∧ d = quote then quote :: undoubleQuotes quote rest
      else c :: undoubleQuotes quote (d :: rest)

/-- The text between two quotes of the given kind, if it stands between such. -/
def unquoteText? (quote : Char) : List Char → Option (List Char)
  | [] => none
  | first :: rest =>
      if first = quote ∧ rest.getLast? = some quote then
        some (undoubleQuotes quote rest.dropLast)
      else none

/-- The string that a quoted text stands for. -/
def ofQuoted (text : List Char) : Literal :=
  let inner := match unquoteText? '\'' text with
    | some inner => inner
    | none => (unquoteText? '"' text).getD text
  string (String.ofList inner)

/-! ## Numerals -/

/-- The type suffix of a numeral. -/
inductive Suffix where
  | decimal
  | long
  | double
  | none
  deriving DecidableEq, Repr

/-- Cut a numeral into what precedes its suffix and the suffix. -/
def splitSuffix (text : List Char) : List Char × Suffix :=
  match text.reverse.map Char.toLower with
  | 'd' :: 'b' :: _ => (text.dropLast.dropLast, .decimal)
  | 'l' :: _ => (text.dropLast, .long)
  | 'd' :: _ | 'f' :: _ => (text.dropLast, .double)
  | _ => (text, .none)

/-- Read a double that is written with digits and an optional point. -/
def readDouble (text : List Char) : Except String Literal :=
  match Double.read? text with
  | some number => .ok (double number)
  | none => .error "invalid float literal"

/-- Read an integer as a literal: of 32 bits if they suffice. -/
def ofLong (number : Int64) : Literal :=
  if Numeral.fitsInteger number.toInt then integer (Int32.ofInt number.toInt) else long number

/-- The literal that a numeral stands for, or the reason why it stands for none. -/
def ofNumeral (text : List Char) : Except String Literal :=
  match splitSuffix text with
  | (digits, .decimal) =>
      match Decimal.read? digits with
      | some number => .ok (decimal number)
      | none => .error "invalid decimal"
  | (digits, .long) => ((Numeral.readLong digits).map long).mapError Numeral.Fault.message
  | (digits, .double) => readDouble digits
  | (digits, .none) =>
      if digits.contains '.' then readDouble digits
      else ((Numeral.readLong digits).map ofLong).mapError Numeral.Fault.message

/-! ## Writing -/

/-- A literal as it may stand in a query, except for doubles outside of positional
notation. -/
def display : Literal → String
  | string text => String.ofList (quoteText '\'' text.toList)
  | integer number => String.ofList (Numeral.ofInt number.toInt)
  | long number => String.ofList (Numeral.ofInt number.toInt ++ ['L'])
  | double number => Double.display number
  | decimal number => String.ofList (number.text ++ ['B', 'D'])
  | boolean value => if value then "true" else "false"
  | null => "null"

end Literal

end DocumentQuery
