import DocumentQuery.Json.Basic
import DocumentQuery.Number.Double
import DocumentQuery.Number.Hexadecimal

/-!
# The text of documents

A document is written either without any blanks or indented by two blanks a
level.  Only quotes, backslashes and control characters are escaped in strings.
-/

namespace DocumentQuery.Json

/-- A character inside a string. -/
def escapeChar (c : Char) : List Char :=
  if c = '"' then ['\\', '"']
  else if c = '\\' then ['\\', '\\']
  else if c = '\n' then ['\\', 'n']
  else if c = '\r' then ['\\', 'r']
  else if c = '\t' then ['\\', 't']
  else if c.toNat = 8 then ['\\', 'b']
  else if c.toNat = 12 then ['\\', 'f']
  else if c.toNat < 32 then
    ['\\', 'u', '0', '0', Hexadecimal.digit (c.toNat / 16), Hexadecimal.digit (c.toNat % 16)]
  else [c]

/-- A string between quotes. -/
def quote (text : String) : String :=
  String.ofList ('"' :: text.toList.flatMap escapeChar ++ ['"'])

/-- A double as a number; what is no number is written as null. -/
def doubleText (number : Float) : String :=
  if number.isFinite then DoubleLayout.plain.write number else "null"

mutual

/-- The text of a document without blanks. -/
def text : Json → String
  | null => "null"
  | bool value => if value then "true" else "false"
  | int number => String.ofList (Numeral.ofInt number)
  | double number => doubleText number
  | string text => quote text
  | array items => "[" ++ textItems items ++ "]"
  | object fields => "\x7b" ++ textFields fields ++ "\x7d"

/-- The items of an array without blanks. -/
def textItems : List Json → String
  | [] => ""
  | [item] => item.text
  | item :: items => item.text ++ "," ++ textItems items

/-- The fields of an object without blanks. -/
def textFields : List (String × Json) → String
  | [] => ""
  | [(name, value)] => quote name ++ ":" ++ value.text
  | (name, value) :: fields => quote name ++ ":" ++ value.text ++ "," ++ textFields fields

end

/-- The start of a line at a level of indentation. -/
def newLine (level : Nat) : String := "\n" ++ String.ofList (List.replicate (2 * level) ' ')

mutual

/-- The indented text of a document that starts at a level of indentation. -/
def pretty (level : Nat) : Json → String
  | array [] => "[]"
  | array items => "[" ++ prettyItems (level + 1) items ++ newLine level ++ "]"
  | object [] => "\x7b\x7d"
  | object fields => "\x7b" ++ prettyFields (level + 1) fields ++ newLine level ++ "\x7d"
  | null => "null"
  | bool value => if value then "true" else "false"
  | int number => String.ofList (Numeral.ofInt number)
  | double number => doubleText number
  | string text => quote text

/-- The items of an array, each on lines of its own. -/
def prettyItems (level : Nat) : List Json → String
  | [] => ""
  | [item] => newLine level ++ pretty level item
  | item :: items => newLine level ++ pretty level item ++ "," ++ prettyItems level items

/-- The fields of an object, each on lines of its own. -/
def prettyFields (level : Nat) : List (String × Json) → String
  | [] => ""
  | [(name, value)] => newLine level ++ quote name ++ ": " ++ pretty level value
  | (name, value) :: fields =>
      newLine level ++ quote name ++ ": " ++ pretty level value ++ "," ++
        prettyFields level fields

end

/-- The text of a document, indented or not. -/
def render (indented : Bool) (document : Json) : String :=
  if indented then pretty 0 document else document.text

end DocumentQuery.Json
