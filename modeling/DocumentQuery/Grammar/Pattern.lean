/-!
# Lexical patterns

A pattern describes one token character by character, with no layout inside.
Choice is ordered, repetition takes as much as it can, and nothing is given back
later, so a pattern has at most one match at the front of a text.  Matching
answers with the text that remains.
-/

namespace DocumentQuery.Grammar

/-- A description of the characters of a token. -/
inductive Pattern where
  /-- One character of a class. -/
  | one (accepts : Char → Bool)
  /-- The given characters. -/
  | exactly (text : List Char)
  /-- The given lower-case word in any mixture of ASCII cases. -/
  | word (text : List Char)
  | seq (first second : Pattern)
  /-- The first alternative, and the second only where the first fails. -/
  | either (first second : Pattern)
  | optional (inner : Pattern)
  /-- As many matches as there are, perhaps none. -/
  | many (inner : Pattern)
  /-- Matches nothing, where the inner pattern fails. -/
  | absent (inner : Pattern)

namespace Pattern

/-- What remains after the given characters, if the text starts with them up to
the normalisation `fold` of each character of the text. -/
def afterChars (fold : Char → Char) : List Char → List Char → Option (List Char)
  | [], input => some input
  | _ :: _, [] => none
  | c :: text, d :: input => if fold d = c then afterChars fold text input else none

/-- Apply a step until it fails, at most the given number of times. -/
def repeatAfter (step : List Char → Option (List Char)) : Nat → List Char → List Char
  | 0, input => input
  | bound + 1, input =>
      match step input with
      | none => input
      | some rest => repeatAfter step bound rest

/-- What remains after a match of the pattern at the front of the text.  The
length of the text bounds a repetition, because every round takes a character. -/
def after? : Pattern → List Char → Option (List Char)
  | one _, [] => none
  | one accepts, c :: rest => if accepts c then some rest else none
  | exactly text, input => afterChars id text input
  | word text, input => afterChars Char.toLower text input
  | seq first second, input =>
      match first.after? input with
      | none => none
      | some rest => second.after? rest
  | either first second, input =>
      match first.after? input with
      | none => second.after? input
      | some rest => some rest
  | optional inner, input =>
      match inner.after? input with
      | none => some input
      | some rest => some rest
  | many inner, input => some (repeatAfter inner.after? input.length input)
  | absent inner, input =>
      match inner.after? input with
      | none => some input
      | some _ => none

/-- One match and as many more as there are. -/
def oneOrMore (inner : Pattern) : Pattern := seq inner (many inner)

/-- The patterns of a list one after the other. -/
def sequence : List Pattern → Pattern
  | [] => exactly []
  | [pattern] => pattern
  | pattern :: patterns => seq pattern (sequence patterns)

/-- The first of the patterns that matches. -/
def firstOf : List Pattern → Pattern
  | [] => one fun _ => false
  | [pattern] => pattern
  | pattern :: patterns => either pattern (firstOf patterns)

end Pattern

end DocumentQuery.Grammar
