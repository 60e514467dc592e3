import DocumentQuery.Grammar.Rule
import DocumentQuery.Source.Position

/-!
# What a failed reading was looking for

While a text is read, the rules that failed at the furthest position are kept.
A rule that fails stands for the several rules that failed inside it at its own
start, and a single one of those stands for it.  If the whole reading fails,
these rules are what was expected there.
-/

namespace DocumentQuery.Grammar

/-- The furthest position at which a rule failed, with the rules that did. -/
structure Attempts where
  furthest : Position
  rules : List Rule
  deriving DecidableEq, Repr

namespace Attempts

/-- Nothing has failed yet. -/
def none : Attempts := ⟨.start, []⟩

/-- The number of rules kept for a position. -/
def countAt (attempts : Attempts) (position : Position) : Nat :=
  if position.offset = attempts.furthest.offset then attempts.rules.length else 0

/-- Keep the failure of a rule at a position, given how many rules were kept for
that position when the rule was tried. -/
def note (attempts : Attempts) (position : Position) (before : Nat) (rule : Rule) : Attempts :=
  if attempts.countAt position - before = 1 then
    attempts
  else if position.offset = attempts.furthest.offset then
    ⟨attempts.furthest, attempts.rules.take before ++ [rule]⟩
  else if attempts.furthest.offset < position.offset then
    ⟨position, [rule]⟩
  else
    attempts

/-- The kept rules, each once, in the order of diagnostics. -/
def expected (attempts : Attempts) : List Rule :=
  Rule.all.filter (attempts.rules.contains ·)

/-- Alternatives in words: `a`, `a or b`, or `a, b, or c`. -/
def enumerate : List String → String
  | [] => ""
  | [first] => first
  | [first, second] => first ++ " or " ++ second
  | labels => ", ".intercalate labels.dropLast ++ ", or " ++ labels.getLast?.getD ""

/-- What the text should have held at the furthest position. -/
def message (attempts : Attempts) : String :=
  match attempts.expected with
  | [] => "unknown parsing error"
  | rules => "expected " ++ enumerate (rules.map Rule.label)

end Attempts

end DocumentQuery.Grammar
