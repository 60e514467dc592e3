import DocumentQuery.Grammar.Attempts
import DocumentQuery.Grammar.Tree

/-!
# Reading a text by the grammar

Reading is ordered choice without second thoughts: the first alternative that
matches is taken, a repetition goes on as long as it can, and layout is passed
over between the parts of a phrase.  Layout before a part that then turns out to
be missing stays inside the phrase, except between the rounds of a repetition.

Nested rules are bounded by a number computed from the text.  A chain of rules
that call each other without reading a character never meets the same rule
twice, so the number of rules times the number of positions is enough.
-/

namespace DocumentQuery.Grammar

/-- Where a reading ended and the nodes it built, if it matched, and the failures
seen so far in either case. -/
abbrev Outcome := Option (Cursor × List Tree) × Attempts

/-- Read at a cursor, adding to the failures seen before. -/
abbrev Parser := Cursor → Attempts → Outcome

namespace Phrase

/-- The later rounds of a repetition, each after the layout that separates it
from the one before.  A round that fails leaves the cursor before its layout. -/
def runMore (step : Parser) : Nat → Cursor → Attempts → (Cursor × List Tree) × Attempts
  | 0, cursor, attempts => ((cursor, []), attempts)
  | bound + 1, cursor, attempts =>
      match step cursor.skip attempts with
      | (none, attempts) => ((cursor, []), attempts)
      | (some (next, trees), attempts) =>
          match runMore step bound next attempts with
          | ((last, more), attempts) => ((last, trees ++ more), attempts)

/-- Read a phrase, given how to read a rule. -/
def run (call : Rule → Parser) : Phrase → Parser
  | rule target, cursor, attempts => call target cursor attempts
  | startOfInput, cursor, attempts =>
      (if cursor.position.offset = 0 then some (cursor, []) else none, attempts)
  | seq first second, cursor, attempts =>
      match run call first cursor attempts with
      | (none, attempts) => (none, attempts)
      | (some (next, trees), attempts) =>
          match run call second next.skip attempts with
          | (none, attempts) => (none, attempts)
          | (some (last, more), attempts) => (some (last, trees ++ more), attempts)
  | either first second, cursor, attempts =>
      match run call first cursor attempts with
      | (none, attempts) => run call second cursor attempts
      | (some result, attempts) => (some result, attempts)
  | optional inner, cursor, attempts =>
      match run call inner cursor attempts with
      | (none, attempts) => (some (cursor, []), attempts)
      | (some result, attempts) => (some result, attempts)
  | many inner, cursor, attempts =>
      match run call inner cursor attempts with
      | (none, attempts) => (some (cursor, []), attempts)
      | (some (next, trees), attempts) =>
          match runMore (run call inner) (next.rest.length + 1) next attempts with
          | ((last, more), attempts) => (some (last, trees ++ more), attempts)

end Phrase

namespace Rule

/-- Read the body of a rule, given how to read the rules it mentions.  The nodes
are those of its parts, or one leaf for a token. -/
def readBody (call : Rule → Parser) (rule : Rule) : Parser := fun cursor attempts =>
  match rule.body with
  | .token pattern =>
      match pattern.after? cursor.rest with
      | none => (none, attempts)
      | some rest =>
          let next := cursor.moveTo rest
          (some (next, [.token rule (.between cursor.position next.position)
            (cursor.lexeme rest)]), attempts)
  | .phrase phrase =>
      match phrase.run call cursor attempts with
      | (none, attempts) => (none, attempts)
      | (some (next, trees), attempts) =>
          (some (next, [.phrase rule (.between cursor.position next.position) trees]), attempts)

/-- Keep only the parts of the node of a silent rule. -/
def reveal (rule : Rule) (trees : List Tree) : List Tree :=
  if rule.isSilent then trees.flatMap Tree.children else trees

/-- Read a rule with at most the given depth of nested rules. -/
def read : Nat → Rule → Parser
  | 0, _, _, attempts => (none, attempts)
  | depth + 1, rule, cursor, attempts =>
      match readBody (read depth) rule cursor attempts with
      | (some (next, trees), later) => (some (next, rule.reveal trees), later)
      | (none, later) =>
          (none,
            if rule.isSilent then later
            else later.note cursor.position (attempts.countAt cursor.position) rule)

/-- A depth of nested rules that no reading of the text exceeds. -/
def depthBound (text : List Char) : Nat := all.length * (text.length + 1)

/-- Read a rule at the front of a text. -/
def parse (rule : Rule) (text : List Char) : Outcome :=
  read (depthBound text) rule (.ofText text) .none

end Rule

end DocumentQuery.Grammar
