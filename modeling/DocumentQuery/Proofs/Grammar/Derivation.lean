import DocumentQuery.Grammar.Parse

/-!
# What a successful reading went through

A reading that succeeds has matched the body of each rule it called.  `Phrase.Matches`
says what it is to match a phrase, with no mention of failures, of alternatives that
were tried in vain or of the bound on nested rules.  `Rule.read_induction` derives from
it everything that holds of all readings: what holds of tokens and passes from the
rules of a phrase to the rule of which it is the body holds of every rule.
-/

namespace DocumentQuery.Grammar

/-- A relation between where a reading starts, where it ends and the nodes it builds. -/
abbrev Reading := Cursor → Cursor → List Tree → Prop

namespace Phrase

/-- The later rounds of a repetition, each of them after layout. -/
inductive Rounds (step : Reading) : Reading where
  | done (cursor : Cursor) : Rounds step cursor cursor []
  | more {cursor middle last : Cursor} {first others : List Tree} :
      step cursor.skip middle first → Rounds step middle last others →
      Rounds step cursor last (first ++ others)

/-- How a phrase may be matched, given how rules may be read. -/
def Matches (reads : Rule → Reading) : Phrase → Reading
  | rule target, cursor, next, trees => reads target cursor next trees
  | startOfInput, cursor, next, trees =>
      cursor.position.offset = 0 ∧ next = cursor ∧ trees = []
  | seq first second, cursor, next, trees =>
      ∃ middle before after, first.Matches reads cursor middle before ∧
        second.Matches reads middle.skip next after ∧ trees = before ++ after
  | either first second, cursor, next, trees =>
      first.Matches reads cursor next trees ∨ second.Matches reads cursor next trees
  | optional inner, cursor, next, trees =>
      inner.Matches reads cursor next trees ∨ (next = cursor ∧ trees = [])
  | many inner, cursor, next, trees =>
      (∃ middle before after, inner.Matches reads cursor middle before ∧
        Rounds (inner.Matches reads) middle next after ∧ trees = before ++ after) ∨
      (next = cursor ∧ trees = [])

/-- Whatever a parser returns is a reading of the given kind. -/
def Sound (parser : Parser) (reading : Reading) : Prop :=
  ∀ cursor attempts next trees, (parser cursor attempts).1 = some (next, trees) →
    reading cursor next trees

theorem rounds_of_runMore {step : Parser} {reading : Reading} (sound : Sound step reading)
    {bound : Nat} {cursor last : Cursor} {attempts later : Attempts} {trees : List Tree}
    (ended : runMore step bound cursor attempts = ((last, trees), later)) :
    Rounds reading cursor last trees := by
  induction bound generalizing cursor attempts trees with
  | zero =>
      cases ended
      exact .done _
  | succ bound ih =>
      rw [runMore] at ended
      split at ended
      next =>
        cases ended
        exact .done _
      next middle first latest stepRun =>
        cases rest : runMore step bound middle latest with
        | mk result final =>
            rw [rest] at ended
            cases ended
            exact .more (sound _ _ _ _ (congrArg Prod.fst stepRun)) (ih rest)

/-- A phrase is matched by what its parser returns, if that holds of its rules. -/
theorem matches_of_run {call : Rule → Parser} {reads : Rule → Reading}
    (sound : ∀ rule, Sound (call rule) (reads rule)) (phrase : Phrase) :
    Sound (phrase.run call) (phrase.Matches reads) := by
  induction phrase with
  | rule target => exact sound target
  | startOfInput =>
      intro cursor attempts next trees succeeded
      simp only [run] at succeeded
      split at succeeded
      next atStart =>
        cases succeeded
        exact ⟨atStart, rfl, rfl⟩
      next => cases succeeded
  | seq first second firstIH secondIH =>
      intro cursor attempts next trees succeeded
      rw [run] at succeeded
      split at succeeded
      next => cases succeeded
      next middle before later firstRun =>
        split at succeeded
        next => cases succeeded
        next last after latest secondRun =>
          cases succeeded
          exact ⟨middle, before, after, firstIH _ _ _ _ (congrArg Prod.fst firstRun),
            secondIH _ _ _ _ (congrArg Prod.fst secondRun), rfl⟩
  | either first second firstIH secondIH =>
      intro cursor attempts next trees succeeded
      rw [run] at succeeded
      split at succeeded
      next => exact Or.inr (secondIH _ _ _ _ succeeded)
      next result later firstRun =>
        cases succeeded
        exact Or.inl (firstIH _ _ _ _ (congrArg Prod.fst firstRun))
  | optional inner ih =>
      intro cursor attempts next trees succeeded
      rw [run] at succeeded
      split at succeeded
      next =>
        cases succeeded
        exact Or.inr ⟨rfl, rfl⟩
      next result later innerRun =>
        cases succeeded
        exact Or.inl (ih _ _ _ _ (congrArg Prod.fst innerRun))
  | many inner ih =>
      intro cursor attempts next trees succeeded
      rw [run] at succeeded
      split at succeeded
      next =>
        cases succeeded
        exact Or.inr ⟨rfl, rfl⟩
      next middle before later innerRun =>
        cases rest : runMore (run call inner) (middle.rest.length + 1) middle later with
        | mk result latest =>
            rw [rest] at succeeded
            cases succeeded
            exact Or.inl ⟨middle, before, result.2, ih _ _ _ _ (congrArg Prod.fst innerRun),
              rounds_of_runMore ih rest, rfl⟩

end Phrase

/-- Readings of a kind that can follow each other, with layout between them. -/
structure Reading.IsClosed (reading : Reading) : Prop where
  nothing : ∀ cursor, reading cursor cursor []
  layout : ∀ cursor, reading cursor cursor.skip []
  append : ∀ {cursor middle last : Cursor} {first second : List Tree},
    reading cursor middle first → reading middle last second →
      reading cursor last (first ++ second)

theorem Reading.IsClosed.afterLayout {reading : Reading} (closed : reading.IsClosed)
    {cursor last : Cursor} {trees : List Tree} (read : reading cursor.skip last trees) :
    reading cursor last trees := by
  have joined := closed.append (closed.layout cursor) read
  rwa [List.nil_append] at joined

namespace Phrase

theorem of_rounds {reading step : Reading} (closed : reading.IsClosed)
    (sound : ∀ cursor next trees, step cursor next trees → reading cursor next trees)
    {cursor next : Cursor} {trees : List Tree} (rounds : Rounds step cursor next trees) :
    reading cursor next trees := by
  induction rounds with
  | done cursor => exact closed.nothing cursor
  | more round _ ih => exact closed.append (closed.afterLayout (sound _ _ _ round)) ih

/-- If readings can follow each other, a phrase is read as its rules are. -/
theorem of_matches {reading : Reading} (closed : reading.IsClosed) {reads : Rule → Reading}
    (sound : ∀ rule cursor next trees, reads rule cursor next trees → reading cursor next trees)
    (phrase : Phrase) {cursor next : Cursor} {trees : List Tree}
    (matched : phrase.Matches reads cursor next trees) : reading cursor next trees := by
  induction phrase generalizing cursor next trees with
  | rule target => exact sound _ _ _ _ matched
  | startOfInput =>
      rcases matched with ⟨_, rfl, rfl⟩
      exact closed.nothing next
  | seq first second firstIH secondIH =>
      rcases matched with ⟨middle, before, after, firstMatched, secondMatched, rfl⟩
      exact closed.append (firstIH firstMatched) (closed.afterLayout (secondIH secondMatched))
  | either first second firstIH secondIH =>
      rcases matched with firstMatched | secondMatched
      · exact firstIH firstMatched
      · exact secondIH secondMatched
  | optional inner ih =>
      rcases matched with innerMatched | ⟨rfl, rfl⟩
      · exact ih innerMatched
      · exact closed.nothing next
  | many inner ih =>
      rcases matched with ⟨middle, before, after, innerMatched, rounds, rfl⟩ | ⟨rfl, rfl⟩
      · have others := of_rounds closed (fun _ _ _ found => ih found) rounds
        exact closed.append (ih innerMatched) others
      · exact closed.nothing next

/-- What holds of all nodes that rules build holds of those that a phrase of rules builds. -/
theorem forall_of_matches {holds : Tree → Prop} {reads : Rule → Reading}
    (sound : ∀ rule cursor next trees, reads rule cursor next trees → ∀ tree ∈ trees, holds tree)
    (phrase : Phrase) {cursor next : Cursor} {trees : List Tree}
    (matched : phrase.Matches reads cursor next trees) : ∀ tree ∈ trees, holds tree := by
  have closed : Reading.IsClosed fun _ _ trees => ∀ tree ∈ trees, holds tree :=
    ⟨fun _ => nofun, fun _ => nofun,
      fun first second => List.forall_mem_append.mpr ⟨first, second⟩⟩
  exact of_matches closed sound phrase matched

end Phrase

namespace Rule

/-- What holds of a node, if it is shown, and of its parts holds of what is shown of it. -/
theorem forall_of_reveal {holds : Tree → Prop} {rule : Rule} {tree : Tree}
    (whole : rule.isSilent = false → holds tree)
    (children : ∀ child ∈ tree.children, holds child) :
    ∀ shown ∈ rule.reveal [tree], holds shown := by
  unfold reveal
  split
  next => simpa using children
  next loud => simpa using whole (Bool.eq_false_iff.mpr loud)

/-- What holds of the readings of tokens, and of a rule whenever it holds of the rules
that its body called, holds of all readings. -/
theorem read_induction {holds : Rule → Reading}
    (token : ∀ (rule : Rule) (pattern : Pattern) (cursor : Cursor) (rest : List Char),
      rule.body = .token pattern → pattern.after? cursor.rest = some rest →
      holds rule cursor (cursor.moveTo rest)
        (rule.reveal [.token rule (.between cursor.position (cursor.moveTo rest).position)
          (cursor.lexeme rest)]))
    (phrase : ∀ (rule : Rule) (phrase : Phrase) (cursor next : Cursor) (trees : List Tree),
      rule.body = .phrase phrase → phrase.Matches holds cursor next trees →
      holds rule cursor next
        (rule.reveal [.phrase rule (.between cursor.position next.position) trees]))
    (depth : Nat) (rule : Rule) : Phrase.Sound (read depth rule) (holds rule) := by
  induction depth generalizing rule with
  | zero =>
      intro cursor attempts next trees succeeded
      cases succeeded
  | succ depth ih =>
      intro cursor attempts next trees succeeded
      rw [read] at succeeded
      split at succeeded
      next last built later bodyRun =>
        cases succeeded
        unfold readBody at bodyRun
        split at bodyRun
        next pattern isToken =>
          split at bodyRun
          next => cases bodyRun
          next rest matched =>
            cases bodyRun
            exact token rule pattern cursor rest isToken matched
        next body isPhrase =>
          split at bodyRun
          next => cases bodyRun
          next end_ parts latest phraseRun =>
            cases bodyRun
            exact phrase rule body cursor _ parts isPhrase
              (Phrase.matches_of_run ih body _ _ _ _ (congrArg Prod.fst phraseRun))
      next => cases succeeded

end Rule

end DocumentQuery.Grammar
