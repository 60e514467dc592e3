import DocumentQuery.Proofs.Statement.Basic
import DocumentQuery.Proofs.Statement.Nesting
import DocumentQuery.Proofs.Statement.Spelling

/-!
# Reading tokens

What a parser does with a text is told by the tokens of the text.  It accepts tokens in
front of others if it reads them, whatever their spelling and the layout are, and it
refuses tokens if it reads no text that starts with them.  Choice is ordered and never
taken back, so to accept an alternative the ones before it have to refuse.
-/

namespace DocumentQuery.Grammar

/-- A reading ended in front of the given tokens, with nodes that have the given fragments
up to places. -/
def Ends (others : List Token) (parts : List Fragment) (next : Cursor) (trees : List Tree) :
    Prop :=
  Written others next.skip.rest ∧
    ∃ found, Tree.fragments trees = .ok found ∧ found.map Fragment.bare = parts

/-- The parser reads the tokens where others follow. -/
def Accepts (parser : Parser) (tokens others : List Token) (parts : List Fragment) : Prop :=
  ∀ cursor : Cursor, Written (tokens ++ others) cursor.rest → ∀ attempts,
    ∃ next trees later, parser cursor attempts = (some (next, trees), later) ∧
      Ends others parts next trees

/-- The parser does not read a text that starts with the tokens. -/
def Refuses (parser : Parser) (tokens : List Token) : Prop :=
  ∀ cursor : Cursor, Written tokens cursor.rest → ∀ attempts,
    ∃ later, parser cursor attempts = (none, later)

theorem Ends.nothing {others : List Token} {cursor : Cursor}
    (written : Written others cursor.rest) : Ends others [] cursor [] := by
  refine ⟨?_, [], rfl, rfl⟩
  rw [written.skip_eq cursor.position]
  exact written

theorem Ends.append {others : List Token} {parts more : List Fragment} {next last : Cursor}
    {trees moreTrees : List Tree} {middle : List Token} (first : Ends middle parts next trees)
    (second : Ends others more last moreTrees) :
    Ends others (parts ++ more) last (trees ++ moreTrees) := by
  rcases first with ⟨_, found, built, rfl⟩
  rcases second with ⟨written, moreFound, moreBuilt, rfl⟩
  refine ⟨written, found ++ moreFound, ?_, List.map_append⟩
  exact Tree.fragments_append_eq_ok_iff.mpr ⟨found, moreFound, built, moreBuilt, rfl⟩

namespace Phrase

/-! ## Sequences and choices -/

section Combinators

variable {call : Rule → Parser} {target : Rule} {first second inner : Phrase}
  {tokens later others : List Token} {parts more : List Fragment}

-- The next two hold by unfolding, but left to unification it is the reading of the rule
-- that is unfolded.
theorem accepts_rule (accepts : Accepts (call target) tokens others parts) :
    Accepts ((rule target).run call) tokens others parts := accepts

theorem refuses_rule (refuses : Refuses (call target) tokens) :
    Refuses ((rule target).run call) tokens := refuses

theorem accepts_seq (firstAccepts : Accepts (first.run call) tokens (later ++ others) parts)
    (secondAccepts : Accepts (second.run call) later others more) :
    Accepts ((seq first second).run call) (tokens ++ later) others (parts ++ more) := by
  intro cursor written attempts
  rw [List.append_assoc] at written
  rcases firstAccepts cursor written attempts with ⟨next, trees, between, firstRun, firstEnds⟩
  rcases secondAccepts next.skip firstEnds.1 between with
    ⟨last, moreTrees, after, secondRun, secondEnds⟩
  refine ⟨last, trees ++ moreTrees, after, ?_, firstEnds.append secondEnds⟩
  simp only [run, firstRun, secondRun]

/-- A sequence may start with a rule for a single token. -/
theorem accepts_token_seq {token : Token}
    (firstAccepts : Accepts (call target) [token] (later ++ others) parts)
    (secondAccepts : Accepts (second.run call) later others more) :
    Accepts ((seq (rule target) second).run call) (token :: later) others (parts ++ more) :=
  accepts_seq (accepts_rule firstAccepts) secondAccepts

theorem refuses_seq_first (refuses : Refuses (first.run call) tokens) :
    Refuses ((seq first second).run call) tokens := by
  intro cursor written attempts
  rcases refuses cursor written attempts with ⟨after, failed⟩
  exact ⟨after, by simp only [run, failed]⟩

theorem refuses_seq_second (accepts : Accepts (first.run call) tokens others parts)
    (refuses : Refuses (second.run call) others) :
    Refuses ((seq first second).run call) (tokens ++ others) := by
  intro cursor written attempts
  rcases accepts cursor written attempts with ⟨next, trees, between, firstRun, firstEnds⟩
  rcases refuses next.skip firstEnds.1 between with ⟨after, failed⟩
  exact ⟨after, by simp only [run, firstRun, failed]⟩

/-- A phrase for the start of a text goes on behind the layout there. -/
theorem run_startOfInput_seq {cursor next : Cursor} {attempts after : Attempts}
    {trees : List Tree} (atStart : cursor.position.offset = 0)
    (secondRun : second.run call cursor.skip attempts = (some (next, trees), after)) :
    (seq startOfInput second).run call cursor attempts = (some (next, trees), after) := by
  simp only [run, if_pos atStart, secondRun, List.nil_append]

theorem run_either_first {cursor : Cursor} {attempts after : Attempts}
    {result : Cursor × List Tree}
    (firstRun : first.run call cursor attempts = (some result, after)) :
    (either first second).run call cursor attempts = (some result, after) := by
  simp only [run, firstRun]

theorem run_either_second {cursor : Cursor} {attempts between : Attempts} {outcome : Outcome}
    (failed : first.run call cursor attempts = (none, between))
    (secondRun : second.run call cursor between = outcome) :
    (either first second).run call cursor attempts = outcome := by
  simp only [run, failed, secondRun]

theorem accepts_either_first (accepts : Accepts (first.run call) tokens others parts) :
    Accepts ((either first second).run call) tokens others parts := by
  intro cursor written attempts
  rcases accepts cursor written attempts with ⟨next, trees, after, firstRun, ends⟩
  exact ⟨next, trees, after, run_either_first firstRun, ends⟩

theorem accepts_either_second (refuses : Refuses (first.run call) (tokens ++ others))
    (accepts : Accepts (second.run call) tokens others parts) :
    Accepts ((either first second).run call) tokens others parts := by
  intro cursor written attempts
  rcases refuses cursor written attempts with ⟨between, failed⟩
  rcases accepts cursor written between with ⟨next, trees, after, secondRun, ends⟩
  exact ⟨next, trees, after, run_either_second failed secondRun, ends⟩

theorem refuses_either (firstRefuses : Refuses (first.run call) tokens)
    (secondRefuses : Refuses (second.run call) tokens) :
    Refuses ((either first second).run call) tokens := by
  intro cursor written attempts
  rcases firstRefuses cursor written attempts with ⟨between, firstFailed⟩
  rcases secondRefuses cursor written between with ⟨after, secondFailed⟩
  exact ⟨after, run_either_second firstFailed secondFailed⟩

theorem accepts_optional (accepts : Accepts (inner.run call) tokens others parts) :
    Accepts ((optional inner).run call) tokens others parts := by
  intro cursor written attempts
  rcases accepts cursor written attempts with ⟨next, trees, after, innerRun, ends⟩
  exact ⟨next, trees, after, by simp only [run, innerRun], ends⟩

/-- What is optional may be missing where it would be refused. -/
theorem accepts_optional_nothing (refuses : Refuses (inner.run call) others) :
    Accepts ((optional inner).run call) [] others [] := by
  intro cursor written attempts
  rcases refuses cursor written attempts with ⟨after, failed⟩
  exact ⟨cursor, [], after, by simp only [run, failed], .nothing written⟩

end Combinators

/-! ## Repetitions -/

/-- A parser accepts tokens in rounds, up to others that it refuses. -/
inductive AcceptsRounds (parser : Parser) (others : List Token) :
    List Token → List Fragment → Prop where
  | done : Refuses parser others → AcceptsRounds parser others [] []
  | more {tokens later : List Token} {parts more : List Fragment} :
      tokens ≠ [] → Accepts parser tokens (later ++ others) parts →
      AcceptsRounds parser others later more →
      AcceptsRounds parser others (tokens ++ later) (parts ++ more)

theorem ends_of_runMore {parser : Parser} {others tokens : List Token} {parts : List Fragment}
    (rounds : AcceptsRounds parser others tokens parts) {cursor : Cursor}
    (written : Written (tokens ++ others) cursor.skip.rest) {bound : Nat}
    (fits : tokens.length < bound) (attempts : Attempts) :
    ∃ last trees later, runMore parser bound cursor attempts = ((last, trees), later) ∧
      Ends others parts last trees := by
  induction rounds generalizing cursor bound attempts with
  | done refuses =>
      cases bound with
      | zero => cases fits
      | succ bound =>
          rcases refuses cursor.skip written attempts with ⟨later, failed⟩
          exact ⟨cursor, [], later, by simp only [runMore, failed], written, [], rfl, rfl⟩
  | @more tokens laterTokens parts moreParts nonempty accepts rounds ih =>
      cases bound with
      | zero => cases fits
      | succ bound =>
          rw [List.append_assoc] at written
          rcases accepts cursor.skip written attempts with ⟨next, trees, between, stepRun, ends⟩
          have positive := List.length_pos_iff.mpr nonempty
          have fitsLater : laterTokens.length < bound := by
            rw [List.length_append] at fits
            omega
          rcases ih ends.1 fitsLater between with ⟨last, moreTrees, later, moreRun, lastEnds⟩
          refine ⟨last, trees ++ moreTrees, later, ?_, ends.append lastEnds⟩
          simp only [runMore, stepRun, moreRun]

theorem length_skipBlanks_le (inComment : Bool) (position : Position) (text : List Char) :
    (Cursor.skipBlanks inComment position text).rest.length ≤ text.length := by
  induction text generalizing inComment position with
  | nil => cases inComment <;> exact Nat.le_refl _
  | cons c text ih =>
      rw [Cursor.skipBlanks, List.length_cons]
      split
      · exact Nat.le_succ_of_le (ih _ _)
      · split
        · exact Nat.le_succ_of_le (ih _ _)
        · split
          · exact Nat.le_succ_of_le (ih _ _)
          · exact Nat.le_refl _

theorem accepts_many {call : Rule → Parser} {inner : Phrase} {tokens others : List Token}
    {parts : List Fragment} (rounds : AcceptsRounds (inner.run call) others tokens parts) :
    Accepts ((many inner).run call) tokens others parts := by
  intro cursor written attempts
  cases rounds with
  | done refuses =>
      rcases refuses cursor written attempts with ⟨after, failed⟩
      exact ⟨cursor, [], after, by simp only [run, failed], .nothing written⟩
  | @more tokens laterTokens parts moreParts nonempty accepts rounds =>
      rw [List.append_assoc] at written
      rcases accepts cursor written attempts with ⟨next, trees, between, firstRun, ends⟩
      -- Every later round takes a token, and there are no more tokens than characters.
      have fits : laterTokens.length < next.rest.length + 1 := by
        have longer := ends.1.length_le
        have shorter : next.skip.rest.length ≤ next.rest.length := length_skipBlanks_le _ _ _
        rw [List.length_append] at longer
        omega
      rcases ends_of_runMore rounds ends.1 fits between with
        ⟨last, moreTrees, later, moreRun, lastEnds⟩
      refine ⟨last, trees ++ moreTrees, later, ?_, ends.append lastEnds⟩
      simp only [run, firstRun, moreRun]

end Phrase

/-! ## Rules -/

namespace Rule

variable {depth : Nat} {rule : Rule} {phrase : Phrase} {pattern : Pattern}
  {token : Token} {tokens others : List Token} {parts : List Fragment} {fragment : Fragment}

/-- A phrase rule puts together the parts that its phrase found. -/
theorem ends_read_phrase (isPhrase : rule.body = .phrase phrase) (speaks : rule.isSilent = false)
    (formed : Fragment.ofPhrase rule .nowhere parts = .ok fragment) {cursor next : Cursor}
    {trees : List Tree} {attempts later : Attempts}
    (phraseRun : phrase.run (read depth) cursor attempts = (some (next, trees), later))
    (ends : Ends others parts next trees) :
    ∃ node, read (depth + 1) rule cursor attempts = (some (next, [node]), later) ∧
      Ends others [fragment] next [node] := by
  rcases ends with ⟨rest, found, built, rfl⟩
  let span := Span.between cursor.position next.position
  rcases Fragment.ofPhrase_of_bare formed span with ⟨fragment, made, rfl⟩
  refine ⟨.phrase rule span trees, ?_, rest, [fragment], ?_, rfl⟩
  · simp only [read, readBody, isPhrase, phraseRun, reveal, speaks, Bool.false_eq_true, if_false]
    rfl
  · simp only [Tree.fragments, Tree.fragment, built, made]

theorem accepts_phrase (isPhrase : rule.body = .phrase phrase) (speaks : rule.isSilent = false)
    (formed : Fragment.ofPhrase rule .nowhere parts = .ok fragment)
    (accepts : Accepts (phrase.run (read depth)) tokens others parts) :
    Accepts (read (depth + 1) rule) tokens others [fragment] := by
  intro cursor written attempts
  rcases accepts cursor written attempts with ⟨next, trees, later, phraseRun, ends⟩
  rcases ends_read_phrase isPhrase speaks formed phraseRun ends with ⟨node, nodeRun, nodeEnds⟩
  exact ⟨next, [node], later, nodeRun, nodeEnds⟩

theorem read_silent (isPhrase : rule.body = .phrase phrase) (silent : rule.isSilent = true)
    {cursor next : Cursor} {trees : List Tree} {attempts later : Attempts}
    (phraseRun : phrase.run (read depth) cursor attempts = (some (next, trees), later)) :
    read (depth + 1) rule cursor attempts = (some (next, trees), later) := by
  simp [read, readBody, isPhrase, phraseRun, reveal, silent, Tree.children]

theorem refuses_phrase (isPhrase : rule.body = .phrase phrase)
    (refuses : Refuses (phrase.run (read depth)) tokens) :
    Refuses (read (depth + 1) rule) tokens := by
  intro cursor written attempts
  rcases refuses cursor written attempts with ⟨later, failed⟩
  exact ⟨_, by simp only [read, readBody, isPhrase, failed]; rfl⟩

theorem read_of_after? (isToken : rule.body = .token pattern) {lexeme rest : List Char}
    (matched : pattern.after? (lexeme ++ rest) = some rest) (position : Position)
    (attempts : Attempts) :
    read (depth + 1) rule ⟨position, lexeme ++ rest⟩ attempts =
      (some (⟨position.advanceAll lexeme, rest⟩,
        rule.reveal [.token rule (.between position (position.advanceAll lexeme)) lexeme]),
        attempts) := by
  simp only [read, readBody, isToken, matched, Cursor.moveTo_append, Cursor.lexeme_append]

theorem read_of_after?_eq_none (isToken : rule.body = .token pattern) {cursor : Cursor}
    (unmatched : pattern.after? cursor.rest = none) (attempts : Attempts) :
    ∃ later, read (depth + 1) rule cursor attempts = (none, later) :=
  ⟨_, by simp only [read, readBody, isToken, unmatched]; rfl⟩

/-- A token rule accepts a token that its pattern matches in every spelling. -/
theorem accepts_token (isToken : rule.body = .token pattern) (speaks : rule.isSilent = false)
    (matched : ∀ lexeme rest, token.IsShaped → token.Spelled lexeme → AtEnd rest →
      pattern.after? (lexeme ++ rest) = some rest)
    (formed : ∀ lexeme span, token.IsShaped → token.Spelled lexeme →
      ∃ found, Fragment.ofToken rule span lexeme = .ok found ∧ found.bare = fragment) :
    Accepts (read (depth + 1) rule) [token] others [fragment] := by
  rintro ⟨position, text⟩ written attempts
  rcases written.uncons with ⟨lexeme, rest, rfl, shaped, spelled, ends, follows⟩
  refine ⟨_, _, _, read_of_after? isToken (matched lexeme rest shaped spelled ends) position
    attempts, follows _, ?_⟩
  rcases formed lexeme (.between position (position.advanceAll lexeme)) shaped spelled with
    ⟨found, made, rfl⟩
  refine ⟨[found], ?_, rfl⟩
  simp only [reveal, speaks, Bool.false_eq_true, if_false, Tree.fragments, Tree.fragment, made]

theorem refuses_token (isToken : rule.body = .token pattern)
    (unmatched : ∀ text, Written tokens text → pattern.after? text = none) :
    Refuses (read (depth + 1) rule) tokens := by
  intro cursor written attempts
  exact read_of_after?_eq_none isToken (unmatched cursor.rest written) attempts

end Rule

end DocumentQuery.Grammar
