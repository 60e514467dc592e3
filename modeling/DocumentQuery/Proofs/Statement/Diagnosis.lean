import DocumentQuery.Proofs.Grammar.Location
import DocumentQuery.Proofs.Statement.Nesting
import DocumentQuery.Proofs.Statement.Numerals

/-!
# What is wrong with a text that follows the grammar

The parts of a phrase that was read always fit together, and every operator that was read is
known.  So the only fault of a text that follows the grammar is a numeral that stands for no
literal.  Parts are built from left to right at every depth of the tree, so the first such numeral
of the text is the one that is reported, with its characters and its place.
-/

namespace DocumentQuery

namespace Grammar

/-! ## Faults of tokens -/

/-- The error of a token: only numerals have one. -/
def Leaf.fault? (leaf : Leaf) : Option ReadError :=
  match leaf.rule with
  | .litNumber =>
      match Literal.ofNumeral leaf.lexeme with
      | .ok _ => none
      | .error reason =>
          some (.invalidLiteral (String.ofList leaf.lexeme) reason leaf.span.line
            leaf.span.column)
  | _ => none

/-- Whether a tree fails with the error of its first faulty token, and only with that. -/
def Tree.FailsByToken (tree : Tree) : Prop :=
  ∀ error, tree.fragment = .error error ↔ tree.leaves.findSome? Leaf.fault? = some error

/-- Trees that are built from left to right fail at the first faulty token of all. -/
theorem Tree.fragments_eq_error_iff {trees : List Tree}
    (each : ∀ tree ∈ trees, tree.FailsByToken) (error : ReadError) :
    Tree.fragments trees = .error error ↔
      (Tree.leavesOfEach trees).findSome? Leaf.fault? = some error := by
  induction trees with
  | nil => simp [Tree.fragments, Tree.leavesOfEach]
  | cons tree trees ih =>
      rw [List.forall_mem_cons] at each
      rw [Tree.fragments, Tree.leavesOfEach, List.findSome?_append]
      cases built : tree.fragment with
      | error first =>
          rw [(each.1 first).mp built]
          simp
      | ok first =>
          have clean : tree.leaves.findSome? Leaf.fault? = none := by
            rw [Option.eq_none_iff_forall_ne_some]
            intro other found
            cases built.symm.trans ((each.1 other).mpr found)
          rw [clean, Option.none_or, ← ih each.2]
          cases Tree.fragments trees <;> simp

namespace Rule

/-- An operator that was read is known, and only numerals among the other tokens may stand for
nothing. -/
theorem failsByToken_token {rule : Rule} {pattern : Pattern} (isToken : rule.body = .token pattern)
    {lexeme rest : List Char} (matched : pattern.after? (lexeme ++ rest) = some rest)
    (span : Span) : (Tree.token rule span lexeme).FailsByToken := by
  intro error
  rw [Tree.fragment, Tree.leaves, List.findSome?_singleton]
  cases rule
  case litNumber =>
    rw [Fragment.ofToken, Leaf.fault?]
    cases Literal.ofNumeral lexeme <;> simp
  case compOp =>
    cases isToken
    rcases Pattern.exists_of_compOp_after? matched with ⟨symbol, known, cut⟩
    cases List.append_cancel_right cut
    rcases Option.isSome_iff_exists.mp known with ⟨operator, found⟩
    simp [Fragment.ofToken, found, Leaf.fault?]
  all_goals
    constructor
    · intro failed
      cases failed
    · intro fault
      cases fault

theorem failsByToken_phrase {rule : Rule} {phrase : Phrase} (isPhrase : rule.body = .phrase phrase)
    (shown : rule.isSilent = false) {children : List Tree}
    (yields : ∀ parts, Tree.fragments children = .ok parts → phrase.Yields parts)
    (each : ∀ child ∈ children, child.FailsByToken) (span : Span) :
    (Tree.phrase rule span children).FailsByToken := by
  intro error
  rw [Tree.fragment, Tree.leaves, ← Tree.fragments_eq_error_iff each]
  cases built : Tree.fragments children with
  | error first => simp
  | ok parts =>
      rcases exists_ofPhrase_eq_ok isPhrase shown (yields parts built) span with
        ⟨fragment, made, _⟩
      simp [made]

/-- A reading of a rule whose nodes fail only by their tokens. -/
def FaultReading (rule : Rule) : Reading := fun cursor next trees =>
  rule.YieldsReading cursor next trees ∧ ∀ tree ∈ trees, tree.FailsByToken

theorem faultReading_of_read (depth : Nat) (rule : Rule) :
    Phrase.Sound (read depth rule) rule.FaultReading := by
  apply read_induction
  · intro rule pattern cursor rest isToken matched
    refine ⟨fun _ => yields_of_ofToken isToken, ?_⟩
    apply forall_of_reveal
    · intro _
      rcases pattern.isSuffix_of_after? _ _ matched with ⟨lexeme, cut⟩
      rw [(Cursor.passes_moveTo cut.symm).2]
      rw [← cut] at matched
      exact failsByToken_token isToken matched _
    · intro child member
      cases member
  · intro rule phrase cursor next trees isPhrase matched
    have each := Phrase.forall_of_matches (fun _ _ _ _ read => read.2) phrase matched
    have inner : ∀ parts, Tree.fragments trees = .ok parts → phrase.Yields parts :=
      fun _ => phrase.yields_of_matches (fun _ _ _ _ read => read.1) matched
    refine ⟨fun _ => yields_of_parts isPhrase inner, ?_⟩
    apply forall_of_reveal
    · intro shown
      exact failsByToken_phrase isPhrase shown inner each _
    · exact each

end Rule

/-! ## Numerals of a text -/

/-- The numerals of trees, from left to right. -/
def Tree.numerals (trees : List Tree) : List Leaf :=
  (Tree.leavesOfEach trees).filter (·.rule = .litNumber)

theorem Tree.rule_of_mem_numerals {trees : List Tree} {leaf : Leaf}
    (member : leaf ∈ Tree.numerals trees) : leaf.rule = .litNumber := by
  simpa using List.of_mem_filter member

namespace Leaf

theorem rule_of_fault? {leaf : Leaf} {error : ReadError} (fault : leaf.fault? = some error) :
    leaf.rule = .litNumber := by
  unfold fault? at fault
  split at fault
  next isNumeral => exact isNumeral
  next => cases fault

theorem fault?_eq_some_iff {leaf : Leaf} (isNumeral : leaf.rule = .litNumber) (error : ReadError) :
    leaf.fault? = some error ↔
      ∃ reason, Literal.ofNumeral leaf.lexeme = .error reason ∧
        error = .invalidLiteral (String.ofList leaf.lexeme) reason leaf.span.line
          leaf.span.column := by
  rw [fault?, isNumeral]
  cases Literal.ofNumeral leaf.lexeme <;> simp [eq_comm]

/-- The first fault of trees is that of a numeral. -/
theorem findSome?_fault?_filter (leaves : List Leaf) :
    (leaves.filter (·.rule = .litNumber)).findSome? fault? = leaves.findSome? fault? := by
  induction leaves with
  | nil => rfl
  | cons leaf leaves ih =>
      by_cases isNumeral : leaf.rule = .litNumber
      · simp [isNumeral, List.findSome?_cons, ih]
      · have clean : leaf.fault? = none := by
          rw [Option.eq_none_iff_forall_ne_some]
          intro error fault
          exact isNumeral (rule_of_fault? fault)
        simp [isNumeral, clean, ih]

/-- A numeral that was read has the form of one. -/
theorem isNumeral_of_isRead {leaf : Leaf} (isRead : leaf.IsRead)
    (isNumeral : leaf.rule = .litNumber) : Pattern.IsNumeral leaf.lexeme := by
  rcases isRead with ⟨pattern, rest, isToken, matched⟩
  rw [isNumeral] at isToken
  cases isToken
  rcases Pattern.exists_of_litNumber_after? matched with ⟨numeral, formed, cut⟩
  rw [List.append_cancel_right cut]
  exact formed

end Leaf

end Grammar

/-! ## Statements -/

open Grammar (Leaf Rule Tree)

/-- Whether an invalid literal is the leftmost numeral of a text that is out of range, at its place
in the text. -/
def IsLeftmostOutOfRange (text : List Char) (numerals : List Leaf) (literal : String)
    (line column : Nat) : Prop :=
  ∃ earlier numeral later before after, numerals = earlier ++ numeral :: later ∧
    (∀ other ∈ earlier, ¬ Literal.IsOutOfRange other.lexeme) ∧
    Literal.IsOutOfRange numeral.lexeme ∧ text = before ++ (numeral.lexeme ++ after) ∧
    Leaf.StandIn .start before earlier ∧ literal = String.ofList numeral.lexeme ∧
    line = (Position.start.advanceAll before).line ∧
    column = (Position.start.advanceAll before).column

namespace Statement

variable {text : String} {next : Cursor} {trees : List Tree}

/-- The numerals of a reading stand in the text. -/
theorem standIn_numerals (accepted : (Rule.statement.parse text.toList).1 = some (next, trees)) :
    Leaf.StandIn .start text.toList (Tree.numerals trees) := by
  rcases Rule.located_of_read _ _ _ _ _ _ accepted with ⟨taken, passes, stand⟩
  have whole : Leaf.StandIn .start (taken ++ next.rest) (Tree.leavesOfEach trees ++ []) :=
    stand.append .none
  rw [← passes.rest, List.append_nil] at whole
  exact whole.sublist List.filter_sublist

/-- A text that follows the grammar fails with the first fault of a numeral, if there is one. -/
theorem parse_eq_error_iff (accepted : (Rule.statement.parse text.toList).1 = some (next, trees))
    (error : ReadError) :
    parse text = .error error ↔ (Tree.numerals trees).findSome? Leaf.fault? = some error := by
  rcases Rule.faultReading_of_read _ _ _ _ _ _ accepted with ⟨yields, each⟩
  have built : parse text = ofTrees trees := by
    unfold parse
    cases read : Rule.statement.parse text.toList with
    | mk result attempts =>
        rw [read] at accepted
        cases accepted
        rfl
  rw [built, Tree.numerals, Leaf.findSome?_fault?_filter, ← Tree.fragments_eq_error_iff each,
    ofTrees]
  cases fragments : Tree.fragments trees with
  | error first => simp
  | ok parts =>
      rcases yields parts fragments with ⟨statement, rfl, _⟩
      simp

/-- A numeral of a text that is not too long is faulty just if it is out of range. -/
theorem exists_fault?_iff (bounded : text.length < 0x8000000000000000)
    (accepted : (Rule.statement.parse text.toList).1 = some (next, trees)) {leaf : Leaf}
    (member : leaf ∈ Tree.numerals trees) :
    (∃ error, leaf.fault? = some error) ↔ Literal.IsOutOfRange leaf.lexeme := by
  have isNumeral := Tree.rule_of_mem_numerals member
  have stand := standIn_numerals accepted
  rcases List.append_of_mem member with ⟨earlier, later, cut⟩
  rw [cut] at stand
  rcases stand.split with ⟨before, _, after, place, ⟨rfl, _, isRead⟩, _⟩
  have short : leaf.lexeme.length < 0x8000000000000000 := by
    rw [← String.length_toList, place] at bounded
    simp only [List.length_append] at bounded
    omega
  rw [← Literal.exists_ofNumeral_eq_error_iff (Leaf.isNumeral_of_isRead isRead isNumeral) short]
  simp only [Leaf.fault?_eq_some_iff isNumeral]
  constructor
  · intro ⟨_, reason, failed, _⟩
    exact ⟨reason, failed⟩
  · intro ⟨reason, failed⟩
    exact ⟨_, reason, failed, rfl⟩

/-- Whatever is wrong with a text that follows the grammar is its leftmost numeral out of range. -/
theorem isLeftmostOutOfRange_of_parse (bounded : text.length < 0x8000000000000000)
    (accepted : (Rule.statement.parse text.toList).1 = some (next, trees)) {error : ReadError}
    (failed : parse text = .error error) :
    ∃ literal reason line column, error = .invalidLiteral literal reason line column ∧
      IsLeftmostOutOfRange text.toList (Tree.numerals trees) literal line column := by
  rcases List.findSome?_eq_some_iff.mp ((parse_eq_error_iff accepted error).mp failed) with
    ⟨earlier, numeral, later, cut, fault, clean⟩
  have member : numeral ∈ Tree.numerals trees := by simp [cut]
  have stand := standIn_numerals accepted
  rw [cut] at stand
  rcases stand.split with ⟨before, _, after, place, ⟨rfl, span, _⟩, left⟩
  rcases (Leaf.fault?_eq_some_iff (Tree.rule_of_mem_numerals member) error).mp fault with
    ⟨reason, _, rfl⟩
  refine ⟨_, reason, _, _, rfl, earlier, numeral, later, before, after, cut, ?_, ?_, place, left,
    rfl, ?_, ?_⟩
  · intro other otherMember outside
    have among : other ∈ Tree.numerals trees := by simp [cut, otherMember]
    rcases (exists_fault?_iff bounded accepted among).mpr outside with ⟨otherError, otherFault⟩
    cases (clean other otherMember).symm.trans otherFault
  · exact (exists_fault?_iff bounded accepted member).mp ⟨_, fault⟩
  · rw [span]
    rfl
  · rw [span]
    rfl

/-- A text that follows the grammar is a statement unless one of its numerals is out of range, and
then the leftmost of these is reported.  The bound on the length is that of the texts for which 64
bits suffice to count the digits of a decimal. -/
theorem parse_of_accepted (bounded : text.length < 0x8000000000000000)
    (accepted : (Rule.statement.parse text.toList).1 = some (next, trees)) :
    Leaf.StandIn .start text.toList (Tree.numerals trees) ∧
    ((∃ statement, parse text = .ok statement) ∨
      ∃ literal reason line column,
        parse text = .error (.invalidLiteral literal reason line column)) ∧
    ((∃ literal reason line column,
        parse text = .error (.invalidLiteral literal reason line column)) ↔
      ∃ numeral ∈ Tree.numerals trees, Literal.IsOutOfRange numeral.lexeme) ∧
    ∀ literal reason line column,
      parse text = .error (.invalidLiteral literal reason line column) →
        IsLeftmostOutOfRange text.toList (Tree.numerals trees) literal line column := by
  refine ⟨standIn_numerals accepted, ?_, ⟨?_, ?_⟩, ?_⟩
  · cases parsed : parse text with
    | ok statement => exact Or.inl ⟨statement, rfl⟩
    | error error =>
        rcases isLeftmostOutOfRange_of_parse bounded accepted parsed with
          ⟨literal, reason, line, column, rfl, _⟩
        exact Or.inr ⟨literal, reason, line, column, rfl⟩
  · intro ⟨literal, reason, line, column, failed⟩
    rcases isLeftmostOutOfRange_of_parse bounded accepted failed with
      ⟨_, _, _, _, _, earlier, numeral, later, _, _, cut, _, outside, _⟩
    exact ⟨numeral, by simp [cut], outside⟩
  · intro ⟨numeral, member, outside⟩
    rcases (exists_fault?_iff bounded accepted member).mpr outside with ⟨fault, isFault⟩
    have found : ((Tree.numerals trees).findSome? Leaf.fault?).isSome = true :=
      List.findSome?_isSome_iff.mpr ⟨numeral, member, by rw [isFault]; rfl⟩
    rcases Option.isSome_iff_exists.mp found with ⟨error, first⟩
    have failed := (parse_eq_error_iff accepted error).mpr first
    rcases isLeftmostOutOfRange_of_parse bounded accepted failed with
      ⟨literal, reason, line, column, rfl, _⟩
    exact ⟨literal, reason, line, column, failed⟩
  · intro literal reason line column failed
    rcases isLeftmostOutOfRange_of_parse bounded accepted failed with ⟨_, _, _, _, same, first⟩
    cases same
    exact first

/-- Two numerals out of range, under a negation, parentheses and a function. -/
def oversized : String := "from Book\nwhere not (f(3, 1.5L) > 99999999999999999999)"

/-- The numerals of the text, with their places. -/
def oversizedNumerals : List Leaf :=
  [⟨.litNumber, ⟨23, 24, 2, 14⟩, "3".toList⟩, ⟨.litNumber, ⟨26, 30, 2, 17⟩, "1.5L".toList⟩,
    ⟨.litNumber, ⟨34, 54, 2, 25⟩, "99999999999999999999".toList⟩]

/-- The leftmost of two numerals out of range is reported, where it stands in the second line. -/
theorem parse_oversized :
    oversized.length < 0x8000000000000000 ∧
    ∃ next trees, (Rule.statement.parse oversized.toList).1 = some (next, trees) ∧
      Tree.numerals trees = oversizedNumerals ∧
      parse oversized =
        .error (.invalidLiteral "1.5L" "invalid digit found in string" 2 17) ∧
      IsLeftmostOutOfRange oversized.toList oversizedNumerals "1.5L" 2 17 := by
  have bounded : oversized.length < 0x8000000000000000 := by decide
  have read : ((Rule.statement.parse oversized.toList).1.map fun found => Tree.numerals found.2) =
      some oversizedNumerals := by decide +kernel
  have fault : oversizedNumerals.findSome? Leaf.fault? =
      some (.invalidLiteral "1.5L" "invalid digit found in string" 2 17) := by decide
  rcases Option.map_eq_some_iff.mp read with ⟨⟨next, trees⟩, accepted, numerals⟩
  have failed := (parse_eq_error_iff accepted _).mpr (numerals ▸ fault)
  have leftmost := (parse_of_accepted bounded accepted).2.2.2 _ _ _ _ failed
  exact ⟨bounded, next, trees, accepted, numerals, failed, numerals ▸ leftmost⟩

end Statement

end DocumentQuery
