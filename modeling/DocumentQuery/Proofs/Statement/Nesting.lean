import DocumentQuery.Proofs.Grammar.Derivation
import DocumentQuery.Statement.Reader

/-!
# How the conditions of a query nest

`not` binds tighter than `and`, which binds tighter than `or`, so in a condition that
was read from a text only parentheses put a looser connective under a tighter one.  A
junction has at least two operands, as a single operand stands for itself.

What a rule of the grammar contributes to a statement is given by `Rule.Yields`.  It
holds of every reading because it passes from the parts of a phrase to the phrase.
-/

namespace DocumentQuery

namespace Predicate

/-- Whether a condition may stand without parentheses as an operand of a connective. -/
def mayJoin : Connective → Predicate → Bool
  | .and, junction _ _ _ => false
  | .or, junction .or _ _ => false
  | _, _ => true

mutual

/-- Whether every junction of a condition has at least two operands and connectives
nest as they bind. -/
def isNested : Predicate → Bool
  | comparison _ _ _ _ | nullCheck _ _ _ => true
  | junction connective operands _ => decide (2 ≤ operands.length) && mayAllJoin connective operands
  | negation operand _ => operand.mayJoin .and && isNested operand
  | group inner _ => isNested inner

/-- Whether conditions nest and may all be operands of a connective. -/
def mayAllJoin (connective : Connective) : List Predicate → Bool
  | [] => true
  | predicate :: predicates =>
      predicate.mayJoin connective && isNested predicate && mayAllJoin connective predicates

end

theorem mayAllJoin_iff (connective : Connective) (predicates : List Predicate) :
    mayAllJoin connective predicates = true ↔
      ∀ predicate ∈ predicates,
        predicate.mayJoin connective = true ∧ predicate.isNested = true := by
  induction predicates with
  | nil => simp [mayAllJoin]
  | cons predicate predicates ih => simp [mayAllJoin, ih]

theorem mayJoin_or_of_mayJoin_and {predicate : Predicate}
    (joins : predicate.mayJoin .and = true) : predicate.mayJoin .or = true := by
  cases predicate with
  | junction => cases joins
  | comparison | negation | nullCheck | group => rfl

end Predicate

namespace Grammar

/-! ## What rules contribute -/

/-- The fragments of a reading by a rule. -/
def Rule.Yields : Rule → List Fragment → Prop
  | whitespace, parts | comment, parts | identChar, parts | comma, parts => parts = []
  | ident, parts | quotedIdent, parts | name, parts => ∃ identifier, parts = [.name identifier]
  | compOp, parts => ∃ operator, parts = [.operator operator]
  | dottedIdent, parts | litString, parts | litNumber, parts | litBoolean, parts
  | literal, parts | fnCall, parts | expression, parts =>
      ∃ expression, parts = [.expression expression]
  | nullCheck, parts | comparison, parts | grouped, parts | atom, parts | negation, parts =>
      ∃ predicate, parts = [.predicate predicate] ∧
        predicate.mayJoin .and = true ∧ predicate.isNested = true
  | conjunction, parts =>
      ∃ predicate, parts = [.predicate predicate] ∧
        predicate.mayJoin .or = true ∧ predicate.isNested = true
  | disjunction, parts | predicate, parts | whereClause, parts =>
      ∃ predicate, parts = [.predicate predicate] ∧ predicate.isNested = true
  | statement, parts =>
      ∃ statement, parts = [.statement statement] ∧
        ∀ predicate, statement.condition = some predicate → predicate.isNested = true
  | rule, parts => parts = [.mark rule]

/-- The fragments of a match of a phrase. -/
def Phrase.Yields : Phrase → List Fragment → Prop
  | rule target, parts => target.Yields parts
  | startOfInput, parts => parts = []
  | seq first second, parts =>
      ∃ before after, first.Yields before ∧ second.Yields after ∧ parts = before ++ after
  | either first second, parts => first.Yields parts ∨ second.Yields parts
  | optional inner, parts => inner.Yields parts ∨ parts = []
  | many inner, parts =>
      ∃ rounds : List (List Fragment), (∀ round ∈ rounds, inner.Yields round) ∧
        parts = rounds.flatten

/-- A reading of a rule whose fragments, if they can be built, are what the rule yields. -/
def Rule.YieldsReading (rule : Rule) : Reading := fun _ _ trees =>
  ∀ parts, Tree.fragments trees = .ok parts → rule.Yields parts

theorem Tree.fragments_append_eq_ok_iff {first second : List Tree} {parts : List Fragment} :
    Tree.fragments (first ++ second) = .ok parts ↔
      ∃ before after, Tree.fragments first = .ok before ∧ Tree.fragments second = .ok after ∧
        parts = before ++ after := by
  induction first generalizing parts with
  | nil => simp [Tree.fragments]
  | cons tree trees ih =>
      rw [List.cons_append, Tree.fragments, Tree.fragments]
      cases tree.fragment with
      | error error => simp
      | ok head =>
          simp only
          constructor
          · intro built
            split at built
            next => cases built
            next others othersBuilt =>
              cases built
              rcases ih.mp othersBuilt with ⟨before, after, firstBuilt, secondBuilt, rfl⟩
              rw [firstBuilt]
              exact ⟨head :: before, after, rfl, secondBuilt, rfl⟩
          · rintro ⟨before, after, firstBuilt, secondBuilt, rfl⟩
            split at firstBuilt
            next => cases firstBuilt
            next others othersBuilt =>
              cases firstBuilt
              rw [ih.mpr ⟨others, after, othersBuilt, secondBuilt, rfl⟩]
              rfl

theorem Tree.exists_of_fragments_singleton {tree : Tree} {parts : List Fragment}
    (built : Tree.fragments [tree] = .ok parts) :
    ∃ fragment, tree.fragment = .ok fragment ∧ parts = [fragment] := by
  rw [Tree.fragments] at built
  split at built
  next => cases built
  next head headBuilt =>
    cases built
    exact ⟨head, headBuilt, rfl⟩

namespace Phrase

theorem exists_rounds_of_rounds {inner : Phrase} {reads : Reading}
    (yields : ∀ cursor next trees, reads cursor next trees → ∀ parts,
      Tree.fragments trees = .ok parts → inner.Yields parts)
    {cursor next : Cursor} {trees : List Tree} (rounds : Rounds reads cursor next trees)
    {parts : List Fragment} (built : Tree.fragments trees = .ok parts) :
    (many inner).Yields parts := by
  induction rounds generalizing parts with
  | done cursor =>
      cases built
      exact ⟨[], nofun, rfl⟩
  | more step rest ih =>
      rcases Tree.fragments_append_eq_ok_iff.mp built with ⟨before, after, first, second, rfl⟩
      rcases ih second with ⟨rounds, each, rfl⟩
      refine ⟨before :: rounds, ?_, rfl⟩
      intro round member
      rcases List.mem_cons.mp member with rfl | member
      · exact yields _ _ _ step _ first
      · exact each round member

/-- What the rules of a phrase yield makes up what the phrase yields. -/
theorem yields_of_matches {reads : Rule → Reading}
    (sound : ∀ rule cursor next trees, reads rule cursor next trees →
      rule.YieldsReading cursor next trees)
    (phrase : Phrase) {cursor next : Cursor} {trees : List Tree}
    (matched : phrase.Matches reads cursor next trees) {parts : List Fragment}
    (built : Tree.fragments trees = .ok parts) : phrase.Yields parts := by
  induction phrase generalizing cursor next trees parts with
  | rule target => exact sound _ _ _ _ matched parts built
  | startOfInput =>
      rcases matched with ⟨_, _, rfl⟩
      cases built
      rfl
  | seq first second firstIH secondIH =>
      rcases matched with ⟨middle, before, after, firstMatched, secondMatched, rfl⟩
      rcases Tree.fragments_append_eq_ok_iff.mp built with
        ⟨head, tail, headBuilt, tailBuilt, rfl⟩
      exact ⟨head, tail, firstIH firstMatched headBuilt, secondIH secondMatched tailBuilt, rfl⟩
  | either first second firstIH secondIH =>
      rcases matched with firstMatched | secondMatched
      · exact Or.inl (firstIH firstMatched built)
      · exact Or.inr (secondIH secondMatched built)
  | optional inner ih =>
      rcases matched with innerMatched | ⟨_, rfl⟩
      · exact Or.inl (ih innerMatched built)
      · cases built
        exact Or.inr rfl
  | many inner ih =>
      rcases matched with ⟨middle, before, after, innerMatched, rounds, rfl⟩ | ⟨_, rfl⟩
      · rcases Tree.fragments_append_eq_ok_iff.mp built with
          ⟨head, tail, headBuilt, tailBuilt, rfl⟩
        rcases exists_rounds_of_rounds (fun _ _ _ found _ foundBuilt => ih found foundBuilt)
          rounds tailBuilt with ⟨others, each, rfl⟩
        refine ⟨head :: others, ?_, rfl⟩
        intro round member
        rcases List.mem_cons.mp member with rfl | member
        · exact ih innerMatched headBuilt
        · exact each round member
      · cases built
        exact ⟨[], nofun, rfl⟩

end Phrase

/-! ## Junctions -/

namespace Fragment

/-- Operands that follow each other with a mark before each are read off in order. -/
theorem forall_mem_filterMap_predicate? {holds : Predicate → Prop} {separator : Rule}
    {rounds : List (List Fragment)}
    (each : ∀ round ∈ rounds, ∃ operand, round = [.mark separator, .predicate operand] ∧
      holds operand) :
    ∀ operand ∈ rounds.flatten.filterMap predicate?, holds operand := by
  intro operand member
  rcases List.mem_filterMap.mp member with ⟨part, partMember, isOperand⟩
  rcases List.mem_flatten.mp partMember with ⟨round, roundMember, inRound⟩
  rcases each round roundMember with ⟨found, rfl, held⟩
  rcases List.mem_cons.mp inRound with rfl | inRound
  · cases isOperand
  · rw [List.mem_singleton] at inRound
    subst inRound
    cases isOperand
    exact held

/-- Operands that nest and may be joined make a condition that nests, and a single
operand stands for itself. -/
theorem exists_of_junction (span : Span) {connective : Connective} {first : Predicate}
    {rounds : List (List Fragment)} {separator : Rule}
    (firstJoins : first.mayJoin connective = true ∧ first.isNested = true)
    (each : ∀ round ∈ rounds, ∃ operand, round = [.mark separator, .predicate operand] ∧
      operand.mayJoin connective = true ∧ operand.isNested = true) :
    ∃ predicate,
      junction connective span (.predicate first :: rounds.flatten) = .predicate predicate ∧
        predicate.isNested = true ∧
        (predicate = first ∨ ∃ operands, predicate = .junction connective operands span) := by
  have allJoin := forall_mem_filterMap_predicate? each
  have parts : (Fragment.predicate first :: rounds.flatten).filterMap predicate? =
      first :: rounds.flatten.filterMap predicate? := rfl
  unfold junction
  rw [parts]
  cases others : rounds.flatten.filterMap predicate? with
  | nil => exact ⟨first, rfl, firstJoins.2, Or.inl rfl⟩
  | cons second others' =>
      rw [others] at allJoin
      refine ⟨.junction connective (first :: second :: others') span, rfl, ?_,
        Or.inr ⟨_, rfl⟩⟩
      rw [Predicate.isNested, Bool.and_eq_true, Predicate.mayAllJoin_iff]
      refine ⟨by simp, ?_⟩
      intro operand member
      rcases List.mem_cons.mp member with rfl | member
      · exact firstJoins
      · exact allJoin operand member

end Fragment

/-! ## Readings -/

namespace Rule

theorem yields_of_ofToken {rule : Rule} {pattern : Pattern} (isToken : rule.body = .token pattern)
    {span : Span} {lexeme : List Char} {parts : List Fragment}
    (built : Tree.fragments (rule.reveal [.token rule span lexeme]) = .ok parts) :
    rule.Yields parts := by
  cases rule
  case whitespace | comment | identChar | comma =>
    cases built
    rfl
  case name | litBoolean | literal | fnCall | expression | nullCheck | comparison | grouped | atom
      | negation | conjunction | disjunction | predicate | whereClause | statement =>
    cases isToken
  all_goals
    rcases Tree.exists_of_fragments_singleton built with ⟨fragment, made, rfl⟩
    rw [Tree.fragment] at made
  case litNumber =>
    rw [Fragment.ofToken] at made
    split at made
    next => cases made; exact ⟨_, rfl⟩
    next => cases made
  case compOp =>
    rw [Fragment.ofToken] at made
    split at made
    next => cases made; exact ⟨_, rfl⟩
    next => cases made
  case ident | quotedIdent | dottedIdent | litString =>
    cases made
    exact ⟨_, rfl⟩
  all_goals
    cases made
    rfl

/-- The condition of a statement is the one of its `where` clause. -/
theorem exists_ofPhrase_statement {parts : List Fragment}
    (inner : (Phrase.sequence .startOfInput
      [.rule .kwFrom, .rule .name, .optional (.rule .name), .optional (.rule .whereClause),
        .rule .endOfInput]).Yields parts) (span : Span) :
    ∃ fragment, Fragment.ofPhrase .statement span parts = .ok fragment ∧
      Rule.statement.Yields [fragment] := by
  rcases inner with ⟨_, _, rfl, inner, rfl⟩
  rcases inner with ⟨_, _, rfl, inner, rfl⟩
  rcases inner with ⟨_, _, ⟨entity, rfl⟩, inner, rfl⟩
  rcases inner with ⟨_, _, second, inner, rfl⟩
  rcases inner with ⟨_, _, clause, rfl, rfl⟩
  rcases second with ⟨aliasName, rfl⟩ | rfl <;>
    rcases clause with ⟨condition, rfl, nested⟩ | rfl <;>
    refine ⟨_, rfl, _, rfl, ?_⟩ <;>
    intro predicate isCondition <;>
    cases isCondition <;>
    exact nested

/-- The parts of a phrase always fit together, and make up what its rule yields. -/
theorem exists_ofPhrase_eq_ok {rule : Rule} {phrase : Phrase}
    (isPhrase : rule.body = .phrase phrase) (shown : rule.isSilent = false)
    {parts : List Fragment} (inner : phrase.Yields parts) (span : Span) :
    ∃ fragment, Fragment.ofPhrase rule span parts = .ok fragment ∧ rule.Yields [fragment] := by
  cases rule <;> cases isPhrase
  case name => cases shown
  case statement => exact exists_ofPhrase_statement inner span
  case litBoolean =>
    rcases inner with rfl | rfl <;> exact ⟨_, rfl, _, rfl⟩
  case literal =>
    rcases inner with ⟨_, rfl⟩ | ⟨_, rfl⟩ | ⟨_, rfl⟩ | rfl <;> exact ⟨_, rfl, _, rfl⟩
  case fnCall =>
    rcases inner with ⟨_, _, ⟨function, rfl⟩, rest, rfl⟩
    exact ⟨_, rfl, _, rfl⟩
  case expression =>
    rcases inner with ⟨_, rfl⟩ | ⟨_, rfl⟩ | ⟨_, rfl⟩ <;> exact ⟨_, rfl, _, rfl⟩
  case nullCheck =>
    rcases inner with ⟨_, _, ⟨subject, rfl⟩, inner, rfl⟩
    rcases inner with ⟨_, _, rfl, inner, rfl⟩
    rcases inner with ⟨_, _, negated, rfl, rfl⟩
    rcases negated with rfl | rfl <;> exact ⟨_, rfl, _, rfl, rfl, rfl⟩
  case comparison =>
    rcases inner with ⟨_, _, ⟨left, rfl⟩, inner, rfl⟩
    rcases inner with ⟨_, _, ⟨operator, rfl⟩, ⟨right, rfl⟩, rfl⟩
    exact ⟨_, rfl, _, rfl, rfl, rfl⟩
  case grouped =>
    rcases inner with ⟨_, _, rfl, inner, rfl⟩
    rcases inner with ⟨_, _, ⟨condition, rfl, nested⟩, rfl, rfl⟩
    exact ⟨_, rfl, _, rfl, rfl, nested⟩
  case atom =>
    rcases inner with ⟨condition, rfl, nests⟩ | ⟨condition, rfl, nests⟩ |
      ⟨condition, rfl, nests⟩ <;> exact ⟨_, rfl, _, rfl, nests⟩
  case negation =>
    rcases inner with ⟨_, _, rfl, ⟨operand, rfl, joins, nested⟩, rfl⟩ | ⟨condition, rfl, nests⟩
    · refine ⟨_, rfl, _, rfl, rfl, ?_⟩
      rw [Predicate.isNested, joins, nested]
      rfl
    · exact ⟨_, rfl, _, rfl, nests⟩
  case conjunction =>
    rcases inner with ⟨_, _, ⟨first, rfl, joins⟩, ⟨rounds, each, rfl⟩, rfl⟩
    have operands : ∀ round ∈ rounds, ∃ operand, round = [.mark .kwAnd, .predicate operand] ∧
        operand.mayJoin .and = true ∧ operand.isNested = true := by
      intro round member
      rcases each round member with ⟨_, _, rfl, ⟨operand, rfl, nests⟩, rfl⟩
      exact ⟨operand, rfl, nests⟩
    rcases Fragment.exists_of_junction span joins operands with
      ⟨condition, joined, nested, shape⟩
    refine ⟨_, rfl, condition, congrArg (fun fragment => [fragment]) joined, ?_, nested⟩
    rcases shape with rfl | ⟨_, rfl⟩
    · exact Predicate.mayJoin_or_of_mayJoin_and joins.1
    · rfl
  case disjunction =>
    rcases inner with ⟨_, _, ⟨first, rfl, joins⟩, ⟨rounds, each, rfl⟩, rfl⟩
    have operands : ∀ round ∈ rounds, ∃ operand, round = [.mark .kwOr, .predicate operand] ∧
        operand.mayJoin .or = true ∧ operand.isNested = true := by
      intro round member
      rcases each round member with ⟨_, _, rfl, ⟨operand, rfl, nests⟩, rfl⟩
      exact ⟨operand, rfl, nests⟩
    rcases Fragment.exists_of_junction span joins operands with ⟨condition, joined, nested, _⟩
    exact ⟨_, rfl, condition, congrArg (fun fragment => [fragment]) joined, nested⟩
  case predicate =>
    rcases inner with ⟨condition, rfl, nested⟩
    exact ⟨_, rfl, _, rfl, nested⟩
  case whereClause =>
    rcases inner with ⟨_, _, rfl, ⟨condition, rfl, nested⟩, rfl⟩
    exact ⟨_, rfl, _, rfl, nested⟩

/-- What the parts of a phrase yield makes up what its rule yields. -/
theorem yields_of_parts {rule : Rule} {phrase : Phrase} (isPhrase : rule.body = .phrase phrase)
    {span : Span} {trees : List Tree}
    (inner : ∀ parts, Tree.fragments trees = .ok parts → phrase.Yields parts)
    {parts : List Fragment}
    (built : Tree.fragments (rule.reveal [.phrase rule span trees]) = .ok parts) :
    rule.Yields parts := by
  cases silent : rule.isSilent with
  | true =>
      -- The only phrase without a node of its own is a name.
      have isName : rule = .name := by
        cases rule with
        | name => rfl
        | whitespace | comment | identChar | comma => cases isPhrase
        | _ => cases silent
      subst isName
      cases isPhrase
      rw [reveal, if_pos silent] at built
      simp only [List.flatMap_cons, List.flatMap_nil, List.append_nil, Tree.children] at built
      rcases inner parts built with found | found <;> exact found
  | false =>
      rw [reveal, silent] at built
      rcases Tree.exists_of_fragments_singleton built with ⟨fragment, made, rfl⟩
      rw [Tree.fragment] at made
      split at made
      next parts partsBuilt =>
        rcases exists_ofPhrase_eq_ok isPhrase silent (inner parts partsBuilt) span with
          ⟨found, foundMade, yields⟩
        cases made.symm.trans foundMade
        exact yields
      next => cases made

/-- The fragments of a reading are what its rule yields. -/
theorem yields_of_read (depth : Nat) (rule : Rule) :
    Phrase.Sound (read depth rule) rule.YieldsReading := by
  apply read_induction
  · intro rule pattern cursor rest isToken _ parts built
    exact yields_of_ofToken isToken built
  · intro rule phrase cursor next trees isPhrase matched parts built
    exact yields_of_parts isPhrase
      (fun _ => phrase.yields_of_matches (fun _ _ _ _ found => found) matched) built

end Rule
end Grammar

/-- A statement that was read from a text is all that a reading of the text contributes. -/
theorem Statement.exists_reading_of_parse {reading : Grammar.Reading}
    (sound : ∀ depth, Grammar.Phrase.Sound (Grammar.Rule.read depth .statement) reading)
    {text : String} {statement : Statement} (parsed : Statement.parse text = .ok statement) :
    ∃ next trees, reading (.ofText text.toList) next trees ∧
      Grammar.Tree.fragments trees = .ok [.statement statement] := by
  unfold parse at parsed
  split at parsed
  next next trees attempts read =>
    have found := sound _ _ _ next trees (congrArg Prod.fst read)
    unfold ofTrees at parsed
    split at parsed
    next built =>
      cases parsed
      exact ⟨next, trees, found, built⟩
    next => cases parsed
    next => cases parsed
  next => cases parsed

/-- The condition of a statement that was read from a text nests as its connectives
bind. -/
theorem Statement.isNested_of_parse {text : String} {statement : Statement}
    (parsed : Statement.parse text = .ok statement) {predicate : Predicate}
    (condition : statement.condition = some predicate) : predicate.isNested = true := by
  rcases exists_reading_of_parse (fun depth => Grammar.Rule.yields_of_read depth _) parsed with
    ⟨_, _, yields, built⟩
  rcases yields _ built with ⟨other, same, nested⟩
  cases same
  exact nested predicate condition

end DocumentQuery
