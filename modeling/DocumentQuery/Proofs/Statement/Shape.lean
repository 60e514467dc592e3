import DocumentQuery.Proofs.Statement.Parts
import DocumentQuery.Proofs.Statement.TokenRules

/-!
# The shape of what is read

A statement that was read from a text is well formed.  `not` binds tighter than `and`, which
binds tighter than `or`, in all parts of its condition.  All names in it are identifiers, and
only that of the entity and its alias may be reserved.

How conditions nest is known from the rules.  The names come from the tokens: each token
gives what its pattern lets through, and a phrase passes on what its parts hold.
-/

namespace DocumentQuery

open Grammar (IsPlain)

/-! ## Parts of conditions -/

/-- Whether a path has segments and these, or the name of a function, are plain names. -/
def Expression.IsWellNamed : Expression → Prop
  | literal _ _ => True
  | path target _ => target.segments ≠ [] ∧ ∀ name ∈ target.segments, IsPlain name
  | call name _ _ => IsPlain name

namespace Predicate

/-- Whether a junction has at least two operands, and neither its operands nor that of a
negation need parentheses. -/
def BindsTightly : Predicate → Prop
  | junction connective operands _ =>
      2 ≤ operands.length ∧ ∀ operand ∈ operands, operand.mayJoin connective = true
  | negation operand _ => operand.mayJoin .and = true
  | comparison _ _ _ _ | nullCheck _ _ _ | group _ _ => True

/-- A condition that nests does so in all its parts. -/
theorem bindsTightly_of_isNested {predicate : Predicate} (nested : predicate.isNested = true) :
    ∀ part ∈ predicate.parts, part.BindsTightly := by
  induction predicate using Predicate.inductionOn with
  | comparison | nullCheck =>
      intro part member
      cases List.mem_singleton.mp member
      trivial
  | junction connective operands span ih =>
      rw [isNested, Bool.and_eq_true, decide_eq_true_iff, mayAllJoin_iff] at nested
      rw [parts, partsOfEach_eq_flatMap]
      have joins : ∀ operand ∈ operands, operand.mayJoin connective = true :=
        fun operand member => (nested.2 operand member).1
      refine List.forall_mem_cons.mpr ⟨⟨nested.1, joins⟩, ?_⟩
      intro part member
      rcases List.mem_flatMap.mp member with ⟨operand, operandMember, inOperand⟩
      exact ih operand operandMember (nested.2 operand operandMember).2 part inOperand
  | negation operand span ih =>
      rw [isNested, Bool.and_eq_true] at nested
      rw [parts]
      exact List.forall_mem_cons.mpr ⟨nested.1, ih nested.2⟩
  | group inner span ih =>
      rw [isNested] at nested
      rw [parts]
      exact List.forall_mem_cons.mpr ⟨trivial, ih nested⟩

/-- Whether all names in a condition are plain ones. -/
def IsWellNamed (predicate : Predicate) : Prop :=
  ∀ expression ∈ predicate.expressions, expression.IsWellNamed

@[simp] theorem isWellNamed_comparison {left right : Expression} {operator : Comparison}
    {span : Span} :
    (comparison left operator right span).IsWellNamed ↔
      (∀ part ∈ left.parts, part.IsWellNamed) ∧ ∀ part ∈ right.parts, part.IsWellNamed := by
  simp [IsWellNamed, or_imp, forall_and]

@[simp] theorem isWellNamed_nullCheck {subject : Expression} {negated : Bool} {span : Span} :
    (nullCheck subject negated span).IsWellNamed ↔ ∀ part ∈ subject.parts, part.IsWellNamed := by
  simp [IsWellNamed]

@[simp] theorem isWellNamed_junction {connective : Connective} {operands : List Predicate}
    {span : Span} :
    (junction connective operands span).IsWellNamed ↔
      ∀ operand ∈ operands, operand.IsWellNamed := by
  simp only [IsWellNamed, expressions_junction, List.forall_mem_flatMap]

@[simp] theorem isWellNamed_negation {operand : Predicate} {span : Span} :
    (negation operand span).IsWellNamed ↔ operand.IsWellNamed := by
  simp [IsWellNamed]

@[simp] theorem isWellNamed_group {inner : Predicate} {span : Span} :
    (group inner span).IsWellNamed ↔ inner.IsWellNamed := by
  simp [IsWellNamed]

end Predicate

namespace Grammar

/-! ## Fragments -/

namespace Fragment

/-- Whether the names in a fragment are shaped as they are to be. -/
def IsWellNamed : Fragment → Prop
  | mark _ | operator _ => True
  | name identifier => Identifier.isShaped identifier.name.toList = true
  | expression inner => ∀ part ∈ inner.parts, part.IsWellNamed
  | predicate inner => inner.IsWellNamed
  | statement inner =>
      Identifier.isShaped inner.entity.name.toList = true ∧
        (∀ aliasName, inner.aliasName = some aliasName →
          Identifier.isShaped aliasName.name.toList = true) ∧
        ∀ condition, inner.condition = some condition → condition.IsWellNamed

theorem isWellNamed_literal (value : Literal) (span : Span) :
    (expression (.literal value span)).IsWellNamed := by
  intro part member
  cases List.mem_singleton.mp member
  trivial

/-- A token gives the names that its pattern lets through. -/
theorem isWellNamed_of_ofToken {rule : Rule} {pattern : Pattern}
    (isToken : rule.body = .token pattern) {position : Position} {text rest : List Char}
    (matched : pattern.after? text = some rest) {span : Span} {fragment : Fragment}
    (made : ofToken rule span (Cursor.lexeme ⟨position, text⟩ rest) = .ok fragment) :
    fragment.IsWellNamed := by
  unfold ofToken at made
  split at made
  case h_1 =>
    cases isToken
    rcases Pattern.exists_of_ident_after? matched with ⟨name, plain, rfl⟩
    rw [Cursor.lexeme_append] at made
    cases made
    rw [IsWellNamed, Identifier.ofWritten, Identifier.unquote_of_isShaped plain.1,
      String.toList_ofList]
    exact plain.1
  case h_2 =>
    cases isToken
    rcases Pattern.exists_of_quotedIdent_after? matched with ⟨name, shaped, rfl⟩
    rw [Cursor.lexeme_append] at made
    cases made
    rw [IsWellNamed, Identifier.ofWritten, Identifier.unquote_quoted, String.toList_ofList]
    exact shaped
  case h_3 =>
    cases isToken
    rcases Pattern.exists_of_dottedIdent_after? matched with ⟨first, others, plain, rfl⟩
    rw [Cursor.lexeme_append, AttributePath.ofText_intercalate (List.cons_ne_nil _ _) plain] at made
    cases made
    intro part member
    cases List.mem_singleton.mp member
    exact ⟨List.cons_ne_nil _ _, plain⟩
  case h_4 =>
    cases made
    exact isWellNamed_literal _ _
  case h_5 =>
    split at made
    next =>
      cases made
      exact isWellNamed_literal _ _
    next => cases made
  case h_6 =>
    split at made
    next =>
      cases made
      trivial
    next => cases made
  case h_7 =>
    cases made
    trivial

section Phrases

variable {parts : List Fragment} (each : ∀ part ∈ parts, part.IsWellNamed)

include each

theorem forall_mem_filterMap_of_isWellNamed {α : Type} {view : Fragment → Option α}
    {holds : α → Prop}
    (sound : ∀ part inner, view part = some inner → part.IsWellNamed → holds inner) :
    ∀ inner ∈ parts.filterMap view, holds inner := by
  intro inner member
  rcases List.mem_filterMap.mp member with ⟨part, partMember, viewed⟩
  exact sound part inner viewed (each part partMember)

theorem isWellNamed_of_mem_predicates :
    ∀ inner ∈ parts.filterMap predicate?, inner.IsWellNamed := by
  refine forall_mem_filterMap_of_isWellNamed each ?_
  intro part inner viewed named
  cases part <;> cases viewed
  exact named

theorem isWellNamed_junction {connective : Connective} {span : Span} :
    (junction connective span parts).IsWellNamed := by
  have operands := isWellNamed_of_mem_predicates each
  unfold junction
  split
  next operand single =>
    rw [single] at operands
    exact operands operand List.mem_cons_self
  next => exact Predicate.isWellNamed_junction.mpr operands

theorem isWellNamed_call {function : String} (plain : IsPlain function) {span : Span} :
    (expression (.call function (parts.filterMap expression?) span)).IsWellNamed := by
  have arguments : ∀ argument ∈ parts.filterMap expression?,
      ∀ part ∈ argument.parts, part.IsWellNamed := by
    refine forall_mem_filterMap_of_isWellNamed each ?_
    intro part argument viewed named
    cases part <;> cases viewed
    exact named
  rw [IsWellNamed, Expression.parts, Expression.partsOfEach_eq_flatMap]
  exact List.forall_mem_cons.mpr ⟨plain, List.forall_mem_flatMap.mpr arguments⟩

theorem isWellNamed_statement {span : Span} {fragment : Fragment}
    (made : ofPhrase .statement span parts = .ok fragment) : fragment.IsWellNamed := by
  have names : ∀ identifier ∈ parts.filterMap name?,
      Identifier.isShaped identifier.name.toList = true := by
    refine forall_mem_filterMap_of_isWellNamed each ?_
    intro part identifier viewed named
    cases part <;> cases viewed
    exact named
  have condition : ∀ inner, (parts.filterMap predicate?).head? = some inner →
      inner.IsWellNamed :=
    fun inner first => isWellNamed_of_mem_predicates each inner (List.mem_of_head? first)
  simp only [ofPhrase] at made
  split at made
  next entity single =>
    rw [single] at names
    cases made
    refine ⟨names entity List.mem_cons_self, ?_, condition⟩
    intro other isAlias
    cases isAlias
  next entity aliasName both =>
    rw [both] at names
    cases made
    refine ⟨names entity List.mem_cons_self, ?_, condition⟩
    intro other same
    cases same
    exact names aliasName (List.mem_cons_of_mem _ List.mem_cons_self)
  next => cases made

/-- A phrase passes the names of its parts on.  A function takes its name from the first of
them. -/
theorem isWellNamed_of_ofPhrase {rule : Rule} {span : Span} {fragment : Fragment}
    (plain : rule = .fnCall → ∀ function, parts.head? = some (name function) →
      IsPlain function.name)
    (made : ofPhrase rule span parts = .ok fragment) : fragment.IsWellNamed := by
  by_cases isStatement : rule = .statement
  · subst isStatement
    exact isWellNamed_statement each made
  unfold ofPhrase at made
  split at made
  case h_1 | h_2 | h_3 =>
    cases made
    exact isWellNamed_literal _ _
  case h_4 | h_6 | h_11 | h_13 | h_16 =>
    cases made
    exact each _ List.mem_cons_self
  case h_5 function arguments =>
    cases made
    exact isWellNamed_call (fun part member => each part (List.mem_cons_of_mem _ member))
      (plain rfl function rfl)
  case h_7 | h_8 =>
    cases made
    exact Predicate.isWellNamed_nullCheck.mpr (each _ List.mem_cons_self)
  case h_9 =>
    cases made
    simp only [List.forall_mem_cons] at each
    exact Predicate.isWellNamed_comparison.mpr ⟨each.1, each.2.2.1⟩
  case h_10 =>
    cases made
    simp only [List.forall_mem_cons] at each
    exact Predicate.isWellNamed_group.mpr each.2.1
  case h_12 =>
    cases made
    simp only [List.forall_mem_cons] at each
    exact Predicate.isWellNamed_negation.mpr each.2.1
  case h_14 | h_15 =>
    cases made
    exact isWellNamed_junction each
  case h_17 =>
    cases made
    simp only [List.forall_mem_cons] at each
    exact each.2.1
  case h_18 => exact absurd rfl isStatement
  case h_19 => cases made

end Phrases

end Fragment

/-! ## Readings -/

/-- Whether what becomes of a node is well named. -/
def Tree.IsWellNamed (tree : Tree) : Prop :=
  ∀ fragment, tree.fragment = .ok fragment → fragment.IsWellNamed

theorem Tree.forall_of_fragments {trees : List Tree} (each : ∀ tree ∈ trees, tree.IsWellNamed)
    {parts : List Fragment} (built : Tree.fragments trees = .ok parts) :
    ∀ part ∈ parts, part.IsWellNamed := by
  induction trees generalizing parts with
  | nil =>
      cases built
      exact nofun
  | cons tree trees ih =>
      rw [Tree.fragments] at built
      split at built
      next => cases built
      next first firstBuilt =>
        split at built
        next => cases built
        next others othersBuilt =>
          cases built
          rw [List.forall_mem_cons] at each ⊢
          exact ⟨each.1 first firstBuilt, ih each.2 othersBuilt⟩

namespace Rule

/-- A reading of a rule whose nodes are well named.  That of an identifier is a plain name. -/
def NamesReading (rule : Rule) : Reading := fun _ _ trees =>
  (∀ tree ∈ trees, tree.IsWellNamed) ∧
    (rule = .ident → ∃ name : String, IsPlain name ∧
      ∃ span, trees = [.token .ident span name.toList])

/-- The first part of a function call is its name. -/
theorem isPlain_of_fnCall {phrase : Phrase} (isPhrase : Rule.fnCall.body = .phrase phrase)
    {cursor next : Cursor} {trees : List Tree}
    (matched : phrase.Matches NamesReading cursor next trees) {parts : List Fragment}
    (built : Tree.fragments trees = .ok parts) {function : Identifier}
    (first : parts.head? = some (.name function)) : IsPlain function.name := by
  cases isPhrase
  rcases matched with ⟨middle, before, after, ⟨_, identRead⟩, _, rfl⟩
  rcases identRead rfl with ⟨name, plain, span, rfl⟩
  rcases Tree.fragments_append_eq_ok_iff.mp built with ⟨head, tail, headBuilt, _, rfl⟩
  rcases Tree.exists_of_fragments_singleton headBuilt with ⟨fragment, made, rfl⟩
  rw [Tree.fragment, Fragment.ofToken] at made
  cases made
  cases first
  rw [Identifier.ofWritten, Identifier.unquote_of_isShaped plain.1, String.ofList_toList]
  exact plain

theorem namesReading_of_read (depth : Nat) (rule : Rule) :
    Phrase.Sound (read depth rule) rule.NamesReading := by
  apply read_induction
  · rintro rule pattern ⟨position, text⟩ rest isToken matched
    constructor
    · apply forall_of_reveal
      · intro _ fragment made
        rw [Tree.fragment] at made
        exact Fragment.isWellNamed_of_ofToken isToken matched made
      · intro child member
        cases member
    · rintro rfl
      cases isToken
      rcases Pattern.exists_of_ident_after? matched with ⟨name, plain, rfl⟩
      exact ⟨name, plain, _, by rw [Cursor.lexeme_append]; rfl⟩
  · intro rule phrase cursor next trees isPhrase matched
    have children := Phrase.forall_of_matches (fun _ _ _ _ read => read.1) phrase matched
    constructor
    · apply forall_of_reveal
      · intro _ fragment made
        rw [Tree.fragment] at made
        split at made
        next parts built =>
          apply Fragment.isWellNamed_of_ofPhrase (Tree.forall_of_fragments children built) _ made
          rintro rfl function first
          exact isPlain_of_fnCall isPhrase matched built first
        next => cases made
      · exact children
    · rintro rfl
      cases isPhrase

end Rule

end Grammar

/-! ## Statements -/

/-- Whether a name is an identifier, reserved or not, without its backquotes. -/
def Identifier.IsWellNamed (identifier : Identifier) : Prop :=
  isShaped identifier.name.toList = true ∧ Grammar.Pattern.backquote ∉ identifier.name.toList

theorem Identifier.isWellNamed_of_isShaped {identifier : Identifier}
    (shaped : isShaped identifier.name.toList = true) : identifier.IsWellNamed := by
  refine ⟨shaped, fun member => ?_⟩
  cases ((Grammar.Pattern.isShaped_iff _).mp shaped).2 _ member

namespace Statement

/-- The shape of a statement that a text stands for. -/
structure IsWellFormed (statement : Statement) : Prop where
  entity : statement.entity.IsWellNamed
  aliasName : ∀ aliasName, statement.aliasName = some aliasName → aliasName.IsWellNamed
  binds : ∀ condition, statement.condition = some condition →
    ∀ part ∈ condition.parts, part.BindsTightly
  names : ∀ condition, statement.condition = some condition →
    ∀ expression ∈ condition.expressions, expression.IsWellNamed

theorem isWellNamed_of_parse {text : String} {statement : Statement}
    (parsed : parse text = .ok statement) :
    (Grammar.Fragment.statement statement).IsWellNamed := by
  rcases exists_reading_of_parse (fun depth => Grammar.Rule.namesReading_of_read depth _) parsed
    with ⟨_, _, named, built⟩
  exact Grammar.Tree.forall_of_fragments named.1 built _ List.mem_cons_self

/-- Whatever a text stands for is well formed. -/
theorem isWellFormed_of_parse {text : String} {statement : Statement}
    (parsed : parse text = .ok statement) : statement.IsWellFormed := by
  rcases isWellNamed_of_parse parsed with ⟨entity, aliasName, names⟩
  refine ⟨Identifier.isWellNamed_of_isShaped entity, ?_, ?_, names⟩
  · intro other isAlias
    exact Identifier.isWellNamed_of_isShaped (aliasName other isAlias)
  · intro condition isCondition
    exact Predicate.bindsTightly_of_isNested (isNested_of_parse parsed isCondition)

/-- The entities `or` with the condition `not a.b = f() or (c < d)`. -/
def reservedEntity : Statement where
  entity := ⟨"or", .nowhere⟩
  aliasName := none
  condition := some (.junction .or
    [.negation (.comparison (.attribute ["a", "b"]) .equal (.call "f" [] .nowhere) .nowhere)
        .nowhere,
      .group (.comparison (.attribute ["c"]) .less (.attribute ["d"]) .nowhere) .nowhere]
    .nowhere)
  span := .nowhere

/-- A name may be reserved between backquotes, and only parentheses make a group. -/
theorem isWellFormed_reservedEntity :
    ∃ statement, parse "from `or` where not a.b = f() or (c < d)" = .ok statement ∧
      statement.bare = reservedEntity ∧ statement.IsWellFormed := by
  have read : (parse "from `or` where not a.b = f() or (c < d)").map bare =
      .ok reservedEntity := by decide +kernel
  cases parsed : parse "from `or` where not a.b = f() or (c < d)" with
  | error => rw [parsed] at read; cases read
  | ok statement =>
      rw [parsed] at read
      exact ⟨statement, rfl, Except.ok.inj read, isWellFormed_of_parse parsed⟩

end Statement

end DocumentQuery
