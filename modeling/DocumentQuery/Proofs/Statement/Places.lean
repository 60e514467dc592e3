import DocumentQuery.Proofs.Grammar.Location
import DocumentQuery.Proofs.Source.Spans
import DocumentQuery.Proofs.Statement.Literals

/-!
# Where the parts of a statement stand

Every part of a statement that was read from a text stands in the text where its span says.  The
parts of a part stand inside it, one after the other.  What stands at a name, a path or a literal
is the text that it was read from.

This passes from the rules of a phrase to the phrase.  A reading passes over some text, and whatever
it contributes to the statement stands there, with its parts in turn.  A phrase may end in layout,
so the place of a junction may be longer than its operands, but never overlaps what follows.
-/

namespace DocumentQuery

open Grammar.Pattern (backquote)

/-! ## Parts -/

/-- A part of a statement that knows its place. -/
inductive Node where
  | statement (inner : Statement)
  | name (identifier : Identifier)
  | predicate (inner : Predicate)
  | expression (inner : Expression)
  | path (target : AttributePath)

namespace Node

/-- The place of a part. -/
def span : Node → Span
  | statement inner => inner.span
  | name identifier => identifier.span
  | predicate inner => inner.span
  | expression inner => inner.span
  | path target => target.span

/-- The parts of a part, from left to right. -/
def children : Node → List Node
  | statement inner =>
      name inner.entity ::
        ((inner.aliasName.map name).toList ++ (inner.condition.map predicate).toList)
  | predicate (.comparison left _ right _) => [expression left, expression right]
  | predicate (.junction _ operands _) => operands.map predicate
  | predicate (.negation operand _) => [predicate operand]
  | predicate (.nullCheck subject _ _) => [expression subject]
  | predicate (.group inner _) => [predicate inner]
  | expression (.literal _ _) => []
  | expression (.path target _) => [path target]
  | expression (.call _ arguments _) => arguments.map expression
  | name _ | path _ => []

/-- Whether a text is one that a part may be read from.  Only of names, paths and literals is there
something to say. -/
def IsReadFrom : Node → List Char → Prop
  | name identifier, text =>
      text = identifier.name.toList ∨ text = backquote :: identifier.name.toList ++ [backquote]
  | path target, text => text = target.display.toList
  | expression (.literal value _), text =>
      value.token.Spelled text ∧ Literal.read? text = some value
  | _, _ => True

/-- Whether a part is read from some characters that start at a position, and its parts stand there
one after the other. -/
inductive StandsAt : Position → List Char → Node → Prop where
  | intro {position : Position} {text : List Char} {node : Node} :
      node.span = .between position (position.advanceAll text) → node.IsReadFrom text →
      InOrder StandsAt position text node.children → StandsAt position text node

end Node

namespace Grammar

/-! ## Fragments -/

namespace Fragment

/-- The part of a statement that a fragment holds, if it holds one. -/
def nodes : Fragment → List Node
  | mark _ | operator _ => []
  | name identifier => [.name identifier]
  | expression inner => [.expression inner]
  | predicate inner => [.predicate inner]
  | statement inner => [.statement inner]

theorem sublist_nodes {α : Type} {view : Fragment → Option α} {node : α → Node}
    (viewed : ∀ fragment inner, view fragment = some inner → fragment.nodes = [node inner])
    (parts : List Fragment) :
    ((parts.filterMap view).map node).Sublist (parts.flatMap nodes) := by
  induction parts with
  | nil => exact .slnil
  | cons part parts ih =>
      rw [List.flatMap_cons]
      cases found : view part with
      | none =>
          rw [List.filterMap_cons_none found]
          exact ih.trans (List.sublist_append_right _ _)
      | some inner =>
          rw [List.filterMap_cons_some found, List.map_cons, viewed part inner found]
          exact ih.cons_cons _

theorem nodes_of_predicate? (fragment : Fragment) (inner : Predicate)
    (viewed : fragment.predicate? = some inner) : fragment.nodes = [.predicate inner] := by
  cases fragment <;> cases viewed
  rfl

theorem nodes_of_expression? (fragment : Fragment) (inner : Expression)
    (viewed : fragment.expression? = some inner) : fragment.nodes = [.expression inner] := by
  cases fragment <;> cases viewed
  rfl

/-- A literal stands where a spelling of it is. -/
theorem standsAt_literal {value : Literal} {position : Position} {text : List Char}
    (spelled : value.token.Spelled text) :
    Node.StandsAt position text
      (.expression (.literal value (.between position (position.advanceAll text)))) :=
  .intro rfl ⟨spelled, Literal.read?_of_spelled spelled⟩ .none

/-- What a token contributes stands in its characters. -/
theorem inOrder_of_ofToken {rule : Rule} {pattern : Pattern} (isToken : rule.body = .token pattern)
    {lexeme rest : List Char} (matched : pattern.after? (lexeme ++ rest) = some rest)
    {position : Position} {fragment : Fragment}
    (made : ofToken rule (.between position (position.advanceAll lexeme)) lexeme = .ok fragment) :
    InOrder Node.StandsAt position lexeme fragment.nodes := by
  unfold ofToken at made
  split at made
  case h_1 =>
    cases isToken
    rcases Pattern.exists_of_ident_after? matched with ⟨name, plain, cut⟩
    cases List.append_cancel_right cut
    cases made
    refine inOrder_whole (.intro rfl (Or.inl ?_) .none)
    rw [Identifier.ofWritten, Identifier.unquote_of_isShaped plain.1, String.toList_ofList]
  case h_2 =>
    cases isToken
    rcases Pattern.exists_of_quotedIdent_after? matched with ⟨name, shaped, cut⟩
    cases List.append_cancel_right cut
    cases made
    refine inOrder_whole (.intro rfl (Or.inr ?_) .none)
    rw [Identifier.ofWritten, Identifier.unquote_quoted, String.toList_ofList]
  case h_3 =>
    cases isToken
    rcases Pattern.exists_of_dottedIdent_after? matched with ⟨first, others, plain, cut⟩
    cases List.append_cancel_right cut
    cases made
    have path := AttributePath.ofText_intercalate (List.cons_ne_nil first others) plain
    refine inOrder_whole (.intro rfl trivial (inOrder_whole (.intro rfl ?_ .none)))
    rw [path]
    rfl
  case h_4 =>
    cases isToken
    rcases Pattern.exists_of_litString_after? matched with ⟨quote, content, known, cut⟩
    cases List.append_cancel_right cut
    cases made
    refine inOrder_whole (standsAt_literal ?_)
    rw [Literal.ofQuoted_quoteText known]
    exact ⟨quote, known, by rw [String.toList_ofList]⟩
  case h_5 =>
    cases isToken
    rcases Pattern.exists_of_litNumber_after? matched with ⟨numeral, formed, cut⟩
    cases List.append_cancel_right cut
    split at made
    next value converts =>
      cases made
      refine inOrder_whole (standsAt_literal ?_)
      rw [Literal.token_of_ofNumeral converts]
      exact ⟨formed, converts⟩
    next => cases made
  case h_6 =>
    split at made
    next =>
      cases made
      exact .none
    next => cases made
  case h_7 =>
    cases made
    exact .none

section Phrases

variable {position : Position} {text : List Char} {parts : List Fragment} {fragment : Fragment}
  (inner : InOrder Node.StandsAt position text (parts.flatMap nodes))

include inner

theorem inOrder_junction (connective : Connective) :
    InOrder Node.StandsAt position text
      (junction connective (.between position (position.advanceAll text)) parts).nodes := by
  have operands := inner.sublist (sublist_nodes nodes_of_predicate? parts)
  unfold junction
  split
  next operand single =>
    rw [single] at operands
    exact operands
  next => exact inOrder_whole (.intro rfl trivial operands)

/-- The name of a function is not a part of its call. -/
theorem inOrder_call {function : Identifier} {arguments : List Fragment}
    (shape : parts = name function :: arguments) :
    InOrder Node.StandsAt position text
      (expression (.call function.name (arguments.filterMap expression?)
        (.between position (position.advanceAll text)))).nodes := by
  subst shape
  have isKept := (sublist_nodes nodes_of_expression? arguments).trans
    (List.sublist_append_right (name function).nodes _)
  exact inOrder_whole (.intro rfl trivial (inner.sublist isKept))

theorem inOrder_statement
    (yields : (Phrase.sequence .startOfInput
      [.rule .kwFrom, .rule .name, .optional (.rule .name), .optional (.rule .whereClause),
        .rule .endOfInput]).Yields parts)
    (made : ofPhrase .statement (.between position (position.advanceAll text)) parts =
      .ok fragment) :
    InOrder Node.StandsAt position text fragment.nodes := by
  rcases yields with ⟨_, _, rfl, yields, rfl⟩
  rcases yields with ⟨_, _, rfl, yields, rfl⟩
  rcases yields with ⟨_, _, ⟨entity, rfl⟩, yields, rfl⟩
  rcases yields with ⟨_, _, second, yields, rfl⟩
  rcases yields with ⟨_, _, clause, rfl, rfl⟩
  rcases second with ⟨aliasName, rfl⟩ | rfl <;>
    rcases clause with ⟨condition, rfl, _⟩ | rfl <;>
    cases made <;>
    exact inOrder_whole (.intro rfl trivial inner)

/-- What a phrase contributes stands in the text of the phrase, with what its parts contribute
in it. -/
theorem inOrder_of_ofPhrase {rule : Rule} {phrase : Phrase} (isPhrase : rule.body = .phrase phrase)
    (yields : phrase.Yields parts)
    (keyword : rule = .litBoolean ∨ rule = .literal → ∀ target word, parts = [mark target] →
      target.word? = some word → text.map Char.toLower = word.toList)
    (made : ofPhrase rule (.between position (position.advanceAll text)) parts = .ok fragment) :
    InOrder Node.StandsAt position text fragment.nodes := by
  by_cases isStatement : rule = .statement
  · subst isStatement
    cases isPhrase
    exact inOrder_statement inner yields made
  unfold ofPhrase at made
  split at made
  case h_1 | h_2 =>
    cases made
    exact inOrder_whole (standsAt_literal (keyword (Or.inl rfl) _ _ rfl rfl))
  case h_3 =>
    cases made
    exact inOrder_whole (standsAt_literal (keyword (Or.inr rfl) _ _ rfl rfl))
  -- A phrase that passes its only part on leaves the place of that part as it is.
  case h_4 | h_6 | h_11 | h_13 | h_16 | h_17 =>
    cases made
    exact inner
  case h_5 =>
    cases made
    exact inOrder_call inner rfl
  case h_7 | h_8 | h_9 | h_10 | h_12 =>
    cases made
    exact inOrder_whole (.intro rfl trivial inner)
  case h_14 | h_15 =>
    cases made
    exact inOrder_junction inner _
  case h_18 => exact absurd rfl isStatement
  case h_19 => cases made

end Phrases

end Fragment

/-! ## Readings -/

/-- A reading that passes over text in which whatever it contributes stands. -/
def PlacedReading : Reading := fun cursor next trees =>
  ∃ taken, cursor.Passes taken next ∧ ∀ parts, Tree.fragments trees = .ok parts →
    InOrder Node.StandsAt cursor.position taken (parts.flatMap Fragment.nodes)

theorem isClosed_placedReading : PlacedReading.IsClosed where
  nothing cursor := by
    refine ⟨[], cursor.passes_nil, ?_⟩
    rintro _ ⟨⟩
    exact .none
  layout cursor := by
    rcases cursor.exists_passes_skip with ⟨layout, passes⟩
    refine ⟨layout, passes, ?_⟩
    rintro _ ⟨⟩
    exact .none
  append := by
    rintro cursor middle last first second ⟨taken, passes, placed⟩ ⟨more, morePasses, morePlaced⟩
    rw [passes.position] at morePlaced
    refine ⟨taken ++ more, passes.append morePasses, ?_⟩
    intro parts built
    rcases Tree.fragments_append_eq_ok_iff.mp built with
      ⟨before, after, firstBuilt, secondBuilt, rfl⟩
    rw [List.flatMap_append]
    exact (placed before firstBuilt).append (morePlaced after secondBuilt)

namespace Rule

/-- A reading of a rule whose contribution is known and stands in the text that was read.  The text
of a keyword is its word. -/
structure PlacesReading (rule : Rule) (cursor next : Cursor) (trees : List Tree) : Prop where
  yields : rule.YieldsReading cursor next trees
  placed : PlacedReading cursor next trees
  spelled : ∀ word, rule.word? = some word →
    ∃ taken, cursor.Passes taken next ∧ taken.map Char.toLower = word.toList

theorem placesReading_token {rule : Rule} {pattern : Pattern} (isToken : rule.body = .token pattern)
    {cursor : Cursor} {rest : List Char} (matched : pattern.after? cursor.rest = some rest) :
    rule.PlacesReading cursor (cursor.moveTo rest)
      (rule.reveal [.token rule (.between cursor.position (cursor.moveTo rest).position)
        (cursor.lexeme rest)]) := by
  rcases pattern.isSuffix_of_after? _ _ matched with ⟨lexeme, cut⟩
  rcases Cursor.passes_moveTo cut.symm with ⟨passes, isLexeme⟩
  refine ⟨fun _ => yields_of_ofToken isToken, ⟨lexeme, passes, ?_⟩, ?_⟩
  · rw [isLexeme, passes.position]
    rw [← cut] at matched
    intro parts built
    unfold reveal at built
    split at built
    next =>
      cases built
      exact .none
    next =>
      rcases Tree.exists_of_fragments_singleton built with ⟨fragment, made, rfl⟩
      rw [Tree.fragment] at made
      rw [List.flatMap_singleton]
      exact Fragment.inOrder_of_ofToken isToken matched made
  · intro word isWord
    rw [(body_of_word? isWord).1] at isToken
    cases isToken
    rcases Pattern.exists_of_keyword_after? matched with ⟨written, wordCut, folded⟩
    cases List.append_cancel_right (cut.trans wordCut)
    exact ⟨lexeme, passes, folded⟩

/-- Where a literal is nothing but a keyword, the word is all that was read. -/
theorem exists_spelled_of_mark {rule : Rule} {phrase : Phrase}
    (isPhrase : rule.body = .phrase phrase) (isLiteral : rule = .litBoolean ∨ rule = .literal)
    {cursor next : Cursor} {trees : List Tree}
    (matched : phrase.Matches PlacesReading cursor next trees) {target : Rule}
    (built : Tree.fragments trees = .ok [.mark target]) {word : String}
    (isWord : target.word? = some word) :
    ∃ taken, cursor.Passes taken next ∧ taken.map Char.toLower = word.toList := by
  rcases isLiteral with rfl | rfl
  · cases isPhrase
    rcases matched with isTrue | isFalse
    · cases isTrue.yields _ built
      exact isTrue.spelled word isWord
    · cases isFalse.yields _ built
      exact isFalse.spelled word isWord
  · cases isPhrase
    rcases matched with string | number | boolean | null
    · rcases string.yields _ built with ⟨_, mixed⟩
      cases mixed
    · rcases number.yields _ built with ⟨_, mixed⟩
      cases mixed
    · rcases boolean.yields _ built with ⟨_, mixed⟩
      cases mixed
    · cases null.yields _ built
      exact null.spelled word isWord

theorem placesReading_phrase {rule : Rule} {phrase : Phrase} (isPhrase : rule.body = .phrase phrase)
    {cursor next : Cursor} {trees : List Tree}
    (matched : phrase.Matches PlacesReading cursor next trees) :
    rule.PlacesReading cursor next
      (rule.reveal [.phrase rule (.between cursor.position next.position) trees]) := by
  have yields : ∀ parts, Tree.fragments trees = .ok parts → phrase.Yields parts :=
    fun _ => phrase.yields_of_matches (fun _ _ _ _ read => read.yields) matched
  rcases phrase.of_matches isClosed_placedReading (fun _ _ _ _ read => read.placed) matched with
    ⟨taken, passes, placed⟩
  refine ⟨fun _ => yields_of_parts isPhrase yields, ⟨taken, passes, ?_⟩, ?_⟩
  · intro parts built
    unfold reveal at built
    split at built
    next => exact placed parts (by simpa [Tree.children] using built)
    next =>
      rcases Tree.exists_of_fragments_singleton built with ⟨fragment, made, rfl⟩
      rw [Tree.fragment, passes.position] at made
      rw [List.flatMap_singleton]
      split at made
      next inner innerBuilt =>
        refine Fragment.inOrder_of_ofPhrase (placed inner innerBuilt) isPhrase
          (yields inner innerBuilt) ?_ made
        -- Both readings of the keyword passed over the same text.
        rintro isLiteral target word rfl isWord
        rcases exists_spelled_of_mark isPhrase isLiteral matched innerBuilt isWord with
          ⟨written, writtenPasses, folded⟩
        cases List.append_cancel_right (passes.rest.symm.trans writtenPasses.rest)
        exact folded
      next => cases made
  · intro word isWord
    rw [(body_of_word? isWord).1] at isPhrase
    cases isPhrase

theorem placesReading_of_read (depth : Nat) (rule : Rule) :
    Phrase.Sound (read depth rule) rule.PlacesReading := by
  apply read_induction
  · intro rule pattern cursor rest isToken matched
    exact placesReading_token isToken matched
  · intro rule phrase cursor next trees isPhrase matched
    exact placesReading_phrase isPhrase matched

end Rule

end Grammar

/-! ## Parts of parts -/

namespace Node

/-- Whether a part is found in another, at any depth. -/
def Holds (node part : Node) : Prop :=
  Relation.ReflTransGen (fun parent child => child ∈ parent.children) node part

variable {position : Position} {text : List Char} {node part child : Node} {nodes : List Node}

/-- A part of a part stands in a stretch of its text. -/
theorem StandsAt.exists_child (stands : StandsAt position text node)
    (member : child ∈ node.children) :
    ∃ before inside after, text = before ++ (inside ++ after) ∧
      StandsAt (position.advanceAll before) inside child := by
  cases stands with
  | intro place isReadFrom inner =>
      rcases List.append_of_mem member with ⟨earlier, later, cut⟩
      rw [cut] at inner
      rcases inner.split with ⟨before, inside, after, textCut, childStands, _⟩
      exact ⟨before, inside, after, textCut, childStands⟩

theorem StandsAt.exists_of_holds (stands : StandsAt position text node) (holds : node.Holds part) :
    ∃ before inside after, text = before ++ (inside ++ after) ∧
      StandsAt (position.advanceAll before) inside part := by
  induction holds with
  | refl => exact ⟨[], text, [], by simp, stands⟩
  | tail _ member ih =>
      rcases ih with ⟨before, inside, after, rfl, parentStands⟩
      rcases parentStands.exists_child member with ⟨front, found, back, rfl, childStands⟩
      rw [← Position.advanceAll_append] at childStands
      exact ⟨before ++ front, found, back ++ after, by simp, childStands⟩

theorem StandsAt.span_eq (stands : StandsAt position text node) :
    node.span = .between position (position.advanceAll text) := by
  cases stands with
  | intro place _ _ => exact place

theorem StandsAt.isReadFrom (stands : StandsAt position text node) : node.IsReadFrom text := by
  cases stands with
  | intro _ isReadFrom _ => exact isReadFrom

theorem StandsAt.inOrder (stands : StandsAt position text node) :
    InOrder StandsAt position text node.children := by
  cases stands with
  | intro _ _ inner => exact inner

/-- The place of a part lies inside that of the part it belongs to. -/
theorem StandsAt.contains_child (stands : StandsAt position text node)
    (member : child ∈ node.children) :
    node.span.start ≤ child.span.start ∧ child.span.stop ≤ node.span.stop := by
  rcases stands.exists_child member with ⟨before, inside, after, rfl, childStands⟩
  rw [stands.span_eq, childStands.span_eq]
  simp only [Span.between, Position.offset_advanceAll, String.utf8Len_append]
  omega

theorem offset_le_start_of_inOrder (inOrder : InOrder StandsAt position text nodes)
    (member : node ∈ nodes) : position.offset ≤ node.span.start := by
  rcases List.append_of_mem member with ⟨earlier, later, cut⟩
  rw [cut] at inOrder
  rcases inOrder.split with ⟨before, inside, after, _, stands, _⟩
  rw [stands.span_eq]
  simp only [Span.between, Position.offset_advanceAll]
  omega

/-- Parts that stand one after the other do not overlap. -/
theorem pairwise_of_inOrder (inOrder : InOrder StandsAt position text nodes) :
    nodes.Pairwise fun first second => first.span.stop ≤ second.span.start := by
  induction inOrder with
  | none => exact .nil
  | next stands others ih =>
      refine .cons ?_ ih
      intro second member
      have later := offset_le_start_of_inOrder others member
      rw [stands.span_eq]
      rwa [Position.advanceAll_append] at later

end Node

/-! ## Statements -/

namespace Statement

variable {text : String} {statement : Statement}

/-- A statement that was read from a text stands in it. -/
theorem exists_standsAt_of_parse (parsed : parse text = .ok statement) :
    ∃ before inside after, text.toList = before ++ (inside ++ after) ∧
      Node.StandsAt (Position.start.advanceAll before) inside (.statement statement) := by
  rcases exists_reading_of_parse (fun depth => Grammar.Rule.placesReading_of_read depth _) parsed
    with ⟨next, trees, read, built⟩
  rcases read.placed with ⟨taken, passes, placed⟩
  rcases inOrder_cons_iff.mp (placed _ built) with ⟨before, inside, after, rfl, stands, _⟩
  refine ⟨before, inside, after ++ next.rest, ?_, stands⟩
  rw [show text.toList = _ from passes.rest]
  simp

/-- Every part of a statement that was read from a text has its place there.  What it was read from
can be sliced out of the text, and its parts have places inside its own, in the order of the text
and apart from each other. -/
theorem spans_describe_source (parsed : parse text = .ok statement) {node : Node}
    (isPart : (Node.statement statement).Holds node) :
    node.span.Describes text ∧ node.IsReadFrom (node.span.slice text) ∧
      (∀ child ∈ node.children,
        node.span.start ≤ child.span.start ∧ child.span.stop ≤ node.span.stop) ∧
      node.children.Pairwise fun first second => first.span.stop ≤ second.span.start := by
  rcases exists_standsAt_of_parse parsed with ⟨front, whole, back, textCut, statementStands⟩
  rcases statementStands.exists_of_holds isPart with ⟨before, inside, after, rfl, stands⟩
  rw [← Position.advanceAll_append] at stands
  have cut : text = String.ofList ((front ++ before) ++ (inside ++ (after ++ back))) := by
    rw [← String.ofList_toList (s := text), textCut]
    simp
  have place : node.span = .ofCut (front ++ before) inside := by
    rw [stands.span_eq, ← Position.advanceAll_append, Span.ofCut]
  refine ⟨?_, ?_, fun child => stands.contains_child, Node.pairwise_of_inOrder stands.inOrder⟩
  · rw [place, cut]
    exact Span.describes_ofCut _ _ _
  · rw [place, cut, Span.slice_ofCut]
    exact stands.isReadFrom

/-- Characters of several bytes, two kinds of line ends, and a comment that belongs to the
condition. -/
def umlautsText : String := "--ü\r\nfrom `or` o\nwhere f('é''') = 1 or b is null --"

/-- The string of the text, with its place. -/
def umlautsString : Expression := .literal (.string "é'") ⟨26, 32, 3, 9⟩

def umlautsCall : Expression := .call "f" [umlautsString] ⟨24, 33, 3, 7⟩

def umlautsComparison : Predicate :=
  .comparison umlautsCall .equal (.literal (.integer 1) ⟨36, 37, 3, 18⟩) ⟨24, 37, 3, 7⟩

def umlautsCondition : Predicate :=
  .junction .or [umlautsComparison,
    .nullCheck (.path ⟨["b"], ⟨41, 42, 3, 23⟩⟩ ⟨41, 42, 3, 23⟩) false ⟨41, 50, 3, 23⟩]
    ⟨24, 53, 3, 7⟩

/-- The statement of the text, with its places. -/
def umlauts : Statement where
  entity := ⟨"or", ⟨11, 15, 2, 6⟩⟩
  aliasName := some ⟨"o", ⟨16, 17, 2, 11⟩⟩
  condition := some umlautsCondition
  span := ⟨0, 53, 1, 1⟩

theorem parse_umlautsText : parse umlautsText = .ok umlauts := by decide +kernel

/-- A string behind characters of several bytes is sliced out of the third line, and the condition
reaches to the end of the text without its parts touching each other. -/
theorem spans_describe_umlauts :
    parse umlautsText = .ok umlauts ∧
    (Node.statement umlauts).Holds (.expression umlautsString) ∧
    (⟨26, 32, 3, 9⟩ : Span).Describes umlautsText ∧
    Literal.read? ((⟨26, 32, 3, 9⟩ : Span).slice umlautsText) = some (.string "é'") ∧
    (Node.statement umlauts).Holds (.predicate umlautsCondition) ∧
    (⟨24, 53, 3, 7⟩ : Span).Describes umlautsText ∧
    (Node.predicate umlautsCondition).children.Pairwise
      fun first second => first.span.stop ≤ second.span.start := by
  have isCondition : (Node.statement umlauts).Holds (.predicate umlautsCondition) :=
    .single (by simp [Node.children, umlauts])
  have isComparison : (Node.statement umlauts).Holds (.predicate umlautsComparison) :=
    isCondition.tail (by simp [Node.children, umlautsCondition])
  have isCall : (Node.statement umlauts).Holds (.expression umlautsCall) :=
    isComparison.tail (by simp [Node.children, umlautsComparison])
  have isString : (Node.statement umlauts).Holds (.expression umlautsString) :=
    isCall.tail (by simp [Node.children, umlautsCall])
  rcases spans_describe_source parse_umlautsText isString with ⟨place, isReadFrom, _⟩
  rcases spans_describe_source parse_umlautsText isCondition with ⟨conditionPlace, _, _, apart⟩
  exact ⟨parse_umlautsText, isString, place, isReadFrom.2, isCondition, conditionPlace, apart⟩

end Statement

end DocumentQuery
