import DocumentQuery.Proofs.Grammar.Derivation
import DocumentQuery.Proofs.Grammar.Lexical

/-!
# Where the leaves of a tree stand

A reading passes over a stretch of the text and stops behind it.  The leaves of the nodes that
it builds stand in that stretch one after the other, each with the span of the characters that
its rule has read there.
-/

namespace DocumentQuery

/-! ## Passing over text -/

namespace Cursor

/-- The cursor behind some characters of the text. -/
structure Passes (cursor : Cursor) (taken : List Char) (next : Cursor) : Prop where
  rest : cursor.rest = taken ++ next.rest
  position : next.position = cursor.position.advanceAll taken

theorem passes_nil (cursor : Cursor) : cursor.Passes [] cursor := ⟨rfl, rfl⟩

theorem Passes.append {cursor middle last : Cursor} {taken more : List Char}
    (first : cursor.Passes taken middle) (second : middle.Passes more last) :
    cursor.Passes (taken ++ more) last := by
  constructor
  · rw [first.rest, second.rest, List.append_assoc]
  · rw [second.position, first.position, Position.advanceAll_append]

theorem exists_passes_skipBlanks (inComment : Bool) (position : Position) (text : List Char) :
    ∃ layout, Passes ⟨position, text⟩ layout (skipBlanks inComment position text) := by
  induction text generalizing inComment position with
  | nil => exact ⟨[], rfl, rfl⟩
  | cons c text ih =>
      have further : ∀ flag, ∃ layout,
          Passes ⟨position, c :: text⟩ layout (skipBlanks flag (position.advance c) text) := by
        intro flag
        rcases ih flag (position.advance c) with ⟨layout, passes⟩
        exact ⟨c :: layout, congrArg (c :: ·) passes.rest, passes.position⟩
      rw [skipBlanks]
      split
      next => exact further _
      next =>
        split
        next => exact further _
        next =>
          split
          next => exact further _
          next => exact ⟨[], passes_nil _⟩

theorem exists_passes_skip (cursor : Cursor) : ∃ layout, cursor.Passes layout cursor.skip :=
  exists_passes_skipBlanks false cursor.position cursor.rest

theorem passes_moveTo {cursor : Cursor} {lexeme rest : List Char}
    (cut : cursor.rest = lexeme ++ rest) :
    cursor.Passes lexeme (cursor.moveTo rest) ∧ cursor.lexeme rest = lexeme := by
  obtain ⟨position, text⟩ := cursor
  cases cut
  exact ⟨⟨by simp, by simp⟩, by simp⟩

end Cursor

/-! ## Items in a text -/

/-- Items stand in a text one after the other, each in characters that are right for it.  The
position is that of the first character of the text. -/
inductive InOrder {α : Type} (fits : Position → List Char → α → Prop) :
    Position → List Char → List α → Prop where
  | none {position : Position} {text : List Char} : InOrder fits position text []
  | next {position : Position} {before inside after : List Char} {item : α} {items : List α} :
      fits (position.advanceAll before) inside item →
      InOrder fits (position.advanceAll (before ++ inside)) after items →
      InOrder fits position (before ++ (inside ++ after)) (item :: items)

section InOrder

variable {α : Type} {fits : Position → List Char → α → Prop} {position : Position}
  {text : List Char} {item : α} {items : List α}

theorem inOrder_cons_iff :
    InOrder fits position text (item :: items) ↔
      ∃ before inside after, text = before ++ (inside ++ after) ∧
        fits (position.advanceAll before) inside item ∧
        InOrder fits (position.advanceAll (before ++ inside)) after items := by
  constructor
  · intro inOrder
    cases inOrder with
    | next fit others => exact ⟨_, _, _, rfl, fit, others⟩
  · rintro ⟨before, inside, after, rfl, fit, others⟩
    exact .next fit others

/-- An item may take up all of a text. -/
theorem inOrder_whole (fit : fits position text item) : InOrder fits position text [item] :=
  inOrder_cons_iff.mpr ⟨[], text, [], by simp, fit, .none⟩

namespace InOrder

/-- Items stand also in a text that starts further left. -/
theorem prepend (layout : List Char)
    (inOrder : InOrder fits (position.advanceAll layout) text items) :
    InOrder fits position (layout ++ text) items := by
  cases items with
  | nil => exact .none
  | cons item items =>
      rcases inOrder_cons_iff.mp inOrder with ⟨before, inside, after, rfl, fit, others⟩
      rw [← Position.advanceAll_append] at fit
      rw [← Position.advanceAll_append, ← List.append_assoc] at others
      exact inOrder_cons_iff.mpr ⟨layout ++ before, inside, after, by simp, fit, others⟩

theorem append {more : List Char} {others : List α} (first : InOrder fits position text items)
    (second : InOrder fits (position.advanceAll text) more others) :
    InOrder fits position (text ++ more) (items ++ others) := by
  induction items generalizing position text with
  | nil => exact second.prepend text
  | cons item items ih =>
      rcases inOrder_cons_iff.mp first with ⟨before, inside, after, rfl, fit, rest⟩
      rw [← List.append_assoc, Position.advanceAll_append] at second
      exact inOrder_cons_iff.mpr ⟨before, inside, after ++ more, by simp, fit, ih rest second⟩

/-- Items that stand inside of items in order do so as well. -/
theorem flatMap {β : Type} {fitsInside : Position → List Char → β → Prop} {inside : α → List β}
    (inOrder : InOrder fits position text items)
    (each : ∀ item ∈ items, ∀ {position text}, fits position text item →
      InOrder fitsInside position text (inside item)) :
    InOrder fitsInside position text (items.flatMap inside) := by
  induction inOrder with
  | none => exact .none
  | next fit _ ih =>
      rcases List.forall_mem_cons.mp each with ⟨first, others⟩
      have later := ih others
      rw [Position.advanceAll_append] at later
      rw [List.flatMap_cons]
      exact ((first fit).append later).prepend _

/-- Items that are left out leave the others where they are. -/
theorem sublist {kept : List α} (inOrder : InOrder fits position text items)
    (isKept : kept.Sublist items) : InOrder fits position text kept := by
  induction isKept generalizing position text with
  | slnil => exact .none
  | cons item _ ih =>
      rcases inOrder_cons_iff.mp inOrder with ⟨before, inside, after, rfl, _, others⟩
      rw [← List.append_assoc]
      exact (ih others).prepend (before ++ inside)
  | cons_cons item _ ih =>
      rcases inOrder_cons_iff.mp inOrder with ⟨before, inside, after, rfl, fit, others⟩
      exact inOrder_cons_iff.mpr ⟨before, inside, after, rfl, fit, ih others⟩

/-- The items to the left of one stand in the text before it. -/
theorem split {earlier later : List α}
    (inOrder : InOrder fits position text (earlier ++ item :: later)) :
    ∃ before inside after, text = before ++ (inside ++ after) ∧
      fits (position.advanceAll before) inside item ∧ InOrder fits position before earlier := by
  induction earlier generalizing position text with
  | nil =>
      rcases inOrder_cons_iff.mp inOrder with ⟨before, inside, after, cut, fit, _⟩
      exact ⟨before, inside, after, cut, fit, .none⟩
  | cons first earlier ih =>
      rcases inOrder_cons_iff.mp inOrder with ⟨before, inside, after, rfl, firstFit, others⟩
      rcases ih others with ⟨between, found, rest, rfl, fit, left⟩
      rw [← Position.advanceAll_append, List.append_assoc] at fit
      exact ⟨before ++ (inside ++ between), found, rest, by simp, fit, .next firstFit left⟩

end InOrder

end InOrder

namespace Grammar

namespace Pattern

theorem repeatAfter_isSuffix {step : List Char → Option (List Char)}
    (shortens : ∀ text rest, step text = some rest → rest <:+ text) (bound : Nat)
    (text : List Char) : repeatAfter step bound text <:+ text := by
  induction bound generalizing text with
  | zero => exact List.suffix_rfl
  | succ bound ih =>
      rw [repeatAfter]
      split
      next => exact List.suffix_rfl
      next rest matched => exact (ih rest).trans (shortens text rest matched)

theorem afterChars_isSuffix {fold : Char → Char} {chars text rest : List Char}
    (matched : afterChars fold chars text = some rest) : rest <:+ text := by
  rcases afterChars_eq_some_iff.mp matched with ⟨lexeme, cut, _⟩
  exact ⟨lexeme, cut.symm⟩

/-- What remains after a match is the end of the text. -/
theorem isSuffix_of_after? (pattern : Pattern) (text rest : List Char)
    (matched : pattern.after? text = some rest) : rest <:+ text := by
  induction pattern generalizing text rest with
  | one accepts =>
      cases text with
      | nil => cases matched
      | cons c text =>
          rw [after?] at matched
          split at matched
          next =>
            cases matched
            exact List.suffix_cons c rest
          next => cases matched
  | exactly chars => exact afterChars_isSuffix matched
  | word chars => exact afterChars_isSuffix matched
  | seq first second firstIH secondIH =>
      rcases seq_after?_eq_some_iff.mp matched with ⟨between, firstMatched, secondMatched⟩
      exact (secondIH _ _ secondMatched).trans (firstIH _ _ firstMatched)
  | either first second firstIH secondIH =>
      rw [after?] at matched
      split at matched
      next => exact secondIH _ _ matched
      next found firstMatched =>
        cases matched
        exact firstIH _ _ firstMatched
  | optional inner ih =>
      rw [after?] at matched
      split at matched
      next =>
        cases matched
        exact List.suffix_rfl
      next found innerMatched =>
        cases matched
        exact ih _ _ innerMatched
  | many inner ih =>
      cases matched
      exact repeatAfter_isSuffix ih _ text
  | absent inner ih =>
      rw [after?] at matched
      split at matched
      next =>
        cases matched
        exact List.suffix_rfl
      next => cases matched

end Pattern

/-! ## Leaves -/

/-- A token of a tree. -/
structure Leaf where
  rule : Rule
  span : Span
  lexeme : List Char
  deriving DecidableEq

mutual

/-- The tokens of a tree, from left to right. -/
def Tree.leaves : Tree → List Leaf
  | .token rule span lexeme => [⟨rule, span, lexeme⟩]
  | .phrase _ _ children => Tree.leavesOfEach children

/-- The tokens of several trees, from left to right. -/
def Tree.leavesOfEach : List Tree → List Leaf
  | [] => []
  | tree :: trees => tree.leaves ++ Tree.leavesOfEach trees

end

theorem Tree.leavesOfEach_append (first second : List Tree) :
    Tree.leavesOfEach (first ++ second) =
      Tree.leavesOfEach first ++ Tree.leavesOfEach second := by
  induction first with
  | nil => rfl
  | cons tree trees ih => rw [List.cons_append, leavesOfEach, leavesOfEach, ih, List.append_assoc]

/-- A phrase has the leaves of its parts, with or without a node of its own. -/
theorem Rule.leavesOfEach_reveal (rule : Rule) (span : Span) (children : List Tree) :
    Tree.leavesOfEach (rule.reveal [.phrase rule span children]) =
      Tree.leavesOfEach children := by
  unfold reveal
  split
  next => simp [Tree.children]
  next => simp [Tree.leavesOfEach, Tree.leaves]

namespace Leaf

/-- Whether the rule of a token reads its characters, in some text. -/
def IsRead (leaf : Leaf) : Prop :=
  ∃ pattern rest, leaf.rule.body = .token pattern ∧
    pattern.after? (leaf.lexeme ++ rest) = some rest

/-- Whether a token is read from some characters that start at a position. -/
def StandsAt (position : Position) (text : List Char) (leaf : Leaf) : Prop :=
  leaf.lexeme = text ∧ leaf.span = .between position (position.advanceAll text) ∧ leaf.IsRead

/-- Whether tokens stand in a text one after the other.  The position is that of the first
character of the text. -/
def StandIn (position : Position) (text : List Char) (leaves : List Leaf) : Prop :=
  InOrder StandsAt position text leaves

end Leaf

/-! ## Readings -/

/-- A reading that passes over text in which the leaves of its nodes stand. -/
def LocatedReading : Reading := fun cursor next trees =>
  ∃ taken, cursor.Passes taken next ∧ Leaf.StandIn cursor.position taken (Tree.leavesOfEach trees)

theorem isClosed_locatedReading : LocatedReading.IsClosed where
  nothing cursor := ⟨[], cursor.passes_nil, .none⟩
  layout cursor := by
    rcases cursor.exists_passes_skip with ⟨layout, passes⟩
    exact ⟨layout, passes, .none⟩
  append := by
    rintro cursor middle last first second ⟨taken, passes, stand⟩ ⟨more, morePasses, moreStand⟩
    rw [passes.position] at moreStand
    refine ⟨taken ++ more, passes.append morePasses, ?_⟩
    rw [Tree.leavesOfEach_append]
    exact stand.append moreStand

/-- Whatever is read passes over text in which its tokens stand. -/
theorem Rule.located_of_read (depth : Nat) (rule : Rule) :
    Phrase.Sound (read depth rule) LocatedReading := by
  apply @read_induction fun _ => LocatedReading
  · intro rule pattern cursor rest isToken matched
    rcases pattern.isSuffix_of_after? _ _ matched with ⟨lexeme, cut⟩
    rcases Cursor.passes_moveTo cut.symm with ⟨passes, taken⟩
    refine ⟨lexeme, passes, ?_⟩
    rw [taken, passes.position]
    unfold reveal
    split
    next => exact .none
    next =>
      rw [← cut] at matched
      exact inOrder_whole ⟨rfl, rfl, pattern, rest, isToken, matched⟩
  · intro rule phrase cursor next trees isPhrase matched
    rcases phrase.of_matches isClosed_locatedReading (fun _ _ _ _ read => read) matched with
      ⟨taken, passes, stand⟩
    rw [← rule.leavesOfEach_reveal (.between cursor.position next.position)] at stand
    exact ⟨taken, passes, stand⟩

end Grammar

end DocumentQuery
