import DocumentQuery.Proofs.Statement.Parts
import DocumentQuery.Proofs.Statement.Places
import DocumentQuery.Proofs.Statement.Shape
import DocumentQuery.Statement.Walk

/-!
# Walks over the leaves of a statement

The leaves of a statement are the paths and literals of its condition.  Each of them has an address,
which says on the way down from the statement which part to enter, and addresses from left to right
are in the order of a dictionary.  A walk calls its visitor at every leaf in this order.  In a
statement that was read from a text, it is also the order in which the leaves stand there.
-/

namespace DocumentQuery

/-- Whether an expression is a path or a literal. -/
def Expression.isLeaf : Expression → Bool
  | literal _ _ | path _ _ => true
  | call _ _ _ => false

namespace Node

/-! ## Addresses -/

/-- The part at an address, which counts the parts to the left at each step down. -/
def at? : Node → List Nat → Option Node
  | node, [] => some node
  | node, index :: address => node.children[index]?.bind fun child => child.at? address

/-- Whether a leaf stands at an address in a part. -/
def HasLeafAt (node : Node) (address : List Nat) (leaf : Expression) : Prop :=
  node.at? address = some (.expression leaf) ∧ leaf.isLeaf = true

/-- Whether visits to a part go to every leaf of it, each at its address, from left to right. -/
structure Enumerates (node : Node) (visits : List (List Nat × Expression)) : Prop where
  increasing : visits.Pairwise fun first second => List.Lex (· < ·) first.1 second.1
  complete : ∀ address leaf, (address, leaf) ∈ visits ↔ node.HasLeafAt address leaf

/-! ## Leaves -/

/-- Whether a part is a leaf. -/
def isLeaf : Node → Bool
  | expression inner => inner.isLeaf
  | statement _ | name _ | predicate _ | path _ => false

/-- Induction over the parts of a statement down to the leaves. -/
@[elab_as_elim]
theorem inductionOn {motive : Node → Prop} (node : Node)
    (leaf : ∀ leaf : Expression, leaf.isLeaf = true → motive (.expression leaf))
    (inner : ∀ node : Node, node.isLeaf = false → (∀ child ∈ node.children, motive child) →
      motive node) : motive node := by
  have ofName (identifier : Identifier) : motive (.name identifier) :=
    inner _ rfl (by simp [children])
  have ofExpression (expression : Expression) : motive (.expression expression) := by
    induction expression using Expression.inductionOn with
    | literal | path => exact leaf _ rfl
    | call name arguments span ih => exact inner _ rfl (by simpa [children] using ih)
  have ofPredicate (predicate : Predicate) : motive (.predicate predicate) := by
    induction predicate using Predicate.inductionOn with
    | comparison left operator right span =>
        exact inner _ rfl (by simpa [children] using ⟨ofExpression left, ofExpression right⟩)
    | nullCheck subject negated span =>
        exact inner _ rfl (by simpa [children] using ofExpression subject)
    | junction _ _ _ ih | negation _ _ ih | group _ _ ih =>
        exact inner _ rfl (by simpa [children] using ih)
  cases node with
  | statement statement =>
      apply inner _ rfl
      intro child member
      simp only [children, List.mem_cons, List.mem_append, Option.mem_toList,
        Option.map_eq_some_iff] at member
      rcases member with rfl | ⟨aliasName, _, rfl⟩ | ⟨condition, _, rfl⟩
      · exact ofName _
      · exact ofName _
      · exact ofPredicate _
  | name identifier => exact ofName identifier
  | predicate predicate => exact ofPredicate predicate
  | expression expression => exact ofExpression expression
  | path target => exact inner _ rfl (by simp [children])

/-- The leaves of a part, from left to right. -/
def leaves : Node → List Expression
  | expression inner => inner.parts.filter Expression.isLeaf
  | predicate inner => inner.expressions.filter Expression.isLeaf
  | statement inner =>
      inner.condition.elim [] fun condition => condition.expressions.filter Expression.isLeaf
  | name _ | path _ => []

theorem leaves_of_isLeaf {leaf : Expression} (isLeaf : leaf.isLeaf = true) :
    (expression leaf).leaves = [leaf] := by
  cases leaf with
  | literal | path => rfl
  | call => cases isLeaf

/-- The leaves of a part that is none itself are those of its parts. -/
theorem leaves_eq_flatMap_children {node : Node} (inner : node.isLeaf = false) :
    node.leaves = node.children.flatMap leaves := by
  cases node with
  | statement whole =>
      rcases whole with ⟨entity, aliasName, condition, span⟩
      cases aliasName <;> cases condition <;> simp [leaves, children]
  | name | path => rfl
  | expression expression =>
      cases expression with
      | literal | path => cases inner
      | call name arguments span =>
          simp [leaves, children, Expression.parts, Expression.isLeaf, List.filter_flatMap,
            List.flatMap_map]
  | predicate predicate =>
      cases predicate with
      | comparison | negation | nullCheck | group => simp [leaves, children]
      | junction connective operands span =>
          simp [leaves, children, List.filter_flatMap, List.flatMap_map]

/-! ## Visits -/

/-- The visits to the parts of a part, from visits to each of them. -/
def visitsToChildren (visits : Node → List (List Nat × Expression)) (children : List Node) :
    List (List Nat × Expression) :=
  children.zipIdx.flatMap fun (child, index) =>
    (visits child).map fun (address, leaf) => (index :: address, leaf)

section Children

variable {visits : Node → List (List Nat × Expression)} {children : List Node}

theorem mem_visitsToChildren {address : List Nat} {leaf : Expression} :
    (address, leaf) ∈ visitsToChildren visits children ↔
      ∃ index rest child, address = index :: rest ∧ children[index]? = some child ∧
        (rest, leaf) ∈ visits child := by
  simp only [visitsToChildren, List.mem_flatMap, List.mem_map, Prod.exists,
    List.mem_zipIdx_iff_getElem?, Prod.mk.injEq]
  constructor
  · rintro ⟨child, index, isChild, rest, _, visited, rfl, rfl⟩
    exact ⟨index, rest, child, rfl, isChild, visited⟩
  · rintro ⟨index, rest, child, rfl, isChild, visited⟩
    exact ⟨child, index, isChild, rest, leaf, visited, rfl, rfl⟩

theorem map_snd_visitsToChildren :
    (visitsToChildren visits children).map Prod.snd =
      children.flatMap fun child => (visits child).map Prod.snd := by
  have childrenFirst := List.zipIdx_map_fst 0 children
  conv_rhs => rw [← childrenFirst, List.flatMap_map]
  simp only [visitsToChildren, List.map_flatMap, List.map_map]
  rfl

theorem pairwise_visitsToChildren
    (each : ∀ child ∈ children,
      (visits child).Pairwise fun first second => List.Lex (· < ·) first.1 second.1) :
    (visitsToChildren visits children).Pairwise
      fun first second => List.Lex (· < ·) first.1 second.1 := by
  rw [visitsToChildren, List.pairwise_flatMap]
  constructor
  · rintro ⟨child, index⟩ member
    rw [List.pairwise_map]
    exact (each child (List.fst_mem_of_mem_zipIdx member)).imp .cons
  · have indices : (children.zipIdx.map Prod.snd).Pairwise (· < ·) := by
      rw [List.zipIdx_map_snd]
      exact List.pairwise_lt_range'
    rw [List.pairwise_map] at indices
    refine indices.imp ?_
    intro first second before
    simp only [List.mem_map]
    rintro _ ⟨_, _, rfl⟩ _ ⟨_, _, rfl⟩
    exact .rel before

end Children

theorem enumerates_leaf {leaf : Expression} (isLeaf : leaf.isLeaf = true) :
    (expression leaf).Enumerates [([], leaf)] := by
  refine ⟨List.pairwise_singleton _ _, ?_⟩
  intro address other
  rw [List.mem_singleton, Prod.mk.injEq, HasLeafAt]
  constructor
  · rintro ⟨rfl, rfl⟩
    exact ⟨rfl, isLeaf⟩
  · rintro ⟨found, _⟩
    cases address with
    | nil =>
        cases found
        exact ⟨rfl, rfl⟩
    | cons index rest =>
        -- Below a leaf there is at most the path that it names, which is no expression.
        cases leaf with
        | literal => simp [at?, children] at found
        | call => cases isLeaf
        | path target span =>
            cases index <;> cases rest <;> simp [at?, children] at found

theorem enumerates_of_children {node : Node} (inner : node.isLeaf = false)
    {visits : Node → List (List Nat × Expression)}
    (each : ∀ child ∈ node.children, child.Enumerates (visits child)) :
    node.Enumerates (visitsToChildren visits node.children) := by
  refine ⟨pairwise_visitsToChildren fun child member => (each child member).increasing, ?_⟩
  intro address leaf
  rw [mem_visitsToChildren]
  constructor
  · rintro ⟨index, rest, child, rfl, isChild, visited⟩
    have member := List.mem_of_getElem? isChild
    rcases ((each child member).complete rest leaf).mp visited with ⟨found, isLeaf⟩
    refine ⟨?_, isLeaf⟩
    rw [at?, isChild]
    exact found
  · rintro ⟨found, isLeaf⟩
    cases address with
    | nil =>
        cases found
        cases isLeaf.symm.trans inner
    | cons index rest =>
        rcases Option.bind_eq_some_iff.mp found with ⟨child, isChild, childFound⟩
        have member := List.mem_of_getElem? isChild
        have visited := ((each child member).complete rest leaf).mpr ⟨childFound, isLeaf⟩
        exact ⟨index, rest, child, rfl, isChild, visited⟩

/-- Every part has visits to all its leaves. -/
theorem exists_enumerates (node : Node) :
    ∃ visits, node.Enumerates visits ∧ visits.map Prod.snd = node.leaves := by
  induction node using inductionOn with
  | leaf leaf isLeaf => exact ⟨_, enumerates_leaf isLeaf, (leaves_of_isLeaf isLeaf).symm⟩
  | inner node inner ih =>
      choose! visits each same using ih
      refine ⟨_, enumerates_of_children inner each, ?_⟩
      rw [map_snd_visitsToChildren, leaves_eq_flatMap_children inner]
      exact List.flatMap_congr same

end Node

/-! ## Walks -/

namespace LeafVisitor

variable {State : Type} (visitor : LeafVisitor State)

/-- Visit a leaf. -/
def visit : Expression → State → State
  | .literal value span, state => visitor.onLiteral value span state
  | .path target span, state => visitor.onPath target span state
  | .call _ _ _, state => state

/-- Visit the leaves of a part. -/
def walkNode : Node → State → State
  | .statement inner, state => visitor.walk inner state
  | .predicate inner, state => visitor.walkPredicate inner state
  | .expression inner, state => visitor.walkExpression inner state
  | .name _, state | .path _, state => state

theorem walkArguments_eq_foldl (arguments : List Expression) (state : State) :
    visitor.walkArguments arguments state =
      arguments.foldl (fun state argument => visitor.walkExpression argument state) state := by
  induction arguments generalizing state with
  | nil => rfl
  | cons argument arguments ih => rw [walkArguments, ih, List.foldl_cons]

theorem walkOperands_eq_foldl (operands : List Predicate) (state : State) :
    visitor.walkOperands operands state =
      operands.foldl (fun state operand => visitor.walkPredicate operand state) state := by
  induction operands generalizing state with
  | nil => rfl
  | cons operand operands ih => rw [walkOperands, ih, List.foldl_cons]

/-- A walk over a part that is no leaf walks over its parts in turn. -/
theorem walkNode_eq_foldl_children {node : Node} (inner : node.isLeaf = false) (state : State) :
    visitor.walkNode node state =
      node.children.foldl (fun state child => visitor.walkNode child state) state := by
  cases node with
  | statement whole =>
      rcases whole with ⟨entity, aliasName, condition, span⟩
      cases aliasName <;> cases condition <;> rfl
  | name | path => rfl
  | expression expression =>
      cases expression with
      | literal | path => cases inner
      | call name arguments span =>
          rw [walkNode, walkExpression, walkArguments_eq_foldl, Node.children, List.foldl_map]
          rfl
  | predicate predicate =>
      cases predicate with
      | comparison | negation | nullCheck | group =>
          simp only [walkNode, walkPredicate, Node.children, List.foldl_cons, List.foldl_nil]
      | junction connective operands span =>
          rw [walkNode, walkPredicate, walkOperands_eq_foldl, Node.children, List.foldl_map]
          rfl

/-- A walk visits the leaves one after the other. -/
theorem walkNode_eq_foldl_leaves (node : Node) (state : State) :
    visitor.walkNode node state =
      node.leaves.foldl (fun state leaf => visitor.visit leaf state) state := by
  induction node using Node.inductionOn generalizing state with
  | leaf leaf isLeaf =>
      rw [Node.leaves_of_isLeaf isLeaf]
      cases leaf with
      | literal | path =>
          simp only [walkNode, walkExpression, List.foldl_cons, List.foldl_nil, visit]
      | call => cases isLeaf
  | inner node inner ih =>
      rw [visitor.walkNode_eq_foldl_children inner, Node.leaves_eq_flatMap_children inner,
        List.foldl_flatMap]
      exact List.foldl_ext _ _ _ fun state child member => ih child member state

end LeafVisitor

/-! ## Leaves in a text -/

namespace Node

variable {position : Position} {text : List Char} {node : Node} {leaf : Expression}

/-- The leaves of a part that stands in a text stand there one after the other. -/
theorem StandsAt.inOrder_leaves (stands : StandsAt position text node) :
    InOrder StandsAt position text (node.leaves.map expression) := by
  induction node using inductionOn generalizing position text with
  | leaf leaf isLeaf =>
      rw [leaves_of_isLeaf isLeaf]
      exact inOrder_whole stands
  | inner node inner ih =>
      rw [leaves_eq_flatMap_children inner, List.map_flatMap]
      exact stands.inOrder.flatMap fun child member _ _ => ih child member

/-- A leaf has a token of its own, so its place is not empty. -/
theorem StandsAt.start_lt_stop (stands : StandsAt position text (.expression leaf))
    (isLeaf : leaf.isLeaf = true) (named : leaf.IsWellNamed) :
    leaf.span.start < leaf.span.stop := by
  have place : leaf.span = .between position (position.advanceAll text) := stands.span_eq
  have filled : ∃ c rest, text = c :: rest := by
    cases leaf with
    | literal value span =>
        rcases stands.isReadFrom with ⟨spelled, _⟩
        rcases Token.exists_cons_of_spelled value.isShaped_token spelled with ⟨c, rest, cut, _⟩
        exact ⟨c, rest, cut⟩
    | path target span =>
        have member : .path target ∈ (expression (.path target span)).children :=
          List.mem_singleton_self _
        rcases stands.exists_child member with ⟨before, inside, after, rfl, pathStands⟩
        have shaped : (Token.path target.segments).IsShaped := named
        rcases Token.exists_cons_of_spelled shaped pathStands.isReadFrom with ⟨c, rest, rfl, _⟩
        exact List.exists_cons_of_ne_nil (by simp)
    | call => cases isLeaf
  rcases filled with ⟨c, rest, rfl⟩
  have wide := Char.utf8Size_pos c
  simp only [place, Span.between, Position.offset_advanceAll, String.utf8Len_cons]
  omega

end Node

namespace Statement

theorem mem_leaves_iff {statement : Statement} {leaf : Expression} :
    leaf ∈ (Node.statement statement).leaves ↔
      ∃ condition, statement.condition = some condition ∧ leaf ∈ condition.expressions ∧
        leaf.isLeaf = true := by
  rw [Node.leaves]
  cases statement.condition <;> simp

/-- The leaves of a statement that was read from a text start one after the other. -/
theorem pairwise_start_of_parse {text : String} {statement : Statement}
    (parsed : parse text = .ok statement) :
    (Node.statement statement).leaves.Pairwise
      fun first second => first.span.start < second.span.start := by
  rcases exists_standsAt_of_parse parsed with ⟨before, inside, after, _, stands⟩
  have inOrder := stands.inOrder_leaves
  have apart := Node.pairwise_of_inOrder inOrder
  rw [List.pairwise_map] at apart
  refine apart.imp_of_mem ?_
  intro first second isLeaf _ ends
  rcases mem_leaves_iff.mp isLeaf with ⟨condition, isCondition, inCondition, firstIsLeaf⟩
  have named := (isWellNamed_of_parse parsed).2.2 condition isCondition first inCondition
  rcases List.append_of_mem (List.mem_map_of_mem isLeaf) with ⟨earlier, later, cut⟩
  rw [cut] at inOrder
  rcases inOrder.split with ⟨_, _, _, _, firstStands, _⟩
  exact (firstStands.start_lt_stop firstIsLeaf named).trans_le ends

/-- A walk visits every leaf of a statement once, from left to right, whatever the visitor does.
Without a condition there is nothing to visit.  In a statement that was read from a text, every leaf
starts behind the start of the one before. -/
theorem walk_visits_every_leaf (statement : Statement) :
    ∃ visits, (Node.statement statement).Enumerates visits ∧
      (∀ (State : Type) (visitor : LeafVisitor State) (state : State),
        visitor.walk statement state =
          visits.foldl (fun state visit => visitor.visit visit.2 state) state) ∧
      (statement.condition = none → visits = []) ∧
      ∀ text, parse text = .ok statement →
        visits.Pairwise fun first second => first.2.span.start < second.2.span.start := by
  rcases (Node.statement statement).exists_enumerates with ⟨visits, enumerates, same⟩
  refine ⟨visits, enumerates, ?_, ?_, ?_⟩
  · intro State visitor state
    have walked := visitor.walkNode_eq_foldl_leaves (.statement statement) state
    rw [← same, List.foldl_map] at walked
    exact walked
  · intro without
    rw [Node.leaves, without] at same
    exact List.map_eq_nil_iff.mp same
  · intro text parsed
    have starts := pairwise_start_of_parse parsed
    rw [← same, List.pairwise_map] at starts
    exact starts

/-- In a call inside a junction a string is visited, before the number it is compared to and the
path in the other operand. -/
theorem walk_visits_umlauts :
    parse umlautsText = .ok umlauts ∧
    ∃ visits, (Node.statement umlauts).Enumerates visits ∧
      ([2, 0, 0, 0], umlautsString) ∈ visits ∧
      visits.foldl (fun state visit => LeafVisitor.recorder.visit visit.2 state) [] =
        [.path ⟨["b"], ⟨41, 42, 3, 23⟩⟩, .literal (.integer 1), .literal (.string "é'")] ∧
      visits.Pairwise fun first second => first.2.span.start < second.2.span.start := by
  rcases walk_visits_every_leaf umlauts with ⟨visits, enumerates, walked, _, starts⟩
  refine ⟨parse_umlautsText, visits, enumerates, ?_, ?_, starts _ parse_umlautsText⟩
  · exact (enumerates.complete _ _).mpr ⟨rfl, rfl⟩
  · rw [← walked]
    rfl

end Statement

end DocumentQuery
