import DocumentQuery.Filter.Basic
import DocumentQuery.Proofs.Ternary

/-!
# The meaning of filters

A filter has two meanings.  The store decides every condition and joins the
verdicts in two-valued logic.  The query meant ternary logic, in which a comparison
with null is unknown.  Both are given here for any document, and they agree wherever
no comparison meets a null.
-/

namespace DocumentQuery

/-! ## Documents and stores -/

/-- The value itself, unless it is null. -/
def Value.nonNull? (value : Value) : Option Value :=
  if value.isNull then none else some value

/-- A document: the value at each path where it has a field. -/
structure Document where
  field : String → Option Value

namespace Document

/-- The document with the given fields. -/
def ofFields (fields : List (String × Value)) : Document := ⟨fun path => fields.lookup path⟩

/-- The value at a path, unless it is null.  An absent field counts as null. -/
def value? (document : Document) (path : String) : Option Value :=
  (document.field path).bind Value.nonNull?

/-- Whether a document has null, or nothing, at a path. -/
def isNull (document : Document) (path : String) : Bool := (document.value? path).isNone

theorem isNull_eq_false_iff (document : Document) (path : String) :
    document.isNull path = false ↔ ∃ value, document.value? path = some value := by
  rw [isNull, Option.isNone_eq_false_iff, Option.isSome_iff_exists]

end Document

/-- What a comparison with null comes to in the store: only equality looks at the
field, and it holds of null alone. -/
def Comparison.againstNull (operator : Comparison) (fieldIsNull : Bool) : Bool :=
  match operator with
  | .equal => fieldIsNull
  | .notEqual => !fieldIsNull
  | .less | .lessOrEqual | .greater | .greaterOrEqual => false

/-- How a store answers comparisons. -/
structure Store where
  /-- Whether a comparison holds of two values, neither of which is null. -/
  compare : Comparison → Value → Value → Bool
  /-- The answer about a null field.  Nothing is known about it. -/
  compareNull : String → Comparison → Value → Bool

namespace Store

/-- How a store decides a condition on a field of a document. -/
def verdict (store : Store) (document : Document) (path : String) : Condition → Bool
  | .isNull => document.isNull path
  | .notNull => !document.isNull path
  | .compare operator operand =>
      match operand.nonNull?, document.value? path with
      | none, found => operator.againstNull found.isNone
      | some operand, some found => store.compare operator found operand
      | some operand, none => store.compareNull path operator operand

@[simp] theorem verdict_notNull (store : Store) (document : Document) (path : String) :
    store.verdict document path .notNull = !document.isNull path := rfl

/-- A comparison in ternary logic, where null is no value. -/
def ternary (store : Store) (operator : Comparison) : Option Value → Option Value → Ternary
  | some left, some right => .ofBool (store.compare operator left right)
  | _, _ => .unknown

/-- The ternary truth of a condition on a field of a document. -/
def truth (store : Store) (document : Document) (path : String) : Condition → Ternary
  | .isNull => .ofBool (document.isNull path)
  | .notNull => .ofBool (!document.isNull path)
  | .compare operator operand =>
      store.ternary operator (document.value? path) operand.nonNull?

end Store

/-! ## Ordered values -/

/-- Whether a comparison holds of two values in the given order.  Values without an
order differ, and nothing else holds of them. -/
def Comparison.holdsOf : Comparison → Option Ordering → Bool
  | equal, order => order == some .eq
  | notEqual, order => order != some .eq
  | less, order => order == some .lt
  | lessOrEqual, order => order == some .lt || order == some .eq
  | greater, order => order == some .gt
  | greaterOrEqual, order => order == some .gt || order == some .eq

theorem Comparison.holdsOf_converse (operator : Comparison) (order : Option Ordering) :
    operator.converse.holdsOf (order.map .swap) = operator.holdsOf order := by
  rcases order with _ | order
  · cases operator <;> rfl
  · cases operator <;> cases order <;> rfl

/-- A store that compares values by an order.  Which of two values comes first does
not depend on the side on which they are written. -/
structure OrderedStore extends Store where
  order : Value → Value → Option Ordering
  order_swap : ∀ left right, order right left = (order left right).map .swap
  compare_eq : ∀ operator left right,
    compare operator left right = operator.holdsOf (order left right)

theorem OrderedStore.compare_converse (store : OrderedStore) (operator : Comparison)
    (left right : Value) :
    store.compare operator.converse right left = store.compare operator left right := by
  rw [store.compare_eq, store.compare_eq, store.order_swap]
  exact operator.holdsOf_converse _

/-- A comparison in ternary logic may be turned round. -/
theorem OrderedStore.ternary_converse (store : OrderedStore) (operator : Comparison)
    (left right : Option Value) :
    store.ternary operator.converse right left = store.ternary operator left right := by
  cases left with
  | none => cases right <;> rfl
  | some left =>
      cases right with
      | none => rfl
      | some right => exact congrArg Ternary.ofBool (store.compare_converse operator left right)

/-- The whole number that a value holds. -/
def Value.whole? : Value → Option Int
  | int number => some number.toInt
  | long number => some number.toInt
  | _ => none

/-- Whole numbers are ordered whatever their width. -/
def Value.wholeOrder (left right : Value) : Option Ordering :=
  match left.whole?, right.whole? with
  | some left, some right => some (compare left right)
  | _, _ => none

theorem Value.wholeOrder_swap (left right : Value) :
    right.wholeOrder left = (left.wholeOrder right).map .swap := by
  unfold wholeOrder
  cases left.whole? with
  | none => cases right.whole? <;> rfl
  | some left =>
      cases right.whole? with
      | none => rfl
      | some right => exact congrArg some Std.OrientedCmp.eq_swap

/-- A store that knows whole numbers only and calls every comparison with a null field
true. -/
def OrderedStore.wholeNumbers : OrderedStore where
  compare operator left right := operator.holdsOf (left.wholeOrder right)
  compareNull _ _ _ := true
  order := Value.wholeOrder
  order_swap := Value.wholeOrder_swap
  compare_eq _ _ _ := rfl

/-! ## Joining verdicts -/

namespace Logical

/-- The verdict on a logical operation, from the verdicts on its operands. -/
def verdict : Logical → List Bool → Bool
  | and, verdicts => verdicts.all id
  | or, verdicts => verdicts.any id
  | nor, verdicts => !verdicts.any id

/-- The truth of a logical operation, from the truth of its operands. -/
def truth : Logical → List Ternary → Ternary
  | and, values => .all values
  | or, values => .any values
  | nor, values => (Ternary.any values).not

theorem truth_map_ofBool (operator : Logical) (verdicts : List Bool) :
    operator.truth (verdicts.map .ofBool) = .ofBool (operator.verdict verdicts) := by
  cases operator with
  | and => exact Ternary.all_map_ofBool verdicts
  | or => exact Ternary.any_map_ofBool verdicts
  | nor => simp only [truth, verdict, Ternary.any_map_ofBool, Ternary.not_ofBool]

end Logical

/-- A condition on a field, as it stands in a filter. -/
structure FieldCondition where
  path : String
  sensitive : Bool
  condition : Condition

namespace Filter

/-- Induction over filters, with the hypothesis for every operand. -/
@[elab_as_elim]
theorem inductionOn {motive : Filter → Prop} (filter : Filter)
    (field : ∀ path sensitive condition, motive (.field path sensitive condition))
    (logical : ∀ operator operands, (∀ operand ∈ operands, motive operand) →
      motive (.logical operator operands)) : motive filter := by
  refine @Filter.rec motive (fun filters => ∀ filter ∈ filters, motive filter) field logical
    ?_ ?_ filter
  · simp
  · intro head tail headIH tailIH operand membership
    rcases List.mem_cons.mp membership with rfl | membership
    · exact headIH
    · exact tailIH operand membership

mutual

/-- Whether a filter lets a document through, by the verdicts on its conditions. -/
def accepts (verdict : String → Condition → Bool) : Filter → Bool
  | field path _ condition => verdict path condition
  | logical operator operands => operator.verdict (acceptsEach verdict operands)

/-- Whether each of several filters lets a document through. -/
def acceptsEach (verdict : String → Condition → Bool) : List Filter → List Bool
  | [] => []
  | filter :: filters => accepts verdict filter :: acceptsEach verdict filters

end

mutual

/-- The truth of a filter in ternary logic, by the truth of its conditions. -/
def truth (meaning : String → Condition → Ternary) : Filter → Ternary
  | field path _ condition => meaning path condition
  | logical operator operands => operator.truth (truthOfEach meaning operands)

/-- The truth of each of several filters. -/
def truthOfEach (meaning : String → Condition → Ternary) : List Filter → List Ternary
  | [] => []
  | filter :: filters => truth meaning filter :: truthOfEach meaning filters

end

mutual

/-- The conditions of a filter, from left to right. -/
def conditions : Filter → List FieldCondition
  | field path sensitive condition => [⟨path, sensitive, condition⟩]
  | logical _ operands => conditionsOfAll operands

/-- The conditions of several filters, from left to right. -/
def conditionsOfAll : List Filter → List FieldCondition
  | [] => []
  | filter :: filters => conditions filter ++ conditionsOfAll filters

end

mutual

/-- The alternatives of a filter: what its outermost disjunctions join. -/
def branches : Filter → List Filter
  | logical .or operands => branchesOfAll operands
  | filter => [filter]

/-- The alternatives of several filters. -/
def branchesOfAll : List Filter → List Filter
  | [] => []
  | filter :: filters => branches filter ++ branchesOfAll filters

end

@[simp] theorem acceptsEach_eq_map (verdict : String → Condition → Bool)
    (filters : List Filter) : acceptsEach verdict filters = filters.map (accepts verdict) := by
  induction filters with
  | nil => rfl
  | cons filter filters ih => simp [acceptsEach, ih]

@[simp] theorem truthOfEach_eq_map (meaning : String → Condition → Ternary)
    (filters : List Filter) : truthOfEach meaning filters = filters.map (truth meaning) := by
  induction filters with
  | nil => rfl
  | cons filter filters ih => simp [truthOfEach, ih]

@[simp] theorem conditionsOfAll_eq_flatMap (filters : List Filter) :
    conditionsOfAll filters = filters.flatMap conditions := by
  induction filters with
  | nil => rfl
  | cons filter filters ih => simp [conditionsOfAll, ih]

@[simp] theorem branchesOfAll_eq_flatMap (filters : List Filter) :
    branchesOfAll filters = filters.flatMap branches := by
  induction filters with
  | nil => rfl
  | cons filter filters ih => simp [branchesOfAll, ih]

/-- The conditions of an operand are conditions of the whole. -/
theorem mem_conditions_logical {operator : Logical} {operands : List Filter}
    {operand : Filter} (member : operand ∈ operands) {condition : FieldCondition}
    (found : condition ∈ operand.conditions) :
    condition ∈ (logical operator operands).conditions := by
  simp only [conditions, conditionsOfAll_eq_flatMap, List.mem_flatMap]
  exact ⟨operand, member, found⟩

/-! ## Agreement of the two meanings -/

variable {verdict : String → Condition → Bool} {meaning : String → Condition → Ternary}

/-- The two meanings agree on a filter if they agree on its conditions. -/
theorem truth_eq_ofBool_accepts (filter : Filter)
    (agree : ∀ found ∈ filter.conditions,
      meaning found.path found.condition = .ofBool (verdict found.path found.condition)) :
    filter.truth meaning = .ofBool (filter.accepts verdict) := by
  induction filter using inductionOn with
  | field path sensitive condition =>
      exact agree ⟨path, sensitive, condition⟩ (by simp [conditions])
  | logical operator operands ih =>
      have each : operands.map (truth meaning) =
          (operands.map (accepts verdict)).map .ofBool := by
        rw [List.map_map]
        apply List.map_congr_left
        intro operand member
        exact ih operand member fun found membership =>
          agree found (mem_conditions_logical member membership)
      simp only [truth, accepts, truthOfEach_eq_map, acceptsEach_eq_map, each]
      exact operator.truth_map_ofBool _

/-- What a filter accepts depends on its conditions only. -/
theorem accepts_congr {other : String → Condition → Bool} (filter : Filter)
    (agree : ∀ found ∈ filter.conditions,
      verdict found.path found.condition = other found.path found.condition) :
    filter.accepts verdict = filter.accepts other := by
  induction filter using inductionOn with
  | field path sensitive condition =>
      exact agree ⟨path, sensitive, condition⟩ (by simp [conditions])
  | logical operator operands ih =>
      have each : operands.map (accepts verdict) = operands.map (accepts other) := by
        apply List.map_congr_left
        intro operand member
        exact ih operand member fun found membership =>
          agree found (mem_conditions_logical member membership)
      simp only [accepts, acceptsEach_eq_map, each]

/-! ## Alternatives -/

/-- The alternatives of a disjunction are those of its operands. -/
theorem exists_mem_branches_or (operands : List Filter) (holds : Filter → Prop) :
    (∃ branch ∈ (logical .or operands).branches, holds branch) ↔
      ∃ operand ∈ operands, ∃ branch ∈ operand.branches, holds branch := by
  simp only [branches, branchesOfAll_eq_flatMap, List.mem_flatMap]
  constructor
  · rintro ⟨branch, ⟨operand, member, found⟩, held⟩
    exact ⟨operand, member, branch, found, held⟩
  · rintro ⟨operand, member, branch, found, held⟩
    exact ⟨branch, ⟨operand, member, found⟩, held⟩

/-- A filter accepts what one of its alternatives accepts. -/
theorem accepts_iff_branches (filter : Filter) :
    filter.accepts verdict = true ↔
      ∃ branch ∈ filter.branches, branch.accepts verdict = true := by
  induction filter using inductionOn with
  | field path sensitive condition => simp [branches]
  | logical operator operands ih =>
      cases operator with
      | and | nor => simp [branches]
      | or =>
          rw [exists_mem_branches_or]
          simp only [accepts, Logical.verdict, acceptsEach_eq_map, List.any_map,
            List.any_eq_true]
          exact exists_congr fun operand => and_congr_right fun member => ih operand member

/-- A filter is true where one of its alternatives is. -/
theorem truth_eq_yes_iff_branches (filter : Filter) :
    filter.truth meaning = .yes ↔
      ∃ branch ∈ filter.branches, branch.truth meaning = .yes := by
  induction filter using inductionOn with
  | field path sensitive condition => simp [branches]
  | logical operator operands ih =>
      cases operator with
      | and | nor => simp [branches]
      | or =>
          rw [exists_mem_branches_or]
          simp only [truth, Logical.truth, truthOfEach_eq_map, Ternary.any_eq_yes_iff,
            List.mem_map]
          exact exists_congr fun operand => and_congr_right fun member => ih operand member

/-- The conditions of an alternative are conditions of the filter. -/
theorem mem_conditions_of_mem_branches {filter branch : Filter}
    (member : branch ∈ filter.branches) {condition : FieldCondition}
    (found : condition ∈ branch.conditions) : condition ∈ filter.conditions := by
  induction filter using inductionOn with
  | field path sensitive condition =>
      simp only [branches, List.mem_singleton] at member
      exact member ▸ found
  | logical operator operands ih =>
      cases operator with
      | and | nor =>
          simp only [branches, List.mem_singleton] at member
          exact member ▸ found
      | or =>
          simp only [branches, branchesOfAll_eq_flatMap, List.mem_flatMap] at member
          rcases member with ⟨operand, operandMember, member⟩
          exact mem_conditions_logical operandMember (ih operand operandMember member)

end Filter

end DocumentQuery
