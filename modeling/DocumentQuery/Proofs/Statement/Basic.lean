import DocumentQuery.Statement.Reader

/-!
# Statements and their places

Induction over expressions and conditions, and statements with every place forgotten.
Two texts of one statement differ in where its parts stand, and the bare statement is
what they have in common.  Putting fragments together does not look at places, so it can
be followed on bare fragments.
-/

namespace DocumentQuery

/-! ## Induction -/

namespace Expression

/-- Induction over expressions, with the hypothesis for every argument. -/
@[elab_as_elim]
theorem inductionOn {motive : Expression → Prop} (expression : Expression)
    (literal : ∀ value span, motive (.literal value span))
    (path : ∀ target span, motive (.path target span))
    (call : ∀ name arguments span, (∀ argument ∈ arguments, motive argument) →
      motive (.call name arguments span)) :
    motive expression := by
  refine @Expression.rec motive
    (fun expressions => ∀ expression ∈ expressions, motive expression)
    literal path call ?_ ?_ expression
  · simp
  · intro head tail headIH tailIH argument membership
    rcases List.mem_cons.mp membership with rfl | membership
    · exact headIH
    · exact tailIH argument membership

end Expression

namespace Predicate

/-- Induction over conditions, with the hypothesis for every operand. -/
@[elab_as_elim]
theorem inductionOn {motive : Predicate → Prop} (predicate : Predicate)
    (comparison : ∀ left operator right span,
      motive (.comparison left operator right span))
    (junction : ∀ connective operands span, (∀ operand ∈ operands, motive operand) →
      motive (.junction connective operands span))
    (negation : ∀ operand span, motive operand → motive (.negation operand span))
    (nullCheck : ∀ subject negated span, motive (.nullCheck subject negated span))
    (group : ∀ inner span, motive inner → motive (.group inner span)) :
    motive predicate := by
  refine @Predicate.rec motive (fun predicates => ∀ predicate ∈ predicates, motive predicate)
    comparison junction (fun operand span ih => negation operand span ih) nullCheck
    (fun inner span ih => group inner span ih) ?_ ?_ predicate
  · simp
  · intro head tail headIH tailIH operand membership
    rcases List.mem_cons.mp membership with rfl | membership
    · exact headIH
    · exact tailIH operand membership

end Predicate

/-! ## Equality

Equality of statements looks at their places, too.  It is finer than `==`, which compares literals
as values. -/

deriving instance DecidableEq for Literal

namespace Expression

mutual

/-- Decide whether two expressions are equal. -/
def decEq : (first second : Expression) → Decidable (first = second)
  | literal value span, literal value' span' =>
      decidable_of_iff (value = value' ∧ span = span') (by simp)
  | path target span, path target' span' =>
      decidable_of_iff (target = target' ∧ span = span') (by simp)
  | call name arguments span, call name' arguments' span' =>
      have := decEqEach arguments arguments'
      decidable_of_iff (name = name' ∧ arguments = arguments' ∧ span = span') (by simp)
  | literal .., path .. | literal .., call .. | path .., literal .. | path .., call ..
  | call .., literal .. | call .., path .. => isFalse nofun

/-- Decide whether the expressions of two lists are equal in pairs. -/
def decEqEach : (first second : List Expression) → Decidable (first = second)
  | [], [] => isTrue rfl
  | expression :: expressions, expression' :: expressions' =>
      have := expression.decEq expression'
      have := decEqEach expressions expressions'
      decidable_of_iff (expression = expression' ∧ expressions = expressions') (by simp)
  | [], _ :: _ | _ :: _, [] => isFalse nofun

end

instance : DecidableEq Expression := decEq

end Expression

namespace Predicate

mutual

/-- Decide whether two conditions are equal. -/
def decEq : (first second : Predicate) → Decidable (first = second)
  | comparison left operator right span, comparison left' operator' right' span' =>
      decidable_of_iff (left = left' ∧ operator = operator' ∧ right = right' ∧ span = span')
        (by simp)
  | junction connective operands span, junction connective' operands' span' =>
      have := decEqEach operands operands'
      decidable_of_iff (connective = connective' ∧ operands = operands' ∧ span = span') (by simp)
  | negation operand span, negation operand' span' =>
      have := operand.decEq operand'
      decidable_of_iff (operand = operand' ∧ span = span') (by simp)
  | nullCheck subject negated span, nullCheck subject' negated' span' =>
      decidable_of_iff (subject = subject' ∧ negated = negated' ∧ span = span') (by simp)
  | group inner span, group inner' span' =>
      have := inner.decEq inner'
      decidable_of_iff (inner = inner' ∧ span = span') (by simp)
  | comparison .., junction .. | comparison .., negation .. | comparison .., nullCheck ..
  | comparison .., group .. | junction .., comparison .. | junction .., negation ..
  | junction .., nullCheck .. | junction .., group .. | negation .., comparison ..
  | negation .., junction .. | negation .., nullCheck .. | negation .., group ..
  | nullCheck .., comparison .. | nullCheck .., junction .. | nullCheck .., negation ..
  | nullCheck .., group .. | group .., comparison .. | group .., junction ..
  | group .., negation .. | group .., nullCheck .. => isFalse nofun

/-- Decide whether the conditions of two lists are equal in pairs. -/
def decEqEach : (first second : List Predicate) → Decidable (first = second)
  | [], [] => isTrue rfl
  | predicate :: predicates, predicate' :: predicates' =>
      have := predicate.decEq predicate'
      have := decEqEach predicates predicates'
      decidable_of_iff (predicate = predicate' ∧ predicates = predicates') (by simp)
  | [], _ :: _ | _ :: _, [] => isFalse nofun

end

instance : DecidableEq Predicate := decEq

end Predicate

deriving instance DecidableEq for Statement

/-! ## Forgetting places -/

/-- The place of what no text holds. -/
def Span.nowhere : Span := .between .start .start

/-- An attribute by the segments of its name. -/
def Expression.attribute (segments : List String) : Expression :=
  .path ⟨segments, .nowhere⟩ .nowhere

/-- A literal of a query. -/
def Expression.constant (value : Literal) : Expression := .literal value .nowhere

def Identifier.bare (identifier : Identifier) : Identifier := ⟨identifier.name, .nowhere⟩

def AttributePath.bare (path : AttributePath) : AttributePath := ⟨path.segments, .nowhere⟩

namespace Expression

mutual

def bare : Expression → Expression
  | literal value _ => literal value .nowhere
  | path target _ => path target.bare .nowhere
  | call name arguments _ => call name (bareOfEach arguments) .nowhere

def bareOfEach : List Expression → List Expression
  | [] => []
  | expression :: expressions => expression.bare :: bareOfEach expressions

end

@[simp] theorem bareOfEach_eq_map (expressions : List Expression) :
    bareOfEach expressions = expressions.map bare := by
  induction expressions with
  | nil => rfl
  | cons expression expressions ih => rw [bareOfEach, List.map_cons, ih]

end Expression

namespace Predicate

mutual

def bare : Predicate → Predicate
  | comparison left operator right _ => comparison left.bare operator right.bare .nowhere
  | junction connective operands _ => junction connective (bareOfEach operands) .nowhere
  | negation operand _ => negation operand.bare .nowhere
  | nullCheck subject negated _ => nullCheck subject.bare negated .nowhere
  | group inner _ => group inner.bare .nowhere

def bareOfEach : List Predicate → List Predicate
  | [] => []
  | predicate :: predicates => predicate.bare :: bareOfEach predicates

end

@[simp] theorem bareOfEach_eq_map (predicates : List Predicate) :
    bareOfEach predicates = predicates.map bare := by
  induction predicates with
  | nil => rfl
  | cons predicate predicates ih => rw [bareOfEach, List.map_cons, ih]

end Predicate

/-- The statement with every place forgotten. -/
def Statement.bare (statement : Statement) : Statement where
  entity := statement.entity.bare
  aliasName := statement.aliasName.map Identifier.bare
  condition := statement.condition.map Predicate.bare
  span := .nowhere

namespace Grammar.Fragment

def bare : Fragment → Fragment
  | mark rule => mark rule
  | name identifier => name identifier.bare
  | operator comparison => operator comparison
  | expression inner => expression inner.bare
  | predicate inner => predicate inner.bare
  | statement inner => statement inner.bare

section Inversion

variable {fragment : Fragment}

@[simp] theorem bare_eq_mark {rule : Rule} : fragment.bare = mark rule ↔ fragment = mark rule := by
  cases fragment <;> simp [bare]

@[simp] theorem bare_eq_name {identifier : Identifier} :
    fragment.bare = name identifier ↔
      ∃ inner, fragment = name inner ∧ inner.bare = identifier := by
  cases fragment <;> simp [bare]

@[simp] theorem bare_eq_operator {comparison : Comparison} :
    fragment.bare = operator comparison ↔ fragment = operator comparison := by
  cases fragment <;> simp [bare]

@[simp] theorem bare_eq_expression {found : Expression} :
    fragment.bare = expression found ↔
      ∃ inner, fragment = expression inner ∧ inner.bare = found := by
  cases fragment <;> simp [bare]

@[simp] theorem bare_eq_predicate {found : Predicate} :
    fragment.bare = predicate found ↔
      ∃ inner, fragment = predicate inner ∧ inner.bare = found := by
  cases fragment <;> simp [bare]

@[simp] theorem bare_eq_statement {found : Statement} :
    fragment.bare = statement found ↔
      ∃ inner, fragment = statement inner ∧ inner.bare = found := by
  cases fragment <;> simp [bare]

end Inversion

/-- A view of fragments that does not look at places picks the same parts. -/
theorem filterMap_bare {α : Type} {view : Fragment → Option α} {forget : α → α}
    (commutes : ∀ fragment, view fragment.bare = (view fragment).map forget)
    (parts : List Fragment) :
    (parts.map bare).filterMap view = (parts.filterMap view).map forget := by
  rw [List.filterMap_map, List.map_filterMap]
  congr 1
  funext part
  exact commutes part

theorem name?_bare (fragment : Fragment) :
    fragment.bare.name? = fragment.name?.map Identifier.bare := by
  cases fragment <;> rfl

theorem expression?_bare (fragment : Fragment) :
    fragment.bare.expression? = fragment.expression?.map Expression.bare := by
  cases fragment <;> rfl

theorem predicate?_bare (fragment : Fragment) :
    fragment.bare.predicate? = fragment.predicate?.map Predicate.bare := by
  cases fragment <;> rfl

theorem bare_junction (connective : Connective) (span : Span) (parts : List Fragment) :
    (junction connective span parts).bare = junction connective .nowhere (parts.map bare) := by
  unfold junction
  rw [filterMap_bare predicate?_bare]
  cases parts.filterMap predicate? with
  | nil => rfl
  | cons first others =>
      cases others with
      | nil => rfl
      | cons => simp [bare, Predicate.bare]

/-- The parts of a phrase are told from their bare forms. -/
theorem ofPhrase_of_bare {rule : Rule} {parts : List Fragment} {fragment : Fragment}
    (formed : ofPhrase rule .nowhere (parts.map bare) = .ok fragment) (span : Span) :
    ∃ found, ofPhrase rule span parts = .ok found ∧ found.bare = fragment := by
  unfold ofPhrase at formed
  split at formed
  -- Three kinds of phrases take any parts, and of those there is nothing to tell.
  all_goals
    try simp only [List.map_eq_cons_iff, List.map_eq_nil_iff, bare_eq_mark, bare_eq_name,
      bare_eq_operator, bare_eq_expression, bare_eq_predicate] at *
  case h_1 shape | h_2 shape | h_3 shape =>
    rcases shape with ⟨_, _, rfl, rfl, rfl⟩
    cases formed
    exact ⟨_, rfl, rfl⟩
  case h_4 shape | h_6 shape | h_11 shape | h_13 shape | h_16 shape =>
    rcases shape with ⟨_, _, rfl, ⟨_, rfl, rfl⟩, rfl⟩
    cases formed
    exact ⟨_, rfl, rfl⟩
  case h_5 shape =>
    rcases shape with ⟨_, arguments, rfl, ⟨_, rfl, rfl⟩, rfl⟩
    cases formed
    refine ⟨_, rfl, ?_⟩
    simp [bare, Expression.bare, Identifier.bare, filterMap_bare expression?_bare]
  case h_7 shape =>
    rcases shape with ⟨_, _, rfl, ⟨_, rfl, rfl⟩, _, _, rfl, rfl, _, _, rfl, rfl, rfl⟩
    cases formed
    exact ⟨_, rfl, rfl⟩
  case h_8 shape =>
    rcases shape with
      ⟨_, _, rfl, ⟨_, rfl, rfl⟩, _, _, rfl, rfl, _, _, rfl, rfl, _, _, rfl, rfl, rfl⟩
    cases formed
    exact ⟨_, rfl, rfl⟩
  case h_9 shape =>
    rcases shape with ⟨_, _, rfl, ⟨_, rfl, rfl⟩, _, _, rfl, rfl, _, _, rfl, ⟨_, rfl, rfl⟩, rfl⟩
    cases formed
    exact ⟨_, rfl, rfl⟩
  case h_10 shape =>
    rcases shape with ⟨_, _, rfl, rfl, _, _, rfl, ⟨_, rfl, rfl⟩, _, _, rfl, rfl, rfl⟩
    cases formed
    exact ⟨_, rfl, rfl⟩
  case h_12 shape | h_17 shape =>
    rcases shape with ⟨_, _, rfl, rfl, _, _, rfl, ⟨_, rfl, rfl⟩, rfl⟩
    cases formed
    exact ⟨_, rfl, rfl⟩
  case h_14 =>
    cases formed
    exact ⟨_, rfl, bare_junction .and span parts⟩
  case h_15 =>
    cases formed
    exact ⟨_, rfl, bare_junction .or span parts⟩
  case h_18 =>
    rw [filterMap_bare name?_bare, filterMap_bare predicate?_bare, List.head?_map] at formed
    simp only [ofPhrase]
    cases names : parts.filterMap name? with
    | nil =>
        rw [names] at formed
        cases formed
    | cons entity others =>
        rw [names] at formed
        cases others with
        | nil =>
            cases formed
            exact ⟨_, rfl, rfl⟩
        | cons aliasName more =>
            cases more with
            | nil =>
                cases formed
                exact ⟨_, rfl, rfl⟩
            | cons => cases formed
  case h_19 => cases formed

end Grammar.Fragment

end DocumentQuery
