/-!
# Ternary truth values

The condition of a query is true, false or unknown.  The connectives are those of
strong Kleene logic: an unknown operand leaves the result unknown unless the other
operands settle it.
-/

namespace DocumentQuery

/-- The truth values of a condition. -/
inductive Ternary where
  | yes
  | no
  | unknown
  deriving DecidableEq, Repr

namespace Ternary

/-- A truth value that is known. -/
def ofBool : Bool → Ternary
  | true => yes
  | false => no

/-- Negation.  What is unknown stays unknown. -/
def not : Ternary → Ternary
  | yes => no
  | no => yes
  | unknown => unknown

/-- Conjunction of two values. -/
def and : Ternary → Ternary → Ternary
  | no, _ => no
  | _, no => no
  | yes, yes => yes
  | _, _ => unknown

/-- Disjunction of two values. -/
def or : Ternary → Ternary → Ternary
  | yes, _ => yes
  | _, yes => yes
  | no, no => no
  | _, _ => unknown

/-- Conjunction of any number of values. -/
def all : List Ternary → Ternary
  | [] => yes
  | value :: values => value.and (all values)

/-- Disjunction of any number of values. -/
def any : List Ternary → Ternary
  | [] => no
  | value :: values => value.or (any values)

@[simp] theorem ofBool_eq_yes_iff (value : Bool) : ofBool value = yes ↔ value = true := by
  cases value <;> simp [ofBool]

@[simp] theorem not_ofBool (value : Bool) : (ofBool value).not = ofBool (!value) := by
  cases value <;> rfl

@[simp] theorem and_ofBool (first second : Bool) :
    (ofBool first).and (ofBool second) = ofBool (first && second) := by
  cases first <;> cases second <;> rfl

@[simp] theorem or_ofBool (first second : Bool) :
    (ofBool first).or (ofBool second) = ofBool (first || second) := by
  cases first <;> cases second <;> rfl

theorem not_eq_ofBool_iff (value : Ternary) (known : Bool) :
    value.not = ofBool known ↔ value = ofBool (!known) := by
  cases value <;> cases known <;> simp [not, ofBool]

@[simp] theorem and_eq_yes_iff (first second : Ternary) :
    first.and second = yes ↔ first = yes ∧ second = yes := by
  cases first <;> cases second <;> simp [and]

@[simp] theorem or_eq_yes_iff (first second : Ternary) :
    first.or second = yes ↔ first = yes ∨ second = yes := by
  cases first <;> cases second <;> simp [or]

@[simp] theorem or_eq_no_iff (first second : Ternary) :
    first.or second = no ↔ first = no ∧ second = no := by
  cases first <;> cases second <;> simp [or]

/-- A conjunction is true when every operand is. -/
@[simp] theorem all_eq_yes_iff (values : List Ternary) :
    all values = yes ↔ ∀ value ∈ values, value = yes := by
  induction values with
  | nil => simp [all]
  | cons value values ih => simp [all, ih]

/-- A disjunction is true when some operand is. -/
@[simp] theorem any_eq_yes_iff (values : List Ternary) :
    any values = yes ↔ yes ∈ values := by
  induction values with
  | nil => simp [any]
  | cons value values ih =>
      simp only [any, or_eq_yes_iff, ih, List.mem_cons]
      exact or_congr_left eq_comm

/-- A disjunction is false when every operand is. -/
@[simp] theorem any_eq_no_iff (values : List Ternary) :
    any values = no ↔ ∀ value ∈ values, value = no := by
  induction values with
  | nil => simp [any]
  | cons value values ih => simp [any, ih]

@[simp] theorem any_singleton (value : Ternary) : any [value] = value := by
  cases value <;> rfl

theorem all_replicate_unknown (count : Nat) :
    all (List.replicate (count + 1) unknown) = unknown := by
  induction count with
  | zero => rfl
  | succ count ih =>
      rw [List.replicate_succ, all, ih]
      rfl

theorem any_replicate_unknown (count : Nat) :
    any (List.replicate (count + 1) unknown) = unknown := by
  induction count with
  | zero => rfl
  | succ count ih =>
      rw [List.replicate_succ, any, ih]
      rfl

/-- Conjunction is Boolean on known values. -/
theorem all_map_ofBool (values : List Bool) :
    all (values.map ofBool) = ofBool (values.all id) := by
  induction values with
  | nil => rfl
  | cons value values ih => simp [all, ih]

/-- Disjunction is Boolean on known values. -/
theorem any_map_ofBool (values : List Bool) :
    any (values.map ofBool) = ofBool (values.any id) := by
  induction values with
  | nil => rfl
  | cons value values ih => simp [any, ih]

end Ternary

end DocumentQuery
