import DocumentQuery.Filter.Basic

/-!
# Null safety

The store compares a null field like any other, where ternary logic calls the
comparison unknown.  Enforcing null safety adds guards that a field is not null:
beside a sensitive condition, in each branch of a disjunction, and around a
conjunction or a negation for all the sensitive fields below it.
-/

namespace DocumentQuery.Filter

/-- Add a path to a list of distinct paths, at the end. -/
def addPath (paths : List String) (path : String) : List String :=
  if path ∈ paths then paths else paths ++ [path]

mutual

/-- Add the sensitive paths of a filter to a list, from left to right. -/
def addSensitive (paths : List String) : Filter → List String
  | field path sensitive _ => if sensitive then addPath paths path else paths
  | logical _ operands => addSensitiveAll paths operands

/-- Add the sensitive paths of several filters to a list, from left to right. -/
def addSensitiveAll (paths : List String) : List Filter → List String
  | [] => paths
  | filter :: filters => addSensitiveAll (addSensitive paths filter) filters

end

/-- A filter together with guards for the given paths.  Without paths it stays as
it is. -/
def withGuards (filter : Filter) (paths : List String) : Filter :=
  if paths.isEmpty then filter else logical .and (filter :: paths.map guard)

/-- The paths to be guarded around a logical operation.  A conjunction may hold
guards of its own. -/
def unguardedPaths (operator : Logical) (operands : List Filter) : List String :=
  let paths := addSensitiveAll [] operands
  match operator with
  | .and => paths.filter fun path => !operands.any (isGuardOf path)
  | .or | .nor => paths

mutual

/-- Guard a filter so that it holds only where the condition of the query is
true, and not merely unknown. -/
def enforceNullSafety : Filter → Filter
  | field path sensitive condition =>
      withGuards (field path sensitive condition) (if sensitive then [path] else [])
  | logical .or operands => logical .or (enforceNullSafetyAll operands)
  | logical operator operands =>
      withGuards (logical operator operands) (unguardedPaths operator operands)

/-- Guard each of several filters. -/
def enforceNullSafetyAll : List Filter → List Filter
  | [] => []
  | filter :: filters => enforceNullSafety filter :: enforceNullSafetyAll filters

end

/-- Several filters are guarded one by one. -/
@[simp] theorem enforceNullSafetyAll_eq_map (filters : List Filter) :
    enforceNullSafetyAll filters = filters.map enforceNullSafety := by
  induction filters with
  | nil => rfl
  | cons filter filters ih => simp [enforceNullSafetyAll, ih]

end DocumentQuery.Filter
