import DocumentQuery.Proofs.Compiler.Meaning
import Mathlib.Data.List.Forall2

/-!
# Compilation preserves meaning

The filter that the compiler returns for a condition is as true of a document as the
condition, whatever the document lacks and however its attributes are read, as long as
that is where the schema puts them.  The leaves of the filter are the comparisons and
null checks of the condition, in order, and compare with the values of its literals.
-/

namespace DocumentQuery

namespace Entity

/-- A leaf of a filter comes from a comparison or from a null check, and lies at the place
of the field that is named.  A comparison is with the value of a literal, or with null if
that has none, and it is sensitive if the field may be null.  A null check is never
sensitive. -/
inductive IsLeafOf (entity : Entity) (aliasName : Option String) :
    Predicate → FieldCondition → Prop where
  | comparison {path : AttributePath} {field : Field} (value : Literal)
      (operator : Comparison) (pathSpan valueSpan span : Span)
      (member : field ∈ entity.fields) (named : field.name = path.attributeName aliasName) :
      IsLeafOf entity aliasName
        (.comparison (.path path pathSpan) operator (.literal value valueSpan) span)
        ⟨field.place, field.nullable && !field.id && !field.primitive,
          .compare operator (value.value?.getD .null)⟩
  | converse {path : AttributePath} {field : Field} (value : Literal)
      (operator : Comparison) (pathSpan valueSpan span : Span)
      (member : field ∈ entity.fields) (named : field.name = path.attributeName aliasName) :
      IsLeafOf entity aliasName
        (.comparison (.literal value valueSpan) operator (.path path pathSpan) span)
        ⟨field.place, field.nullable && !field.id && !field.primitive,
          .compare operator.converse (value.value?.getD .null)⟩
  | nullCheck {path : AttributePath} {field : Field} (negated : Bool) (pathSpan span : Span)
      (member : field ∈ entity.fields) (named : field.name = path.attributeName aliasName) :
      IsLeafOf entity aliasName (.nullCheck (.path path pathSpan) negated span)
        ⟨field.place, false, if negated then .notNull else .isNull⟩

end Entity

namespace Predicate

variable {entity : Entity} {aliasName : Option String}

theorem forall₂_flatMap_of_toFilters {α β : Type} {relation : α → β → Prop}
    {predicates : List Predicate} {filters : List Filter}
    {source : Predicate → List α} {image : Filter → List β}
    (each : ∀ predicate ∈ predicates, ∀ filter,
      predicate.toFilter entity aliasName = .ok filter →
        List.Forall₂ relation (source predicate) (image filter))
    (compiled : toFilters entity aliasName predicates = .ok filters) :
    List.Forall₂ relation (predicates.flatMap source) (filters.flatMap image) := by
  induction predicates generalizing filters with
  | nil =>
      cases compiled
      exact .nil
  | cons predicate predicates ih =>
      rcases toFilters_cons_eq_ok compiled with ⟨head, tail, headCompiled, tailCompiled, rfl⟩
      rw [List.flatMap_cons, List.flatMap_cons]
      apply List.rel_append
      · exact each predicate List.mem_cons_self head headCompiled
      · exact ih (fun other member => each other (List.mem_cons_of_mem _ member)) tailCompiled

/-- The leaves of a filter are the comparisons and null checks of its condition. -/
theorem forall₂_isLeafOf {predicate : Predicate} {filter : Filter}
    (compiled : predicate.toFilter entity aliasName = .ok filter) :
    List.Forall₂ (entity.IsLeafOf aliasName) predicate.atoms filter.conditions := by
  induction predicate using inductionOn generalizing filter with
  | comparison left operator right span =>
      rcases Entity.comparisonFilter_eq_ok compiled with
        ⟨path, value, field, named, sides | sides⟩
      all_goals
        rcases sides with ⟨pathSpan, valueSpan, rfl, rfl, rfl⟩
        have member := Entity.mem_fields_of_fieldOf? named
        have name := Entity.name_of_fieldOf? named
        rw [Filter.conditions, field.path_eq_place, field.isSensitive_eq, Value.ofLiteral_eq]
      · exact .cons (.comparison value operator pathSpan valueSpan span member name) .nil
      · exact .cons (.converse value operator pathSpan valueSpan span member name) .nil
  | junction connective operands span ih =>
      rcases toFilter_junction_eq_ok compiled with ⟨filters, operandsCompiled, rfl⟩
      rw [atoms, atomsOfAll_eq_flatMap, Filter.conditions, Filter.conditionsOfAll_eq_flatMap]
      apply forall₂_flatMap_of_toFilters _ operandsCompiled
      intro operand member inner innerCompiled
      exact ih operand member innerCompiled
  | negation operand span ih =>
      rcases toFilter_negation_eq_ok compiled with ⟨inner, innerCompiled, rfl⟩
      simpa [atoms, Filter.conditions] using ih innerCompiled
  | nullCheck subject negated span =>
      rcases Entity.nullCheckFilter_eq_ok compiled with
        ⟨path, pathSpan, field, named, rfl, rfl⟩
      have member := Entity.mem_fields_of_fieldOf? named
      exact .cons (.nullCheck negated pathSpan span member (Entity.name_of_fieldOf? named)) .nil
  | group inner span ih => exact ih compiled

end Predicate

/-- Compilation preserves meaning: with attributes read where a valid schema puts them,
the filter of a condition has the truth value of the condition in every document.  The
leaves of the filter are the comparisons and null checks of the condition, as sensitive
as their attributes and not sensitive respectively. -/
theorem Compiler.truth_of_compilePredicate (store : OrderedStore) {entity : Entity}
    (valid : entity.validate = .ok ()) {aliasName : Option String} {predicate : Predicate}
    {filter : Filter}
    (compiled : (({ aliasName } : Compiler).compilePredicate entity predicate).1 = .ok filter) :
    (∀ document : Document,
      (∃ read, entity.IsReading aliasName document read) ∧
      ∀ read, entity.IsReading aliasName document read →
        filter.truth (store.truth document) = predicate.truth store.toStore read) ∧
    List.Forall₂ (entity.IsLeafOf aliasName) predicate.atoms filter.conditions := by
  rw [compilePredicate_eq (idle_of_alias aliasName)] at compiled
  refine ⟨fun document => ⟨⟨_, Entity.isReading_attributeValue? valid document⟩, ?_⟩,
    Predicate.forall₂_isLeafOf compiled⟩
  intro read reading
  exact Predicate.truth_of_toFilter store reading compiled

/-- The condition `not (3 <= b.price or title is null)`. -/
def Predicate.cheapAndTitled : Predicate :=
  .negation (.group (.junction .or
    [.comparison (.constant (.integer 3)) .lessOrEqual (.attribute ["b", "price"]) .nowhere,
      .nullCheck (.attribute ["title"]) false .nowhere] .nowhere) .nowhere) .nowhere

/-- Of a book with a title and without a price, neither the condition nor its filter is
known to be true or false. -/
theorem Compiler.truth_cheapAndTitled :
    ∃ filter, (({ aliasName := some "b" } : Compiler).compilePredicate .books
        .cheapAndTitled).1 = .ok filter ∧
      filter.truth (OrderedStore.wholeNumbers.truth
        (.ofFields [("_id", .int 1), ("title", .string "X"), ("cost", .null)])) = .unknown ∧
      List.Forall₂ (Entity.books.IsLeafOf (some "b")) Predicate.cheapAndTitled.atoms
        filter.conditions := by
  have valid : Entity.books.validate = .ok () := rfl
  have succeeds : ∃ filter, (({ aliasName := some "b" } : Compiler).compilePredicate .books
    .cheapAndTitled).1 = .ok filter := ⟨_, rfl⟩
  rcases succeeds with ⟨filter, compiled⟩
  rcases truth_of_compilePredicate .wholeNumbers valid compiled with ⟨preserved, leaves⟩
  refine ⟨filter, compiled, ?_, leaves⟩
  rw [(preserved _).2 _ (Entity.isReading_attributeValue? valid _)]
  decide

end DocumentQuery
