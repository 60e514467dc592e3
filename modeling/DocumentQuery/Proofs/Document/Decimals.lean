import DocumentQuery.Proofs.Compiler.Meaning
import DocumentQuery.Proofs.Document.Rendering
import DocumentQuery.Proofs.Statement.Literals
import Mathlib.Tactic.NormNum

/-!
# Decimals from the query to the document

A decimal of a query is kept digit by digit.  It is read as an integer and a scale, and written
into a document with or without a power of ten.  The numeral there stands for the same number as
the one in the query, with as many digits behind the point.
-/

namespace DocumentQuery

/-! ## Comparisons with a literal -/

/-- Whether a condition is compiled to a filter with the given document in either mode. -/
def Predicate.RendersAs (predicate : Predicate) (entity : Entity) (aliasName : Option String)
    (document : Json) : Prop :=
  ∃ filter, (({ aliasName } : Compiler).compilePredicate entity predicate).1 = .ok filter ∧
    ∀ mode, filter.toDocument mode = .ok document

namespace Predicate

theorem rendersAs_of_toFilter {predicate : Predicate} {entity : Entity}
    {aliasName : Option String} {path : String} {sensitive : Bool} {operator : Comparison}
    {value : Value} {operand : Json}
    (compiled : predicate.toFilter entity aliasName =
      .ok (.field path sensitive (.compare operator value)))
    (encoded : ∀ mode, value.encode mode = operand) :
    predicate.RendersAs entity aliasName
      (.single path (.single operator.operatorName operand)) := by
  refine ⟨.field path sensitive (.compare operator value), ?_, fun mode => ?_⟩
  · rw [Compiler.compilePredicate_eq (Compiler.idle_of_alias aliasName)]
    exact compiled
  · rw [Filter.toDocument_eq_ok, Filter.document, Condition.document_eq, Condition.operator,
      Condition.operand, ← Value.encode_eq_json, encoded]

/-- A comparison is rendered with its attribute in front.  An operator changes sides with it. -/
theorem rendersAs_comparison {entity : Entity} {aliasName : Option String} {path : AttributePath}
    {field : Field} (named : entity.fieldOf? aliasName path = some field) {value : Literal}
    {operand : Json} (encoded : ∀ mode, (Value.ofLiteral value).encode mode = operand)
    (operator : Comparison) (pathSpan valueSpan span : Span) :
    (comparison (.path path pathSpan) operator (.literal value valueSpan) span).RendersAs
      entity aliasName (.single field.path (.single operator.operatorName operand)) ∧
    (comparison (.literal value valueSpan) operator (.path path pathSpan) span).RendersAs
      entity aliasName (.single field.path (.single operator.converse.operatorName operand)) := by
  have resolved := Entity.resolve_of_fieldOf? named
  have direct : toFilter entity aliasName
      (comparison (.path path pathSpan) operator (.literal value valueSpan) span) =
        .ok (.field field.path field.isSensitive (.compare operator (.ofLiteral value))) := by
    rw [toFilter, Entity.comparisonFilter, resolved]
    rfl
  have flipped : toFilter entity aliasName
      (comparison (.literal value valueSpan) operator (.path path pathSpan) span) =
        .ok (.field field.path field.isSensitive
          (.compare operator.converse (.ofLiteral value))) := by
    rw [toFilter, Entity.comparisonFilter, resolved]
    rfl
  exact ⟨rendersAs_of_toFilter direct encoded, rendersAs_of_toFilter flipped encoded⟩

end Predicate

/-! ## Decimals -/

namespace Literal

variable {text sign whole fraction suffix : List Char} {source : Decimal}

/-- A numeral with the suffix of decimals is read as the decimal that it stands for. -/
theorem read?_decimal (bare : IsBareNumeral text sign whole fraction)
    (denotes : Decimal.Denotes text source) (isDecimal : suffix.map Char.toLower = ['b', 'd'])
    (bounded : text.length < 0x8000000000000000) :
    read? (text ++ suffix) = some (decimal source) := by
  have numeral : Grammar.Pattern.IsNumeral (text ++ suffix) :=
    ⟨sign, whole, fraction, suffix, by simp [bare.parts], bare.sign, bare.whole, bare.fraction,
      Or.inr ⟨"bd", by decide, isDecimal⟩⟩
  have converts : ofNumeral (text ++ suffix) = .ok (decimal source) := by
    simp only [List.map_eq_cons_iff, List.map_eq_nil_iff] at isDecimal
    rcases isDecimal with ⟨first, _, rfl, b, second, _, rfl, d, rfl⟩
    rw [ofNumeral, splitSuffix_decimal text b d, denotes.eq_of_bare bare]
    simp only [Decimal.read?_of_bare bare bounded]
  exact read?_of_spelled ⟨numeral, converts⟩

/-- A decimal of a query stands in the document, in either mode, as a numeral of the same number.
Unless the number is zero, it has as many digits behind the point, less its power of ten.  The bound
is that of the texts for which 64 bits suffice to count the digits. -/
theorem decimals_exact (bare : IsBareNumeral text sign whole fraction)
    (denotes : Decimal.Denotes text source) (isDecimal : suffix.map Char.toLower = ['b', 'd'])
    (bounded : text.length < 0x8000000000000000) :
    ∃ literal written read, read? (text ++ suffix) = some literal ∧
      Decimal.Denotes written read ∧ read.value = source.value ∧
      (source.value ≠ 0 → read.scale = source.scale) ∧
      ∀ entity aliasName path field, Entity.fieldOf? entity aliasName path = some field →
        ∀ operator pathSpan valueSpan span,
        (Predicate.comparison (.path path pathSpan) operator (.literal literal valueSpan)
          span).RendersAs entity aliasName (.single field.path (.single operator.operatorName
            (.single "$numberDecimal" (.string (String.ofList written))))) ∧
        (Predicate.comparison (.literal literal valueSpan) operator (.path path pathSpan)
          span).RendersAs entity aliasName (.single field.path
            (.single operator.converse.operatorName
              (.single "$numberDecimal" (.string (String.ofList written))))) := by
  -- Without a power of ten the scale counts digits, so no form of the numeral gives it up.
  have nonnegative : 0 ≤ source.scale := by
    rw [denotes.eq_of_bare bare]
    exact Int.natCast_nonneg _
  have nonzero : source.value ≠ 0 → source.unscaled ≠ 0 := by
    intro valueNonzero unscaledZero
    apply valueNonzero
    rw [Decimal.value, unscaledZero, Int.cast_zero, zero_mul]
  rcases source.exists_denotes_text with ⟨read, textDenotes, sameValue, sameDecimal⟩
  refine ⟨decimal source, source.text, read, read?_decimal bare denotes isDecimal bounded,
    textDenotes, sameValue, ?_, ?_⟩
  · intro valueNonzero
    rw [sameDecimal (nonzero valueNonzero) nonnegative]
  · intro entity aliasName path field named operator pathSpan valueSpan span
    exact Predicate.rendersAs_comparison named (fun _ => rfl) operator pathSpan valueSpan span

/-- Zeros in front do not count and those at the end do, and the numeral of the document needs a
power of ten. -/
theorem decimals_exact_scientific :
    IsBareNumeral "-000.000000100".toList ['-'] "000".toList ".000000100".toList ∧
    Decimal.Denotes "-000.000000100".toList ⟨-100, 9⟩ ∧
    ∃ literal written read, read? ("-000.000000100".toList ++ "bD".toList) = some literal ∧
      Decimal.Denotes written read ∧ read.value = (⟨-100, 9⟩ : Decimal).value ∧ read.scale = 9 ∧
      (Predicate.comparison (.path ⟨["b", "price"], .nowhere⟩ .nowhere) .less
        (.literal literal .nowhere) .nowhere).RendersAs .books (some "b")
          (.single "cost" (.single "$lt"
            (.single "$numberDecimal" (.string (String.ofList written))))) := by
  have bare : IsBareNumeral "-000.000000100".toList ['-'] "000".toList ".000000100".toList :=
    ⟨by decide, Or.inr rfl, ⟨List.cons_ne_nil _ _, by simp⟩,
      Or.inr ⟨"000000100".toList, rfl, List.cons_ne_nil _ _, by simp⟩⟩
  have denotes : Decimal.Denotes "-000.000000100".toList ⟨-100, 9⟩ := Decimal.denotes_of_bare bare
  have nonzero : (⟨-100, 9⟩ : Decimal).value ≠ 0 := by norm_num [Decimal.value]
  have named : Entity.books.fieldOf? (some "b") ⟨["b", "price"], .nowhere⟩ =
      some { name := "price", column := some "cost" } := by decide
  rcases decimals_exact bare denotes (show "bD".toList.map Char.toLower = ['b', 'd'] by decide)
    (by decide) with ⟨literal, written, read, isRead, textDenotes, value, scale, renders⟩
  exact ⟨bare, denotes, literal, written, read, isRead, textDenotes, value, scale nonzero,
    (renders _ _ _ _ named .less .nowhere .nowhere .nowhere).1⟩

end Literal

end DocumentQuery
