import DocumentQuery.Proofs.Document.Rendering
import DocumentQuery.Proofs.Number.Decimal
import Mathlib.Data.List.Forall2

/-!
# Canonical documents

In canonical mode every number is wrapped in an object that names its type.  So two filters with
the same document ask for the same: they agree in their shape and their operators, in the paths
and the operands of their conditions.  What the document leaves out is which conditions are
sensitive.  It writes a null check as a comparison with null, and the same number at two scales may
be written alike.
-/

namespace DocumentQuery

/-! ## Filters that ask for the same -/

/-- Whether a value is null, a boolean, an integer, a decimal or a text. -/
def Value.isPlain : Value → Bool
  | null | boolean _ | int _ | long _ | decimal _ | string _ => true
  | double _ | timestamp _ | uuid _ => false

/-- Values that are equal, decimals whatever their scale. -/
inductive Value.Alike : Value → Value → Prop where
  | same (value : Value) : Alike value value
  | decimal {first second : Decimal} (number : first.value = second.value) :
      Alike (.decimal first) (.decimal second)

/-- Whether a condition compares with a plain value, if it compares at all. -/
def Condition.isPlain : Condition → Bool
  | compare _ operand => operand.isPlain
  | isNull | notNull => true

/-- Conditions that ask for the same: comparisons by the same operator with values that are alike,
and checks for null, which may be written as comparisons with null. -/
inductive Condition.Alike : Condition → Condition → Prop where
  | compare (operator : Comparison) {first second : Value} (operands : first.Alike second) :
      Alike (.compare operator first) (.compare operator second)
  | isNull : Alike .isNull .isNull
  | notNull : Alike .notNull .notNull
  | isNull_equal : Alike .isNull (.compare .equal .null)
  | equal_isNull : Alike (.compare .equal .null) .isNull
  | notNull_notEqual : Alike .notNull (.compare .notEqual .null)
  | notEqual_notNull : Alike (.compare .notEqual .null) .notNull

/-- Filters with the same operators in the same places, and with conditions on the same paths that
ask for the same. -/
inductive Filter.Alike : Filter → Filter → Prop where
  | field (path : String) (firstSensitive secondSensitive : Bool) {first second : Condition}
      (conditions : first.Alike second) :
      Alike (.field path firstSensitive first) (.field path secondSensitive second)
  | logical (operator : Logical) {first second : List Filter}
      (operands : List.Forall₂ Alike first second) :
      Alike (.logical operator first) (.logical operator second)

/-! ## Values -/

theorem Json.single_inj {firstName secondName : String} {first second : Json} :
    single firstName first = single secondName second ↔
      firstName = secondName ∧ first = second := by
  simp [single]

theorem integerText_inj {first second : Int} :
    integerText first = integerText second ↔ first = second := by
  rw [integerText, integerText, Json.string.injEq, String.ofList_inj]
  exact Numeral.ofInt_injective.eq_iff

/-- Plain values with the same canonical encoding are alike. -/
theorem Value.alike_of_encode_eq {first second : Value} (plain : first.isPlain = true)
    (same : first.encode .canonical = second.encode .canonical) : first.Alike second := by
  cases first with
  | double | timestamp | uuid => cases plain
  | null =>
      cases second with
      | null => exact .same _
      | _ => simp [encode, Instant.encode, Double.encode, Json.single] at same
  | boolean value =>
      cases second with
      | boolean other =>
          cases same
          exact .same _
      | _ => simp [encode, Instant.encode, Double.encode, Json.single] at same
  | int number =>
      cases second with
      | int other =>
          have numbers := integerText_inj.mp (Json.single_inj.mp same).2
          rw [Int32.toInt_inj.mp numbers]
          exact .same _
      | _ => simp [encode, Instant.encode, Double.encode, Json.single] at same
  | long number =>
      cases second with
      | long other =>
          have numbers := integerText_inj.mp (Json.single_inj.mp same).2
          rw [Int64.toInt_inj.mp numbers]
          exact .same _
      | _ => simp [encode, Instant.encode, Double.encode, Json.single] at same
  | decimal number =>
      cases second with
      | decimal other =>
          have texts := (Json.single_inj.mp same).2
          rw [Json.string.injEq, String.ofList_inj] at texts
          exact .decimal (Decimal.value_eq_of_text_eq texts)
      | _ => simp [encode, Instant.encode, Double.encode, Json.single] at same
  | string text =>
      cases second with
      | string other =>
          cases same
          exact .same _
      | _ => simp [encode, Instant.encode, Double.encode, Json.single] at same

/-! ## Conditions -/

theorem Comparison.operatorName_injective : Function.Injective operatorName := by
  intro first second same
  cases first <;> cases second <;> first | rfl | simp [operatorName] at same

namespace Condition

theorem isPlain_operand {condition : Condition} (plain : condition.isPlain = true) :
    condition.operand.isPlain = true := by
  cases condition with
  | compare operator operand => exact plain
  | isNull | notNull => rfl

/-- Conditions that the store decides by the same comparison with the same value ask for the
same. -/
theorem alike_of_operator_eq {first second : Condition}
    (operators : first.operator = second.operator) (operands : first.operand.Alike second.operand) :
    first.Alike second := by
  cases first with
  | compare operator operand =>
      cases second with
      | compare =>
          cases operators
          exact .compare operator operands
      | isNull =>
          cases operators
          cases operands
          exact .equal_isNull
      | notNull =>
          cases operators
          cases operands
          exact .notEqual_notNull
  | isNull =>
      cases second with
      | compare =>
          cases operators
          cases operands
          exact .isNull_equal
      | isNull => exact .isNull
      | notNull => cases operators
  | notNull =>
      cases second with
      | compare =>
          cases operators
          cases operands
          exact .notNull_notEqual
      | isNull => cases operators
      | notNull => exact .notNull

theorem alike_of_document_eq {first second : Condition} (plain : first.isPlain = true)
    (same : first.document .canonical = second.document .canonical) : first.Alike second := by
  rw [document_eq, document_eq, ← Value.encode_eq_json, ← Value.encode_eq_json] at same
  rcases Json.single_inj.mp same with ⟨names, operands⟩
  exact alike_of_operator_eq (Comparison.operatorName_injective names)
    (Value.alike_of_encode_eq (isPlain_operand plain) operands)

/-- The document of a condition is an object. -/
theorem document_ne_array (mode : EncodingMode) (condition : Condition) (items : List Json) :
    condition.document mode ≠ .array items := by
  rw [document_eq, Json.single]
  intro same
  cases same

end Condition

/-! ## Filters -/

theorem Logical.name_injective : Function.Injective name := by
  intro first second same
  cases first <;> cases second <;> first | rfl | simp [name] at same

namespace Filter

theorem forall₂_alike_of_map_document_eq {first second : List Filter}
    (each : ∀ filter ∈ first, ∀ other : Filter,
      filter.document .canonical = other.document .canonical → filter.Alike other)
    (same : first.map (document .canonical) = second.map (document .canonical)) :
    List.Forall₂ Alike first second := by
  induction first generalizing second with
  | nil =>
      rw [List.map_nil, eq_comm, List.map_eq_nil_iff] at same
      rw [same]
      exact .nil
  | cons filter first ih =>
      cases second with
      | nil => cases same
      | cons other second =>
          rw [List.map_cons, List.map_cons, List.cons.injEq] at same
          have later : ∀ filter ∈ first, ∀ other : Filter,
              filter.document .canonical = other.document .canonical → filter.Alike other :=
            fun filter member => each filter (List.mem_cons_of_mem _ member)
          exact .cons (each filter List.mem_cons_self other same.1) (ih later same.2)

theorem alike_of_document_eq {first second : Filter}
    (plain : ∀ found ∈ first.conditions, found.condition.isPlain = true)
    (same : first.document .canonical = second.document .canonical) : first.Alike second := by
  induction first using inductionOn generalizing second with
  | field path sensitive condition =>
      cases second with
      | field otherPath otherSensitive otherCondition =>
          rcases Json.single_inj.mp same with ⟨rfl, documents⟩
          have plainCondition := plain ⟨path, sensitive, condition⟩ (by simp [conditions])
          exact .field path sensitive otherSensitive
            (Condition.alike_of_document_eq plainCondition documents)
      | logical operator operands =>
          -- A condition is an object even under the name of a logical operator.
          rw [document_logical] at same
          exact absurd (Json.single_inj.mp same).2 (condition.document_ne_array _ _)
  | logical operator operands ih =>
      rw [document_logical] at same
      cases second with
      | field path sensitive condition =>
          exact absurd (Json.single_inj.mp same).2.symm (condition.document_ne_array _ _)
      | logical otherOperator otherOperands =>
          rw [document_logical] at same
          rcases Json.single_inj.mp same with ⟨names, arrays⟩
          rw [Json.array.injEq] at arrays
          cases Logical.name_injective names
          refine .logical operator (forall₂_alike_of_map_document_eq ?_ arrays)
          intro operand member other sameDocument
          apply ih operand member _ sameDocument
          exact fun found membership => plain found (mem_conditions_logical member membership)

/-- Filters whose operands are plain ask for the same if they have the same canonical document,
whatever their paths are. -/
theorem alike_of_toDocument_eq {first second : Filter}
    (plain : ∀ found ∈ first.conditions, found.condition.isPlain = true)
    (same : first.toDocument .canonical = second.toDocument .canonical) : first.Alike second := by
  rw [toDocument_eq_ok, toDocument_eq_ok, Except.ok.injEq] at same
  exact alike_of_document_eq plain same

/-- A negation over a field with the name of an operator, a null check and a zero. -/
def roundPrices : Filter :=
  .logical .nor
    [.field "$and" true (.compare .greater (.decimal ⟨5, -2⟩)), .field "title" false .isNull,
      .field "rate" true (.compare .notEqual (.decimal ⟨0, 3⟩))]

/-- The same negation, written with other scales and a comparison with null. -/
def roundPricesAgain : Filter :=
  .logical .nor
    [.field "$and" false (.compare .greater (.decimal ⟨500, 0⟩)),
      .field "title" true (.compare .equal .null),
      .field "rate" true (.compare .notEqual (.decimal ⟨0, 0⟩))]

theorem alike_roundPrices :
    (∀ found ∈ roundPrices.conditions, found.condition.isPlain = true) ∧
      roundPrices.toDocument .canonical = roundPricesAgain.toDocument .canonical ∧
      roundPrices ≠ roundPricesAgain ∧ roundPrices.Alike roundPricesAgain := by
  have plain : ∀ found ∈ roundPrices.conditions, found.condition.isPlain = true := by decide
  have same : roundPrices.toDocument .canonical = roundPricesAgain.toDocument .canonical := by
    rw [toDocument_eq_ok, toDocument_eq_ok]
    rfl
  refine ⟨plain, same, ?_, alike_of_toDocument_eq plain same⟩
  intro equal
  cases equal

end Filter

end DocumentQuery
