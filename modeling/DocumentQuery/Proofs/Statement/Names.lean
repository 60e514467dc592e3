import DocumentQuery.Proofs.Grammar.Location
import DocumentQuery.Proofs.Statement.Completeness

/-!
# Names that are written and read

A name is written between backquotes where the grammar would take it for a keyword.  The words
that are reserved for this are just those that the grammar reads as keywords, so a name that is
written is always read back.
-/

namespace DocumentQuery

open Grammar Grammar.Rule

/-! ## Rules that read all of a text -/

namespace Grammar.Rule

/-- Whether a rule reads a text to its end. -/
def ReadsAll (rule : Rule) (text : List Char) : Prop :=
  ∃ position trees, (rule.parse text).1 = some (⟨position, []⟩, trees)

theorem readsAll_iff {rule : Rule} {pattern : Pattern} (isToken : rule.body = .token pattern)
    (text : List Char) : rule.ReadsAll text ↔ pattern.after? text = some [] := by
  have bound : depthBound text = 38 * (text.length + 1) := rfl
  rcases Nat.exists_eq_add_of_le' (show 1 ≤ depthBound text by omega) with ⟨depth, enough⟩
  rw [ReadsAll, parse, enough]
  cases matched : pattern.after? text with
  | none =>
      have refused : ∃ later, read (depth + 1) rule (.ofText text) .none = (none, later) :=
        read_of_after?_eq_none isToken matched .none
      rcases refused with ⟨later, failed⟩
      simp [failed]
  | some rest =>
      rcases pattern.isSuffix_of_after? _ _ matched with ⟨lexeme, rfl⟩
      have found : read (depth + 1) rule (.ofText (lexeme ++ rest)) .none = _ :=
        read_of_after? isToken matched .start .none
      simp [found]

variable {name : String}

theorem leadingRun_of_isShaped (shaped : Identifier.isShaped name.toList = true) :
    leadingRun name.toList = name.toList ∧ name.toList.dropWhile isIdentChar = [] := by
  have inside := ((Pattern.isShaped_iff _).mp shaped).2
  exact ⟨List.takeWhile_eq_self_iff.mpr inside, List.dropWhile_eq_nil_iff.mpr inside⟩

theorem readsAll_ident_iff (shaped : Identifier.isShaped name.toList = true) :
    Rule.ident.ReadsAll name.toList ↔ Identifier.isReserved name = false := by
  rcases leadingRun_of_isShaped shaped with ⟨run, nothing⟩
  rw [readsAll_iff rfl, Pattern.ident_after?_eq_some_iff, run, nothing, String.ofList_toList]
  simp [((Pattern.isShaped_iff _).mp shaped).1]

theorem readsAll_keyword_iff (shaped : Identifier.isShaped name.toList = true) :
    Rule.keyword.ReadsAll name.toList ↔ Identifier.isReserved name = true := by
  rcases leadingRun_of_isShaped shaped with ⟨run, nothing⟩
  rw [readsAll_iff rfl, Pattern.anyKeyword_after?_eq_some_iff, run, nothing,
    String.ofList_toList]
  simp

end Grammar.Rule

/-! ## Names of entities and aliases -/

/-- A name is spelled as it is written. -/
theorem Identifier.spelled_display {identifier : Identifier}
    (shaped : isShaped identifier.name.toList = true) :
    (Token.name identifier.name).Spelled identifier.display.toList := by
  rw [display, mustQuote, shaped]
  cases reserved : isReserved identifier.name with
  | false => exact Or.inr ⟨reserved, rfl⟩
  | true => exact Or.inl String.toList_ofList

namespace Statement

/-- A text that starts with the first token of a statement is read as the statement. -/
theorem parse_of_written {statement : Statement} {text : String}
    (nested : ∀ predicate, statement.condition = some predicate → predicate.isNested = true)
    (written : Written statement.tokens text.toList) :
    ∃ parsed, parse text = .ok parsed ∧ parsed.bare = statement.bare := by
  have fewTokens := written.length_le
  have bound : depthBound text.toList = 38 * (text.toList.length + 1) := rfl
  rcases Nat.exists_eq_add_of_le' (show 3 ≤ depthBound text.toList by omega) with ⟨depth, enough⟩
  rcases ends_read_statement nested .none written (show _ ≤ depth by omega) with
    ⟨next, node, later, statementRun, ends⟩
  rcases ofTrees_of_ends ends with ⟨parsed, made, parsedBare⟩
  refine ⟨parsed, ?_, parsedBare⟩
  delta parse Rule.parse
  rw [List.nil_append] at statementRun
  rw [enough, statementRun]
  exact made

theorem written_names {entity aliasName : Identifier} (span : Span)
    (entityShaped : Identifier.isShaped entity.name.toList = true)
    (aliasShaped : Identifier.isShaped aliasName.name.toList = true) :
    Written (tokens ⟨entity, some aliasName, none, span⟩)
      ("from " ++ entity.display ++ " " ++ aliasName.display).toList := by
  have blank : Layout " ".toList := .blank (Or.inl rfl) .none
  have apart : " ".toList ≠ [] := List.cons_ne_nil _ _
  have cut : ("from " ++ entity.display ++ " " ++ aliasName.display).toList =
      "from".toList ++ (" ".toList ++ (entity.display.toList ++ (" ".toList ++
        (aliasName.display.toList ++ [])))) := by
    simp
  have shaped : ∀ token ∈ tokens ⟨entity, some aliasName, none, span⟩, token.IsShaped := by
    simpa [tokens, Token.IsShaped, Identifier.reservedWords] using ⟨entityShaped, aliasShaped⟩
  rw [cut]
  refine ⟨shaped, .next rfl blank apart (.next (Identifier.spelled_display entityShaped) blank apart
    (.last (Identifier.spelled_display aliasShaped) (Or.inl .none)))⟩

/-- Names of the shape of identifiers are read back as they are written, whether they are reserved
or not.  A name is reserved just if the grammar reads all of it as a keyword, and otherwise all of
it is an identifier. -/
theorem names_read_back {entity aliasName : Identifier}
    (entityShaped : Identifier.isShaped entity.name.toList = true)
    (aliasShaped : Identifier.isShaped aliasName.name.toList = true) :
    (∃ statement found, parse ("from " ++ entity.display ++ " " ++ aliasName.display) =
        .ok statement ∧
      statement.entity.name = entity.name ∧ statement.aliasName = some found ∧
      found.name = aliasName.name ∧ statement.condition = none) ∧
    ∀ name : String, Identifier.isShaped name.toList = true →
      (Rule.ident.ReadsAll name.toList ↔ Identifier.isReserved name = false) ∧
      (Rule.keyword.ReadsAll name.toList ↔ Identifier.isReserved name = true) := by
  refine ⟨?_, fun name shaped => ⟨readsAll_ident_iff shaped, readsAll_keyword_iff shaped⟩⟩
  have noCondition : ∀ predicate, (none : Option Predicate) = some predicate →
      predicate.isNested = true := by
    intro predicate same
    cases same
  rcases parse_of_written noCondition (written_names .nowhere entityShaped aliasShaped) with
    ⟨statement, parsed, bare⟩
  rcases Option.map_eq_some_iff.mp (congrArg Statement.aliasName bare) with
    ⟨found, isAlias, foundBare⟩
  have entitySame := congrArg (·.entity.name) bare
  have aliasSame := congrArg Identifier.name foundBare
  have unconditional := Option.map_eq_none_iff.mp (congrArg Statement.condition bare)
  exact ⟨statement, found, parsed, entitySame, isAlias, aliasSame, unconditional⟩

/-- Both names are reserved, in a mixture of cases, and stand between backquotes. -/
theorem names_read_back_reserved :
    Identifier.isShaped "From".toList = true ∧ Identifier.isShaped "nOt".toList = true ∧
    (∃ statement found, parse "from `From` `nOt`" = .ok statement ∧
      statement.entity.name = "From" ∧ statement.aliasName = some found ∧ found.name = "nOt" ∧
      statement.condition = none) ∧
    Rule.keyword.ReadsAll "nOt".toList ∧ ¬ Rule.ident.ReadsAll "nOt".toList ∧
    Rule.ident.ReadsAll "nOtes".toList := by
  have entityShaped : Identifier.isShaped "From".toList = true := by decide
  have aliasShaped : Identifier.isShaped "nOt".toList = true := by decide
  have written : "from " ++ Identifier.display ⟨"From", .nowhere⟩ ++ " " ++
      Identifier.display ⟨"nOt", .nowhere⟩ = "from `From` `nOt`" := by decide
  have readBack := @names_read_back ⟨"From", .nowhere⟩ ⟨"nOt", .nowhere⟩ entityShaped aliasShaped
  rw [written] at readBack
  rcases readBack with ⟨parsed, rules⟩
  rcases rules "nOt" aliasShaped with ⟨identifier, keyword⟩
  refine ⟨entityShaped, aliasShaped, parsed, keyword.mpr (by decide), ?_, ?_⟩
  · rw [identifier]
    decide
  · exact (rules "nOtes" (by decide)).1.mpr (by decide)

end Statement

end DocumentQuery
