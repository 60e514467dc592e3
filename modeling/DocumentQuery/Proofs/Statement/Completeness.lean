import DocumentQuery.Proofs.Statement.Precedence

/-!
# Every statement can be written

However a statement is spelled and laid out, reading the text gives the statement back.
-/

namespace DocumentQuery.Statement

open Grammar Grammar.Phrase Grammar.Rule

/-- Whether a statement can be written: the names in it are identifiers, and its condition
nests as the connectives bind. -/
structure IsWellShaped (statement : Statement) : Prop where
  shaped : ∀ token ∈ statement.tokens, token.IsShaped
  nested : ∀ predicate, statement.condition = some predicate → predicate.isNested = true

/-- The texts of a statement: its tokens with layout between them, and perhaps layout
around them. -/
def IsWrittenAs (statement : Statement) (text : List Char) : Prop :=
  ∃ front body, Layout front ∧ Spells statement.tokens body ∧ text = front ++ body

/-- The fragments of the parts of a statement. -/
def parts (statement : Statement) : List Fragment :=
  [.mark .kwFrom] ++ ([.name statement.entity.bare] ++
    ((statement.aliasName.map fun aliasName => Fragment.name aliasName.bare).toList ++
      ((statement.condition.map fun predicate => Fragment.predicate predicate.bare).toList ++
        [.mark .endOfInput])))

theorem ofPhrase_parts (statement : Statement) :
    Fragment.ofPhrase .statement .nowhere statement.parts = .ok (.statement statement.bare) := by
  rcases statement with ⟨entity, aliasName, condition, span⟩
  cases aliasName <;> cases condition <;> rfl

variable {depth : Nat}

/-- An alias may be missing where a condition or the end of the text follows. -/
theorem accepts_aliasName (aliasName : Option Identifier) {others : List Token}
    (keyword : ∀ token, others.head? = some token → ∃ word, token = .keyword word) :
    Accepts ((optional (rule .name)).run (read (depth + 2)))
      (aliasName.map fun aliasName => Token.name aliasName.name).toList others
      (aliasName.map fun aliasName => Fragment.name aliasName.bare).toList := by
  cases aliasName with
  | none => exact accepts_optional_nothing (refuses_rule (refuses_name keyword))
  | some aliasName => exact accepts_optional (accepts_rule (accepts_name aliasName.name))

theorem accepts_condition {condition : Option Predicate}
    (nested : ∀ predicate, condition = some predicate → predicate.isNested = true)
    (deep : ∀ predicate, condition = some predicate →
      10 * predicate.tokens.length + 2 ≤ depth) :
    Accepts ((optional (rule .whereClause)).run (read (depth + 2)))
      ((condition.map fun predicate => .keyword "where" :: predicate.tokens).getD []) []
      (condition.map fun predicate => Fragment.predicate predicate.bare).toList := by
  cases condition with
  | none =>
      apply accepts_optional_nothing
      apply refuses_rule
      exact refuses_phrase rfl (refuses_seq_first (refuses_rule (refuses_keyword rfl nofun)))
  | some predicate =>
      apply accepts_optional
      apply accepts_rule
      exact accepts_whereClause (nested predicate rfl) (deep predicate rfl) (by simp [Level.Closes])

/-- Behind the start of the text a statement is accepted. -/
theorem accepts_parts {statement : Statement}
    (nested : ∀ predicate, statement.condition = some predicate → predicate.isNested = true)
    (deep : 10 * statement.tokens.length ≤ depth) :
    Accepts ((sequence (rule .kwFrom) [rule .name, optional (rule .name),
      optional (rule .whereClause), rule .endOfInput]).run (read (depth + 2)))
      statement.tokens [] statement.parts := by
  rcases statement with ⟨entity, aliasName, condition, span⟩
  have conditionDeep : ∀ predicate, condition = some predicate →
      10 * predicate.tokens.length + 2 ≤ depth := by
    rintro predicate rfl
    simp only [tokens, List.length_cons, List.length_append, Option.map_some,
      Option.getD_some] at deep
    omega
  have keyword : ∀ token, ((condition.map fun predicate : Predicate =>
      Token.keyword "where" :: predicate.tokens).getD []).head? = some token →
        ∃ word, token = .keyword word := by
    intro token first
    cases condition with
    | none => cases first
    | some predicate =>
        cases first
        exact ⟨"where", rfl⟩
  have finish : Accepts (read (depth + 2) .endOfInput) [] [] [.mark .endOfInput] :=
    accepts_endOfInput
  have clause := accepts_seq (accepts_condition nested conditionDeep) (accepts_rule finish)
  rw [List.append_nil] at clause
  rw [← List.append_nil (Option.getD _ _)] at keyword
  exact accepts_token_seq (accepts_keyword rfl) (accepts_token_seq (accepts_name entity.name)
    (accepts_seq (accepts_aliasName aliasName keyword) clause))

/-- The rule of statements reads its tokens behind any layout at the start of a text. -/
theorem ends_read_statement {statement : Statement} {front body : List Char}
    (nested : ∀ predicate, statement.condition = some predicate → predicate.isNested = true)
    (layout : Layout front) (written : Written statement.tokens body)
    (deep : 10 * statement.tokens.length ≤ depth) :
    ∃ next node later,
      read (depth + 3) .statement (.ofText (front ++ body)) .none = (some (next, [node]), later) ∧
        Ends [] [.statement statement.bare] next [node] := by
  let start : Cursor := .ofText (front ++ body)
  have skipped : start.skip.rest = body := written.rest_skip_layout layout .start
  have tokensWritten : Written (statement.tokens ++ []) start.skip.rest := by
    rw [List.append_nil, skipped]
    exact written
  rcases accepts_parts nested deep start.skip tokensWritten .none with
    ⟨next, trees, later, partsRun, ends⟩
  have phraseRun := run_startOfInput_seq (show start.position.offset = 0 from rfl) partsRun
  rcases ends_read_phrase rfl rfl (ofPhrase_parts statement) phraseRun ends with
    ⟨node, nodeRun, nodeEnds⟩
  exact ⟨next, node, later, nodeRun, nodeEnds⟩

theorem ofTrees_of_ends {statement : Statement} {next : Cursor} {trees : List Tree}
    (ends : Ends [] [.statement statement.bare] next trees) :
    ∃ parsed, ofTrees trees = .ok parsed ∧ parsed.bare = statement.bare := by
  rcases ends with ⟨_, found, built, bare⟩
  rcases List.map_eq_singleton_iff.mp bare with ⟨fragment, rfl, fragmentBare⟩
  rcases Fragment.bare_eq_statement.mp fragmentBare with ⟨parsed, rfl, parsedBare⟩
  exact ⟨parsed, by simp only [ofTrees, built], parsedBare⟩

/-- However a statement is spelled and laid out, its text is read as the statement, up to
the places of its nodes. -/
theorem parse_of_isWrittenAs {statement : Statement} {text : String}
    (wellShaped : statement.IsWellShaped) (writtenAs : statement.IsWrittenAs text.toList) :
    ∃ parsed, Statement.parse text = .ok parsed ∧ parsed.bare = statement.bare := by
  rcases writtenAs with ⟨front, body, layout, spells, same⟩
  have written : Written statement.tokens body := ⟨wellShaped.shaped, spells⟩
  have fewTokens := written.length_le
  have longText : body.length ≤ text.toList.length := by
    rw [same, List.length_append]
    exact Nat.le_add_left _ _
  have bound : depthBound text.toList = 38 * (text.toList.length + 1) := rfl
  rcases Nat.exists_eq_add_of_le' (show 3 ≤ depthBound text.toList by omega) with ⟨depth, enough⟩
  rcases ends_read_statement wellShaped.nested layout written (show _ ≤ depth by omega) with
    ⟨next, node, later, statementRun, ends⟩
  rcases ofTrees_of_ends ends with ⟨parsed, made, parsedBare⟩
  refine ⟨parsed, ?_, parsedBare⟩
  -- To derive the equations of these definitions would run the parser.
  delta Statement.parse Rule.parse
  rw [enough, same, statementRun]
  exact made

/-- The entities `Where`, called `notes`, with the condition
`not notes.order <> 'it''s' or (lower(island) >= -7L)`. -/
def keywordsInNames : Statement where
  entity := ⟨"Where", .nowhere⟩
  aliasName := some ⟨"notes", .nowhere⟩
  condition := some (.junction .or
    [.negation (.comparison (.attribute ["notes", "order"]) .notEqual
        (.constant (.string "it's")) .nowhere) .nowhere,
      .group (.comparison (.call "lower" [.attribute ["island"]] .nowhere) .greaterOrEqual
        (.constant (.long (-7))) .nowhere) .nowhere] .nowhere)
  span := .nowhere

def keywordsInNamesText : String :=
  "-- all\nFrom `Where` notes-- or\nWHERE Not notes.order != 'it''s' " ++
    "oR ( lower ( island ) >= -7l ) --"

theorem spells_keywordsInNames : Spells keywordsInNames.tokens
    ("From".toList ++ (" ".toList ++ ("`Where`".toList ++ (" ".toList ++ ("notes".toList ++
      ("-- or\n".toList ++ ("WHERE".toList ++ (" ".toList ++ ("Not".toList ++ (" ".toList ++
      ("notes.order".toList ++ (" ".toList ++ ("!=".toList ++ (" ".toList ++ ("'it''s'".toList ++
      (" ".toList ++ ("oR".toList ++ (" ".toList ++ ("(".toList ++ (" ".toList ++
      ("lower".toList ++ (" ".toList ++ ("(".toList ++ (" ".toList ++ ("island".toList ++
      (" ".toList ++ (")".toList ++ (" ".toList ++ (">=".toList ++ (" ".toList ++ ("-7l".toList ++
      (" ".toList ++ (")".toList ++ " --".toList))))))))))))))))))))))))))))))))) := by
  have blank : Layout " ".toList := .blank (Or.inl rfl) .none
  have apart : " ".toList ≠ [] := List.cons_ne_nil _ _
  have comment : Layout "-- or\n".toList :=
    Layout.comment (show '\n' ∉ " or".toList by decide) .none
  have finish : FinalLayout " --".toList := Or.inr ⟨" ".toList, [], blank, nofun, rfl⟩
  have numeral : Pattern.IsNumeral "-7l".toList :=
    ⟨['-'], ['7'], [], ['l'], rfl, Or.inr rfl, ⟨List.cons_ne_nil _ _, by simp⟩, Or.inl rfl,
      Or.inr ⟨"l", by decide, rfl⟩⟩
  refine .next rfl blank apart (.next (Or.inl rfl) blank apart ?_)
  refine .next (Or.inr ⟨rfl, rfl⟩) comment (List.cons_ne_nil _ _) (.next rfl blank apart ?_)
  refine .next rfl blank apart (.next rfl blank apart (.next (Or.inr ⟨rfl, rfl⟩) blank apart ?_))
  refine .next ⟨'\'', Or.inl rfl, rfl⟩ blank apart (.next rfl blank apart ?_)
  refine .next rfl blank apart (.next rfl blank apart (.next rfl blank apart ?_))
  refine .next rfl blank apart (.next rfl blank apart (.next (Or.inl rfl) blank apart ?_))
  exact .next ⟨numeral, rfl⟩ blank apart (.last rfl finish)

/-- Names may be or start like keywords, and comments may hold them. -/
theorem parse_keywordsInNamesText :
    keywordsInNames.IsWellShaped ∧ keywordsInNames.IsWrittenAs keywordsInNamesText.toList ∧
      ∃ parsed, Statement.parse keywordsInNamesText = .ok parsed ∧
        parsed.bare = keywordsInNames.bare := by
  have nested : ∀ predicate, keywordsInNames.condition = some predicate →
      predicate.isNested = true := by
    rintro predicate ⟨⟩
    rfl
  have wellShaped : keywordsInNames.IsWellShaped := ⟨by decide, nested⟩
  have front : Layout "-- all\n".toList :=
    Layout.comment (show '\n' ∉ " all".toList by decide) .none
  have writtenAs : keywordsInNames.IsWrittenAs keywordsInNamesText.toList :=
    ⟨"-- all\n".toList, _, front, spells_keywordsInNames, by decide +kernel⟩
  exact ⟨wellShaped, writtenAs, parse_of_isWrittenAs wellShaped writtenAs⟩

end DocumentQuery.Statement
