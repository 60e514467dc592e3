import DocumentQuery.Proofs.Statement.Acceptance

/-!
# The token rules

Which tokens each token rule accepts and what it makes of their spellings, and which
tokens it refuses.
-/

namespace DocumentQuery

/-! ## What spellings stand for -/

theorem Identifier.unquote_quoted (name : List Char) :
    unquote (Grammar.Pattern.backquote :: name ++ [Grammar.Pattern.backquote]) = name := by
  simp [unquote]

theorem Identifier.unquote_of_isShaped {name : List Char} (shaped : isShaped name = true) :
    unquote name = name := by
  cases name with
  | nil => cases shaped
  | cons c name =>
      have notQuote : c ≠ Grammar.Pattern.backquote := by
        rintro rfl
        cases shaped
      simp [unquote, notQuote]

namespace AttributePath

theorem splitAt_eq_splitOn (mark : Char) (text : List Char) :
    splitAt mark text = text.splitOn mark := by
  rw [List.splitOn]
  induction text with
  | nil => rfl
  | cons c text ih =>
      rw [splitAt, List.splitOnP_cons_eq_if_modifyHead, ih]
      by_cases same : c = mark
      · simp [same]
      · rw [if_neg same, if_neg (by simpa using same)]
        cases pieces : text.splitOnP (· == mark) with
        | nil => exact absurd pieces (List.splitOnP_ne_nil _ _)
        | cons first others => rfl

/-- Cutting a path at its points gives its segments back. -/
theorem ofText_intercalate {segments : List String} (nonempty : segments ≠ [])
    (plain : ∀ name ∈ segments, Grammar.IsPlain name) (span : Span) :
    ofText (".".intercalate segments).toList span = ⟨segments, span⟩ := by
  have noPoint : ∀ piece ∈ segments.map String.toList, '.' ∉ piece := by
    intro piece member point
    rcases List.mem_map.mp member with ⟨name, nameMember, rfl⟩
    have inside := ((Grammar.Pattern.isShaped_iff _).mp (plain name nameMember).1).2
    cases inside '.' point
  have pieces : (".".intercalate segments).toList.splitOn '.' = segments.map String.toList := by
    rw [String.toList_intercalate]
    exact List.splitOn_intercalate '.' noPoint (by simpa using nonempty)
  rw [ofText, splitAt_eq_splitOn, pieces]
  simp

end AttributePath

namespace Literal

/-- Reading doubled quotes as single ones gives the text back. -/
theorem undoubleQuotes_doubleQuotes (quote : Char) (text : List Char) :
    undoubleQuotes quote (doubleQuotes quote text) = text := by
  induction text with
  | nil => rfl
  | cons c text ih =>
      rw [doubleQuotes] at ih ⊢
      rw [List.flatMap_cons]
      by_cases same : c = quote
      · subst same
        rw [if_pos rfl]
        simp [undoubleQuotes, ih]
      · rw [if_neg same, List.cons_append, List.nil_append]
        -- The last character has no other one to be paired with.
        cases rest : text.flatMap fun c => if c = quote then [quote, quote] else [c] with
        | nil =>
            rw [rest] at ih
            rw [← ih]
            rfl
        | cons d others =>
            rw [rest] at ih
            simp [undoubleQuotes, same, ih]

theorem unquoteText?_quoteText (quote : Char) (text : List Char) :
    unquoteText? quote (quoteText quote text) = some text := by
  simp [unquoteText?, quoteText, undoubleQuotes_doubleQuotes]

/-- A quoted string stands for what was quoted. -/
theorem ofQuoted_quoteText {quote : Char} (known : quote = '\'' ∨ quote = '"')
    (text : List Char) : ofQuoted (quoteText quote text) = string (String.ofList text) := by
  rcases known with rfl | rfl
  · rw [ofQuoted, unquoteText?_quoteText]
  · have other : unquoteText? '\'' (quoteText '"' text) = none := by
      simp [unquoteText?, quoteText]
    rw [ofQuoted, other, unquoteText?_quoteText]
    rfl

end Literal

/-! ## First characters -/

namespace Token

/-- Whether a token starts like an identifier, unless it is quoted. -/
def isWord : Token → Bool
  | keyword _ | name _ | function _ | path _ => true
  | mark _ | operator _ | string _ | number _ => false

theorem isWord_of_begins {token : Token} {c : Char} (shaped : token.IsShaped)
    (starts : token.begins c = true) (letter : Grammar.isIdentStart c = true) :
    token.isWord = true := by
  cases token with
  | keyword | name | function | path => rfl
  | mark sign =>
      rw [begins, beq_iff_eq] at starts
      subst starts
      rcases shaped with rfl | rfl | rfl <;> cases letter
  | operator comparison =>
      simp only [begins, Bool.or_eq_true, beq_iff_eq, or_assoc] at starts
      rcases starts with rfl | rfl | rfl | rfl <;> cases letter
  | string content =>
      simp only [begins, Bool.or_eq_true, beq_iff_eq] at starts
      rcases starts with rfl | rfl <;> cases letter
  | number value =>
      simp only [begins, Bool.or_eq_true, beq_iff_eq] at starts
      rcases starts with rfl | digit
      · cases letter
      · rw [Grammar.Pattern.isIdentStart_of_isDigit digit] at letter
        cases letter

theorem eq_mark_of_begins {token : Token} {sign : Char} (known : (mark sign).IsShaped)
    (starts : token.begins sign = true) : token = mark sign := by
  cases token with
  | mark other =>
      rw [begins, beq_iff_eq] at starts
      rw [starts]
  | keyword | name | function | path | operator | string | number =>
      rcases known with rfl | rfl | rfl <;> cases starts

theorem eq_string_of_begins {token : Token} {quote : Char} (shaped : token.IsShaped)
    (known : quote = '\'' ∨ quote = '"') (starts : token.begins quote = true) :
    ∃ content, token = string content := by
  cases token with
  | string content => exact ⟨content, rfl⟩
  | mark sign =>
      rw [begins, beq_iff_eq] at starts
      subst starts
      rcases shaped with rfl | rfl | rfl <;> simp at known
  | keyword | name | function | path | operator | number =>
      rcases known with rfl | rfl <;> cases starts

theorem eq_number_of_begins {token : Token} {c : Char} (shaped : token.IsShaped)
    (known : c = '-' ∨ c.isDigit = true) (starts : token.begins c = true) :
    ∃ value, token = number value := by
  have noLetter : Grammar.isIdentStart c = false := by
    rcases known with rfl | digit
    · rfl
    · exact Grammar.Pattern.isIdentStart_of_isDigit digit
  cases token with
  | number value => exact ⟨value, rfl⟩
  | keyword | function | path =>
      rw [begins, noLetter] at starts
      cases starts
  | name text =>
      rw [begins, noLetter, Bool.false_or, beq_iff_eq] at starts
      subst starts
      exact absurd known (by decide)
  | mark sign =>
      rw [begins, beq_iff_eq] at starts
      subst starts
      rcases shaped with rfl | rfl | rfl <;> exact absurd known (by decide)
  | operator comparison =>
      simp only [begins, Bool.or_eq_true, beq_iff_eq, or_assoc] at starts
      rcases starts with rfl | rfl | rfl | rfl <;> exact absurd known (by decide)
  | string content =>
      simp only [begins, Bool.or_eq_true, beq_iff_eq] at starts
      rcases starts with rfl | rfl <;> exact absurd known (by decide)

end Token

namespace Grammar.Rule

variable {depth : Nat} {rule : Rule} {tokens others : List Token}

/-! ## Keywords and marks -/

/-- The word of a keyword. -/
def word? : Rule → Option String
  | kwFrom => some "from"
  | kwWhere => some "where"
  | kwAnd => some "and"
  | kwOr => some "or"
  | kwNot => some "not"
  | kwIs => some "is"
  | kwNull => some "null"
  | kwTrue => some "true"
  | kwFalse => some "false"
  | _ => none

theorem body_of_word? {word : String} (keyword : rule.word? = some word) :
    rule.body = .token (.keyword word) ∧ rule.isSilent = false ∧
      word ∈ Identifier.reservedWords ∧
      ∀ span lexeme, Fragment.ofToken rule span lexeme = .ok (.mark rule) := by
  cases rule with
  | kwFrom | kwWhere | kwAnd | kwOr | kwNot | kwIs | kwNull | kwTrue | kwFalse =>
      cases keyword
      exact ⟨rfl, rfl, by decide, fun _ _ => rfl⟩
  | _ => cases keyword

theorem leadingRun_keyword {word : String} (reserved : word ∈ Identifier.reservedWords)
    {lexeme rest : List Char} (folded : lexeme.map Char.toLower = word.toList)
    (ends : AtEnd rest) :
    leadingRun (lexeme ++ rest) = lexeme ∧ (lexeme ++ rest).dropWhile isIdentChar = rest := by
  have inside : ∀ c ∈ lexeme, isIdentChar c = true := by
    intro c member
    apply isIdentChar_of_toLower
    apply Pattern.isIdentChar_of_reserved word reserved
    rw [← folded]
    exact List.mem_map_of_mem member
  have boundary := ends.any_eq_false fun _ => isIdentChar_of_opensLayout
  exact ⟨takeWhile_run inside boundary, dropWhile_run inside boundary⟩

/-- A keyword is accepted in every mixture of cases. -/
theorem accepts_keyword {word : String} (keyword : rule.word? = some word) :
    Accepts (read (depth + 1) rule) [.keyword word] others [.mark rule] := by
  rcases body_of_word? keyword with ⟨isToken, speaks, reserved, formed⟩
  apply accepts_token isToken speaks
  · intro lexeme rest _ spelled ends
    rcases leadingRun_keyword reserved spelled ends with ⟨run, dropped⟩
    apply (Pattern.keyword_after?_eq_some_iff (Pattern.isIdentChar_of_reserved word reserved)).mpr
    rw [run, dropped]
    exact ⟨spelled, rfl⟩
  · intro lexeme span _ _
    exact ⟨_, formed span lexeme, rfl⟩

/-- A reserved word starts like an identifier. -/
theorem head?_of_leadingRun {word : String} (reserved : word ∈ Identifier.reservedWords)
    {text : List Char} (folded : (leadingRun text).map Char.toLower = word.toList) :
    text.head?.any isIdentStart = true := by
  have starts := Token.isIdentStart_of_reserved word reserved
  rw [← folded] at starts
  cases text with
  | nil => cases starts
  | cons c rest =>
      rw [leadingRun, List.takeWhile_cons] at starts
      split at starts
      next => exact isIdentStart_of_toLower starts
      next => cases starts

theorem not_leadingRun_plain {name : String} (plain : IsPlain name) {rest : List Char}
    (boundary : rest.head?.any isIdentChar = false) {word : String}
    (reserved : word ∈ Identifier.reservedWords) :
    (leadingRun (name.toList ++ rest)).map Char.toLower ≠ word.toList := by
  intro folded
  have inside := ((Pattern.isShaped_iff _).mp plain.1).2
  rw [leadingRun, takeWhile_run inside boundary] at folded
  have isReserved := (Pattern.isReserved_iff name.toList).mpr ⟨word, reserved, folded⟩
  rw [String.ofList_toList, plain.2] at isReserved
  cases isReserved

/-- Where a reserved word is the leading run, it is the first token. -/
theorem head?_eq_keyword {text : List Char} (written : Written tokens text) {word : String}
    (reserved : word ∈ Identifier.reservedWords)
    (folded : (leadingRun text).map Char.toLower = word.toList) :
    tokens.head? = some (.keyword word) := by
  have starts := head?_of_leadingRun reserved folded
  cases tokens with
  | nil =>
      rw [written.eq_nil] at starts
      cases starts
  | cons token tokens =>
      rcases written.uncons with ⟨lexeme, rest, rfl, shaped, spelled, ends, _⟩
      have boundary := ends.any_eq_false fun _ => isIdentChar_of_opensLayout
      rcases Token.exists_cons_of_spelled shaped spelled with ⟨c, others, rfl, begins⟩
      have isWord := Token.isWord_of_begins shaped begins starts
      cases token with
      | keyword other =>
          rw [(leadingRun_keyword shaped spelled ends).1] at folded
          have same : other = word := String.toList_inj.mp (spelled.symm.trans folded)
          rw [same]
          rfl
      | function name =>
          rw [show c :: others = name.toList from spelled] at folded
          exact absurd folded (not_leadingRun_plain shaped boundary reserved)
      | name name =>
          rcases spelled with quoted | ⟨unreserved, bare⟩
          · cases quoted
            cases starts
          · rw [bare] at folded
            exact absurd folded (not_leadingRun_plain ⟨shaped, unreserved⟩ boundary reserved)
      | path segments =>
          rcases shaped with ⟨nonempty, plain⟩
          rcases List.exists_cons_of_ne_nil nonempty with ⟨first, later, rfl⟩
          rw [show c :: others = _ from spelled, Pattern.toList_intercalate_point,
            List.append_assoc] at folded
          exact absurd folded (not_leadingRun_plain (plain first List.mem_cons_self)
            (Pattern.head?_laterSegments_any later boundary) reserved)
      | mark | operator | string | number => cases isWord

/-- A keyword is refused unless it is the first token. -/
theorem refuses_keyword {word : String} (keyword : rule.word? = some word)
    (other : tokens.head? ≠ some (.keyword word)) : Refuses (read (depth + 1) rule) tokens := by
  rcases body_of_word? keyword with ⟨isToken, _, reserved, _⟩
  apply refuses_token isToken
  intro text written
  apply Option.eq_none_iff_forall_ne_some.mpr
  intro rest matched
  have plain := Pattern.isIdentChar_of_reserved word reserved
  have folded := ((Pattern.keyword_after?_eq_some_iff plain).mp matched).1
  exact other (head?_eq_keyword written reserved folded)

/-! ## Marks -/

/-- A text starts as its first token does. -/
theorem exists_begins {text : List Char} (written : Written tokens text) {c : Char}
    (head : text.head? = some c) :
    ∃ token, tokens.head? = some token ∧ token.IsShaped ∧ token.begins c = true := by
  cases tokens with
  | nil =>
      rw [written.eq_nil] at head
      cases head
  | cons token tokens =>
      rcases written.exists_lexeme with ⟨lexeme, rest, rfl, shaped, spelled⟩
      rcases Token.exists_cons_of_spelled shaped spelled with ⟨c, others, rfl, begins⟩
      cases head
      exact ⟨token, rfl, shaped, begins⟩

theorem refuses_sign {sign : Char} (isToken : rule.body = .token (.exactly [sign]))
    (known : (Token.mark sign).IsShaped) (other : tokens.head? ≠ some (.mark sign)) :
    Refuses (read (depth + 1) rule) tokens := by
  apply refuses_token isToken
  intro text written
  apply Pattern.exactly_singleton_after?_eq_none
  intro head
  rcases exists_begins written head with ⟨token, first, _, begins⟩
  rw [Token.eq_mark_of_begins known begins] at first
  exact other first

theorem accepts_sign {sign : Char} (isToken : rule.body = .token (.exactly [sign]))
    (speaks : rule.isSilent = false)
    (formed : ∀ span lexeme, Fragment.ofToken rule span lexeme = .ok (.mark rule)) :
    Accepts (read (depth + 1) rule) [.mark sign] others [.mark rule] := by
  apply accepts_token isToken speaks
  · intro lexeme rest _ spelled _
    rw [show lexeme = [sign] from spelled]
    exact Pattern.exactly_after?_append [sign] rest
  · intro lexeme span _ _
    exact ⟨_, formed span lexeme, rfl⟩

/-! ## Literals -/

theorem refuses_litString (other : ∀ content, tokens.head? ≠ some (.string content)) :
    Refuses (read (depth + 1) .litString) tokens := by
  have noQuote : ∀ text, Written tokens text → ∀ quote, quote = '\'' ∨ quote = '"' →
      text.head? ≠ some quote := by
    intro text written quote known head
    rcases exists_begins written head with ⟨token, first, shaped, begins⟩
    rcases Token.eq_string_of_begins shaped known begins with ⟨content, rfl⟩
    exact other content first
  apply refuses_token rfl
  intro text written
  exact Pattern.litString_after?_eq_none (noQuote text written _ (Or.inl rfl))
    (noQuote text written _ (Or.inr rfl))

theorem refuses_litNumber (other : ∀ value, tokens.head? ≠ some (.number value)) :
    Refuses (read (depth + 1) .litNumber) tokens := by
  have noNumber : ∀ text, Written tokens text → ∀ c, c = '-' ∨ c.isDigit = true →
      text.head? ≠ some c := by
    intro text written c known head
    rcases exists_begins written head with ⟨token, first, shaped, begins⟩
    rcases Token.eq_number_of_begins shaped known begins with ⟨value, rfl⟩
    exact other value first
  apply refuses_token rfl
  intro text written
  apply Pattern.litNumber_after?_eq_none (noNumber text written _ (Or.inl rfl))
  cases head : text.head? with
  | none => rfl
  | some c =>
      cases digit : c.isDigit with
      | false => exact digit
      | true => exact absurd head (noNumber text written c (Or.inr digit))

theorem accepts_litString (content : String) :
    Accepts (read (depth + 1) .litString) [.string content] others
      [.expression (.literal (.string content) .nowhere)] := by
  apply accepts_token rfl rfl
  · rintro lexeme rest _ ⟨quote, known, rfl⟩ ends
    apply Pattern.litString_after?_append known
    rcases known with rfl | rfl <;> exact ends.head?_ne rfl
  · rintro lexeme span _ ⟨quote, known, rfl⟩
    refine ⟨_, rfl, ?_⟩
    rw [Literal.ofQuoted_quoteText known, String.ofList_toList]
    rfl

theorem accepts_litNumber (value : Literal) :
    Accepts (read (depth + 1) .litNumber) [.number value] others
      [.expression (.literal value .nowhere)] := by
  apply accepts_token rfl rfl
  · rintro lexeme rest _ ⟨numeral, _⟩ ends
    exact Pattern.litNumber_after?_append numeral ends
  · rintro lexeme span _ ⟨_, converts⟩
    exact ⟨_, by simp only [Fragment.ofToken, converts]; rfl, rfl⟩

/-! ## Operators and the end -/

theorem ofSymbol?_of_spelled {comparison : Comparison} {lexeme : List Char}
    (spelled : (Token.operator comparison).Spelled lexeme) :
    Comparison.ofSymbol? lexeme = some comparison := by
  rcases spelled with rfl | ⟨rfl, rfl⟩
  · cases comparison <;> rfl
  · rfl

theorem accepts_compOp (comparison : Comparison) :
    Accepts (read (depth + 1) .compOp) [.operator comparison] others [.operator comparison] := by
  apply accepts_token rfl rfl
  · intro lexeme rest _ spelled ends
    exact Pattern.compOp_after?_append ⟨comparison, spelled⟩ ends
  · intro lexeme span _ spelled
    exact ⟨_, by simp only [Fragment.ofToken, ofSymbol?_of_spelled spelled]; rfl, rfl⟩

/-- The text ends where there are no more tokens. -/
theorem accepts_endOfInput :
    Accepts (read (depth + 1) .endOfInput) [] [] [.mark .endOfInput] := by
  rintro ⟨position, text⟩ written attempts
  have empty : text = [] := written.eq_nil
  subst empty
  exact ⟨_, _, _, rfl, written, _, rfl, rfl⟩

/-! ## Names and paths -/

theorem accepts_ident (name : String) :
    Accepts (read (depth + 1) .ident) [.function name] others [.name ⟨name, .nowhere⟩] := by
  apply accepts_token rfl rfl
  · intro lexeme rest shaped spelled ends
    rw [show lexeme = name.toList from spelled]
    exact Pattern.ident_after?_append shaped
      (ends.any_eq_false fun _ => isIdentChar_of_opensLayout)
  · intro lexeme span shaped spelled
    refine ⟨_, rfl, ?_⟩
    rw [show lexeme = name.toList from spelled, Identifier.ofWritten,
      Identifier.unquote_of_isShaped shaped.1, String.ofList_toList]
    rfl

theorem accepts_dottedIdent (segments : List String) :
    Accepts (read (depth + 1) .dottedIdent) [.path segments] others
      [.expression (.path ⟨segments, .nowhere⟩ .nowhere)] := by
  apply accepts_token rfl rfl
  · rintro lexeme rest ⟨nonempty, plain⟩ spelled ends
    rcases List.exists_cons_of_ne_nil nonempty with ⟨first, later, rfl⟩
    rw [show lexeme = _ from spelled, Pattern.toList_intercalate_point]
    exact Pattern.dottedIdent_after?_append plain
      (ends.any_eq_false fun _ => isIdentChar_of_opensLayout) (ends.head?_ne rfl)
  · rintro lexeme span ⟨nonempty, plain⟩ spelled
    refine ⟨_, rfl, ?_⟩
    rw [show lexeme = _ from spelled, AttributePath.ofText_intercalate nonempty plain]
    rfl

/-- No identifier starts with a keyword or where no word starts. -/
theorem ident_after?_eq_none {text : List Char} (written : Written tokens text)
    (other : ∀ token, tokens.head? = some token →
      token.isWord = false ∨ ∃ word, token = .keyword word) :
    Pattern.ident.after? text = none := by
  apply Option.eq_none_iff_forall_ne_some.mpr
  intro rest matched
  rcases Pattern.ident_after?_eq_some_iff.mp matched with ⟨unreserved, starts, _⟩
  cases tokens with
  | nil =>
      rw [written.eq_nil] at starts
      cases starts
  | cons token tokens =>
      rcases written.uncons with ⟨lexeme, rest, rfl, shaped, spelled, ends, _⟩
      rcases Token.exists_cons_of_spelled shaped spelled with ⟨c, others, rfl, begins⟩
      have isWord := Token.isWord_of_begins shaped begins starts
      rcases other token rfl with noWord | ⟨word, rfl⟩
      · rw [noWord] at isWord
        cases isWord
      · have reserved := (Pattern.isReserved_iff _).mpr ⟨word, shaped, spelled⟩
        rw [(leadingRun_keyword shaped spelled ends).1, reserved] at unreserved
        cases unreserved

theorem refuses_ident
    (other : ∀ token, tokens.head? = some token →
      token.isWord = false ∨ ∃ word, token = .keyword word) :
    Refuses (read (depth + 1) .ident) tokens :=
  refuses_token rfl fun _ written => ident_after?_eq_none written other

theorem refuses_dottedIdent
    (other : ∀ token, tokens.head? = some token →
      token.isWord = false ∨ ∃ word, token = .keyword word) :
    Refuses (read (depth + 1) .dottedIdent) tokens := by
  apply refuses_token rfl
  intro text written
  rw [Pattern.dottedIdent, Pattern.after?, ident_after?_eq_none written other]

theorem quotedIdent_after?_of_isIdentStart {text : List Char}
    (starts : text.head?.any isIdentStart = true) : Pattern.quotedIdent.after? text = none := by
  apply Pattern.quotedIdent_after?_eq_none
  intro head
  rw [head] at starts
  cases starts

theorem bare_ofWritten {written : List Char} {name : String}
    (unquoted : Identifier.unquote written = name.toList) (span : Span) :
    (Fragment.name (.ofWritten written span)).bare = .name ⟨name, .nowhere⟩ := by
  rw [Identifier.ofWritten, unquoted, String.ofList_toList]
  rfl

/-- The name of an entity or an alias is accepted with and without backquotes. -/
theorem accepts_name (name : String) :
    Accepts (read (depth + 2) .name) [.name name] others [.name ⟨name, .nowhere⟩] := by
  rintro ⟨position, text⟩ written attempts
  rcases written.uncons with ⟨lexeme, rest, rfl, shaped, spelled, ends, follows⟩
  rcases spelled with rfl | ⟨unreserved, rfl⟩
  · have matched := Pattern.quotedIdent_after?_append shaped rest
    have quoted : (Phrase.either (.rule quotedIdent) (.rule ident)).run (read (depth + 1)) _
        attempts = _ := Phrase.run_either_first (read_of_after? rfl matched position attempts)
    refine ⟨_, _, _, read_silent rfl rfl quoted, follows _, _, rfl, ?_⟩
    exact congrArg (· :: []) (bare_ofWritten (Identifier.unquote_quoted name.toList) _)
  · have boundary := ends.any_eq_false fun _ => isIdentChar_of_opensLayout
    have matched := Pattern.ident_after?_append ⟨shaped, unreserved⟩ boundary
    have starts := (Pattern.ident_after?_eq_some_iff.mp matched).2.1
    have unquoted := quotedIdent_after?_of_isIdentStart starts
    have refused : ∃ between, read (depth + 1) quotedIdent ⟨position, name.toList ++ rest⟩
        attempts = (none, between) := read_of_after?_eq_none rfl unquoted attempts
    rcases refused with ⟨between, failed⟩
    have bare : (Phrase.either (.rule quotedIdent) (.rule ident)).run (read (depth + 1)) _
        attempts = _ :=
      Phrase.run_either_second failed (read_of_after? rfl matched position between)
    refine ⟨_, _, _, read_silent rfl rfl bare, follows _, _, rfl, ?_⟩
    exact congrArg (· :: []) (bare_ofWritten (Identifier.unquote_of_isShaped shaped) _)

theorem refuses_name
    (other : ∀ token, tokens.head? = some token → ∃ word, token = .keyword word) :
    Refuses (read (depth + 2) .name) tokens := by
  apply refuses_phrase rfl
  apply Phrase.refuses_either
  · apply Phrase.refuses_rule
    apply refuses_token rfl
    intro text written
    apply Pattern.quotedIdent_after?_eq_none
    intro head
    rcases exists_begins written head with ⟨token, first, _, begins⟩
    rcases other token first with ⟨word, rfl⟩
    cases begins
  · exact Phrase.refuses_rule (refuses_ident fun token first => Or.inr (other token first))

theorem accepts_comma : Accepts (read (depth + 1) .comma) [.mark ','] others [] := by
  rintro ⟨position, text⟩ written attempts
  rcases written.uncons with ⟨lexeme, rest, rfl, _, spelled, _, follows⟩
  rw [show lexeme = [','] from spelled]
  exact ⟨_, _, _, read_of_after? rfl (Pattern.exactly_after?_append [','] rest) position attempts,
    follows _, [], rfl, rfl⟩

end Grammar.Rule

end DocumentQuery
