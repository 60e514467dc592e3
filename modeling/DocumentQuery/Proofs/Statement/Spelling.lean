import DocumentQuery.Proofs.Grammar.Lexical
import DocumentQuery.Statement.Basic

/-!
# How a statement is written

A statement is written as a sequence of tokens.  Each of them has one or more spellings,
and layout separates them: blanks, and comments that run to the end of their line.
-/

namespace DocumentQuery

open Grammar (AtEnd IsPlain opensLayout isIdentStart isIdentChar leadingRun)
open Grammar.Pattern (backquote IsNumeral)

/-! ## Layout -/

/-- The characters of white space. -/
def IsBlank (c : Char) : Prop := c = ' ' ∨ c = '\t' ∨ c = '\r' ∨ c = '\n'

/-- Blanks and comments, each with the end of its line. -/
inductive Layout : List Char → Prop where
  | none : Layout []
  | blank {c : Char} {rest : List Char} : IsBlank c → Layout rest → Layout (c :: rest)
  | comment {note rest : List Char} : '\n' ∉ note → Layout rest →
      Layout ('-' :: '-' :: note ++ '\n' :: rest)

/-- Layout at the end of a text, where the last comment may end with the text. -/
def FinalLayout (text : List Char) : Prop :=
  Layout text ∨ ∃ before note, Layout before ∧ '\n' ∉ note ∧ text = before ++ '-' :: '-' :: note

/-! ## Tokens -/

/-- A token of a query by what it stands for. -/
inductive Token where
  | keyword (word : String)
  /-- A parenthesis or a comma. -/
  | mark (sign : Char)
  /-- The name of an entity or its alias. -/
  | name (name : String)
  | function (name : String)
  | path (segments : List String)
  | operator (operator : Comparison)
  | string (text : String)
  | number (value : Literal)

namespace Token

/-- Whether the names in a token are identifiers.  Only a name between backquotes may be
reserved. -/
def IsShaped : Token → Prop
  | keyword word => word ∈ Identifier.reservedWords
  | mark sign => sign = '(' ∨ sign = ')' ∨ sign = ','
  | name text => Identifier.isShaped text.toList = true
  | function text => IsPlain text
  | path segments => segments ≠ [] ∧ ∀ name ∈ segments, IsPlain name
  | operator _ | string _ | number _ => True

instance : DecidablePred IsShaped
  | keyword word => inferInstanceAs (Decidable (word ∈ Identifier.reservedWords))
  | mark sign => inferInstanceAs (Decidable (sign = '(' ∨ sign = ')' ∨ sign = ','))
  | name text => inferInstanceAs (Decidable (Identifier.isShaped text.toList = true))
  | function text => inferInstanceAs (Decidable (IsPlain text))
  | path segments => inferInstanceAs (Decidable (segments ≠ [] ∧ ∀ name ∈ segments, IsPlain name))
  | operator _ | string _ | number _ => inferInstanceAs (Decidable True)

/-- The texts that stand for a token. -/
def Spelled : Token → List Char → Prop
  | keyword word, text => text.map Char.toLower = word.toList
  | mark sign, text => text = [sign]
  | name written, text =>
      text = backquote :: written.toList ++ [backquote] ∨
        Identifier.isReserved written = false ∧ text = written.toList
  | function written, text => text = written.toList
  | path segments, text => text = (".".intercalate segments).toList
  | operator comparison, text =>
      text = comparison.symbol.toList ∨ comparison = .notEqual ∧ text = "!=".toList
  | string content, text =>
      ∃ quote, (quote = '\'' ∨ quote = '"') ∧ text = Literal.quoteText quote content.toList
  | number value, text => IsNumeral text ∧ Literal.ofNumeral text = .ok value

/-- The characters that a token may start with. -/
def begins : Token → Char → Bool
  | keyword _, c | function _, c | path _, c => isIdentStart c
  | mark sign, c => c == sign
  | name _, c => isIdentStart c || c == backquote
  | operator _, c => c == '=' || c == '<' || c == '>' || c == '!'
  | string _, c => c == '\'' || c == '"'
  | number _, c => c == '-' || c.isDigit

end Token

/-- A text that holds the given tokens with layout after each of them.  Only the layout at
the end of the text may be missing. -/
inductive Spells : List Token → List Char → Prop where
  | none : Spells [] []
  | last {token : Token} {lexeme gap : List Char} :
      token.Spelled lexeme → FinalLayout gap → Spells [token] (lexeme ++ gap)
  | next {token second : Token} {tokens : List Token} {lexeme gap rest : List Char} :
      token.Spelled lexeme → Layout gap → gap ≠ [] → Spells (second :: tokens) rest →
      Spells (token :: second :: tokens) (lexeme ++ (gap ++ rest))

/-! ## The tokens of a statement -/

/-- The token of a literal. -/
def Literal.token : Literal → Token
  | string text => .string text
  | boolean value => .keyword (if value then "true" else "false")
  | null => .keyword "null"
  | value => .number value

namespace Expression

mutual

/-- The tokens of an expression. -/
def tokens : Expression → List Token
  | literal value _ => [value.token]
  | path target _ => [.path target.segments]
  | call name arguments _ =>
      .function name :: .mark '(' ::
        ([.mark ','].intercalate (tokensOfEach arguments) ++ [.mark ')'])

/-- The tokens of several expressions. -/
def tokensOfEach : List Expression → List (List Token)
  | [] => []
  | expression :: expressions => expression.tokens :: tokensOfEach expressions

end

@[simp] theorem tokensOfEach_eq_map (expressions : List Expression) :
    tokensOfEach expressions = expressions.map tokens := by
  induction expressions with
  | nil => rfl
  | cons expression expressions ih => rw [tokensOfEach, List.map_cons, ih]

end Expression

namespace Predicate

mutual

/-- The tokens of a condition. -/
def tokens : Predicate → List Token
  | comparison left operator right _ => left.tokens ++ .operator operator :: right.tokens
  | junction connective operands _ =>
      [.keyword connective.word].intercalate (tokensOfEach operands)
  | negation operand _ => .keyword "not" :: operand.tokens
  | nullCheck subject negated _ =>
      subject.tokens ++ .keyword "is" :: ((if negated then [.keyword "not"] else []) ++
        [.keyword "null"])
  | group inner _ => .mark '(' :: (inner.tokens ++ [.mark ')'])

/-- The tokens of several conditions. -/
def tokensOfEach : List Predicate → List (List Token)
  | [] => []
  | predicate :: predicates => predicate.tokens :: tokensOfEach predicates

end

@[simp] theorem tokensOfEach_eq_map (predicates : List Predicate) :
    tokensOfEach predicates = predicates.map tokens := by
  induction predicates with
  | nil => rfl
  | cons predicate predicates ih => rw [tokensOfEach, List.map_cons, ih]

end Predicate

/-- The tokens of a statement. -/
def Statement.tokens (statement : Statement) : List Token :=
  .keyword "from" :: .name statement.entity.name ::
    ((statement.aliasName.map fun aliasName => Token.name aliasName.name).toList ++
      (statement.condition.map fun predicate => .keyword "where" :: predicate.tokens).getD [])

/-! ## Passing over layout -/

/-- A comment goes on to the end of its line. -/
theorem skipBlanks_note {note : List Char} (sameLine : '\n' ∉ note) (position : Position)
    (rest : List Char) :
    ∃ later, Cursor.skipBlanks true position (note ++ rest) =
      Cursor.skipBlanks true later rest := by
  induction note generalizing position with
  | nil => exact ⟨position, rfl⟩
  | cons c note ih =>
      rw [List.mem_cons, not_or] at sameLine
      have stays : (c != '\n') = true := bne_iff_ne.mpr (Ne.symm sameLine.1)
      rw [List.cons_append, Cursor.skipBlanks, if_pos rfl, stays]
      exact ih sameLine.2 _

/-- The two hyphens of a comment open it. -/
theorem skipBlanks_hyphens (position : Position) (rest : List Char) :
    ∃ later, Cursor.skipBlanks false position ('-' :: '-' :: rest) =
      Cursor.skipBlanks true later rest :=
  ⟨_, rfl⟩

theorem skipBlanks_layout {gap : List Char} (layout : Layout gap) (position : Position)
    (rest : List Char) :
    ∃ later, Cursor.skipBlanks false position (gap ++ rest) =
      Cursor.skipBlanks false later rest := by
  induction layout generalizing position with
  | none => exact ⟨position, rfl⟩
  | @blank c gap isBlank layout ih =>
      rcases ih (position.advance c) with ⟨later, skipped⟩
      refine ⟨later, ?_⟩
      rw [IsBlank] at isBlank
      rw [List.cons_append, Cursor.skipBlanks, if_neg Bool.false_ne_true, if_pos isBlank, skipped]
  | @comment note gap sameLine layout ih =>
      rcases skipBlanks_hyphens position (note ++ '\n' :: (gap ++ rest)) with ⟨inside, opened⟩
      rcases skipBlanks_note sameLine inside ('\n' :: (gap ++ rest)) with ⟨lineEnd, passed⟩
      rcases ih (lineEnd.advance '\n') with ⟨later, skipped⟩
      refine ⟨later, ?_⟩
      rw [List.append_assoc, List.cons_append, List.cons_append, List.cons_append, opened, passed]
      exact skipped

theorem skipBlanks_finalLayout {gap : List Char} (layout : FinalLayout gap)
    (position : Position) : (Cursor.skipBlanks false position gap).rest = [] := by
  rcases layout with layout | ⟨before, note, layout, sameLine, rfl⟩
  · rcases skipBlanks_layout layout position [] with ⟨later, skipped⟩
    rw [List.append_nil] at skipped
    rw [skipped]
    rfl
  · rcases skipBlanks_layout layout position ('-' :: '-' :: note) with ⟨inside, skipped⟩
    rcases skipBlanks_hyphens inside note with ⟨outside, opened⟩
    rcases skipBlanks_note sameLine outside [] with ⟨later, passed⟩
    rw [List.append_nil] at passed
    rw [skipped, opened, passed]
    rfl

theorem opensLayout_of_isBlank {c : Char} (isBlank : IsBlank c) : opensLayout c = true := by
  rcases isBlank with rfl | rfl | rfl | rfl <;> rfl

theorem Layout.atEnd {gap : List Char} (layout : Layout gap) (nonempty : gap ≠ [])
    (rest : List Char) : AtEnd (gap ++ rest) := by
  cases layout with
  | none => exact absurd rfl nonempty
  | blank isBlank layout =>
      rintro c ⟨⟩
      exact opensLayout_of_isBlank isBlank
  | comment sameLine layout =>
      rintro c ⟨⟩
      rfl

theorem FinalLayout.atEnd {gap : List Char} (layout : FinalLayout gap) : AtEnd gap := by
  have empty : AtEnd [] := nofun
  rcases layout with layout | ⟨before, note, layout, sameLine, rfl⟩
  · cases gap with
    | nil => exact empty
    | cons c gap =>
        have ends := layout.atEnd (List.cons_ne_nil c gap) []
        rw [List.append_nil] at ends
        exact ends
  · cases before with
    | nil =>
        rintro c ⟨⟩
        rfl
    | cons c before => exact layout.atEnd (List.cons_ne_nil c before) _

/-! ## Where tokens start -/

namespace Token

theorem isIdentStart_of_isShaped {name : List Char} (shaped : Identifier.isShaped name = true) :
    ∃ c rest, name = c :: rest ∧ isIdentStart c = true := by
  cases name with
  | nil => cases shaped
  | cons c rest =>
      rw [Identifier.isShaped, Bool.and_eq_true] at shaped
      exact ⟨c, rest, rfl, shaped.1⟩

theorem isIdentStart_of_reserved :
    ∀ word ∈ Identifier.reservedWords, word.toList.head?.any isIdentStart = true := by
  decide

theorem exists_cons_of_isDigits {digits : List Char} (isDigits : Grammar.Pattern.IsDigits digits) :
    ∃ c rest, digits = c :: rest ∧ c.isDigit = true := by
  rcases isDigits with ⟨nonempty, inside⟩
  rcases List.exists_cons_of_ne_nil nonempty with ⟨c, rest, rfl⟩
  exact ⟨c, rest, rfl, inside c List.mem_cons_self⟩

/-- A spelling starts with a character that its token may start with. -/
theorem exists_cons_of_spelled {token : Token} {lexeme : List Char} (shaped : token.IsShaped)
    (spelled : token.Spelled lexeme) :
    ∃ c rest, lexeme = c :: rest ∧ token.begins c = true := by
  cases token with
  | keyword word =>
      have starts := isIdentStart_of_reserved word shaped
      rw [← show lexeme.map Char.toLower = word.toList from spelled] at starts
      cases lexeme with
      | nil => cases starts
      | cons c rest => exact ⟨c, rest, rfl, Grammar.isIdentStart_of_toLower starts⟩
  | mark sign =>
      cases spelled
      exact ⟨sign, [], rfl, beq_self_eq_true sign⟩
  | name text =>
      rcases spelled with rfl | ⟨_, rfl⟩
      · exact ⟨backquote, _, rfl, rfl⟩
      · rcases isIdentStart_of_isShaped shaped with ⟨c, rest, same, starts⟩
        exact ⟨c, rest, same, by rw [begins, starts, Bool.true_or]⟩
  | function text =>
      cases spelled
      exact isIdentStart_of_isShaped shaped.1
  | path segments =>
      rcases shaped with ⟨nonempty, plain⟩
      rcases List.exists_cons_of_ne_nil nonempty with ⟨first, others, rfl⟩
      have firstShaped := (plain first List.mem_cons_self).1
      rcases isIdentStart_of_isShaped firstShaped with ⟨c, rest, same, starts⟩
      rw [Spelled, Grammar.Pattern.toList_intercalate_point, same] at spelled
      exact ⟨c, _, spelled, starts⟩
  | operator comparison =>
      rcases spelled with rfl | ⟨_, rfl⟩
      · cases comparison <;> exact ⟨_, _, rfl, rfl⟩
      · exact ⟨'!', ['='], rfl, rfl⟩
  | string text =>
      rcases spelled with ⟨quote, known, rfl⟩
      exact ⟨quote, _, rfl, by rcases known with rfl | rfl <;> rfl⟩
  | number value =>
      rcases spelled.1 with ⟨sign, whole, fraction, suffix, rfl, isSign, isWhole, _⟩
      rcases isSign with rfl | rfl
      · rcases exists_cons_of_isDigits isWhole with ⟨c, rest, rfl, digit⟩
        exact ⟨c, _, rfl, by rw [begins, digit, Bool.or_true]⟩
      · exact ⟨'-', _, rfl, rfl⟩

theorem not_isBlank_of_begins {token : Token} {c : Char} (shaped : token.IsShaped)
    (starts : token.begins c = true) : ¬ IsBlank c := by
  intro isBlank
  cases token with
  | mark sign =>
      rw [begins, beq_iff_eq] at starts
      subst starts
      rcases isBlank with rfl | rfl | rfl | rfl <;> simp [IsShaped] at shaped
  | keyword | name | function | path | operator | string | number =>
      rcases isBlank with rfl | rfl | rfl | rfl <;> cases starts

/-- A token that starts with a hyphen is a number, so it is no comment. -/
theorem isDigit_of_spelled_hyphen {token : Token} {rest : List Char} (shaped : token.IsShaped)
    (spelled : token.Spelled ('-' :: rest)) : rest.head?.any Char.isDigit = true := by
  rcases exists_cons_of_spelled shaped spelled with ⟨c, others, same, starts⟩
  cases same
  cases token with
  | mark sign =>
      rw [begins, beq_iff_eq] at starts
      subst starts
      simp [IsShaped] at shaped
  | keyword | name | function | path | operator | string => cases starts
  | number value =>
      rcases spelled.1 with ⟨sign, whole, fraction, suffix, same, isSign, isWhole, _⟩
      rcases exists_cons_of_isDigits isWhole with ⟨c, others, rfl, digit⟩
      rcases isSign with rfl | rfl
      · cases same
        cases digit
      · cases same
        exact digit

end Token

/-! ## Reading off tokens -/

/-- A text in which well-formed tokens stand. -/
def Written (tokens : List Token) (text : List Char) : Prop :=
  (∀ token ∈ tokens, token.IsShaped) ∧ Spells tokens text

namespace Written

variable {token : Token} {tokens : List Token} {text : List Char}

theorem eq_nil (written : Written [] text) : text = [] := by
  cases written.2
  rfl

theorem exists_lexeme (written : Written (token :: tokens) text) :
    ∃ lexeme rest, text = lexeme ++ rest ∧ token.IsShaped ∧ token.Spelled lexeme := by
  rcases written with ⟨shaped, spells⟩
  have tokenShaped := shaped token List.mem_cons_self
  cases spells with
  | last spelled layout => exact ⟨_, _, rfl, tokenShaped, spelled⟩
  | next spelled layout nonempty spells => exact ⟨_, _, rfl, tokenShaped, spelled⟩

/-- There is no layout before the tokens. -/
theorem skip_eq (written : Written tokens text) (position : Position) :
    Cursor.skip ⟨position, text⟩ = ⟨position, text⟩ := by
  cases tokens with
  | nil =>
      rw [written.eq_nil]
      rfl
  | cons token tokens =>
      rcases written.exists_lexeme with ⟨lexeme, rest, rfl, shaped, spelled⟩
      rcases Token.exists_cons_of_spelled shaped spelled with ⟨c, others, rfl, starts⟩
      have notBlank := Token.not_isBlank_of_begins shaped starts
      have noComment : ¬ (c = '-' ∧ (others ++ rest).head? = some '-') := by
        rintro ⟨rfl, hyphen⟩
        have digit := Token.isDigit_of_spelled_hyphen shaped spelled
        cases others with
        | nil => cases digit
        | cons d others =>
            cases hyphen
            cases digit
      rw [IsBlank] at notBlank
      rw [Cursor.skip, List.cons_append, Cursor.skipBlanks, if_neg Bool.false_ne_true,
        if_neg notBlank, if_neg noComment]

/-- Layout in front of the tokens is passed over. -/
theorem rest_skip_layout (written : Written tokens text) {gap : List Char} (layout : Layout gap)
    (position : Position) : (Cursor.skip ⟨position, gap ++ text⟩).rest = text := by
  rcases skipBlanks_layout layout position text with ⟨later, skipped⟩
  have stays := written.skip_eq later
  rw [Cursor.skip] at stays
  rw [Cursor.skip, skipped, stays]

/-- The first token of a text stands before an end of token, and behind the layout there
the other tokens stand. -/
theorem uncons (written : Written (token :: tokens) text) :
    ∃ lexeme rest, text = lexeme ++ rest ∧ token.IsShaped ∧ token.Spelled lexeme ∧ AtEnd rest ∧
      ∀ position, Written tokens (Cursor.skip ⟨position, rest⟩).rest := by
  rcases written with ⟨shaped, spells⟩
  have tokenShaped := shaped token List.mem_cons_self
  have othersShaped : ∀ other ∈ tokens, other.IsShaped :=
    fun other member => shaped other (List.mem_cons_of_mem _ member)
  cases spells with
  | @last _ lexeme gap spelled layout =>
      refine ⟨lexeme, gap, rfl, tokenShaped, spelled, layout.atEnd, ?_⟩
      intro position
      rw [Cursor.skip, skipBlanks_finalLayout layout position]
      exact ⟨othersShaped, .none⟩
  | @next _ second others lexeme gap rest spelled layout nonempty spells =>
      refine ⟨lexeme, gap ++ rest, rfl, tokenShaped, spelled, layout.atEnd nonempty rest, ?_⟩
      intro position
      have written : Written (second :: others) rest := ⟨othersShaped, spells⟩
      rw [written.rest_skip_layout layout position]
      exact written

/-- A text is at least as long as its tokens are many. -/
theorem length_le (written : Written tokens text) : tokens.length ≤ text.length := by
  rcases written with ⟨shaped, spells⟩
  have positive : ∀ {token : Token} {lexeme : List Char}, token.IsShaped → token.Spelled lexeme →
      0 < lexeme.length := by
    intro token lexeme tokenShaped spelled
    rcases Token.exists_cons_of_spelled tokenShaped spelled with ⟨c, rest, rfl, _⟩
    exact Nat.succ_pos _
  induction spells with
  | none => exact Nat.le_refl _
  | last spelled layout =>
      have longer := positive (shaped _ List.mem_cons_self) spelled
      rw [List.length_append, List.length_singleton]
      omega
  | next spelled layout nonempty spells ih =>
      have longer := positive (shaped _ List.mem_cons_self) spelled
      have others := ih fun other member => shaped other (List.mem_cons_of_mem _ member)
      rw [List.length_append, List.length_append, List.length_cons]
      omega

end Written

end DocumentQuery
