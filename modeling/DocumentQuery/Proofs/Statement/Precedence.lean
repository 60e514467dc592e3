import DocumentQuery.Proofs.Statement.TokenRules

/-!
# Conditions are read as they bind

The tokens of a condition are accepted as the condition if its junctions nest as the
connectives bind.  The grammar tries its alternatives in a fixed order, so for each kind of
node it has to be shown that no earlier alternative takes the text or a part of it.  An
expression may be followed by anything but an opening parenthesis, and an operand by
anything but another round of its junction.

Rules that call each other without reading a token are at most ten, so ten times the
number of tokens bounds the depth of nested rules.
-/

namespace DocumentQuery

namespace Grammar

open Phrase

/-! ## Lists with separators -/

theorem length_le_intercalate {α : Type} (mark : α) {piece : List α} {pieces : List (List α)}
    (member : piece ∈ pieces) : piece.length ≤ ([mark].intercalate pieces).length := by
  cases pieces with
  | nil => cases member
  | cons first others =>
      rw [Pattern.intercalate_singleton_cons, List.length_append]
      rcases List.mem_cons.mp member with rfl | member
      · exact Nat.le_add_right _ _
      · have inside := (List.sublist_flatten_of_mem
          (List.mem_map_of_mem (f := (mark :: ·)) member)).length_le
        rw [← List.flatMap_def, List.length_cons] at inside
        omega

section Separated

variable {α : Type} {call : Rule → Parser} {separator element : Rule} {token : Token}
  {marks : List Fragment} {tokensOf : α → List Token} {partOf : α → Fragment}
  {others : List Token}

/-- The rounds of a list: a separator and an element each. -/
theorem acceptsRounds_separated {items : List α}
    (separates : ∀ following, Accepts (call separator) [token] following marks)
    (closes : Refuses (call separator) others)
    (each : ∀ item ∈ items, ∀ following, following.head? = some token ∨ following = others →
      Accepts (call element) (tokensOf item) following [partOf item]) :
    AcceptsRounds ((seq (rule separator) (rule element)).run call) others
      (items.flatMap fun item => token :: tokensOf item)
      (items.flatMap fun item => marks ++ [partOf item]) := by
  induction items with
  | nil => exact .done (refuses_seq_first (refuses_rule closes))
  | cons item items ih =>
      have rounds := ih fun other member => each other (List.mem_cons_of_mem _ member)
      have accepts : Accepts (call element) (tokensOf item)
          (items.flatMap (fun item => token :: tokensOf item) ++ others) [partOf item] := by
        apply each item List.mem_cons_self
        cases items with
        | nil => exact Or.inr rfl
        | cons => exact Or.inl rfl
      rw [List.flatMap_cons, List.flatMap_cons]
      refine .more (List.cons_ne_nil _ _) ?_ rounds
      exact accepts_token_seq (separates _) (accepts_rule accepts)

/-- Of the parts of a list the separators can be left out. -/
theorem filterMap_separated {β : Type} {view : Fragment → Option β} {value : α → β}
    (hidden : marks.filterMap view = []) (shown : ∀ item, view (partOf item) = some (value item))
    (items : List α) :
    (items.flatMap fun item => marks ++ [partOf item]).filterMap view = items.map value := by
  induction items with
  | nil => rfl
  | cons item items ih =>
      rw [List.flatMap_cons, List.filterMap_append, ih, List.filterMap_append, hidden,
        List.filterMap_cons_some (shown item)]
      rfl

/-- A list is an element and rounds of a separator and another element. -/
theorem accepts_separated {first : α} {items : List α}
    (separates : ∀ following, Accepts (call separator) [token] following marks)
    (closes : Refuses (call separator) others)
    (each : ∀ item ∈ first :: items, ∀ following,
      following.head? = some token ∨ following = others →
      Accepts (call element) (tokensOf item) following [partOf item]) :
    Accepts ((seq (rule element) (many (seq (rule separator) (rule element)))).run call)
      ([token].intercalate ((first :: items).map tokensOf)) others
      (partOf first :: items.flatMap fun item => marks ++ [partOf item]) := by
  rw [List.map_cons, Pattern.intercalate_singleton_cons, List.flatMap_map]
  have rounds : AcceptsRounds ((seq (rule separator) (rule element)).run call) others _ _ :=
    acceptsRounds_separated separates closes fun item member =>
      each item (List.mem_cons_of_mem _ member)
  have accepts : Accepts (call element) (tokensOf first)
      (items.flatMap (fun item => token :: tokensOf item) ++ others) [partOf first] := by
    apply each first List.mem_cons_self
    cases items with
    | nil => exact Or.inr rfl
    | cons => exact Or.inl rfl
  exact accepts_seq (accepts_rule accepts) (accepts_many rounds)

end Separated

end Grammar

/-- Whether a token may be all of a literal.  Some keywords are literals. -/
def Token.mayBeLiteral : Token → Bool
  | string _ | number _ | keyword _ => true
  | mark _ | name _ | function _ | path _ | operator _ => false

namespace Grammar

open Phrase

/-! ## Literals -/

namespace Rule

variable {depth : Nat} {tokens others : List Token}

theorem accepts_litBoolean (value : Bool) :
    Accepts (read (depth + 2) .litBoolean) [(Literal.boolean value).token] others
      [.expression (.literal (.boolean value) .nowhere)] := by
  cases value with
  | true =>
      exact accepts_phrase rfl rfl rfl (accepts_either_first (accepts_rule (accepts_keyword rfl)))
  | false =>
      refine accepts_phrase rfl rfl rfl (accepts_either_second (refuses_rule ?_)
        (accepts_rule (accepts_keyword rfl)))
      exact refuses_keyword rfl (by simp [Literal.token])

theorem refuses_litBoolean (noTrue : tokens.head? ≠ some (.keyword "true"))
    (noFalse : tokens.head? ≠ some (.keyword "false")) :
    Refuses (read (depth + 2) .litBoolean) tokens :=
  refuses_phrase rfl (refuses_either (refuses_rule (refuses_keyword rfl noTrue))
    (refuses_rule (refuses_keyword rfl noFalse)))

/-- A literal is accepted as what it stands for. -/
theorem accepts_literal (value : Literal) :
    Accepts (read (depth + 3) .literal) [value.token] others
      [.expression (.literal value .nowhere)] := by
  cases value with
  | string content =>
      exact accepts_phrase rfl rfl rfl
        (accepts_either_first (accepts_rule (accepts_litString content)))
  | integer | long | double | decimal =>
      refine accepts_phrase rfl rfl rfl (accepts_either_second (refuses_rule ?_)
        (accepts_either_first (accepts_rule (accepts_litNumber _))))
      exact refuses_litString nofun
  | boolean value =>
      refine accepts_phrase rfl rfl rfl (accepts_either_second (refuses_rule ?_)
        (accepts_either_second (refuses_rule ?_)
          (accepts_either_first (accepts_rule (accepts_litBoolean value)))))
      · exact refuses_litString nofun
      · exact refuses_litNumber nofun
  | null =>
      refine accepts_phrase rfl rfl rfl (accepts_either_second (refuses_rule ?_)
        (accepts_either_second (refuses_rule ?_) (accepts_either_second (refuses_rule ?_)
          (accepts_rule (accepts_keyword rfl)))))
      · exact refuses_litString nofun
      · exact refuses_litNumber nofun
      · exact refuses_litBoolean (by simp [Literal.token]) (by simp [Literal.token])

/-- A literal is refused where a path, a call or a mark stands. -/
theorem refuses_literal
    (other : ∀ token, tokens.head? = some token → token.mayBeLiteral = false) :
    Refuses (read (depth + 3) .literal) tokens := by
  have apart : ∀ {token : Token}, token.mayBeLiteral = true → tokens.head? ≠ some token := by
    intro token literal first
    rw [other token first] at literal
    cases literal
  apply refuses_phrase rfl
  apply refuses_either (refuses_rule (refuses_litString fun _ => apart rfl))
  apply refuses_either (refuses_rule (refuses_litNumber fun _ => apart rfl))
  apply refuses_either (refuses_rule (refuses_litBoolean (apart rfl) (apart rfl)))
  exact refuses_rule (refuses_keyword rfl (apart rfl))

/-! ## Calls -/

theorem refuses_lparen (other : tokens.head? ≠ some (.mark '(')) :
    Refuses (read (depth + 1) .lparen) tokens :=
  refuses_sign rfl (Or.inl rfl) other

/-- The first segment of a path is read as the name of a function, but there is no
parenthesis behind it. -/
theorem refuses_fnCall_path (segments : List String)
    (noCall : others.head? ≠ some (.mark '(')) :
    Refuses (read (depth + 2) .fnCall) (.path segments :: others) := by
  apply refuses_phrase rfl
  rintro ⟨position, text⟩ written attempts
  rcases written.uncons with ⟨lexeme, rest, rfl, ⟨nonempty, plain⟩, spelled, ends, follows⟩
  rcases List.exists_cons_of_ne_nil nonempty with ⟨first, later, rfl⟩
  rw [show lexeme = _ from spelled, Pattern.toList_intercalate_point, List.append_assoc]
  have boundary := ends.any_eq_false fun _ => isIdentChar_of_opensLayout
  have matched := Pattern.ident_after?_append (plain first List.mem_cons_self)
    (Pattern.head?_laterSegments_any later boundary)
  have identRun : read (depth + 1) ident _ attempts = _ :=
    read_of_after? rfl matched position attempts
  have failed : ∃ after, read (depth + 1) lparen
      (Cursor.skip ⟨position.advanceAll first.toList, Pattern.laterSegments later ++ rest⟩)
      attempts = (none, after) := by
    cases later with
    | nil => exact refuses_lparen noCall _ (follows _) attempts
    | cons second more => exact read_of_after?_eq_none rfl rfl attempts
  rcases failed with ⟨after, failed⟩
  exact ⟨after, by simp only [Phrase.sequence, run, identRun, failed]⟩

theorem refuses_fnCall_mark (sign : Char) :
    Refuses (read (depth + 2) .fnCall) (.mark sign :: others) := by
  apply refuses_phrase rfl
  apply refuses_seq_first
  apply refuses_rule
  apply refuses_ident
  rintro token ⟨⟩
  exact Or.inl rfl

theorem refuses_expression_mark (sign : Char) :
    Refuses (read (depth + 4) .expression) (.mark sign :: others) := by
  apply refuses_phrase rfl
  refine refuses_either (refuses_rule ?_)
    (refuses_either (refuses_rule (refuses_fnCall_mark sign)) (refuses_rule ?_))
  · apply refuses_literal
    rintro token ⟨⟩
    rfl
  · apply refuses_dottedIdent
    rintro token ⟨⟩
    exact Or.inl rfl

theorem accepts_arguments {arguments : List Expression}
    (each : ∀ argument ∈ arguments, ∀ following, following.head? ≠ some (.mark '(') →
      Accepts (read (depth + 4) .expression) argument.tokens following
        [.expression argument.bare]) :
    Accepts
      ((optional (seq (rule .expression) (many (seq (rule .comma) (rule .expression))))).run
        (read (depth + 4)))
      ([.mark ','].intercalate (arguments.map Expression.tokens)) (.mark ')' :: others)
      (arguments.flatMap fun argument => [.expression argument.bare]) := by
  cases arguments with
  | nil =>
      apply accepts_optional_nothing
      exact refuses_seq_first (refuses_rule (refuses_expression_mark ')'))
  | cons first items =>
      apply accepts_optional
      apply accepts_separated (fun _ => accepts_comma)
      · exact refuses_sign rfl (Or.inr (Or.inr rfl)) (by simp)
      · intro argument member following next
        apply each argument member following
        rcases next with comma | rfl
        · simp [comma]
        · simp

theorem accepts_fnCall (name : String) {arguments : List Expression} (span : Span)
    (each : ∀ argument ∈ arguments, ∀ following, following.head? ≠ some (.mark '(') →
      Accepts (read (depth + 4) .expression) argument.tokens following
        [.expression argument.bare]) :
    Accepts (read (depth + 5) .fnCall) (Expression.call name arguments span).tokens others
      [.expression (Expression.call name arguments span).bare] := by
  have formed : Fragment.ofPhrase .fnCall .nowhere
      ([.name ⟨name, .nowhere⟩] ++ ([.mark .lparen] ++
        (arguments.flatMap (fun argument => [.expression argument.bare]) ++ [.mark .rparen]))) =
      .ok (.expression (Expression.call name arguments span).bare) := by
    have made : ∀ parts, Fragment.ofPhrase .fnCall .nowhere (.name ⟨name, .nowhere⟩ :: parts) =
        .ok (.expression (.call name (parts.filterMap Fragment.expression?) .nowhere)) :=
      fun _ => rfl
    have values : (arguments.flatMap fun argument =>
        [] ++ [Fragment.expression argument.bare]).filterMap Fragment.expression? =
          arguments.map Expression.bare := by
      apply filterMap_separated
      · rfl
      · intro argument
        rfl
    simp only [List.nil_append] at values
    rw [List.singleton_append, made, List.singleton_append, List.filterMap_cons_none rfl,
      List.filterMap_append, values, Expression.bare, Expression.bareOfEach_eq_map]
    simp [Fragment.expression?]
  rw [Expression.tokens, Expression.tokensOfEach_eq_map]
  apply accepts_phrase rfl rfl formed
  refine accepts_token_seq (accepts_ident name) ?_
  refine accepts_token_seq (accepts_sign rfl rfl fun _ _ => rfl) ?_
  exact accepts_seq (accepts_arguments each) (accepts_rule (accepts_sign rfl rfl fun _ _ => rfl))

/-! ## Expressions -/

theorem length_argument_lt (name : String) {arguments : List Expression} (span : Span)
    {argument : Expression} (member : argument ∈ arguments) :
    argument.tokens.length < (Expression.call name arguments span).tokens.length := by
  have inside := length_le_intercalate (Token.mark ',')
    (List.mem_map_of_mem (f := Expression.tokens) member)
  rw [Expression.tokens, Expression.tokensOfEach_eq_map]
  simp only [List.length_cons, List.length_append]
  omega

theorem length_tokens_pos (expression : Expression) : 0 < expression.tokens.length := by
  cases expression <;> simp [Expression.tokens]

/-- An expression is accepted where no parenthesis makes a call of it. -/
theorem accepts_expression (expression : Expression) {depth : Nat}
    (deep : 10 * expression.tokens.length ≤ depth) {others : List Token}
    (noCall : others.head? ≠ some (.mark '(')) :
    Accepts (read depth .expression) expression.tokens others [.expression expression.bare] := by
  induction expression using Expression.inductionOn generalizing depth others with
  | literal value span =>
      have enough : 4 ≤ depth := Nat.le_trans (by simp [Expression.tokens]) deep
      rcases Nat.exists_eq_add_of_le' enough with ⟨shallow, rfl⟩
      exact accepts_phrase rfl rfl rfl (accepts_either_first (accepts_rule (accepts_literal value)))
  | path target span =>
      have enough : 4 ≤ depth := Nat.le_trans (by simp [Expression.tokens]) deep
      rcases Nat.exists_eq_add_of_le' enough with ⟨shallow, rfl⟩
      refine accepts_phrase rfl rfl rfl (accepts_either_second (refuses_rule ?_)
        (accepts_either_second (refuses_rule ?_)
          (accepts_rule (accepts_dottedIdent target.segments))))
      · apply refuses_literal
        rintro token ⟨⟩
        rfl
      · exact refuses_fnCall_path target.segments noCall
  | call name arguments span ih =>
      have positive := length_tokens_pos (.call name arguments span)
      rcases Nat.exists_eq_add_of_le' (show 6 ≤ depth by omega) with ⟨shallow, rfl⟩
      have each : ∀ argument ∈ arguments, ∀ following, following.head? ≠ some (.mark '(') →
          Accepts (read (shallow + 4) .expression) argument.tokens following
            [.expression argument.bare] := by
        intro argument member following next
        have shorter := length_argument_lt name span member
        exact ih argument member (by omega) next
      refine accepts_phrase rfl rfl rfl (accepts_either_second (refuses_rule ?_)
        (accepts_either_first (accepts_rule (accepts_fnCall name span each))))
      apply refuses_literal
      rintro token ⟨⟩
      rfl

theorem head?_tokens_ne_not (expression : Expression) (others : List Token) :
    (expression.tokens ++ others).head? ≠ some (.keyword "not") := by
  cases expression with
  | literal value span =>
      cases value with
      | boolean value => cases value <;> simp [Expression.tokens, Literal.token]
      | _ => simp [Expression.tokens, Literal.token]
  | path | call => simp [Expression.tokens]

/-! ## Comparisons, null checks and groups -/

theorem accepts_nullCheck (subject : Expression) (negated : Bool) (span : Span)
    (deep : 10 * subject.tokens.length ≤ depth) :
    Accepts (read (depth + 1) .nullCheck) (Predicate.nullCheck subject negated span).tokens others
      [.predicate (Predicate.nullCheck subject negated span).bare] := by
  have positive := length_tokens_pos subject
  rcases Nat.exists_eq_add_of_le' (show 1 ≤ depth by omega) with ⟨shallow, rfl⟩
  have isNull : Accepts ((seq (optional (rule .kwNot)) (rule .kwNull)).run (read (shallow + 1)))
      ((if negated then [.keyword "not"] else []) ++ [.keyword "null"]) others
      ((if negated then [.mark .kwNot] else []) ++ [.mark .kwNull]) := by
    apply accepts_seq
    · cases negated with
      | true => exact accepts_optional (accepts_rule (accepts_keyword rfl))
      | false => exact accepts_optional_nothing (refuses_rule (refuses_keyword rfl (by simp)))
    · exact accepts_rule (accepts_keyword rfl)
  have accepts : Accepts (read (shallow + 1) .expression) subject.tokens
      (.keyword "is" :: ((if negated then [.keyword "not"] else []) ++ [.keyword "null"]) ++ others)
      [.expression subject.bare] := accepts_expression subject deep (by simp)
  have phrase : Accepts ((sequence (rule .expression) [rule .kwIs, optional (rule .kwNot),
      rule .kwNull]).run (read (shallow + 1))) _ others _ :=
    accepts_seq (accepts_rule accepts) (accepts_token_seq (accepts_keyword rfl) isNull)
  rw [Predicate.tokens]
  cases negated with
  | true => exact accepts_phrase rfl rfl rfl phrase
  | false => exact accepts_phrase rfl rfl rfl phrase

/-- A comparison starts like a null check, but there is no `is` behind its left side. -/
theorem refuses_nullCheck_comparison (left : Expression) (operator : Comparison)
    (right : List Token) (deep : 10 * left.tokens.length ≤ depth) :
    Refuses (read (depth + 1) .nullCheck) (left.tokens ++ .operator operator :: right) := by
  have positive := length_tokens_pos left
  rcases Nat.exists_eq_add_of_le' (show 1 ≤ depth by omega) with ⟨shallow, rfl⟩
  have accepts : Accepts (read (shallow + 1) .expression) left.tokens
      (.operator operator :: right) [.expression left.bare] :=
    accepts_expression left deep (by simp)
  apply refuses_phrase rfl
  apply refuses_seq_second (accepts_rule accepts)
  apply refuses_seq_first
  exact refuses_rule (refuses_keyword rfl (by simp))

theorem accepts_comparison (left : Expression) (operator : Comparison) (right : Expression)
    (span : Span) (leftDeep : 10 * left.tokens.length ≤ depth)
    (rightDeep : 10 * right.tokens.length ≤ depth) (noCall : others.head? ≠ some (.mark '(')) :
    Accepts (read (depth + 1) .comparison) (Predicate.comparison left operator right span).tokens
      others [.predicate (Predicate.comparison left operator right span).bare] := by
  have positive := length_tokens_pos left
  rcases Nat.exists_eq_add_of_le' (show 1 ≤ depth by omega) with ⟨shallow, rfl⟩
  have leftAccepts : Accepts (read (shallow + 1) .expression) left.tokens
      (.operator operator :: right.tokens ++ others) [.expression left.bare] :=
    accepts_expression left leftDeep (by simp)
  have rightAccepts : Accepts (read (shallow + 1) .expression) right.tokens others
      [.expression right.bare] := accepts_expression right rightDeep noCall
  have phrase := accepts_seq (accepts_rule leftAccepts)
    (accepts_token_seq (accepts_compOp operator) (accepts_rule rightAccepts))
  rw [Predicate.tokens]
  exact accepts_phrase rfl rfl rfl phrase

theorem accepts_grouped (inner : Predicate) (span : Span)
    (accepts : Accepts (read (depth + 1) .predicate) inner.tokens (.mark ')' :: others)
      [.predicate inner.bare]) :
    Accepts (read (depth + 2) .grouped) (Predicate.group inner span).tokens others
      [.predicate (Predicate.group inner span).bare] := by
  have closed : Accepts (read (depth + 1) .rparen) [.mark ')'] others [.mark .rparen] :=
    accepts_sign rfl rfl fun _ _ => rfl
  have phrase : Accepts ((sequence (rule .lparen) [rule .predicate, rule .rparen]).run
      (read (depth + 1))) _ others _ :=
    accepts_token_seq (accepts_sign rfl rfl fun _ _ => rfl)
      (accepts_seq (accepts_rule accepts) (accepts_rule closed))
  rw [Predicate.tokens]
  exact accepts_phrase rfl rfl rfl phrase

end Rule

end Grammar

/-! ## Junctions -/

/-- How far a condition may reach: an operand of `and`, an operand of `or`, or more. -/
inductive Level where
  | operand
  | conjunction
  | disjunction

namespace Level

def rule : Level → Grammar.Rule
  | operand => .negation
  | conjunction => .conjunction
  | disjunction => .disjunction

/-- The number of rules above the rule of operands. -/
def height : Level → Nat
  | operand => 0
  | conjunction => 1
  | disjunction => 2

/-- The condition cannot go on with the tokens that follow. -/
def Closes : Level → List Token → Prop
  | operand, others => others.head? ≠ some (.mark '(')
  | conjunction, others =>
      others.head? ≠ some (.mark '(') ∧ others.head? ≠ some (.keyword "and")
  | disjunction, others =>
      (others.head? ≠ some (.mark '(') ∧ others.head? ≠ some (.keyword "and")) ∧
        others.head? ≠ some (.keyword "or")

end Level

namespace Connective

def inner : Connective → Level
  | and => .operand
  | or => .conjunction

def outer : Connective → Level
  | and => .conjunction
  | or => .disjunction

def keywordRule : Connective → Grammar.Rule
  | and => .kwAnd
  | or => .kwOr

theorem height_outer (connective : Connective) :
    connective.outer.height = connective.inner.height + 1 := by
  cases connective <;> rfl

theorem closes_outer {connective : Connective} {others : List Token}
    (closes : connective.outer.Closes others) :
    connective.inner.Closes others ∧ others.head? ≠ some (.keyword connective.word) := by
  cases connective <;> exact closes

/-- Before the next round of a junction an operand is complete. -/
theorem closes_inner_of_word {connective : Connective} {others : List Token}
    (next : others.head? = some (.keyword connective.word)) : connective.inner.Closes others := by
  cases connective with
  | and => simp [inner, Level.Closes, next]
  | or => simp [inner, Level.Closes, next, word]

theorem word?_keywordRule (connective : Connective) :
    connective.keywordRule.word? = some connective.word := by
  cases connective <;> rfl

end Connective

/-- Conditions joined by a connective; a single one stands for itself. -/
def Predicate.joined (connective : Connective) : List Predicate → Predicate
  | [operand] => operand
  | operands => .junction connective operands .nowhere

namespace Grammar

open Phrase

namespace Rule

/-- A condition is accepted at a level wherever it cannot go on. -/
def AcceptsAt (level : Level) (predicate : Predicate) : Prop :=
  ∀ depth others, 10 * predicate.tokens.length + level.height ≤ depth → level.Closes others →
    Accepts (read depth level.rule) predicate.tokens others [.predicate predicate.bare]

theorem ofPhrase_outer (connective : Connective) (first : Predicate) (items : List Predicate) :
    Fragment.ofPhrase connective.outer.rule .nowhere (.predicate first.bare ::
        items.flatMap fun item => [.mark connective.keywordRule] ++ [.predicate item.bare]) =
      .ok (.predicate (.joined connective ((first :: items).map Predicate.bare))) := by
  have operands : (items.flatMap fun item =>
      [.mark connective.keywordRule] ++ [.predicate item.bare]).filterMap Fragment.predicate? =
        items.map Predicate.bare := by
    apply filterMap_separated
    · rfl
    · intro item
      rfl
  have junction : ∀ parts, Fragment.ofPhrase connective.outer.rule .nowhere parts =
      .ok (.junction connective .nowhere parts) := by
    intro parts
    cases connective <;> rfl
  have shown : (Fragment.predicate first.bare).predicate? = some first.bare := rfl
  rw [junction, Fragment.junction, List.filterMap_cons_some shown, operands, List.map_cons]
  cases items <;> rfl

/-- Operands with a connective between them are accepted as a junction. -/
theorem accepts_joined (connective : Connective) {first : Predicate} {items : List Predicate}
    {depth : Nat} {others : List Token}
    (each : ∀ operand ∈ first :: items, ∀ following,
      following.head? = some (.keyword connective.word) ∨ following = others →
      Accepts (read (depth + 1) connective.inner.rule) operand.tokens following
        [.predicate operand.bare])
    (closes : others.head? ≠ some (.keyword connective.word)) :
    Accepts (read (depth + 2) connective.outer.rule)
      ([.keyword connective.word].intercalate ((first :: items).map Predicate.tokens)) others
      [.predicate (.joined connective ((first :: items).map Predicate.bare))] := by
  have isPhrase : connective.outer.rule.body = .phrase (seq (rule connective.inner.rule)
      (many (seq (rule connective.keywordRule) (rule connective.inner.rule)))) := by
    cases connective <;> rfl
  have speaks : connective.outer.rule.isSilent = false := by
    cases connective <;> rfl
  have phrase : Accepts ((seq (rule connective.inner.rule)
      (many (seq (rule connective.keywordRule) (rule connective.inner.rule)))).run
        (read (depth + 1))) _ others _ :=
    accepts_separated (fun _ => accepts_keyword connective.word?_keywordRule)
      (refuses_keyword connective.word?_keywordRule closes) each
  exact accepts_phrase isPhrase speaks (ofPhrase_outer connective first items) phrase

/-- What is accepted as operands is accepted as their junction. -/
theorem accepts_outer (connective : Connective) {first : Predicate} {items : List Predicate}
    (nonempty : 0 < first.tokens.length)
    (each : ∀ operand ∈ first :: items, AcceptsAt connective.inner operand) {depth : Nat}
    {others : List Token}
    (deep : 10 * ([Token.keyword connective.word].intercalate
      ((first :: items).map Predicate.tokens)).length + connective.outer.height ≤ depth)
    (closes : connective.outer.Closes others) :
    Accepts (read depth connective.outer.rule)
      ([.keyword connective.word].intercalate ((first :: items).map Predicate.tokens)) others
      [.predicate (.joined connective ((first :: items).map Predicate.bare))] := by
  rw [connective.height_outer] at deep
  have inside : ∀ operand ∈ first :: items, operand.tokens.length ≤
      ([Token.keyword connective.word].intercalate
        ((first :: items).map Predicate.tokens)).length :=
    fun operand member => length_le_intercalate _ (List.mem_map_of_mem member)
  have firstInside := inside first List.mem_cons_self
  rcases Nat.exists_eq_add_of_le' (show 2 ≤ depth by omega) with ⟨shallow, rfl⟩
  rcases Connective.closes_outer closes with ⟨closesInner, noMore⟩
  apply accepts_joined connective ?_ noMore
  intro operand member following next
  have operandInside := inside operand member
  apply each operand member _ following (by omega)
  rcases next with word | rfl
  · exact Connective.closes_inner_of_word word
  · exact closesInner

/-- An operand may stand alone at the next level. -/
theorem acceptsAt_outer {predicate : Predicate} (connective : Connective)
    (nonempty : 0 < predicate.tokens.length) (accepts : AcceptsAt connective.inner predicate) :
    AcceptsAt connective.outer predicate := by
  intro depth others deep closes
  have each : ∀ operand ∈ [predicate], AcceptsAt connective.inner operand := by
    intro operand member
    rw [List.mem_singleton.mp member]
    exact accepts
  have single : [Token.keyword connective.word].intercalate ([predicate].map Predicate.tokens) =
      predicate.tokens := List.intercalate_singleton
  have joined : Accepts (read depth connective.outer.rule) _ others
      [.predicate (.joined connective ([predicate].map Predicate.bare))] :=
    accepts_outer connective nonempty each (by rw [single]; exact deep) closes
  rw [single] at joined
  exact joined

theorem length_tokens_pos_of_isNested {predicate : Predicate}
    (nested : predicate.isNested = true) : 0 < predicate.tokens.length := by
  induction predicate using Predicate.inductionOn with
  | comparison left operator right span =>
      rw [Predicate.tokens, List.length_append, List.length_cons]
      omega
  | nullCheck subject negated span =>
      rw [Predicate.tokens, List.length_append, List.length_cons]
      omega
  | negation operand span => exact Nat.succ_pos _
  | group inner span => exact Nat.succ_pos _
  | junction connective operands span ih =>
      rw [Predicate.isNested, Bool.and_eq_true, decide_eq_true_iff,
        Predicate.mayAllJoin_iff] at nested
      rcases List.exists_mem_of_length_pos (Nat.lt_of_lt_of_le Nat.zero_lt_two nested.1) with
        ⟨operand, member⟩
      have positive := ih operand member (nested.2 operand member).2
      have inside := length_le_intercalate (Token.keyword connective.word)
        (List.mem_map_of_mem (f := Predicate.tokens) member)
      rw [Predicate.tokens, Predicate.tokensOfEach_eq_map]
      exact Nat.lt_of_lt_of_le positive inside

/-! ## Operands -/

/-- What is not negated is accepted as an operand if it is accepted by itself. -/
theorem acceptsAt_operand {predicate : Predicate} (nested : predicate.isNested = true)
    (noNot : ∀ others, (predicate.tokens ++ others).head? ≠ some (.keyword "not"))
    (accepts : ∀ depth others, 10 * predicate.tokens.length ≤ depth + 1 →
      others.head? ≠ some (.mark '(') →
      Accepts (read depth .atom) predicate.tokens others [.predicate predicate.bare]) :
    AcceptsAt .operand predicate := by
  intro depth others deep closes
  have nonempty := length_tokens_pos_of_isNested nested
  rw [Level.height] at deep
  rcases Nat.exists_eq_add_of_le' (show 2 ≤ depth by omega) with ⟨shallow, rfl⟩
  refine accepts_phrase rfl rfl rfl (accepts_either_second ?_
    (accepts_rule (accepts _ others (by omega) closes)))
  exact refuses_seq_first (refuses_rule (refuses_keyword rfl (noNot others)))

theorem acceptsAt_comparison (left : Expression) (operator : Comparison) (right : Expression)
    (span : Span) : AcceptsAt .operand (.comparison left operator right span) := by
  apply acceptsAt_operand
  · rfl
  · intro others
    rw [Predicate.tokens, List.append_assoc]
    exact head?_tokens_ne_not left _
  · intro depth others deep noCall
    rw [Predicate.tokens, List.length_append, List.length_cons] at deep
    rcases Nat.exists_eq_add_of_le' (show 2 ≤ depth by omega) with ⟨shallow, rfl⟩
    refine accepts_phrase rfl rfl rfl (accepts_either_second (refuses_rule ?_)
      (accepts_either_first (accepts_rule
        (accepts_comparison left operator right span (by omega) (by omega) noCall))))
    rw [Predicate.tokens, List.append_assoc]
    exact refuses_nullCheck_comparison left operator _ (by omega)

theorem acceptsAt_nullCheck (subject : Expression) (negated : Bool) (span : Span) :
    AcceptsAt .operand (.nullCheck subject negated span) := by
  apply acceptsAt_operand
  · rfl
  · intro others
    rw [Predicate.tokens, List.append_assoc]
    exact head?_tokens_ne_not subject _
  · intro depth others deep _
    rw [Predicate.tokens, List.length_append, List.length_cons] at deep
    rcases Nat.exists_eq_add_of_le' (show 2 ≤ depth by omega) with ⟨shallow, rfl⟩
    exact accepts_phrase rfl rfl rfl (accepts_either_first
      (accepts_rule (accepts_nullCheck subject negated span (by omega))))

theorem acceptsAt_group {inner : Predicate} (span : Span) (nested : inner.isNested = true)
    (accepts : AcceptsAt .disjunction inner) : AcceptsAt .operand (.group inner span) := by
  apply acceptsAt_operand
  · exact nested
  · intro others
    simp [Predicate.tokens]
  · intro depth others deep _
    rw [Predicate.tokens, List.length_cons, List.length_append, List.length_singleton] at deep
    rcases Nat.exists_eq_add_of_le' (show 6 ≤ depth by omega) with ⟨shallow, rfl⟩
    have closes : Level.disjunction.Closes (.mark ')' :: others) := by simp [Level.Closes]
    have whole : Accepts (read (shallow + 3) .disjunction) inner.tokens (.mark ')' :: others)
        [.predicate inner.bare] :=
      accepts (shallow + 3) _ (by simp only [Level.height]; omega) closes
    have condition : Accepts (read (shallow + 4) .predicate) inner.tokens (.mark ')' :: others)
        [.predicate inner.bare] := accepts_phrase rfl rfl rfl (accepts_rule whole)
    have noExpression : Refuses (read (shallow + 4) .expression)
        ((Predicate.group inner span).tokens ++ others) := by
      rw [Predicate.tokens]
      exact refuses_expression_mark '('
    refine accepts_phrase rfl rfl rfl (accepts_either_second (refuses_rule ?_)
      (accepts_either_second (refuses_rule ?_)
        (accepts_rule (accepts_grouped inner span condition))))
    · exact refuses_phrase rfl (refuses_seq_first (refuses_rule noExpression))
    · exact refuses_phrase rfl (refuses_seq_first (refuses_rule noExpression))

theorem acceptsAt_negation {operand : Predicate} (span : Span)
    (accepts : AcceptsAt .operand operand) : AcceptsAt .operand (.negation operand span) := by
  intro depth others deep closes
  simp only [Predicate.tokens, List.length_cons, Level.height] at deep
  rcases Nat.exists_eq_add_of_le' (show 2 ≤ depth by omega) with ⟨shallow, rfl⟩
  have inner : Accepts (read (shallow + 1) .negation) operand.tokens others
      [.predicate operand.bare] :=
    accepts (shallow + 1) others (by simp only [Level.height]; omega) closes
  exact accepts_phrase rfl rfl rfl (accepts_either_first
    (accepts_token_seq (accepts_keyword rfl) (accepts_rule inner)))

/-! ## Conditions -/

/-- A condition is accepted at the levels at which it may stand. -/
def AcceptsWhereJoined (predicate : Predicate) : Prop :=
  (∀ connective, predicate.mayJoin connective = true → AcceptsAt connective.inner predicate) ∧
    AcceptsAt .disjunction predicate

theorem acceptsWhereJoined_of_operand {predicate : Predicate} (nested : predicate.isNested = true)
    (accepts : AcceptsAt .operand predicate) : AcceptsWhereJoined predicate := by
  have nonempty := length_tokens_pos_of_isNested nested
  have conjunct : AcceptsAt .conjunction predicate := acceptsAt_outer .and nonempty accepts
  refine ⟨?_, acceptsAt_outer .or nonempty conjunct⟩
  intro connective _
  cases connective with
  | and => exact accepts
  | or => exact conjunct

theorem acceptsAt_junction {connective : Connective} {operands : List Predicate} {span : Span}
    (nested : (Predicate.junction connective operands span).isNested = true)
    (each : ∀ operand ∈ operands, AcceptsAt connective.inner operand) :
    AcceptsAt connective.outer (.junction connective operands span) := by
  rw [Predicate.isNested, Bool.and_eq_true, decide_eq_true_iff, Predicate.mayAllJoin_iff] at nested
  rcases nested with ⟨several, nested⟩
  cases operands with
  | nil => simp at several
  | cons first rest =>
      cases rest with
      | nil => simp at several
      | cons second items =>
          intro depth others deep closes
          have nonempty := length_tokens_pos_of_isNested (nested first List.mem_cons_self).2
          rw [Predicate.tokens, Predicate.tokensOfEach_eq_map] at deep ⊢
          rw [Predicate.bare, Predicate.bareOfEach_eq_map]
          exact accepts_outer connective nonempty each deep closes

/-- A condition that nests as its connectives bind is accepted. -/
theorem acceptsWhereJoined_of_isNested {predicate : Predicate}
    (nested : predicate.isNested = true) : AcceptsWhereJoined predicate := by
  induction predicate using Predicate.inductionOn with
  | comparison left operator right span =>
      exact acceptsWhereJoined_of_operand nested (acceptsAt_comparison left operator right span)
  | nullCheck subject negated span =>
      exact acceptsWhereJoined_of_operand nested (acceptsAt_nullCheck subject negated span)
  | group inner span ih =>
      exact acceptsWhereJoined_of_operand nested (acceptsAt_group span nested (ih nested).2)
  | negation operand span ih =>
      apply acceptsWhereJoined_of_operand nested
      rw [Predicate.isNested, Bool.and_eq_true] at nested
      exact acceptsAt_negation span ((ih nested.2).1 .and nested.1)
  | junction connective operands span ih =>
      have nonempty := length_tokens_pos_of_isNested nested
      have each : ∀ operand ∈ operands, AcceptsAt connective.inner operand := by
        rw [Predicate.isNested, Bool.and_eq_true, Predicate.mayAllJoin_iff] at nested
        intro operand member
        rcases nested.2 operand member with ⟨joins, operandNested⟩
        exact (ih operand member operandNested).1 connective joins
      have accepts := acceptsAt_junction nested each
      cases connective with
      | and =>
          refine ⟨?_, acceptsAt_outer .or nonempty accepts⟩
          intro outside joins
          cases outside with
          | and => cases joins
          | or => exact accepts
      | or =>
          refine ⟨?_, accepts⟩
          intro outside joins
          cases outside <;> cases joins

theorem accepts_whereClause {predicate : Predicate} (nested : predicate.isNested = true)
    {depth : Nat} (deep : 10 * predicate.tokens.length + 2 ≤ depth) {others : List Token}
    (closes : Level.disjunction.Closes others) :
    Accepts (read (depth + 2) .whereClause) (.keyword "where" :: predicate.tokens) others
      [.predicate predicate.bare] := by
  have whole : Accepts (read depth .disjunction) predicate.tokens others
      [.predicate predicate.bare] :=
    (acceptsWhereJoined_of_isNested nested).2 depth others deep closes
  have condition : Accepts (read (depth + 1) .predicate) predicate.tokens others
      [.predicate predicate.bare] := accepts_phrase rfl rfl rfl (accepts_rule whole)
  exact accepts_phrase rfl rfl rfl
    (accepts_token_seq (accepts_keyword rfl) (accepts_rule condition))

end Rule

end Grammar

end DocumentQuery
