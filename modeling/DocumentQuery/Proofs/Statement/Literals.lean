import DocumentQuery.Proofs.Number.Decimal
import DocumentQuery.Proofs.Statement.Precedence

/-!
# Literals on their own

A literal that is spelled in any of its ways is read from its text alone.  An integer numeral of
any length stands for its number if 64 bits hold it, in the type that its suffix and its size give,
and for nothing otherwise.
-/

namespace DocumentQuery

open Grammar Grammar.Rule
open Grammar.Pattern (IsDigits IsNumeral)

/-! ## Reading a literal -/

namespace Literal

/-- The literal that a text is read as, with nothing but layout behind it. -/
def read? (text : List Char) : Option Literal :=
  match (Grammar.Rule.literal.parse text).1 with
  | some (next, trees) =>
      match next.skip.rest, Tree.fragments trees with
      | [], .ok [.expression (.literal value _)] => some value
      | _, _ => none
  | none => none

theorem isShaped_token (value : Literal) : value.token.IsShaped := by
  cases value with
  | boolean value => cases value <;> decide
  | null => decide
  | string | integer | long | double | decimal => trivial

theorem exists_of_bare_eq_literal {expression : Expression} {value : Literal} {span : Span}
    (same : expression.bare = .literal value span) :
    ∃ place, expression = .literal value place := by
  cases expression with
  | literal found place =>
      cases same
      exact ⟨place, rfl⟩
  | path | call => cases same

/-- Every spelling of a literal is read as the literal. -/
theorem read?_of_spelled {value : Literal} {text : List Char}
    (spelled : value.token.Spelled text) : read? text = some value := by
  have shaped : ∀ token ∈ [value.token], token.IsShaped :=
    List.forall_mem_singleton.mpr value.isShaped_token
  have spells : Spells [value.token] (text ++ []) := .last spelled (Or.inl .none)
  rw [List.append_nil] at spells
  have bound : depthBound text = 38 * (text.length + 1) := rfl
  rcases Nat.exists_eq_add_of_le' (show 3 ≤ depthBound text by omega) with ⟨depth, enough⟩
  have accepts : Accepts (read (depth + 3) .literal) [value.token] []
      [.expression (.literal value .nowhere)] := accepts_literal value
  rcases accepts (.ofText text) ⟨shaped, spells⟩ .none with
    ⟨next, trees, later, run, written, found, built, bare⟩
  rcases List.map_eq_singleton_iff.mp bare with ⟨fragment, rfl, fragmentBare⟩
  rcases Fragment.bare_eq_expression.mp fragmentBare with ⟨expression, rfl, expressionBare⟩
  rcases exists_of_bare_eq_literal expressionBare with ⟨place, rfl⟩
  -- To derive the equations of these definitions would run the parser.
  delta read? Rule.parse
  rw [enough, run]
  simp only [written.eq_nil, built]

theorem token_of_readDouble {digits : List Char} {value : Literal}
    (read : readDouble digits = .ok value) : value.token = .number value := by
  unfold readDouble at read
  split at read
  next =>
    cases read
    rfl
  next => cases read

theorem token_of_readLong {digits : List Char} {value : Literal} {literal : Int64 → Literal}
    (isNumber : ∀ found, (literal found).token = .number (literal found))
    (read : ((Numeral.readLong digits).map literal).mapError Numeral.Fault.message = .ok value) :
    value.token = .number value := by
  cases found : Numeral.readLong digits with
  | error fault =>
      rw [found] at read
      cases read
  | ok number =>
      rw [found] at read
      cases read
      exact isNumber number

/-- Whatever a numeral stands for is written as a number. -/
theorem token_of_ofNumeral {text : List Char} {value : Literal}
    (converts : ofNumeral text = .ok value) : value.token = .number value := by
  have ofLongIsNumber : ∀ found, (ofLong found).token = .number (ofLong found) := by
    intro found
    unfold ofLong
    split <;> rfl
  unfold ofNumeral at converts
  split at converts
  next =>
    split at converts
    next =>
      cases converts
      rfl
    next => cases converts
  next => exact token_of_readLong (fun _ => rfl) converts
  next => exact token_of_readDouble converts
  next =>
    split at converts
    next => exact token_of_readDouble converts
    next => exact token_of_readLong ofLongIsNumber converts

end Literal

/-! ## Integer numerals -/

namespace Numeral

/-- Whether a text is an integer numeral, digits with an optional hyphen, and of what number. -/
def Denotes (text : List Char) (number : Int) : Prop :=
  ∃ digits, IsDigits digits ∧
    ((text = digits ∧ number = Nat.ofDigitChars 10 digits 0) ∨
      (text = '-' :: digits ∧ number = -Nat.ofDigitChars 10 digits 0))

variable {text : List Char} {number : Int}

theorem Denotes.exists_bare (denotes : Denotes text number) :
    ∃ sign digits, IsBareNumeral text sign digits [] ∧
      number = applySign (decide (sign = ['-'])) (value digits) := by
  rcases denotes with ⟨digits, isDigits, ⟨rfl, rfl⟩ | ⟨rfl, rfl⟩⟩
  · refine ⟨[], text, ⟨by simp, Or.inl rfl, isDigits, Or.inl rfl⟩, ?_⟩
    rw [value_eq_ofDigitChars]
    rfl
  · refine ⟨['-'], digits, ⟨by simp, Or.inr rfl, isDigits, Or.inl rfl⟩, ?_⟩
    rw [value_eq_ofDigitChars]
    rfl

theorem Denotes.signed?_eq (denotes : Denotes text number) : signed? text = some number := by
  rcases denotes.exists_bare with ⟨sign, digits, bare, rfl⟩
  rw [bare.parts, List.append_nil, signed?_append bare.sign bare.whole]

theorem denotes_ofInt (number : Int) : Denotes (ofInt number) number := by
  have digitsValue := value_digits number.natAbs
  rw [value_eq_ofDigitChars] at digitsValue
  refine ⟨digits number.natAbs, isDigits_digits _, ?_⟩
  rw [digitsValue, ofInt]
  split
  next negative => exact Or.inr ⟨rfl, by omega⟩
  next => exact Or.inl ⟨rfl, by omega⟩

/-- A numeral is read as its number just if 64 bits hold it. -/
theorem Denotes.readLong_eq_ok_iff (denotes : Denotes text number) (found : Int64) :
    readLong text = .ok found ↔ found.toInt = number := by
  rw [Numeral.readLong_eq_ok_iff]
  constructor
  · rintro ⟨other, read, ⟨low, high⟩, rfl⟩
    cases denotes.signed?_eq.symm.trans read
    exact Int64.toInt_ofInt_of_le low high
  · rintro rfl
    exact ⟨_, denotes.signed?_eq, ⟨found.le_toInt, found.toInt_lt⟩, found.ofInt_toInt.symm⟩

theorem exists_toInt_eq_iff (number : Int) :
    (∃ found : Int64, found.toInt = number) ↔ -2 ^ 63 ≤ number ∧ number < 2 ^ 63 := by
  constructor
  · rintro ⟨found, rfl⟩
    exact ⟨found.le_toInt, found.toInt_lt⟩
  · intro ⟨low, high⟩
    exact ⟨.ofInt number, Int64.toInt_ofInt_of_le low high⟩

end Numeral

namespace Literal

/-- The number of an integer literal. -/
def toInt? : Literal → Option Int
  | integer number => some number.toInt
  | long number => some number.toInt
  | _ => none

/-- Whether a numeral at a place becomes a literal there. -/
def IsReadAt (span : Span) (text : List Char) (literal : Literal) : Prop :=
  Fragment.ofToken .litNumber span text = .ok (.expression (.literal literal span))

/-- Whether a numeral at a place is refused, with its text and its place in the error. -/
def IsInvalidAt (span : Span) (text : List Char) : Prop :=
  ∃ reason, Fragment.ofToken .litNumber span text =
    .error (.invalidLiteral (String.ofList text) reason span.line span.column)

theorem isReadAt_iff {span : Span} {text : List Char} {literal : Literal} :
    IsReadAt span text literal ↔ ofNumeral text = .ok literal := by
  rw [IsReadAt, Fragment.ofToken]
  cases ofNumeral text <;> simp

theorem isInvalidAt_iff {span : Span} {text : List Char} :
    IsInvalidAt span text ↔ ∀ literal, ¬ IsReadAt span text literal := by
  simp only [isReadAt_iff, IsInvalidAt, Fragment.ofToken]
  cases ofNumeral text <;> simp

/-- An integer takes 32 bits if they suffice. -/
theorem ofLong_eq_iff (found : Int64) (literal : Literal) :
    ofLong found = literal ↔
      (∃ short : Int32, short.toInt = found.toInt ∧ literal = integer short) ∨
        (¬ (-2 ^ 31 ≤ found.toInt ∧ found.toInt < 2 ^ 31) ∧ literal = long found) := by
  unfold ofLong
  split
  next fits =>
    have kept : (Int32.ofInt found.toInt).toInt = found.toInt :=
      Int32.toInt_ofInt_of_le fits.1 fits.2
    constructor
    · rintro rfl
      exact Or.inl ⟨_, kept, rfl⟩
    · rintro (⟨short, same, rfl⟩ | ⟨large, rfl⟩)
      · rw [← same, Int32.ofInt_toInt]
      · exact absurd fits large
  next large =>
    constructor
    · rintro rfl
      exact Or.inr ⟨large, rfl⟩
    · rintro (⟨short, same, rfl⟩ | ⟨_, rfl⟩)
      · exact absurd ⟨same ▸ short.le_toInt, same ▸ short.toInt_lt⟩ large
      · rfl

section Integers

variable {text : List Char} {number : Int}

/-- With the suffix of an integer, a numeral is read in 64 bits. -/
theorem isReadAt_suffixed_iff (denotes : Numeral.Denotes text number) {letter : Char}
    (isLong : letter.toLower = 'l') (span : Span) (literal : Literal) :
    IsReadAt span (text ++ [letter]) literal ↔
      ∃ found : Int64, found.toInt = number ∧ literal = long found := by
  rw [isReadAt_iff, ofNumeral, splitSuffix_long text isLong]
  simp only [← denotes.readLong_eq_ok_iff]
  cases Numeral.readLong text <;> simp [Except.map, Except.mapError, eq_comm]

/-- Without a suffix, a numeral is read in 64 bits and then takes 32 if they suffice. -/
theorem isReadAt_bare_iff (denotes : Numeral.Denotes text number) (span : Span)
    (literal : Literal) :
    IsReadAt span text literal ↔
      ∃ found : Int64, found.toInt = number ∧ ofLong found = literal := by
  rcases denotes.exists_bare with ⟨sign, digits, bare, _⟩
  rcases bare.exists_concat with ⟨start, last, ends, digit⟩
  have plain : splitSuffix text = (text, .none) := by
    rw [ends]
    exact splitSuffix_of_isDigit digit
  have noPoint : '.' ∉ text := by
    intro point
    rw [bare.parts, List.append_nil, List.mem_append] at point
    rcases point with inSign | inDigits
    · rcases bare.sign with rfl | rfl <;> simp at inSign
    · cases bare.whole.2 _ inDigits
  rw [isReadAt_iff, ofNumeral, plain]
  simp only [List.contains_iff_mem, noPoint, if_false, ← denotes.readLong_eq_ok_iff]
  cases Numeral.readLong text <;> simp [Except.map, Except.mapError]

theorem isReadAt_integer (denotes : Numeral.Denotes text number) {found : Int32}
    (same : found.toInt = number) (span : Span) : IsReadAt span text (integer found) := by
  have wide : found.toInt64.toInt = number := found.toInt_toInt64.trans same
  refine (isReadAt_bare_iff denotes span _).mpr ⟨found.toInt64, wide, ?_⟩
  exact (ofLong_eq_iff _ _).mpr (Or.inl ⟨found, same.trans wide.symm, rfl⟩)

/-- Whatever an integer numeral is read as, with or without a suffix, is its number. -/
theorem toInt?_of_isReadAt (denotes : Numeral.Denotes text number) {letter : Char}
    (isLong : letter.toLower = 'l') {span : Span} {literal : Literal}
    (isRead : IsReadAt span (text ++ [letter]) literal ∨ IsReadAt span text literal) :
    literal.toInt? = some number := by
  rcases isRead with suffixed | bare
  · rcases (isReadAt_suffixed_iff denotes isLong span literal).mp suffixed with ⟨found, rfl, rfl⟩
    rfl
  · rcases (isReadAt_bare_iff denotes span literal).mp bare with ⟨found, rfl, becomes⟩
    rcases (ofLong_eq_iff _ _).mp becomes with ⟨short, same, rfl⟩ | ⟨_, rfl⟩
    · exact congrArg some same
    · rfl

theorem exists_isReadAt_suffixed_iff (denotes : Numeral.Denotes text number) {letter : Char}
    (isLong : letter.toLower = 'l') (span : Span) :
    (∃ found : Int64, found.toInt = number ∧ IsReadAt span (text ++ [letter]) (long found)) ↔
      -2 ^ 63 ≤ number ∧ number < 2 ^ 63 := by
  rw [← Numeral.exists_toInt_eq_iff]
  constructor
  · intro ⟨found, same, _⟩
    exact ⟨found, same⟩
  · intro ⟨found, same⟩
    exact ⟨found, same, (isReadAt_suffixed_iff denotes isLong span _).mpr ⟨found, same, rfl⟩⟩

theorem exists_isReadAt_integer_iff (denotes : Numeral.Denotes text number) (span : Span) :
    (∃ found : Int32, found.toInt = number ∧ IsReadAt span text (integer found)) ↔
      -2 ^ 31 ≤ number ∧ number < 2 ^ 31 := by
  constructor
  · rintro ⟨found, rfl, _⟩
    exact ⟨found.le_toInt, found.toInt_lt⟩
  · intro ⟨low, high⟩
    have same : (Int32.ofInt number).toInt = number := Int32.toInt_ofInt_of_le low high
    exact ⟨.ofInt number, same, isReadAt_integer denotes same span⟩

theorem exists_isReadAt_long_iff (denotes : Numeral.Denotes text number) (span : Span) :
    (∃ found : Int64, found.toInt = number ∧ IsReadAt span text (long found)) ↔
      (-2 ^ 63 ≤ number ∧ number < 2 ^ 63) ∧ ¬ (-2 ^ 31 ≤ number ∧ number < 2 ^ 31) := by
  constructor
  · rintro ⟨found, rfl, isRead⟩
    rcases (isReadAt_bare_iff denotes span _).mp isRead with ⟨other, same, becomes⟩
    rw [ofLong_eq_iff, same] at becomes
    rcases becomes with ⟨short, _, mixed⟩ | ⟨large, _⟩
    · cases mixed
    · exact ⟨⟨found.le_toInt, found.toInt_lt⟩, large⟩
  · rintro ⟨inside, large⟩
    rcases (Numeral.exists_toInt_eq_iff number).mpr inside with ⟨found, rfl⟩
    refine ⟨found, rfl, (isReadAt_bare_iff denotes span _).mpr ⟨found, rfl, ?_⟩⟩
    exact (ofLong_eq_iff _ _).mpr (Or.inr ⟨large, rfl⟩)

/-- A numeral that 64 bits do not hold is refused, with or without a suffix. -/
theorem isInvalidAt_of_outside (denotes : Numeral.Denotes text number) {letter : Char}
    (isLong : letter.toLower = 'l') (span : Span)
    (outside : ¬ (-2 ^ 63 ≤ number ∧ number < 2 ^ 63)) :
    IsInvalidAt span (text ++ [letter]) ∧ IsInvalidAt span text := by
  rw [← Numeral.exists_toInt_eq_iff] at outside
  constructor
  · refine isInvalidAt_iff.mpr fun literal isRead => outside ?_
    rcases (isReadAt_suffixed_iff denotes isLong span literal).mp isRead with ⟨found, same, _⟩
    exact ⟨found, same⟩
  · refine isInvalidAt_iff.mpr fun literal isRead => outside ?_
    rcases (isReadAt_bare_iff denotes span literal).mp isRead with ⟨found, same, _⟩
    exact ⟨found, same⟩

theorem read?_of_isReadAt (numeral : IsNumeral text) {span : Span} {literal : Literal}
    (isRead : IsReadAt span text literal) : read? text = some literal := by
  have converts := isReadAt_iff.mp isRead
  apply read?_of_spelled
  rw [token_of_ofNumeral converts]
  exact ⟨numeral, converts⟩

theorem read?_display_integer (found : Int32) :
    read? (integer found).display.toList = some (integer found) := by
  have denotes := Numeral.denotes_ofInt found.toInt
  have isRead := isReadAt_integer denotes rfl .nowhere
  rcases denotes.exists_bare with ⟨sign, digits, bare, _⟩
  rw [display, String.toList_ofList]
  exact read?_of_isReadAt
    ⟨sign, digits, [], [], by simp [bare.parts], bare.sign, bare.whole, Or.inl rfl, Or.inl rfl⟩
    isRead

theorem read?_display_long (found : Int64) :
    read? (long found).display.toList = some (long found) := by
  have denotes := Numeral.denotes_ofInt found.toInt
  have isRead : IsReadAt .nowhere (Numeral.ofInt found.toInt ++ ['L']) (long found) := by
    rw [isReadAt_suffixed_iff denotes rfl]
    exact ⟨found, rfl, rfl⟩
  rcases denotes.exists_bare with ⟨sign, digits, bare, _⟩
  rw [display, String.toList_ofList]
  exact read?_of_isReadAt
    ⟨sign, digits, [], ['L'], by simp [bare.parts], bare.sign, bare.whole, Or.inl rfl,
      Or.inr ⟨"l", by decide, rfl⟩⟩
    isRead

/-- An integer numeral of any length is read as its number or not at all.  With the suffix it is an
integer of 64 bits, and without one it is of 32 bits if they suffice.  Both types are read back from
what is written for them. -/
theorem integers_exact (denotes : Numeral.Denotes text number) {letter : Char}
    (isLong : letter = 'l' ∨ letter = 'L') (span : Span) :
    ((∃ found : Int64, found.toInt = number ∧ IsReadAt span (text ++ [letter]) (long found)) ↔
      -2 ^ 63 ≤ number ∧ number < 2 ^ 63) ∧
    ((∃ found : Int32, found.toInt = number ∧ IsReadAt span text (integer found)) ↔
      -2 ^ 31 ≤ number ∧ number < 2 ^ 31) ∧
    ((∃ found : Int64, found.toInt = number ∧ IsReadAt span text (long found)) ↔
      (-2 ^ 63 ≤ number ∧ number < 2 ^ 63) ∧ ¬ (-2 ^ 31 ≤ number ∧ number < 2 ^ 31)) ∧
    (¬ (-2 ^ 63 ≤ number ∧ number < 2 ^ 63) →
      IsInvalidAt span (text ++ [letter]) ∧ IsInvalidAt span text) ∧
    (∀ literal, IsReadAt span (text ++ [letter]) literal ∨ IsReadAt span text literal →
      literal.toInt? = some number) ∧
    (∀ found : Int32, read? (integer found).display.toList = some (integer found)) ∧
    ∀ found : Int64, read? (long found).display.toList = some (long found) := by
  have lower : letter.toLower = 'l' := by rcases isLong with rfl | rfl <;> rfl
  exact ⟨exists_isReadAt_suffixed_iff denotes lower span, exists_isReadAt_integer_iff denotes span,
    exists_isReadAt_long_iff denotes span, isInvalidAt_of_outside denotes lower span,
    fun _ => toInt?_of_isReadAt denotes lower, read?_display_integer, read?_display_long⟩

/-- Zeros in front do not count, so the least integer of 64 bits is read.  Without its hyphen it is
out of range. -/
theorem integers_exact_least :
    Numeral.Denotes "-009223372036854775808".toList (-2 ^ 63) ∧
    Numeral.Denotes "009223372036854775808".toList (2 ^ 63) ∧
    (∃ found : Int64, found.toInt = -2 ^ 63 ∧
      IsReadAt .nowhere ("-009223372036854775808".toList ++ ['L']) (long found)) ∧
    (∃ found : Int64, found.toInt = -2 ^ 63 ∧
      IsReadAt .nowhere "-009223372036854775808".toList (long found)) ∧
    IsInvalidAt .nowhere ("009223372036854775808".toList ++ ['L']) ∧
    IsInvalidAt .nowhere "009223372036854775808".toList := by
  have isDigits : IsDigits "009223372036854775808".toList := ⟨List.cons_ne_nil _ _, by simp⟩
  have least : Numeral.Denotes "-009223372036854775808".toList (-2 ^ 63) :=
    ⟨_, isDigits, Or.inr ⟨rfl, by decide⟩⟩
  have beyond : Numeral.Denotes "009223372036854775808".toList (2 ^ 63) :=
    ⟨_, isDigits, Or.inl ⟨rfl, by decide⟩⟩
  rcases integers_exact least (Or.inr rfl) .nowhere with ⟨suffixed, _, bare, _⟩
  rcases integers_exact beyond (Or.inr rfl) .nowhere with ⟨_, _, _, invalid, _⟩
  exact ⟨least, beyond, suffixed.mpr (by decide), bare.mpr (by decide), invalid (by decide)⟩

end Integers

end Literal

end DocumentQuery
