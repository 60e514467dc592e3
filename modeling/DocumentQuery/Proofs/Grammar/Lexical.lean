import DocumentQuery.Comparison
import DocumentQuery.Grammar.Rule
import DocumentQuery.Statement.Identifier
import DocumentQuery.Statement.Literal
import Mathlib.Data.List.TakeWhile

/-!
# What the lexical patterns match

A token ends where layout begins or the text does.  In front of such an end each pattern
takes exactly the tokens of its kind.  Which of the words a text starts with is decided by
its longest run of identifier characters, so `order` is no `or`.
-/

namespace DocumentQuery.Grammar

/-! ## Characters -/

/-- The characters that layout starts with. -/
def opensLayout (c : Char) : Bool := c == ' ' || c == '\t' || c == '\r' || c == '\n' || c == '-'

/-- No token goes on in the text: it is empty or starts with layout. -/
def AtEnd (text : List Char) : Prop := ∀ c, text.head? = some c → opensLayout c = true

theorem opensLayout_cases {c : Char} (opens : opensLayout c = true) :
    c = ' ' ∨ c = '\t' ∨ c = '\r' ∨ c = '\n' ∨ c = '-' := by
  simpa [opensLayout, or_assoc] using opens

theorem isIdentChar_of_opensLayout {c : Char} (opens : opensLayout c = true) :
    isIdentChar c = false := by
  rcases opensLayout_cases opens with rfl | rfl | rfl | rfl | rfl <;> decide

theorem AtEnd.any_eq_false {text : List Char} (atEnd : AtEnd text) {accepts : Char → Bool}
    (outside : ∀ c, opensLayout c = true → accepts c = false) :
    text.head?.any accepts = false := by
  cases text with
  | nil => rfl
  | cons c text => exact outside c (atEnd c rfl)

theorem AtEnd.head?_ne {text : List Char} (atEnd : AtEnd text) {c : Char}
    (inside : opensLayout c = false) : text.head? ≠ some c := by
  intro head
  rw [atEnd c head] at inside
  cases inside

theorem isIdentChar_of_isIdentStart {c : Char} (starts : isIdentStart c = true) :
    isIdentChar c = true := by
  rw [isIdentStart, Bool.or_eq_true] at starts
  rw [isIdentChar, Char.isAlphanum]
  rcases starts with letter | underscore
  · simp [letter]
  · simp [underscore]

/-- Lower case changes nothing but letters. -/
theorem toLower_eq_or_isAlpha (c : Char) : c.toLower = c ∨ c.isAlpha = true := by
  by_cases upper : c.val ≥ 'A'.val ∧ c.val ≤ 'Z'.val
  · exact Or.inr (Bool.or_eq_true_iff.mpr (Or.inl (decide_eq_true upper)))
  · exact Or.inl (dif_neg upper)

/-- Lower case does not make an identifier character out of another character. -/
theorem isIdentChar_of_toLower {c : Char} (lower : isIdentChar c.toLower = true) :
    isIdentChar c = true := by
  rcases toLower_eq_or_isAlpha c with same | letter
  · rwa [same] at lower
  · simp [isIdentChar, Char.isAlphanum, letter]

/-- Nor does it make the start of an identifier out of another character. -/
theorem isIdentStart_of_toLower {c : Char} (lower : isIdentStart c.toLower = true) :
    isIdentStart c = true := by
  rcases toLower_eq_or_isAlpha c with same | letter
  · rwa [same] at lower
  · simp [isIdentStart, letter]

namespace Pattern

/-! ## Combining patterns -/

theorem firstOf_after? (patterns : List Pattern) (text : List Char) :
    (firstOf patterns).after? text = patterns.findSome? (·.after? text) := by
  induction patterns with
  | nil => cases text <;> rfl
  | cons pattern patterns ih =>
      cases patterns with
      | nil =>
          rw [firstOf, List.findSome?_cons]
          cases pattern.after? text <;> rfl
      | cons second others =>
          rw [firstOf, after?, List.findSome?_cons, ih]
          · cases pattern.after? text <;> rfl
          · nofun

theorem sequence_cons_after? (pattern : Pattern) (patterns : List Pattern) (text : List Char) :
    (sequence (pattern :: patterns)).after? text =
      (pattern.after? text).bind (sequence patterns).after? := by
  cases patterns with
  | nil =>
      simp only [sequence]
      cases pattern.after? text <;> rfl
  | cons second others =>
      rw [sequence, after?]
      · cases pattern.after? text <;> rfl
      · nofun

theorem repeatAfter_one (accepts : Char → Bool) (bound : Nat) (text : List Char)
    (fits : text.length ≤ bound) :
    repeatAfter (one accepts).after? bound text = text.dropWhile accepts := by
  induction text generalizing bound with
  | nil => cases bound <;> rfl
  | cons c rest ih =>
      cases bound with
      | zero => cases fits
      | succ bound =>
          rw [repeatAfter, after?, List.dropWhile_cons]
          by_cases accepted : accepts c = true
          · simp only [accepted, if_true]
            exact ih bound (Nat.le_of_succ_le_succ fits)
          · simp only [accepted, if_false, Bool.false_eq_true]

@[simp] theorem many_one_after? (accepts : Char → Bool) (text : List Char) :
    (many (one accepts)).after? text = some (text.dropWhile accepts) := by
  rw [after?, repeatAfter_one accepts _ text (Nat.le_refl _)]

/-- What precedes the rest of a match are the given characters up to normalisation. -/
theorem afterChars_eq_some_iff {fold : Char → Char} {text input rest : List Char} :
    afterChars fold text input = some rest ↔
      ∃ lexeme, input = lexeme ++ rest ∧ lexeme.map fold = text := by
  induction text generalizing input with
  | nil => simp [afterChars, eq_comm]
  | cons c text ih =>
      cases input with
      | nil => simp [afterChars]
      | cons d input =>
          rw [afterChars]
          constructor
          · intro matched
            split at matched
            next same =>
              rcases ih.mp matched with ⟨lexeme, rfl, rfl⟩
              exact ⟨d :: lexeme, rfl, by rw [List.map_cons, same]⟩
            next => cases matched
          · rintro ⟨lexeme, cut, folded⟩
            cases lexeme with
            | nil => cases folded
            | cons first lexeme =>
                cases cut
                cases folded
                rw [if_pos rfl]
                exact ih.mpr ⟨lexeme, rfl, rfl⟩

theorem seq_after?_eq_some_iff {first second : Pattern} {text rest : List Char} :
    (seq first second).after? text = some rest ↔
      ∃ between, first.after? text = some between ∧ second.after? between = some rest := by
  rw [after?]
  cases first.after? text <;> simp

theorem absent_one_after?_eq_some_iff {accepts : Char → Bool} {text rest : List Char} :
    (absent (one accepts)).after? text = some rest ↔
      text.head?.any accepts = false ∧ text = rest := by
  cases text with
  | nil => simp [after?]
  | cons c text => cases accepted : accepts c <;> simp [after?, accepted]

end Pattern

/-! ## Runs of characters -/

section Runs

variable {accepts : Char → Bool} {run rest : List Char}

theorem takeWhile_run (inside : ∀ c ∈ run, accepts c = true)
    (boundary : rest.head?.any accepts = false) : (run ++ rest).takeWhile accepts = run := by
  rw [List.takeWhile_append_of_pos inside]
  cases rest with
  | nil => simp
  | cons c rest => simp_all

theorem dropWhile_run (inside : ∀ c ∈ run, accepts c = true)
    (boundary : rest.head?.any accepts = false) : (run ++ rest).dropWhile accepts = rest := by
  rw [List.dropWhile_append_of_pos inside]
  cases rest with
  | nil => rfl
  | cons c rest => simp_all

theorem head?_dropWhile_any (text : List Char) :
    (text.dropWhile accepts).head?.any accepts = false := by
  have stops := List.head?_dropWhile_not accepts text
  cases head : (text.dropWhile accepts).head? with
  | none => rfl
  | some c =>
      rw [head] at stops
      exact stops

end Runs

/-- The longest run of identifier characters at the front of a text. -/
def leadingRun (text : List Char) : List Char := text.takeWhile isIdentChar

/-- A name of the right shape that is not reserved. -/
def IsPlain (name : String) : Prop :=
  Identifier.isShaped name.toList = true ∧ Identifier.isReserved name = false

instance (name : String) : Decidable (IsPlain name) :=
  inferInstanceAs (Decidable (_ ∧ _))

namespace Pattern

/-! ## Words -/

theorem word_after?_eq_some_iff {word text rest : List Char} :
    (Pattern.word word).after? text = some rest ↔
      ∃ lexeme, text = lexeme ++ rest ∧ lexeme.map Char.toLower = word :=
  afterChars_eq_some_iff

/-- A keyword is read where it is the leading run, in any mixture of cases. -/
theorem keyword_after?_eq_some_iff {word : String} {text rest : List Char}
    (plain : ∀ c ∈ word.toList, isIdentChar c = true) :
    (keyword word).after? text = some rest ↔
      (leadingRun text).map Char.toLower = word.toList ∧ text.dropWhile isIdentChar = rest := by
  rw [keyword, seq_after?_eq_some_iff]
  constructor
  · rintro ⟨between, matched, ended⟩
    rcases word_after?_eq_some_iff.mp matched with ⟨lexeme, rfl, folded⟩
    rcases absent_one_after?_eq_some_iff.mp ended with ⟨ends, rfl⟩
    have inside : ∀ c ∈ lexeme, isIdentChar c = true := by
      intro c member
      apply isIdentChar_of_toLower
      apply plain
      rw [← folded]
      exact List.mem_map_of_mem member
    rw [leadingRun, takeWhile_run inside ends, dropWhile_run inside ends]
    exact ⟨folded, rfl⟩
  · rintro ⟨folded, rfl⟩
    refine ⟨text.dropWhile isIdentChar, ?_, ?_⟩
    · exact word_after?_eq_some_iff.mpr
        ⟨leadingRun text, List.takeWhile_append_dropWhile.symm, folded⟩
    · exact absent_one_after?_eq_some_iff.mpr ⟨head?_dropWhile_any text, rfl⟩

theorem exists_of_keyword_after? {word : String} {text rest : List Char}
    (matched : (keyword word).after? text = some rest) :
    ∃ lexeme, text = lexeme ++ rest ∧ lexeme.map Char.toLower = word.toList := by
  rcases seq_after?_eq_some_iff.mp matched with ⟨between, wordRead, ended⟩
  rcases absent_one_after?_eq_some_iff.mp ended with ⟨_, rfl⟩
  exact word_after?_eq_some_iff.mp wordRead

/-- Words none of which starts another one do not compete: the one that stands in the
text is read. -/
theorem firstOf_words_after? {words : List String}
    (prefixFree : ∀ word ∈ words, ∀ other ∈ words, word.toList <+: other.toList → word = other)
    {word : String} (member : word ∈ words) {lexeme : List Char}
    (folded : lexeme.map Char.toLower = word.toList) (rest : List Char) :
    (firstOf (words.map fun text => Pattern.word text.toList)).after? (lexeme ++ rest) =
      some rest := by
  rw [firstOf_after?, List.findSome?_map]
  cases found : words.findSome?
      ((fun pattern => pattern.after? (lexeme ++ rest)) ∘ fun text => Pattern.word text.toList) with
  | none =>
      have failed := List.findSome?_eq_none_iff.mp found word member
      rw [Function.comp_apply, word_after?_eq_some_iff.mpr ⟨lexeme, rfl, folded⟩] at failed
      cases failed
  | some otherRest =>
      rcases List.exists_of_findSome?_eq_some found with ⟨other, otherMember, matched⟩
      rcases word_after?_eq_some_iff.mp matched with ⟨otherLexeme, cut, otherFolded⟩
      -- Both words are prefixes of the text in lower case.
      have starts : word.toList <+: (lexeme ++ rest).map Char.toLower := by
        rw [List.map_append, folded]
        exact List.prefix_append _ _
      have otherStarts : other.toList <+: (lexeme ++ rest).map Char.toLower := by
        rw [cut, List.map_append, otherFolded]
        exact List.prefix_append _ _
      have same : word = other := by
        rcases List.prefix_or_prefix_of_prefix starts otherStarts with inner | inner
        · exact prefixFree word member other otherMember inner
        · exact (prefixFree other otherMember word member inner).symm
      have sameLength : lexeme.length = otherLexeme.length := by
        rw [← List.length_map (f := Char.toLower), folded, same, ← otherFolded, List.length_map]
      exact congrArg some (List.append_inj cut sameLength).2.symm

theorem prefixFree_reservedWords :
    ∀ word ∈ Identifier.reservedWords, ∀ other ∈ Identifier.reservedWords,
      word.toList <+: other.toList → word = other := by
  decide

theorem isIdentChar_of_reserved :
    ∀ word ∈ Identifier.reservedWords, ∀ c ∈ word.toList, isIdentChar c = true := by
  have all : ∀ word ∈ Identifier.reservedWords, word.toList.all isIdentChar = true := by decide
  intro word reserved
  exact List.all_eq_true.mp (all word reserved)

theorem isReserved_iff (name : List Char) :
    Identifier.isReserved (String.ofList name) = true ↔
      ∃ word ∈ Identifier.reservedWords, name.map Char.toLower = word.toList := by
  simp [Identifier.isReserved]

/-- A reserved word is read where it is the leading run. -/
theorem anyKeyword_after?_eq_some_iff {text rest : List Char} :
    anyKeyword.after? text = some rest ↔
      Identifier.isReserved (String.ofList (leadingRun text)) = true ∧
        text.dropWhile isIdentChar = rest := by
  rw [isReserved_iff]
  constructor
  · intro matched
    rcases seq_after?_eq_some_iff.mp matched with ⟨between, first, ended⟩
    rw [firstOf_after?] at first
    rcases List.exists_of_findSome?_eq_some first with ⟨pattern, member, found⟩
    rcases List.mem_map.mp member with ⟨word, reserved, rfl⟩
    have read : (keyword word).after? text = some rest :=
      seq_after?_eq_some_iff.mpr ⟨between, found, ended⟩
    have plain := isIdentChar_of_reserved word reserved
    rcases (keyword_after?_eq_some_iff plain).mp read with ⟨folded, remains⟩
    exact ⟨⟨word, reserved, folded⟩, remains⟩
  · rintro ⟨⟨word, reserved, folded⟩, rfl⟩
    refine seq_after?_eq_some_iff.mpr ⟨text.dropWhile isIdentChar, ?_, ?_⟩
    · have read := firstOf_words_after? prefixFree_reservedWords reserved folded
        (text.dropWhile isIdentChar)
      rw [leadingRun, List.takeWhile_append_dropWhile] at read
      exact read
    · exact absent_one_after?_eq_some_iff.mpr ⟨head?_dropWhile_any text, rfl⟩

theorem anyKeyword_after?_isSome_iff (text : List Char) :
    (anyKeyword.after? text).isSome = true ↔
      Identifier.isReserved (String.ofList (leadingRun text)) = true := by
  simp [Option.isSome_iff_exists, anyKeyword_after?_eq_some_iff]

/-! ## Names -/

theorem identShape_after?_eq_some_iff {text rest : List Char} :
    identShape.after? text = some rest ↔
      text.head?.any isIdentStart = true ∧ text.dropWhile isIdentChar = rest := by
  rw [identShape, seq_after?_eq_some_iff]
  cases text with
  | nil => simp [after?]
  | cons c text =>
      cases starts : isIdentStart c with
      | false => simp [after?, starts]
      | true =>
          have continues := isIdentChar_of_isIdentStart starts
          simp [after?, repeatAfter_one, starts, continues]

/-- An identifier is the leading run of a text, if that has the shape and is not reserved. -/
theorem ident_after?_eq_some_iff {text rest : List Char} :
    ident.after? text = some rest ↔
      Identifier.isReserved (String.ofList (leadingRun text)) = false ∧
        text.head?.any isIdentStart = true ∧ text.dropWhile isIdentChar = rest := by
  have reserved := anyKeyword_after?_isSome_iff text
  rw [ident, seq_after?_eq_some_iff, after?]
  cases found : anyKeyword.after? text with
  | none =>
      rw [found] at reserved
      simp_all [identShape_after?_eq_some_iff]
  | some between =>
      rw [found] at reserved
      simp_all

theorem isShaped_iff (name : List Char) :
    Identifier.isShaped name = true ↔
      name.head?.any isIdentStart = true ∧ ∀ c ∈ name, isIdentChar c = true := by
  cases name with
  | nil => simp [Identifier.isShaped]
  | cons c name =>
      simp only [Identifier.isShaped, Bool.and_eq_true, List.all_eq_true, List.head?_cons,
        Option.any_some, List.forall_mem_cons]
      constructor
      · rintro ⟨starts, continues⟩
        exact ⟨starts, isIdentChar_of_isIdentStart starts, continues⟩
      · rintro ⟨starts, _, continues⟩
        exact ⟨starts, continues⟩

theorem ident_after?_append {name : String} (plain : IsPlain name) {rest : List Char}
    (ends : rest.head?.any isIdentChar = false) :
    ident.after? (name.toList ++ rest) = some rest := by
  rcases (isShaped_iff _).mp plain.1 with ⟨starts, inside⟩
  have run : leadingRun (name.toList ++ rest) = name.toList := takeWhile_run inside ends
  apply ident_after?_eq_some_iff.mpr
  rw [run, String.ofList_toList]
  refine ⟨plain.2, ?_, dropWhile_run inside ends⟩
  cases shape : name.toList with
  | nil => simp [shape] at starts
  | cons c cs => simpa [shape] using starts

theorem exactly_after?_append (lexeme rest : List Char) :
    (exactly lexeme).after? (lexeme ++ rest) = some rest :=
  afterChars_eq_some_iff.mpr ⟨lexeme, rfl, List.map_id lexeme⟩

theorem exactly_singleton_after?_eq_none {c : Char} {text : List Char}
    (other : text.head? ≠ some c) : (exactly [c]).after? text = none := by
  cases text with
  | nil => rfl
  | cons d text => simp_all [after?, afterChars]

theorem exactly_singleton_after?_cons (c : Char) (rest : List Char) :
    (exactly [c]).after? (c :: rest) = some rest :=
  exactly_after?_append [c] rest

/-- A name between backquotes is read whether it is reserved or not. -/
theorem quotedIdent_after?_append {name : List Char} (shaped : Identifier.isShaped name = true)
    (rest : List Char) :
    quotedIdent.after? (backquote :: name ++ [backquote] ++ rest) = some rest := by
  rw [List.append_assoc, List.singleton_append]
  cases name with
  | nil => cases shaped
  | cons c name =>
      rw [Identifier.isShaped, Bool.and_eq_true, List.all_eq_true] at shaped
      have run : (name ++ backquote :: rest).dropWhile isIdentChar = backquote :: rest :=
        dropWhile_run shaped.2 rfl
      rw [quotedIdent, List.cons_append, sequence_cons_after?, exactly_singleton_after?_cons,
        Option.bind_some, sequence_cons_after?, List.cons_append, after?, if_pos shaped.1,
        Option.bind_some, sequence_cons_after?, many_one_after?, run, Option.bind_some, sequence,
        exactly_singleton_after?_cons]

theorem quotedIdent_after?_eq_none {text : List Char} (other : text.head? ≠ some backquote) :
    quotedIdent.after? text = none := by
  rw [quotedIdent, sequence_cons_after?, exactly_singleton_after?_eq_none other]
  rfl

/-- What is read as an identifier is a plain name. -/
theorem exists_of_ident_after? {text rest : List Char} (matched : ident.after? text = some rest) :
    ∃ name, IsPlain name ∧ text = name.toList ++ rest := by
  rcases ident_after?_eq_some_iff.mp matched with ⟨notReserved, starts, rfl⟩
  have shaped : Identifier.isShaped (leadingRun text) = true := by
    refine (isShaped_iff _).mpr ⟨?_, List.all_eq_true.mp List.all_takeWhile⟩
    cases text with
    | nil => cases starts
    | cons c text =>
        have continues : isIdentChar c = true := isIdentChar_of_isIdentStart starts
        rw [leadingRun, List.takeWhile_cons_of_pos continues]
        exact starts
  refine ⟨String.ofList (leadingRun text), ⟨?_, notReserved⟩, ?_⟩
  · rw [String.toList_ofList]
    exact shaped
  · rw [String.toList_ofList, leadingRun, List.takeWhile_append_dropWhile]

theorem eq_cons_of_exactly_singleton {c : Char} {text rest : List Char}
    (matched : (exactly [c]).after? text = some rest) : text = c :: rest := by
  rcases afterChars_eq_some_iff.mp matched with ⟨lexeme, rfl, same⟩
  rw [List.map_id] at same
  rw [same]
  rfl

theorem exists_of_quotedIdent_after? {text rest : List Char}
    (matched : quotedIdent.after? text = some rest) :
    ∃ name, Identifier.isShaped name = true ∧
      text = backquote :: name ++ [backquote] ++ rest := by
  simp only [quotedIdent, sequence, seq_after?_eq_some_iff] at matched
  rcases matched with ⟨opened, openRead, afterFirst, firstRead, afterName, nameRead, closeRead⟩
  cases eq_cons_of_exactly_singleton openRead
  cases opened with
  | nil => cases firstRead
  | cons c others =>
      rw [after?] at firstRead
      split at firstRead
      next starts =>
        cases firstRead
        rw [many_one_after?] at nameRead
        cases nameRead
        have closed := eq_cons_of_exactly_singleton closeRead
        refine ⟨c :: afterFirst.takeWhile isIdentChar, ?_, ?_⟩
        · rw [Identifier.isShaped, starts, Bool.true_and]
          exact List.all_takeWhile
        · rw [List.append_assoc, List.singleton_append, ← closed, List.cons_append,
            List.cons_append, List.takeWhile_append_dropWhile]
      next => cases firstRead

/-! ## Paths -/

/-- The text of a path after its first segment. -/
def laterSegments (segments : List String) : List Char :=
  segments.flatMap fun name => '.' :: name.toList

theorem head?_laterSegments_any (segments : List String) {rest : List Char}
    (ends : rest.head?.any isIdentChar = false) :
    (laterSegments segments ++ rest).head?.any isIdentChar = false := by
  cases segments with
  | nil => exact ends
  | cons => rfl

theorem length_le_laterSegments (segments : List String) :
    segments.length ≤ (laterSegments segments).length := by
  induction segments with
  | nil => exact Nat.le_refl _
  | cons name segments ih =>
      simp only [laterSegments, List.flatMap_cons, List.length_append, List.length_cons] at ih ⊢
      omega

/-- After the first segment of a path each round takes a point and a segment. -/
theorem repeatAfter_laterSegments {segments : List String}
    (plain : ∀ name ∈ segments, IsPlain name) {rest : List Char}
    (ends : rest.head?.any isIdentChar = false) (noPoint : rest.head? ≠ some '.')
    {bound : Nat} (fits : segments.length ≤ bound) :
    repeatAfter (seq (exactly ['.']) ident).after? bound (laterSegments segments ++ rest) =
      rest := by
  induction segments generalizing bound with
  | nil =>
      have stops : (seq (exactly ['.']) ident).after? rest = none := by
        rw [after?, exactly_singleton_after?_eq_none noPoint]
      cases bound with
      | zero => rfl
      | succ bound =>
          simp only [laterSegments, List.flatMap_nil, List.nil_append, repeatAfter, stops]
  | cons name segments ih =>
      cases bound with
      | zero => cases fits
      | succ bound =>
          have round : (seq (exactly ['.']) ident).after?
              ('.' :: name.toList ++ (laterSegments segments ++ rest)) =
                some (laterSegments segments ++ rest) := by
            apply seq_after?_eq_some_iff.mpr
            exact ⟨_, exactly_singleton_after?_cons '.' _,
              ident_after?_append (plain name List.mem_cons_self) (head?_laterSegments_any _ ends)⟩
          rw [laterSegments, List.flatMap_cons, List.append_assoc, repeatAfter]
          rw [laterSegments] at round
          rw [round]
          exact ih (fun other member => plain other (List.mem_cons_of_mem _ member))
            (Nat.le_of_succ_le_succ fits)

theorem intercalate_singleton_cons {α : Type} (mark : α) (first : List α)
    (others : List (List α)) :
    [mark].intercalate (first :: others) = first ++ others.flatMap (mark :: ·) := by
  induction others generalizing first with
  | nil => simp [List.intercalate]
  | cons second others ih => simp [List.intercalate_cons_cons, ih]

theorem toList_intercalate_point (first : String) (others : List String) :
    (".".intercalate (first :: others)).toList = first.toList ++ laterSegments others := by
  have point : ".".toList = ['.'] := rfl
  rw [String.toList_intercalate, point, List.map_cons, intercalate_singleton_cons,
    List.flatMap_map, laterSegments]

/-- A path is read up to where neither a name nor a path goes on. -/
theorem dottedIdent_after?_append {first : String} {others : List String}
    (plain : ∀ name ∈ first :: others, IsPlain name) {rest : List Char}
    (ends : rest.head?.any isIdentChar = false) (noPoint : rest.head? ≠ some '.') :
    dottedIdent.after? (first.toList ++ laterSegments others ++ rest) = some rest := by
  rw [List.append_assoc, dottedIdent]
  apply seq_after?_eq_some_iff.mpr
  refine ⟨laterSegments others ++ rest, ?_, ?_⟩
  · exact ident_after?_append (plain first List.mem_cons_self) (head?_laterSegments_any _ ends)
  · have fits : others.length ≤ (laterSegments others ++ rest).length := by
      rw [List.length_append]
      exact Nat.le_add_right_of_le (length_le_laterSegments others)
    rw [after?, repeatAfter_laterSegments _ ends noPoint fits]
    exact fun name member => plain name (List.mem_cons_of_mem _ member)

theorem exists_of_repeatAfter_segments (bound : Nat) (text : List Char) :
    ∃ segments, (∀ name ∈ segments, IsPlain name) ∧
      text = laterSegments segments ++
        repeatAfter (seq (exactly ['.']) ident).after? bound text := by
  induction bound generalizing text with
  | zero => exact ⟨[], nofun, rfl⟩
  | succ bound ih =>
      rw [repeatAfter]
      split
      next => exact ⟨[], nofun, rfl⟩
      next rest matched =>
        rcases seq_after?_eq_some_iff.mp matched with ⟨between, pointRead, nameRead⟩
        cases eq_cons_of_exactly_singleton pointRead
        rcases exists_of_ident_after? nameRead with ⟨name, plain, rfl⟩
        rcases ih rest with ⟨segments, eachPlain, split⟩
        refine ⟨name :: segments, List.forall_mem_cons.mpr ⟨plain, eachPlain⟩, ?_⟩
        rw [laterSegments, List.flatMap_cons, List.append_assoc, List.cons_append]
        exact congrArg (fun others => '.' :: (name.toList ++ others)) split

/-- What is read as a path are plain names with points between them. -/
theorem exists_of_dottedIdent_after? {text rest : List Char}
    (matched : dottedIdent.after? text = some rest) :
    ∃ first others, (∀ name ∈ first :: others, IsPlain name) ∧
      text = (".".intercalate (first :: others)).toList ++ rest := by
  rcases seq_after?_eq_some_iff.mp matched with ⟨between, firstRead, othersRead⟩
  rcases exists_of_ident_after? firstRead with ⟨first, plain, rfl⟩
  rw [after?, Option.some_inj] at othersRead
  rcases exists_of_repeatAfter_segments between.length between with ⟨others, eachPlain, split⟩
  refine ⟨first, others, List.forall_mem_cons.mpr ⟨plain, eachPlain⟩, ?_⟩
  rw [toList_intercalate_point, List.append_assoc, ← othersRead, ← split]

/-! ## Strings -/

/-- What stands between quotes: two quotes, or any other character. -/
def quotedChar (quote : Char) : Pattern :=
  either (exactly [quote, quote]) (seq (absent (exactly [quote])) (one fun _ => true))

theorem quotedChar_after?_quotes (quote : Char) (rest : List Char) :
    (quotedChar quote).after? (quote :: quote :: rest) = some rest := by
  simp [quotedChar, after?, afterChars]

theorem quotedChar_after?_other {quote c : Char} (other : c ≠ quote) (rest : List Char) :
    (quotedChar quote).after? (c :: rest) = some rest := by
  simp [quotedChar, after?, afterChars, other]

theorem quotedChar_after?_end {quote : Char} {rest : List Char}
    (single : rest.head? ≠ some quote) : (quotedChar quote).after? (quote :: rest) = none := by
  cases rest with
  | nil => simp [quotedChar, after?, afterChars]
  | cons c rest => simp_all [quotedChar, after?, afterChars]

/-- Between the quotes each round takes one character of the string, up to where no round goes
on. -/
theorem repeatAfter_doubleQuotes {quote : Char} (text : List Char) {rest : List Char}
    (ends : (quotedChar quote).after? rest = none) {bound : Nat} (fits : text.length ≤ bound) :
    repeatAfter (quotedChar quote).after? bound (Literal.doubleQuotes quote text ++ rest) =
      rest := by
  induction text generalizing bound with
  | nil =>
      cases bound with
      | zero => rfl
      | succ bound => simp [Literal.doubleQuotes, repeatAfter, ends]
  | cons c text ih =>
      cases bound with
      | zero => cases fits
      | succ bound =>
          have later := ih (Nat.le_of_succ_le_succ fits)
          rw [Literal.doubleQuotes] at later ⊢
          rw [List.flatMap_cons, List.append_assoc, repeatAfter]
          by_cases same : c = quote
          · subst same
            rw [if_pos rfl, List.cons_append, List.cons_append, List.nil_append,
              quotedChar_after?_quotes]
            exact later
          · rw [if_neg same, List.cons_append, List.nil_append, quotedChar_after?_other same]
            exact later

theorem length_le_doubleQuotes (quote : Char) (text : List Char) :
    text.length ≤ (Literal.doubleQuotes quote text).length := by
  induction text with
  | nil => exact Nat.le_refl _
  | cons c text ih =>
      have longer : 0 < (if c = quote then [quote, quote] else [c]).length := by split <;> simp
      simp only [Literal.doubleQuotes, List.flatMap_cons, List.length_append,
        List.length_cons] at ih ⊢
      omega

/-- A quoted text is read up to its closing quote. -/
theorem quoted_after?_append (quote : Char) (text : List Char) {rest : List Char}
    (single : rest.head? ≠ some quote) :
    (quoted quote).after? (Literal.quoteText quote text ++ rest) = some rest := by
  have shape : Literal.quoteText quote text ++ rest =
      quote :: (Literal.doubleQuotes quote text ++ quote :: rest) := by
    simp [Literal.quoteText]
  have fits : text.length ≤ (Literal.doubleQuotes quote text ++ quote :: rest).length := by
    rw [List.length_append]
    exact Nat.le_add_right_of_le (length_le_doubleQuotes quote text)
  have rounds := repeatAfter_doubleQuotes text (quotedChar_after?_end single) fits
  rw [quotedChar] at rounds
  rw [shape, quoted, sequence_cons_after?, exactly_singleton_after?_cons, Option.bind_some,
    sequence_cons_after?, after?, rounds, Option.bind_some, sequence,
    exactly_singleton_after?_cons]

/-- A text with an open quote is not read, however its other quotes are paired. -/
theorem quoted_after?_open (quote : Char) (text : List Char) :
    (quoted quote).after? (quote :: Literal.doubleQuotes quote text) = none := by
  have rounds := repeatAfter_doubleQuotes text (show (quotedChar quote).after? [] = none from rfl)
    (length_le_doubleQuotes quote text)
  rw [quotedChar, List.append_nil] at rounds
  rw [quoted, sequence_cons_after?, exactly_singleton_after?_cons, Option.bind_some,
    sequence_cons_after?, after?, rounds, Option.bind_some]
  rfl

theorem litString_after?_append {quote : Char} (known : quote = '\'' ∨ quote = '"')
    (text : List Char) {rest : List Char} (single : rest.head? ≠ some quote) :
    litString.after? (Literal.quoteText quote text ++ rest) = some rest := by
  rw [litString, after?]
  rcases known with rfl | rfl
  · rw [quoted_after?_append _ text single]
  · have other : (quoted '\'').after? (Literal.quoteText '"' text ++ rest) = none := by
      rw [quoted, sequence_cons_after?, exactly_singleton_after?_eq_none]
      · rfl
      · simp [Literal.quoteText]
    rw [other, quoted_after?_append _ text single]

theorem litString_after?_open {quote : Char} (known : quote = '\'' ∨ quote = '"')
    (text : List Char) : litString.after? (quote :: Literal.doubleQuotes quote text) = none := by
  rw [litString, after?]
  rcases known with rfl | rfl
  · rw [quoted_after?_open]
    rfl
  · have other : (quoted '\'').after? ('"' :: Literal.doubleQuotes '"' text) = none := rfl
    rw [other, quoted_after?_open]

theorem litString_after?_eq_none {text : List Char} (noSingle : text.head? ≠ some '\'')
    (noDouble : text.head? ≠ some '"') : litString.after? text = none := by
  rw [litString, after?, quoted, quoted, sequence_cons_after?, sequence_cons_after?,
    exactly_singleton_after?_eq_none noSingle, exactly_singleton_after?_eq_none noDouble]
  rfl

theorem exists_of_quotedChar_after? {quote : Char} {text rest : List Char}
    (matched : (quotedChar quote).after? text = some rest) :
    ∃ c, text = (if c = quote then [quote, quote] else [c]) ++ rest := by
  cases text with
  | nil => cases matched
  | cons c text =>
      by_cases same : c = quote
      · subst same
        by_cases second : text.head? = some c
        · rcases List.head?_eq_some_iff.mp second with ⟨others, rfl⟩
          rw [quotedChar_after?_quotes] at matched
          cases matched
          exact ⟨c, by rw [if_pos rfl]; rfl⟩
        · rw [quotedChar_after?_end second] at matched
          cases matched
      · rw [quotedChar_after?_other same] at matched
        cases matched
        exact ⟨c, by rw [if_neg same]; rfl⟩

theorem exists_of_repeatAfter_quotedChar (quote : Char) (bound : Nat) (text : List Char) :
    ∃ content, text = Literal.doubleQuotes quote content ++
      repeatAfter (quotedChar quote).after? bound text := by
  induction bound generalizing text with
  | zero => exact ⟨[], rfl⟩
  | succ bound ih =>
      rw [repeatAfter]
      split
      next => exact ⟨[], rfl⟩
      next rest matched =>
        rcases exists_of_quotedChar_after? matched with ⟨c, rfl⟩
        rcases ih rest with ⟨content, cut⟩
        refine ⟨c :: content, ?_⟩
        rw [Literal.doubleQuotes, List.flatMap_cons, List.append_assoc]
        exact congrArg _ cut

theorem exists_of_quoted_after? {quote : Char} {text rest : List Char}
    (matched : (quoted quote).after? text = some rest) :
    ∃ content, text = Literal.quoteText quote content ++ rest := by
  rcases seq_after?_eq_some_iff.mp matched with ⟨inside, opened, more⟩
  rcases seq_after?_eq_some_iff.mp more with ⟨end_, rounds, closed⟩
  cases eq_cons_of_exactly_singleton opened
  cases eq_cons_of_exactly_singleton closed
  rw [after?, Option.some_inj] at rounds
  rcases exists_of_repeatAfter_quotedChar quote inside.length inside with ⟨content, cut⟩
  refine ⟨content, ?_⟩
  rw [quotedChar, rounds] at cut
  simp [Literal.quoteText, cut]

/-- What is read as a string is some text between quotes. -/
theorem exists_of_litString_after? {text rest : List Char}
    (matched : litString.after? text = some rest) :
    ∃ quote content, (quote = '\'' ∨ quote = '"') ∧
      text = Literal.quoteText quote content ++ rest := by
  rw [litString, after?] at matched
  split at matched
  next =>
    rcases exists_of_quoted_after? matched with ⟨content, cut⟩
    exact ⟨_, content, Or.inr rfl, cut⟩
  next found single =>
    cases matched
    rcases exists_of_quoted_after? single with ⟨content, cut⟩
    exact ⟨_, content, Or.inl rfl, cut⟩

/-! ## Numerals -/

/-- One or more digits. -/
def IsDigits (text : List Char) : Prop := text ≠ [] ∧ ∀ c ∈ text, c.isDigit = true

/-- Nothing, or one of the suffixes that give a numeral its type in any mixture of
cases. -/
def IsSuffix (text : List Char) : Prop :=
  text = [] ∨ ∃ word ∈ ["bd", "l", "d", "f"], text.map Char.toLower = word.toList

/-- A numeral: an optional sign, digits, an optional fraction and an optional suffix. -/
def IsNumeral (text : List Char) : Prop :=
  ∃ sign whole fraction suffix, text = sign ++ (whole ++ (fraction ++ suffix)) ∧
    (sign = [] ∨ sign = ['-']) ∧ IsDigits whole ∧
    (fraction = [] ∨ ∃ digits, fraction = '.' :: digits ∧ IsDigits digits) ∧
    IsSuffix suffix

/-- Digits come before letters. -/
theorem isAlpha_of_isDigit {c : Char} (digit : c.isDigit = true) : c.isAlpha = false := by
  have atMostNine : c.val ≤ '9'.val := of_decide_eq_true (Bool.and_eq_true_iff.mp digit).2
  refine Bool.or_eq_false_iff.mpr ⟨decide_eq_false ?_, Bool.and_eq_false_iff.mpr (Or.inl ?_)⟩
  · intro upper
    exact absurd (UInt32.le_trans upper.1 atMostNine) (by decide)
  · refine decide_eq_false fun lower => ?_
    exact absurd (UInt32.le_trans lower atMostNine) (by decide)

theorem toLower_of_isDigit {c : Char} (digit : c.isDigit = true) : c.toLower = c := by
  apply (toLower_eq_or_isAlpha c).resolve_right
  simp [isAlpha_of_isDigit digit]

theorem isIdentStart_of_isDigit {c : Char} (digit : c.isDigit = true) :
    isIdentStart c = false := by
  have notUnderscore : (c == '_') = false := by
    rw [beq_eq_false_iff_ne]
    rintro rfl
    cases digit
  rw [isIdentStart, isAlpha_of_isDigit digit, notUnderscore]
  rfl

theorem oneOrMore_digits_after?_append {digits rest : List Char} (isDigits : IsDigits digits)
    (ends : rest.head?.any Char.isDigit = false) :
    (oneOrMore (one Char.isDigit)).after? (digits ++ rest) = some rest := by
  rcases isDigits with ⟨nonempty, inside⟩
  cases digits with
  | nil => exact absurd rfl nonempty
  | cons c digits =>
      rw [List.forall_mem_cons] at inside
      apply seq_after?_eq_some_iff.mpr
      refine ⟨digits ++ rest, ?_, ?_⟩
      · rw [List.cons_append, after?, if_pos inside.1]
      · rw [many_one_after?, dropWhile_run inside.2 ends]

theorem isDigit_of_opensLayout {c : Char} (opens : opensLayout c = true) : c.isDigit = false := by
  rcases opensLayout_cases opens with rfl | rfl | rfl | rfl | rfl <;> decide

/-- Neither digits nor a point go on where the suffix of a numeral may stand. -/
theorem head?_suffix_append {suffix rest : List Char} (isSuffix : IsSuffix suffix)
    (ends : AtEnd rest) :
    (suffix ++ rest).head?.any Char.isDigit = false ∧ (suffix ++ rest).head? ≠ some '.' := by
  rcases isSuffix with rfl | ⟨word, known, folded⟩
  · exact ⟨ends.any_eq_false fun _ => isDigit_of_opensLayout, ends.head?_ne rfl⟩
  · have letters : ∀ word ∈ ["bd", "l", "d", "f"], ∃ first others, word.toList = first :: others ∧
        first.isDigit = false ∧ first ≠ '.' := by
      simp
    rcases letters word known with ⟨first, others, shape, noDigit, noPoint⟩
    rw [shape] at folded
    cases suffix with
    | nil => cases folded
    | cons c suffix =>
        cases folded
        constructor
        · cases digit : c.isDigit with
          | false => exact digit
          | true => rw [toLower_of_isDigit digit, digit] at noDigit; cases noDigit
        · rintro ⟨⟩
          exact noPoint rfl

theorem optional_suffix_after?_append {suffix rest : List Char} (isSuffix : IsSuffix suffix)
    (ends : AtEnd rest) :
    (optional (firstOf (["bd", "l", "d", "f"].map fun text => word text.toList))).after?
      (suffix ++ rest) = some rest := by
  rw [after?]
  rcases isSuffix with rfl | ⟨word, known, folded⟩
  · cases rest with
    | nil => rfl
    | cons c rest =>
        rcases opensLayout_cases (ends c rfl) with rfl | rfl | rfl | rfl | rfl <;> rfl
  · rw [firstOf_words_after? (by decide) known folded]

/-- A numeral is read up to the end of its token. -/
theorem litNumber_after?_append {text rest : List Char} (numeral : IsNumeral text)
    (ends : AtEnd rest) : litNumber.after? (text ++ rest) = some rest := by
  rcases numeral with ⟨sign, whole, fraction, suffix, rfl, isSign, isWhole, isFraction, isSuffix⟩
  rcases head?_suffix_append isSuffix ends with ⟨suffixNoDigit, suffixNoPoint⟩
  have signRead : (optional (exactly ['-'])).after?
      (sign ++ (whole ++ (fraction ++ (suffix ++ rest)))) =
        some (whole ++ (fraction ++ (suffix ++ rest))) := by
    rw [after?]
    rcases isSign with rfl | rfl
    · have noSign : (whole ++ (fraction ++ (suffix ++ rest))).head? ≠ some '-' := by
        cases whole with
        | nil => exact absurd rfl isWhole.1
        | cons c whole =>
            rintro ⟨⟩
            exact absurd (isWhole.2 '-' List.mem_cons_self) (by decide)
      rw [List.nil_append, exactly_singleton_after?_eq_none noSign]
    · rw [exactly_after?_append]
  have wholeRead : (oneOrMore (one Char.isDigit)).after? (whole ++ (fraction ++ (suffix ++ rest))) =
      some (fraction ++ (suffix ++ rest)) := by
    apply oneOrMore_digits_after?_append isWhole
    rcases isFraction with rfl | ⟨digits, rfl, _⟩
    · exact suffixNoDigit
    · rfl
  have fractionRead : (optional (seq (exactly ['.']) (oneOrMore (one Char.isDigit)))).after?
      (fraction ++ (suffix ++ rest)) = some (suffix ++ rest) := by
    rw [after?]
    rcases isFraction with rfl | ⟨digits, rfl, isDigits⟩
    · rw [List.nil_append, after?, exactly_singleton_after?_eq_none suffixNoPoint]
    · have matched := seq_after?_eq_some_iff.mpr
        ⟨_, exactly_singleton_after?_cons '.' (digits ++ (suffix ++ rest)),
          oneOrMore_digits_after?_append isDigits suffixNoDigit⟩
      rw [List.cons_append, matched]
  have suffixRead := optional_suffix_after?_append isSuffix ends
  have wordEnds : (absent (one isIdentChar)).after? rest = some rest :=
    absent_one_after?_eq_some_iff.mpr
      ⟨ends.any_eq_false fun _ => isIdentChar_of_opensLayout, rfl⟩
  simp only [List.append_assoc, litNumber, sequence_cons_after?, signRead, wholeRead, fractionRead,
    suffixRead, Option.bind_some, wordEnds]
  rfl

theorem litNumber_after?_eq_none {text : List Char} (noSign : text.head? ≠ some '-')
    (noDigit : text.head?.any Char.isDigit = false) : litNumber.after? text = none := by
  have unsigned : (optional (exactly ['-'])).after? text = some text := by
    rw [after?, exactly_singleton_after?_eq_none noSign]
  have noDigits : (oneOrMore (one Char.isDigit)).after? text = none := by
    cases text with
    | nil => rfl
    | cons c text => simp_all [oneOrMore, after?]
  rw [litNumber, sequence_cons_after?, unsigned, Option.bind_some, sequence_cons_after?, noDigits]
  rfl

theorem exists_of_optional_after? {inner : Pattern} {text rest : List Char}
    (matched : (optional inner).after? text = some rest) :
    inner.after? text = some rest ∨ text = rest := by
  rw [after?] at matched
  split at matched
  next =>
    cases matched
    exact Or.inr rfl
  next found innerMatched =>
    cases matched
    exact Or.inl innerMatched

theorem exists_of_oneOrMore_digits_after? {text rest : List Char}
    (matched : (oneOrMore (one Char.isDigit)).after? text = some rest) :
    ∃ digits, IsDigits digits ∧ text = digits ++ rest := by
  rcases seq_after?_eq_some_iff.mp matched with ⟨between, first, others⟩
  rw [many_one_after?] at others
  cases others
  cases text with
  | nil => cases first
  | cons c text =>
      rw [after?] at first
      split at first
      next digit =>
        cases first
        refine ⟨c :: between.takeWhile Char.isDigit, ⟨List.cons_ne_nil _ _, ?_⟩, ?_⟩
        · exact List.forall_mem_cons.mpr ⟨digit, fun _ => List.mem_takeWhile_imp⟩
        · rw [List.cons_append, List.takeWhile_append_dropWhile]
      next => cases first

theorem exists_of_suffix_after? {text rest : List Char}
    (matched : (optional (firstOf (["bd", "l", "d", "f"].map fun text => word text.toList))).after?
      text = some rest) : ∃ suffix, IsSuffix suffix ∧ text = suffix ++ rest := by
  rcases exists_of_optional_after? matched with found | rfl
  · rw [firstOf_after?] at found
    rcases List.exists_of_findSome?_eq_some found with ⟨pattern, member, read⟩
    rcases List.mem_map.mp member with ⟨known, knownMember, rfl⟩
    rcases afterChars_eq_some_iff.mp read with ⟨suffix, cut, folded⟩
    exact ⟨suffix, Or.inr ⟨known, knownMember, folded⟩, cut⟩
  · exact ⟨[], Or.inl rfl, rfl⟩

/-- What is read as a number is a numeral. -/
theorem exists_of_litNumber_after? {text rest : List Char}
    (matched : litNumber.after? text = some rest) :
    ∃ numeral, IsNumeral numeral ∧ text = numeral ++ rest := by
  simp only [litNumber, sequence_cons_after?, Option.bind_eq_some_iff] at matched
  rcases matched with ⟨unsigned, signRead, behindWhole, wholeRead, behindFraction, fractionRead,
    behindSuffix, suffixRead, last, ends, nothing⟩
  have sign : ∃ sign, (sign = [] ∨ sign = ['-']) ∧ text = sign ++ unsigned := by
    rcases exists_of_optional_after? signRead with read | rfl
    · exact ⟨['-'], Or.inr rfl, eq_cons_of_exactly_singleton read⟩
    · exact ⟨[], Or.inl rfl, rfl⟩
  have fraction : ∃ fraction,
      (fraction = [] ∨ ∃ digits, fraction = '.' :: digits ∧ IsDigits digits) ∧
      behindWhole = fraction ++ behindFraction := by
    rcases exists_of_optional_after? fractionRead with read | rfl
    · rcases seq_after?_eq_some_iff.mp read with ⟨between, pointRead, digitsRead⟩
      rcases exists_of_oneOrMore_digits_after? digitsRead with ⟨digits, isDigits, rfl⟩
      exact ⟨'.' :: digits, Or.inr ⟨digits, rfl, isDigits⟩, eq_cons_of_exactly_singleton pointRead⟩
    · exact ⟨[], Or.inl rfl, rfl⟩
  rcases sign with ⟨sign, isSign, rfl⟩
  rcases exists_of_oneOrMore_digits_after? wholeRead with ⟨whole, isWhole, rfl⟩
  rcases fraction with ⟨fraction, isFraction, rfl⟩
  rcases exists_of_suffix_after? suffixRead with ⟨suffix, isSuffix, rfl⟩
  have sameEnd : behindSuffix = last := (absent_one_after?_eq_some_iff.mp ends).2
  cases nothing
  refine ⟨sign ++ (whole ++ (fraction ++ suffix)),
    ⟨sign, whole, fraction, suffix, rfl, isSign, isWhole, isFraction, isSuffix⟩, ?_⟩
  simp [sameEnd]

/-! ## Operators -/

/-- An operator is read whole, also where a shorter one starts it. -/
theorem compOp_after?_append {lexeme rest : List Char}
    (known : ∃ operator : Comparison, lexeme = operator.symbol.toList ∨
      operator = .notEqual ∧ lexeme = ['!', '=']) (ends : AtEnd rest) :
    compOp.after? (lexeme ++ rest) = some rest := by
  cases rest with
  | nil =>
      rcases known with ⟨operator, rfl | ⟨_, rfl⟩⟩
      · cases operator <;> rfl
      · rfl
  | cons c rest =>
      have layout := opensLayout_cases (ends c rfl)
      rcases known with ⟨operator, rfl | ⟨_, rfl⟩⟩
      · cases operator <;> rcases layout with rfl | rfl | rfl | rfl | rfl <;> rfl
      · rfl

/-- What is read as an operator has a meaning. -/
theorem exists_of_compOp_after? {text rest : List Char} (matched : compOp.after? text = some rest) :
    ∃ lexeme, (Comparison.ofSymbol? lexeme).isSome = true ∧ text = lexeme ++ rest := by
  have known : ∀ symbol ∈ ["<>", "!=", "<=", ">=", "=", "<", ">"],
      (Comparison.ofSymbol? symbol.toList).isSome = true := by
    decide
  rw [compOp, firstOf_after?] at matched
  rcases List.exists_of_findSome?_eq_some matched with ⟨pattern, member, read⟩
  rcases List.mem_map.mp member with ⟨symbol, symbolMember, rfl⟩
  rcases afterChars_eq_some_iff.mp read with ⟨lexeme, cut, folded⟩
  rw [List.map_id] at folded
  exact ⟨symbol.toList, known symbol symbolMember, folded ▸ cut⟩

end Pattern

end DocumentQuery.Grammar
