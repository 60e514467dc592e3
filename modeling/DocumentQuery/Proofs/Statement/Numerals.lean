import DocumentQuery.Proofs.Grammar.Lexical
import DocumentQuery.Statement.Literal
import Mathlib.Data.List.Basic

/-!
# What numerals stand for

A numeral is cut into its digits and its suffix.  With the suffix of a double or a decimal, or
with a fraction and no suffix, it always stands for a number.  With the suffix of an integer, or
with neither suffix nor fraction, it has to be an integer of 64 bits.
-/

namespace DocumentQuery

open Grammar.Pattern (IsDigits IsSuffix IsNumeral)

/-! ## Integers of 64 bits -/

namespace Numeral

/-- Whether a text is an integer numeral within 64 bits. -/
def IsLong (text : List Char) : Prop := ∃ number, signed? text = some number ∧ fitsLong number

theorem isDigits_iff (text : List Char) : isDigits text = true ↔ IsDigits text := by
  simp [isDigits, IsDigits]

theorem readLong_eq_ok_iff (text : List Char) (number : Int64) :
    readLong text = .ok number ↔
      ∃ value, signed? text = some value ∧ fitsLong value ∧ number = Int64.ofInt value := by
  unfold readLong signed?
  rcases splitSign text with ⟨negative, rest⟩
  by_cases digits : isDigits rest = true
  · have whole : rest.takeWhile Char.isDigit = rest :=
      List.takeWhile_eq_self_iff.mpr ((isDigits_iff rest).mp digits).2
    simp only [digits, whole, if_true, Option.some.injEq, exists_eq_left']
    unfold fitsLong
    split
    next small =>
      constructor
      · intro read
        cases read
      · intro ⟨⟨low, _⟩, _⟩
        omega
    next =>
      split
      next large =>
        constructor
        · intro read
          cases read
        · intro ⟨⟨_, high⟩, _⟩
          omega
      next =>
        constructor
        · intro read
          cases read
          exact ⟨⟨by omega, by omega⟩, rfl⟩
        · intro ⟨_, same⟩
          rw [same]
  · simp only [digits, Bool.false_eq_true, if_false]
    constructor
    · intro read
      split at read
      next => cases read
      next => split at read <;> cases read
    · intro ⟨_, written, _⟩
      cases written

theorem exists_readLong_eq_ok_iff (text : List Char) :
    (∃ number, readLong text = .ok number) ↔ IsLong text := by
  simp only [readLong_eq_ok_iff, IsLong]
  constructor
  · intro ⟨number, value, written, fits, _⟩
    exact ⟨value, written, fits⟩
  · intro ⟨value, written, fits⟩
    exact ⟨Int64.ofInt value, value, written, fits, rfl⟩

end Numeral

/-! ## Parts of a numeral -/

/-- A digit is none of the other characters of numerals. -/
theorem ne_of_isDigit {c other : Char} (digit : c.isDigit = true)
    (noDigit : other.isDigit = false) : c ≠ other := by
  intro same
  rw [same, noDigit] at digit
  cases digit

theorem eq_of_toLower_eq_l {c : Char} (lower : c.toLower = 'l') : c = 'l' ∨ c = 'L' := by
  delta Char.toLower at lower
  split at lower
  next upper =>
    right
    have shifted : c.val + 32 = 108 := congrArg Char.val lower
    have value : c.val = 76 := by
      have back := congrArg (· - 32) shifted
      simpa using back
    exact Char.ext value
  next => exact Or.inl lower

/-- A numeral without a suffix. -/
structure IsBareNumeral (text sign whole fraction : List Char) : Prop where
  parts : text = sign ++ (whole ++ fraction)
  sign : sign = [] ∨ sign = ['-']
  whole : IsDigits whole
  fraction : fraction = [] ∨ ∃ digits, fraction = '.' :: digits ∧ IsDigits digits

theorem exists_concat_of_isDigits {text : List Char} (digits : IsDigits text) :
    ∃ start last, text = start ++ [last] ∧ last.isDigit = true := by
  rcases List.eq_nil_or_concat' text with rfl | ⟨start, last, rfl⟩
  · exact absurd rfl digits.1
  · exact ⟨start, last, rfl, digits.2 last (by simp)⟩

namespace IsBareNumeral

variable {text sign whole fraction : List Char}

theorem exists_concat (bare : IsBareNumeral text sign whole fraction) :
    ∃ start last, text = start ++ [last] ∧ last.isDigit = true := by
  rw [bare.parts]
  rcases bare.fraction with rfl | ⟨digits, rfl, isDigits⟩
  · rcases exists_concat_of_isDigits bare.whole with ⟨start, last, rfl, isDigit⟩
    exact ⟨sign ++ start, last, by simp, isDigit⟩
  · rcases exists_concat_of_isDigits isDigits with ⟨start, last, rfl, isDigit⟩
    exact ⟨sign ++ (whole ++ '.' :: start), last, by simp, isDigit⟩

/-- Only a fraction brings a character besides digits and the sign. -/
theorem mem_cases (bare : IsBareNumeral text sign whole fraction) {c : Char} (member : c ∈ text) :
    c.isDigit = true ∨ c = '-' ∨ c = '.' := by
  rw [bare.parts, List.mem_append, List.mem_append] at member
  rcases member with inSign | inWhole | inFraction
  · rcases bare.sign with rfl | rfl
    · cases inSign
    · exact Or.inr (Or.inl (List.mem_singleton.mp inSign))
  · exact Or.inl (bare.whole.2 c inWhole)
  · rcases bare.fraction with rfl | ⟨digits, rfl, isDigits⟩
    · cases inFraction
    · rcases List.mem_cons.mp inFraction with rfl | inDigits
      · exact Or.inr (Or.inr rfl)
      · exact Or.inl (isDigits.2 c inDigits)

theorem splitSign_eq (bare : IsBareNumeral text sign whole fraction) :
    Numeral.splitSign text = (decide (sign = ['-']), whole ++ fraction) := by
  rw [bare.parts]
  rcases bare.sign with rfl | rfl
  · cases whole with
    | nil => exact absurd rfl bare.whole.1
    | cons c whole =>
        have digit := bare.whole.2 c List.mem_cons_self
        unfold Numeral.splitSign
        split
        next rest same =>
          cases same
          cases digit
        next rest same =>
          cases same
          cases digit
        next => rfl
  · rfl

/-- The digits of a numeral, without its point. -/
theorem cut_at_point (bare : IsBareNumeral text sign whole fraction) :
    text.takeWhile (· != '.') = sign ++ whole ∧
      (text.dropWhile (· != '.')).drop 1 = fraction.drop 1 := by
  have before : ∀ c ∈ sign ++ whole, (c != '.') = true := by
    intro c member
    rcases List.mem_append.mp member with inSign | inWhole
    · rcases bare.sign with rfl | rfl
      · cases inSign
      · cases List.mem_singleton.mp inSign
        rfl
    · exact bne_iff_ne.mpr (ne_of_isDigit (bare.whole.2 c inWhole) rfl)
  have ends : fraction.head?.any (· != '.') = false := by
    rcases bare.fraction with rfl | ⟨digits, rfl, _⟩ <;> rfl
  rw [bare.parts, ← List.append_assoc]
  exact ⟨Grammar.takeWhile_run before ends, by rw [Grammar.dropWhile_run before ends]⟩

theorem isDigits_digits (bare : IsBareNumeral text sign whole fraction) :
    IsDigits (whole ++ fraction.drop 1) := by
  refine ⟨by simp [bare.whole.1], ?_⟩
  intro c member
  rcases List.mem_append.mp member with inWhole | inFraction
  · exact bare.whole.2 c inWhole
  · rcases bare.fraction with rfl | ⟨digits, rfl, isDigits⟩
    · cases inFraction
    · exact isDigits.2 c inFraction

/-- No power of ten stands behind a numeral. -/
theorem cut_at_mark (bare : IsBareNumeral text sign whole fraction) {isMark : Char → Bool}
    (noMark : ∀ c, c.isDigit = true ∨ c = '-' ∨ c = '.' → isMark c = false) :
    text.takeWhile (!isMark ·) = text ∧ text.dropWhile (!isMark ·) = [] := by
  have inside : ∀ c ∈ text, (!isMark c) = true := by
    intro c member
    rw [noMark c (bare.mem_cases member)]
    rfl
  exact ⟨List.takeWhile_eq_self_iff.mpr inside, List.dropWhile_eq_nil_iff.mpr inside⟩

end IsBareNumeral

theorem isMark_eq_false {c : Char} (inside : c.isDigit = true ∨ c = '-' ∨ c = '.') :
    (c == 'e' || c == 'E') = false := by
  rcases inside with digit | rfl | rfl
  · simp [ne_of_isDigit digit (rfl : 'e'.isDigit = false),
      ne_of_isDigit digit (rfl : 'E'.isDigit = false)]
  · rfl
  · rfl

/-! ## Doubles and decimals -/

section Readers

variable {text sign whole fraction : List Char}

theorem Double.isSome_readScaled? (bare : IsBareNumeral text [] whole fraction) (exponent : Int) :
    (readScaled? text exponent).isSome = true := by
  rcases bare.cut_at_point with ⟨before, behind⟩
  have digits := (Numeral.isDigits_iff _).mpr bare.isDigits_digits
  simp only [readScaled?, before, behind, List.nil_append, digits, if_true, Option.isSome_some]

theorem Double.isSome_readMagnitude? (bare : IsBareNumeral text [] whole fraction) :
    (readMagnitude? text).isSome = true := by
  rcases bare.cut_at_mark fun _ => isMark_eq_false with ⟨base, nothing⟩
  unfold readMagnitude?
  simp only [base, nothing]
  split
  next => rfl
  next =>
    split
    next => rfl
    next => exact isSome_readScaled? bare 0

/-- Digits with an optional sign and fraction are a double. -/
theorem Double.isSome_read? (bare : IsBareNumeral text sign whole fraction) :
    (read? text).isSome = true := by
  have unsigned : IsBareNumeral (whole ++ fraction) [] whole fraction :=
    ⟨rfl, Or.inl rfl, bare.whole, bare.fraction⟩
  rw [read?, bare.splitSign_eq]
  simp only [Option.isSome_map]
  exact isSome_readMagnitude? unsigned

theorem Decimal.readUnscaled?_of_bare (bare : IsBareNumeral text sign whole fraction) :
    readUnscaled? (sign ++ (whole ++ fraction.drop 1)) =
      some (Numeral.applySign (decide (sign = ['-']))
        (Numeral.value (whole ++ fraction.drop 1))) := by
  have digits := bare.isDigits_digits
  have joined : IsBareNumeral (sign ++ (whole ++ fraction.drop 1)) sign
      (whole ++ fraction.drop 1) [] := ⟨by simp, bare.sign, digits, Or.inl rfl⟩
  have noUnderscore : ∀ c ∈ whole ++ fraction.drop 1, (c != '_') = true := fun c member =>
    bne_iff_ne.mpr (ne_of_isDigit (digits.2 c member) rfl)
  have first : (whole ++ fraction.drop 1).head? ≠ some '_' := fun same =>
    bne_iff_ne.mp (noUnderscore '_' (List.mem_of_head? same)) rfl
  rw [readUnscaled?, joined.splitSign_eq]
  simp only [List.append_nil, first, if_false, List.filter_eq_self.mpr noUnderscore,
    (Numeral.isDigits_iff _).mpr digits, if_true]

/-- Digits with an optional sign and fraction are a decimal of these digits, if 64 bits suffice to
count those of the fraction. -/
theorem Decimal.read?_of_bare (bare : IsBareNumeral text sign whole fraction)
    (bounded : text.length < 0x8000000000000000) :
    read? text = some ⟨Numeral.applySign (decide (sign = ['-']))
      (Numeral.value (whole ++ fraction.drop 1)), (fraction.drop 1).length⟩ := by
  have noMark : ∀ c : Char, c.isDigit = true ∨ c = '-' ∨ c = '.' → isExponentMark c = false :=
    fun _ => isMark_eq_false
  rcases bare.cut_at_mark noMark with ⟨base, nothing⟩
  rcases bare.cut_at_point with ⟨before, behind⟩
  have noUnderscore : ∀ c ∈ fraction.drop 1, (c != '_') = true := fun c member =>
    bne_iff_ne.mpr (ne_of_isDigit (bare.isDigits_digits.2 c (List.mem_append_right _ member)) rfl)
  have short : (fraction.drop 1).length < 0x8000000000000000 := by
    rw [bare.parts] at bounded
    simp only [List.length_append, List.length_drop] at bounded ⊢
    omega
  have fits : Numeral.fitsLong (fraction.drop 1).length := by
    unfold Numeral.fitsLong
    omega
  simp only [read?, base, nothing, readScaled?, before, behind, List.append_assoc,
    readUnscaled?_of_bare bare, List.filter_eq_self.mpr noUnderscore, fits, if_true, Int.sub_zero]

end Readers

/-! ## Suffixes -/

namespace Literal

theorem splitSuffix_of_isDigit {start : List Char} {last : Char} (digit : last.isDigit = true) :
    splitSuffix (start ++ [last]) = (start ++ [last], .none) := by
  unfold splitSuffix
  rw [List.reverse_append, List.map_append, List.reverse_singleton, List.map_singleton,
    Grammar.Pattern.toLower_of_isDigit digit]
  split
  next same => exact absurd (List.cons.inj same).1 (ne_of_isDigit digit rfl)
  next same => exact absurd (List.cons.inj same).1 (ne_of_isDigit digit rfl)
  next same => exact absurd (List.cons.inj same).1 (ne_of_isDigit digit rfl)
  next same => exact absurd (List.cons.inj same).1 (ne_of_isDigit digit rfl)
  next => rfl

theorem splitSuffix_long (body : List Char) {letter : Char} (lower : letter.toLower = 'l') :
    splitSuffix (body ++ [letter]) = (body, .long) := by
  simp [splitSuffix, lower]

theorem splitSuffix_double {start : List Char} {last letter : Char} (digit : last.isDigit = true)
    (lower : letter.toLower = 'd' ∨ letter.toLower = 'f') :
    splitSuffix (start ++ [last] ++ [letter]) = (start ++ [last], .double) := by
  -- A digit is no `b`, so the letter is not the end of the suffix of a decimal.
  have noDecimal : last.toLower ≠ 'b' := by
    rw [Grammar.Pattern.toLower_of_isDigit digit]
    exact ne_of_isDigit digit rfl
  rcases lower with lower | lower <;> simp [splitSuffix, lower, noDecimal]

theorem splitSuffix_decimal (body : List Char) {first second : Char} (lower : first.toLower = 'b')
    (secondLower : second.toLower = 'd') :
    splitSuffix (body ++ [first, second]) = (body, .decimal) := by
  have dropped : (body ++ [first, second]).dropLast = body ++ [first] := by
    rw [List.dropLast_append_of_ne_nil (by simp)]
    rfl
  simp [splitSuffix, lower, secondLower, dropped]

/-- Whether a numeral is meant as an integer of 64 bits and is none.  It is meant as an integer if
it ends with the suffix of one, or if it has neither suffix nor fraction. -/
def IsOutOfRange (text : List Char) : Prop :=
  (∃ body letter, text = body ++ [letter] ∧ (letter = 'l' ∨ letter = 'L') ∧
    ¬ Numeral.IsLong body) ∨
  ((∀ c ∈ text, c.isDigit = true ∨ c = '-') ∧ ¬ Numeral.IsLong text)

/-- An integer numeral stands for no literal just if 64 bits do not hold it. -/
theorem exists_readLong_eq_error_iff (text : List Char) (literal : Int64 → Literal) :
    (∃ reason, ((Numeral.readLong text).map literal).mapError Numeral.Fault.message =
      .error reason) ↔ ¬ Numeral.IsLong text := by
  rw [← Numeral.exists_readLong_eq_ok_iff]
  cases Numeral.readLong text with
  | ok number => simp [Except.map, Except.mapError]
  | error fault => simp [Except.map, Except.mapError]

theorem exists_readDouble_eq_ok {text sign whole fraction : List Char}
    (bare : IsBareNumeral text sign whole fraction) : ∃ literal, readDouble text = .ok literal := by
  rcases Option.isSome_iff_exists.mp (Double.isSome_read? bare) with ⟨number, read⟩
  exact ⟨double number, by rw [readDouble, read]⟩

/-- A numeral with a suffix is meant as an integer just if the suffix says so. -/
theorem isOutOfRange_concat_iff (body : List Char) {letter : Char}
    (suffix : letter.toLower ∈ ['l', 'd', 'f']) :
    IsOutOfRange (body ++ [letter]) ↔ letter.toLower = 'l' ∧ ¬ Numeral.IsLong body := by
  constructor
  · intro out
    rcases out with ⟨other, last, same, isLong, outside⟩ | ⟨all, _⟩
    · rcases List.append_inj' same rfl with ⟨rfl, lastSame⟩
      cases lastSame
      rcases isLong with rfl | rfl <;> exact ⟨rfl, outside⟩
    · rcases all letter (by simp) with digit | rfl
      · rw [Grammar.Pattern.toLower_of_isDigit digit] at suffix
        simp [ne_of_isDigit digit] at suffix
      · simp at suffix
  · intro ⟨isLong, outside⟩
    exact Or.inl ⟨body, letter, rfl, eq_of_toLower_eq_l isLong, outside⟩

/-- A numeral without a suffix is meant as an integer just if it has no fraction. -/
theorem isOutOfRange_bare_iff {body sign whole fraction : List Char}
    (bare : IsBareNumeral body sign whole fraction) :
    IsOutOfRange body ↔ '.' ∉ body ∧ ¬ Numeral.IsLong body := by
  constructor
  · intro out
    rcases out with ⟨other, letter, same, isLong, _⟩ | ⟨all, outside⟩
    · rcases bare.exists_concat with ⟨start, last, ends, digit⟩
      rcases List.append_inj' (ends.symm.trans same) rfl with ⟨_, lastSame⟩
      cases lastSame
      rcases isLong with rfl | rfl <;> cases digit
    · refine ⟨?_, outside⟩
      intro point
      rcases all _ point with digit | sign
      · cases digit
      · cases sign
  · intro ⟨noPoint, outside⟩
    right
    refine ⟨?_, outside⟩
    intro c member
    rcases bare.mem_cases member with digit | rfl | rfl
    · exact Or.inl digit
    · exact Or.inr rfl
    · exact absurd member noPoint

theorem isSuffix_cases {suffix : List Char} (isSuffix : IsSuffix suffix) :
    suffix = [] ∨ (∃ letter, suffix = [letter] ∧ letter.toLower ∈ ['l', 'd', 'f']) ∨
      ∃ first second, suffix = [first, second] ∧ first.toLower = 'b' ∧ second.toLower = 'd' := by
  rcases isSuffix with rfl | ⟨word, known, folded⟩
  · exact Or.inl rfl
  · right
    simp only [List.mem_cons, List.not_mem_nil, or_false] at known
    rcases known with rfl | rfl | rfl | rfl
    · right
      rcases List.map_eq_cons_iff.mp folded with ⟨first, others, rfl, isB, rest⟩
      rcases List.map_eq_singleton_iff.mp rest with ⟨second, rfl, isD⟩
      exact ⟨first, second, rfl, isB, isD⟩
    all_goals
      left
      rcases List.map_eq_singleton_iff.mp folded with ⟨letter, rfl, lower⟩
      exact ⟨letter, rfl, by rw [lower]; decide⟩

/-- A numeral stands for no literal just if it is meant as an integer of 64 bits and is none. -/
theorem exists_ofNumeral_eq_error_iff {text : List Char} (numeral : IsNumeral text)
    (bounded : text.length < 0x8000000000000000) :
    (∃ reason, ofNumeral text = .error reason) ↔ IsOutOfRange text := by
  rcases numeral with ⟨sign, whole, fraction, suffix, cut, isSign, isWhole, isFraction, isSuffix⟩
  obtain ⟨body, rfl, bare⟩ : ∃ body, text = body ++ suffix ∧
      IsBareNumeral body sign whole fraction :=
    ⟨sign ++ (whole ++ fraction), by simp [cut], rfl, isSign, isWhole, isFraction⟩
  rcases bare.exists_concat with ⟨start, last, ends, digit⟩
  rcases exists_readDouble_eq_ok bare with ⟨number, read⟩
  rcases isSuffix_cases isSuffix with rfl | ⟨letter, rfl, suffix⟩ | ⟨first, second, rfl, b, d⟩
  · have plain : splitSuffix body = (body, .none) := by
      rw [ends]
      exact splitSuffix_of_isDigit digit
    rw [List.append_nil, isOutOfRange_bare_iff bare, ofNumeral, plain]
    by_cases point : '.' ∈ body
    · simp [point, read]
    · simp [point, exists_readLong_eq_error_iff]
  · rw [isOutOfRange_concat_iff body suffix]
    by_cases isLong : letter.toLower = 'l'
    · rw [ofNumeral, splitSuffix_long body isLong]
      simp [isLong, exists_readLong_eq_error_iff]
    · have double : splitSuffix (body ++ [letter]) = (body, .double) := by
        rw [ends]
        exact splitSuffix_double digit (by simpa [isLong] using suffix)
      rw [ofNumeral, double]
      simp [isLong, read]
  · have suffix : second.toLower ∈ ['l', 'd', 'f'] := by simp [d]
    have noLong := isOutOfRange_concat_iff (body ++ [first]) suffix
    have read := Decimal.read?_of_bare bare (by simp at bounded; omega)
    rw [ofNumeral, splitSuffix_decimal body b d]
    simpa [read, d] using noLong

end Literal

end DocumentQuery
