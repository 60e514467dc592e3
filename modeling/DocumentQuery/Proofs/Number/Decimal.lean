import DocumentQuery.Proofs.Statement.Numerals
import Mathlib.Algebra.Field.Rat
import Mathlib.Algebra.GroupWithZero.Basic

/-!
# The numbers of numerals

A numeral may have a sign, a point and a power of ten.  It stands for the integer of its digits
and a scale, and so for a number.  Decimals are written in four forms, with and without a point or
a power of ten.  In each of them the numeral stands for the number of the decimal, so that
different numbers are never written alike.
-/

namespace DocumentQuery

open Grammar.Pattern (IsDigits)

/-! ## Digits -/

namespace Numeral

theorem value_eq_ofDigitChars (digits : List Char) :
    value digits = Nat.ofDigitChars 10 digits 0 := by
  rw [Nat.ofDigitChars_eq_foldl]
  rfl

@[simp] theorem value_digits (number : Nat) : value (digits number) = number := by
  rw [value_eq_ofDigitChars, digits, Nat.ofDigitChars_ten_toDigits]

theorem value_append_zeros (digits : List Char) (count : Nat) :
    value (digits ++ List.replicate count '0') = value digits * 10 ^ count := by
  rw [value_eq_ofDigitChars, value_eq_ofDigitChars, Nat.ofDigitChars_append,
    Nat.ofDigitChars_replicate_zero, Nat.mul_comm]

theorem value_zeros_append (count : Nat) (digits : List Char) :
    value (List.replicate count '0' ++ digits) = value digits := by
  rw [value_eq_ofDigitChars, value_eq_ofDigitChars, Nat.ofDigitChars_append,
    Nat.ofDigitChars_replicate_zero, Nat.mul_zero]

theorem isDigits_digits (number : Nat) : IsDigits (digits number) := by
  refine ⟨Nat.toDigits_ne_nil, ?_⟩
  intro c member
  exact Nat.isDigit_of_mem_toDigits (by decide) (by decide) member

theorem isDigits_append {first second : List Char} (firstDigits : IsDigits first)
    (secondDigits : ∀ c ∈ second, c.isDigit = true) : IsDigits (first ++ second) := by
  refine ⟨by simp [firstDigits.1], ?_⟩
  intro c member
  rcases List.mem_append.mp member with inFirst | inSecond
  · exact firstDigits.2 c inFirst
  · exact secondDigits c inSecond

/-! ## Integers -/

/-- The hyphen of a negative number. -/
def signOf (number : Int) : List Char := if number < 0 then ['-'] else []

theorem signOf_cases (number : Int) : signOf number = [] ∨ signOf number = ['-'] := by
  unfold signOf
  split
  · exact Or.inr rfl
  · exact Or.inl rfl

theorem applySign_signOf (number : Int) :
    applySign (decide (signOf number = ['-'])) number.natAbs = number := by
  by_cases negative : number < 0
  · rw [signOf, if_pos negative, decide_eq_true rfl, applySign, if_pos rfl]
    omega
  · rw [signOf, if_neg negative, decide_eq_false (by simp), applySign, if_neg (by simp)]
    omega

theorem applySign_mul (negative : Bool) (number factor : Nat) :
    applySign negative (number * factor) = applySign negative number * factor := by
  cases negative <;> simp [applySign]

theorem ofInt_eq (number : Int) : ofInt number = signOf number ++ digits number.natAbs := by
  unfold ofInt signOf
  split <;> rfl

theorem signed?_append {sign digits : List Char} (isSign : sign = [] ∨ sign = ['-'])
    (isDigits : IsDigits digits) :
    signed? (sign ++ digits) = some (applySign (decide (sign = ['-'])) (value digits)) := by
  have bare : IsBareNumeral (sign ++ digits) sign digits [] :=
    ⟨by simp, isSign, isDigits, Or.inl rfl⟩
  simp only [signed?, bare.splitSign_eq, List.append_nil, (isDigits_iff digits).mpr isDigits,
    if_true]

/-- An integer is read back from its numeral. -/
theorem signed?_ofInt (number : Int) : signed? (ofInt number) = some number := by
  rw [ofInt_eq, signed?_append (signOf_cases number) (isDigits_digits _), value_digits,
    applySign_signOf]

theorem signed?_plus_ofInt {number : Int} (nonnegative : 0 ≤ number) :
    signed? ('+' :: ofInt number) = some number := by
  have unsigned : ofInt number = digits number.natAbs := if_neg (by omega)
  have isDigits := (isDigits_iff _).mpr (isDigits_digits number.natAbs)
  simp only [signed?, splitSign, unsigned, isDigits, if_true, value_digits, applySign]
  simp only [Bool.false_eq_true, if_false, Option.some.injEq]
  omega

theorem ofInt_injective : Function.Injective ofInt := by
  intro first second same
  have read := signed?_ofInt first
  rw [same, signed?_ofInt] at read
  exact (Option.some.inj read).symm

end Numeral

namespace Decimal

/-! ## Numerals with a point and a power of ten -/

/-- The decimal that a numeral stands for: the integer of all digits in front of the power of ten,
and as its scale the number of those behind the point, less the power of ten. -/
def ofNumeral (text : List Char) : Decimal :=
  let base := text.takeWhile (!isExponentMark ·)
  let exponent := (text.dropWhile (!isExponentMark ·)).drop 1
  let whole := base.takeWhile (· != '.')
  let fraction := (base.dropWhile (· != '.')).drop 1
  ⟨(Numeral.signed? (whole ++ fraction)).getD 0,
    fraction.length - (Numeral.signed? exponent).getD 0⟩

/-- Whether a text behind a numeral is a power of ten. -/
def IsPower (text : List Char) (exponent : Int) : Prop :=
  (text = [] ∧ exponent = 0) ∨
    ∃ mark rest, text = mark :: rest ∧ isExponentMark mark = true ∧
      Numeral.signed? rest = some exponent

theorem ofNumeral_append {base sign whole fraction power : List Char} {exponent : Int}
    (bare : IsBareNumeral base sign whole fraction) (isPower : IsPower power exponent) :
    ofNumeral (base ++ power) =
      ⟨Numeral.applySign (decide (sign = ['-'])) (Numeral.value (whole ++ fraction.drop 1)),
        (fraction.drop 1).length - exponent⟩ := by
  have inside : ∀ c ∈ base, (!isExponentMark c) = true := by
    intro c member
    have noMark : isExponentMark c = false := isMark_eq_false (bare.mem_cases member)
    rw [noMark, Bool.not_false]
  have boundary : power.head?.any (!isExponentMark ·) = false := by
    rcases isPower with ⟨rfl, _⟩ | ⟨mark, rest, rfl, isMark, _⟩
    · rfl
    · simp [isMark]
  have read : (Numeral.signed? (power.drop 1)).getD 0 = exponent := by
    rcases isPower with ⟨rfl, rfl⟩ | ⟨mark, rest, rfl, _, read⟩
    · rfl
    · rw [List.drop_one, List.tail_cons, read, Option.getD_some]
  rcases bare.cut_at_point with ⟨before, behind⟩
  simp only [ofNumeral, Grammar.takeWhile_run inside boundary,
    Grammar.dropWhile_run inside boundary, before, behind, read, List.append_assoc,
    Numeral.signed?_append bare.sign bare.isDigits_digits, Option.getD_some]

/-- Whether a text is a numeral with an optional point and power of ten, and which decimal it
stands for. -/
def Denotes (text : List Char) (decimal : Decimal) : Prop :=
  ∃ base power sign whole fraction exponent, text = base ++ power ∧
    IsBareNumeral base sign whole fraction ∧ IsPower power exponent ∧
    decimal =
      ⟨Numeral.applySign (decide (sign = ['-'])) (Numeral.value (whole ++ fraction.drop 1)),
        (fraction.drop 1).length - exponent⟩

/-- A numeral stands for one decimal only. -/
theorem Denotes.eq_ofNumeral {text : List Char} {decimal : Decimal}
    (denotes : Denotes text decimal) : decimal = ofNumeral text := by
  rcases denotes with ⟨base, power, sign, whole, fraction, exponent, rfl, bare, isPower, rfl⟩
  exact (ofNumeral_append bare isPower).symm

theorem denotes_append {base sign whole fraction power : List Char} {exponent : Int}
    (bare : IsBareNumeral base sign whole fraction) (isPower : IsPower power exponent) :
    Denotes (base ++ power)
      ⟨Numeral.applySign (decide (sign = ['-'])) (Numeral.value (whole ++ fraction.drop 1)),
        (fraction.drop 1).length - exponent⟩ :=
  ⟨base, power, sign, whole, fraction, exponent, rfl, bare, isPower, rfl⟩

theorem denotes_of_bare {text sign whole fraction : List Char}
    (bare : IsBareNumeral text sign whole fraction) :
    Denotes text
      ⟨Numeral.applySign (decide (sign = ['-'])) (Numeral.value (whole ++ fraction.drop 1)),
        (fraction.drop 1).length⟩ := by
  have written := denotes_append bare (Or.inl ⟨rfl, rfl⟩)
  rwa [List.append_nil, sub_zero] at written

theorem Denotes.eq_of_bare {text sign whole fraction : List Char} {decimal : Decimal}
    (denotes : Denotes text decimal) (bare : IsBareNumeral text sign whole fraction) :
    decimal =
      ⟨Numeral.applySign (decide (sign = ['-'])) (Numeral.value (whole ++ fraction.drop 1)),
        (fraction.drop 1).length⟩ :=
  denotes.eq_ofNumeral.trans (denotes_of_bare bare).eq_ofNumeral.symm

/-! ## The forms of decimals -/

section Forms

variable {sign digits : List Char}

/-- Digits with a point behind the first are the same digits, all but one behind the point. -/
theorem exists_bare_pointAfterFirst (isSign : sign = [] ∨ sign = ['-'])
    (isDigits : IsDigits digits) :
    ∃ whole fraction, IsBareNumeral (sign ++ pointAfterFirst digits) sign whole fraction ∧
      whole ++ fraction.drop 1 = digits ∧ (fraction.drop 1).length + 1 = digits.length := by
  rcases digits with _ | ⟨first, _ | ⟨second, rest⟩⟩
  · exact absurd rfl isDigits.1
  · exact ⟨[first], [], ⟨by simp [pointAfterFirst], isSign, isDigits, Or.inl rfl⟩, rfl, rfl⟩
  · have one : IsDigits [first] := ⟨by simp, fun c member => isDigits.2 c (by simp_all)⟩
    have others : IsDigits (second :: rest) :=
      ⟨by simp, fun c member => isDigits.2 c (List.mem_cons_of_mem _ member)⟩
    exact ⟨[first], '.' :: second :: rest,
      ⟨by simp [pointAfterFirst], isSign, one, Or.inr ⟨_, rfl, others⟩⟩, rfl, rfl⟩

/-- With a power of ten, the point behind the first digit makes up for it. -/
theorem denotes_pointAfterFirst (isSign : sign = [] ∨ sign = ['-']) (isDigits : IsDigits digits)
    (scale : Int) :
    Denotes (sign ++ (pointAfterFirst digits ++ 'E' :: Numeral.ofInt (digits.length - 1 - scale)))
      ⟨Numeral.applySign (decide (sign = ['-'])) (Numeral.value digits), scale⟩ := by
  rcases exists_bare_pointAfterFirst isSign isDigits with ⟨whole, fraction, bare, same, length⟩
  have power : IsPower ('E' :: Numeral.ofInt (digits.length - 1 - scale))
      (digits.length - 1 - scale) := Or.inr ⟨_, _, rfl, rfl, Numeral.signed?_ofInt _⟩
  have restored : ((fraction.drop 1).length : Int) - (digits.length - 1 - scale) = scale := by
    omega
  have written := denotes_append bare power
  rwa [List.append_assoc, same, restored] at written

theorem denotes_power (isSign : sign = [] ∨ sign = ['-']) (isDigits : IsDigits digits)
    {exponent : Int} (nonnegative : 0 ≤ exponent) :
    Denotes (sign ++ (digits ++ 'e' :: '+' :: Numeral.ofInt exponent))
      ⟨Numeral.applySign (decide (sign = ['-'])) (Numeral.value digits), -exponent⟩ := by
  have bare : IsBareNumeral (sign ++ digits) sign digits [] :=
    ⟨by simp, isSign, isDigits, Or.inl rfl⟩
  have power : IsPower ('e' :: '+' :: Numeral.ofInt exponent) exponent :=
    Or.inr ⟨_, _, rfl, rfl, Numeral.signed?_plus_ofInt nonnegative⟩
  simpa using denotes_append bare power

theorem denotes_zeros (isSign : sign = [] ∨ sign = ['-']) (isDigits : IsDigits digits)
    (count : Nat) :
    Denotes (sign ++ (digits ++ List.replicate count '0'))
      ⟨Numeral.applySign (decide (sign = ['-'])) (Numeral.value digits * 10 ^ count), 0⟩ := by
  have zeros : ∀ c ∈ List.replicate count '0', c.isDigit = true := by
    intro c member
    rw [List.eq_of_mem_replicate member]
    rfl
  have bare : IsBareNumeral (sign ++ (digits ++ List.replicate count '0')) sign
      (digits ++ List.replicate count '0') [] :=
    ⟨by simp, isSign, Numeral.isDigits_append isDigits zeros, Or.inl rfl⟩
  have written := denotes_of_bare bare
  rwa [List.drop_nil, List.append_nil, Numeral.value_append_zeros] at written

/-- Zeros in front of the digits make room for the point and do not count. -/
theorem denotes_positional (isSign : sign = [] ∨ sign = ['-']) (isDigits : IsDigits digits)
    {scale : Nat} (positive : 0 < scale) :
    Denotes (sign ++ positional digits scale)
      ⟨Numeral.applySign (decide (sign = ['-'])) (Numeral.value digits), scale⟩ := by
  let padded := List.replicate (scale + 1 - digits.length) '0' ++ digits
  have long : scale < padded.length := by
    simp only [padded, List.length_append, List.length_replicate]
    omega
  have allDigits : ∀ c ∈ padded, c.isDigit = true := by
    intro c member
    rcases List.mem_append.mp member with inZeros | inDigits
    · rw [List.eq_of_mem_replicate inZeros]
      rfl
    · exact isDigits.2 c inDigits
  have whole : IsDigits (padded.take (padded.length - scale)) := by
    refine ⟨?_, fun c member => allDigits c (List.mem_of_mem_take member)⟩
    rw [← List.length_pos_iff, List.length_take]
    omega
  have fraction : IsDigits (padded.drop (padded.length - scale)) := by
    refine ⟨?_, fun c member => allDigits c (List.mem_of_mem_drop member)⟩
    rw [← List.length_pos_iff, List.length_drop]
    omega
  have bare : IsBareNumeral (sign ++ positional digits scale) sign
      (padded.take (padded.length - scale)) ('.' :: padded.drop (padded.length - scale)) :=
    ⟨rfl, isSign, whole, Or.inr ⟨_, rfl, fraction⟩⟩
  have behind : (padded.drop (padded.length - scale)).length = scale := by
    rw [List.length_drop]
    omega
  have written := denotes_of_bare bare
  rwa [List.drop_one, List.tail_cons, List.take_append_drop, behind,
    Numeral.value_zeros_append] at written

/-- Written without a point and with all its zeros, a decimal loses its scale.  Otherwise its
numeral stands for its digits and its scale. -/
theorem denotes_magnitude (isSign : sign = [] ∨ sign = ['-']) (isDigits : IsDigits digits)
    (scale : Int) :
    Denotes (sign ++ magnitude digits scale)
      (if -15 ≤ scale ∧ scale ≤ 0 then
        ⟨Numeral.applySign (decide (sign = ['-'])) (Numeral.value digits * 10 ^ (-scale).toNat), 0⟩
      else ⟨Numeral.applySign (decide (sign = ['-'])) (Numeral.value digits), scale⟩) := by
  have nonempty := List.length_pos_iff.mpr isDigits.1
  rw [magnitude]
  split
  next small =>
    rw [if_neg (by omega)]
    exact denotes_pointAfterFirst isSign isDigits scale
  next =>
    split
    next large =>
      have written := denotes_power isSign isDigits (show 0 ≤ -scale by omega)
      rw [neg_neg] at written
      rw [if_neg (by omega)]
      exact written
    next =>
      split
      next whole =>
        rw [if_pos (by omega)]
        exact denotes_zeros isSign isDigits _
      next positive =>
        have written := denotes_positional isSign isDigits (show 0 < scale.toNat by omega)
        rw [Int.toNat_of_nonneg (by omega)] at written
        rw [if_neg (by omega)]
        exact written

end Forms

/-! ## The number of a decimal -/

/-- The number that a decimal is. -/
def value (decimal : Decimal) : ℚ := decimal.unscaled * 10 ^ (-decimal.scale)

theorem text_eq {decimal : Decimal} (nonzero : decimal.unscaled ≠ 0) :
    decimal.text = Numeral.signOf decimal.unscaled ++
      magnitude (Numeral.digits decimal.unscaled.natAbs) decimal.scale := by
  unfold text Numeral.signOf
  rw [if_neg nonzero]
  split <;> rfl

/-- In whatever form a decimal is written, its numeral stands for its number, and for the same
digits and scale unless zeros take the place of the scale. -/
theorem exists_denotes_text (decimal : Decimal) :
    ∃ read, Denotes decimal.text read ∧ read.value = decimal.value ∧
      (decimal.unscaled ≠ 0 → 0 ≤ decimal.scale → read = decimal) := by
  by_cases zero : decimal.unscaled = 0
  · have written : decimal.text = ['0'] := if_pos zero
    have bare : IsBareNumeral ['0'] [] ['0'] [] :=
      ⟨rfl, Or.inl rfl, Numeral.isDigits_digits 0, Or.inl rfl⟩
    refine ⟨⟨0, 0⟩, written ▸ denotes_of_bare bare, ?_, fun nonzero => absurd zero nonzero⟩
    simp [value, zero]
  · have written := denotes_magnitude (Numeral.signOf_cases decimal.unscaled)
      (Numeral.isDigits_digits decimal.unscaled.natAbs) decimal.scale
    rw [← text_eq zero, Numeral.value_digits, Numeral.applySign_signOf] at written
    split at written
    next whole =>
      refine ⟨_, written, ?_, ?_⟩
      · have power : -decimal.scale = ((-decimal.scale).toNat : Int) := by omega
        rw [Numeral.applySign_mul, Numeral.applySign_signOf, value, value, power, zpow_natCast,
          neg_zero, zpow_zero, mul_one]
        push_cast
        rfl
      · intro _ nonnegative
        have unscaled : decimal.scale = 0 := by omega
        rw [unscaled, neg_zero, Int.toNat_zero, pow_zero, mul_one, Numeral.applySign_signOf,
          ← unscaled]
    next => exact ⟨decimal, written, rfl, fun _ _ => rfl⟩

/-- Decimals that are written alike are the same number. -/
theorem value_eq_of_text_eq {first second : Decimal} (same : first.text = second.text) :
    first.value = second.value := by
  rcases exists_denotes_text first with ⟨firstRead, firstDenotes, firstValue, _⟩
  rcases exists_denotes_text second with ⟨secondRead, secondDenotes, secondValue, _⟩
  rw [← firstValue, ← secondValue, firstDenotes.eq_ofNumeral, secondDenotes.eq_ofNumeral, same]

end Decimal

end DocumentQuery
