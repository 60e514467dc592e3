import DocumentQuery.Proofs.Number.Decimal
import DocumentQuery.Proofs.Time.Calendar
import DocumentQuery.Time.Instant
import Mathlib.Data.Rat.Floor
import Mathlib.Tactic.Ring

/-!
# Instants as text

A date and time of universal time is written in fields of a fixed width, with a fraction of a second
and the mark of the zone behind them.  Such a text names a point in time, whatever wrote it: the day
by counting, and the time of that day by its hours, minutes and seconds.  Second sixty is the first
second of the next minute.

The reader of instants reads these texts, and what it reads is the time they name.
-/

namespace DocumentQuery

open Grammar.Pattern (IsDigits)

namespace Instant

/-- The seconds since the start of 1970 in universal time.  A leap second counts as the second that
follows it. -/
def time (instant : Instant) : ℚ := instant.seconds + instant.nanos / 10 ^ 9

/-- A number in a fixed number of digits. -/
structure IsField (width : Nat) (text : List Char) (number : Nat) : Prop where
  length : text.length = width
  isDigit : ∀ c ∈ text, c.isDigit = true
  number : Nat.ofDigitChars 10 text 0 = number

/-- A point and digits behind it, or nothing, as a fraction of a second. -/
inductive IsFraction : List Char → ℚ → Prop where
  | none : IsFraction [] 0
  | digits {digits : List Char} : IsDigits digits →
      IsFraction ('.' :: digits) (Nat.ofDigitChars 10 digits 0 / 10 ^ digits.length)

/-- A date and time of day, as they are written. -/
structure CivilTime where
  year : Nat
  month : Nat
  day : Nat
  hour : Nat
  minute : Nat
  second : Nat

/-- Whether a text starts with a date and time in fields, and what remains behind them. -/
inductive CivilTime.Starts (civil : CivilTime) : List Char → List Char → Prop where
  | intro {year month day hour minute second rest : List Char} :
      IsField 4 year civil.year → IsField 2 month civil.month → IsField 2 day civil.day →
      IsField 2 hour civil.hour → IsField 2 minute civil.minute →
      IsField 2 second civil.second →
      Starts civil (year ++ '-' :: (month ++ '-' :: (day ++ 'T' :: (hour ++ ':' :: (minute ++
        ':' :: (second ++ rest)))))) rest

/-- Whether a date and time in universal time is the given number of seconds after the start of
1970. -/
inductive CivilTime.IsAt (civil : CivilTime) : Int → Prop where
  | intro {days : Int} : Date.HasNumber ⟨civil.year, civil.month, civil.day⟩ days →
      civil.hour < 24 → civil.minute < 60 → civil.second ≤ 60 →
      IsAt civil (days * 86400 + civil.hour * 3600 + civil.minute * 60 + civil.second)

/-- Whether a text is a date and time in universal time, and how many seconds after the start of
1970 it names. -/
inductive Names : List Char → ℚ → Prop where
  | intro {civil : CivilTime} {text fractionText : List Char} {seconds : Int} {fraction : ℚ} :
      civil.Starts text (fractionText ++ ['Z']) → civil.IsAt seconds →
      IsFraction fractionText fraction → Names text (seconds + fraction)

/-! ## Fields -/

namespace IsField

variable {width number : Nat} {field rest : List Char}

theorem value_eq (isField : IsField width field number) : Numeral.value field = number := by
  rw [Numeral.value_eq_ofDigitChars, isField.number]

theorem eq_of_append_eq {other otherRest : List Char} {otherNumber : Nat}
    (isField : IsField width field number) (isOther : IsField width other otherNumber)
    (same : field ++ rest = other ++ otherRest) : number = otherNumber ∧ rest = otherRest := by
  rcases List.append_inj same (isField.length.trans isOther.length.symm) with ⟨rfl, restSame⟩
  exact ⟨isField.number.symm.trans isOther.number, restSame⟩

end IsField

theorem isField_padded {width number : Nat} (wide : 0 < width) (fits : number < 10 ^ width) :
    IsField width (padded width number) number := by
  have short : (Numeral.digits number).length ≤ width :=
    (Nat.length_toDigits_le_iff (by decide) wide).mpr fits
  refine ⟨?_, ?_, ?_⟩
  · simp only [padded, List.length_append, List.length_replicate]
    omega
  · intro c member
    rcases List.mem_append.mp member with zero | digit
    · rw [List.eq_of_mem_replicate zero]
      rfl
    · exact (Numeral.isDigits_digits number).2 c digit
  · rw [← Numeral.value_eq_ofDigitChars, padded, Numeral.value_zeros_append, Numeral.value_digits]

theorem IsFraction.unique {text other : List Char} {fraction otherFraction : ℚ}
    (isFraction : IsFraction text fraction) (isOther : IsFraction other otherFraction)
    (same : text = other) : fraction = otherFraction := by
  cases isFraction with
  | none =>
      cases isOther with
      | none => rfl
      | digits => cases same
  | digits =>
      cases isOther with
      | none => cases same
      | digits =>
          cases same
          rfl

theorem CivilTime.Starts.unique {civil other : CivilTime}
    {text otherText rest otherRest : List Char} (starts : civil.Starts text rest)
    (otherStarts : other.Starts otherText otherRest) (same : text = otherText) :
    civil = other ∧ rest = otherRest := by
  rcases starts with ⟨year, month, day, hour, minute, second⟩
  rcases otherStarts with ⟨year', month', day', hour', minute', second'⟩
  rcases year.eq_of_append_eq year' same with ⟨years, same⟩
  rcases month.eq_of_append_eq month' (List.cons.inj same).2 with ⟨months, same⟩
  rcases day.eq_of_append_eq day' (List.cons.inj same).2 with ⟨days, same⟩
  rcases hour.eq_of_append_eq hour' (List.cons.inj same).2 with ⟨hours, same⟩
  rcases minute.eq_of_append_eq minute' (List.cons.inj same).2 with ⟨minutes, same⟩
  rcases second.eq_of_append_eq second' (List.cons.inj same).2 with ⟨seconds, same⟩
  refine ⟨?_, same⟩
  cases civil
  cases other
  simp_all

theorem CivilTime.IsAt.unique {civil : CivilTime} {first second : Int} (isAt : civil.IsAt first)
    (alsoAt : civil.IsAt second) : first = second := by
  rcases isAt with ⟨numbered, _, _, _⟩
  rcases alsoAt with ⟨alsoNumbered, _, _, _⟩
  rw [← numbered.toDays_eq, ← alsoNumbered.toDays_eq]

/-- A text names one time only. -/
theorem Names.unique {text : List Char} {first second : ℚ} (names : Names text first)
    (alsoNames : Names text second) : first = second := by
  rcases names with ⟨starts, isAt, fraction⟩
  rcases alsoNames with ⟨alsoStarts, alsoAt, alsoFraction⟩
  rcases starts.unique alsoStarts rfl with ⟨rfl, rest⟩
  rw [isAt.unique alsoAt, fraction.unique alsoFraction (List.append_cancel_right rest)]

/-! ## Reading -/

theorem isBlank_of_isDigit {c : Char} (digit : c.isDigit = true) : isBlank c = false := by
  simp only [Char.isDigit, Bool.and_eq_true, decide_eq_true_eq] at digit
  have code : 48 ≤ c.toNat ∧ c.toNat ≤ 57 := digit
  simp only [isBlank, Bool.or_eq_false_iff, Bool.and_eq_false_iff, decide_eq_false_iff_not,
    beq_eq_false_iff_ne]
  omega

theorem skipBlanks_cons {c : Char} (solid : isBlank c = false) (rest : List Char) :
    skipBlanks (c :: rest) = c :: rest :=
  List.dropWhile_cons_of_neg (by simp [solid])

theorem readMark?_cons {mark : Char} (solid : isBlank mark = false) (rest : List Char) :
    readMark? mark (mark :: rest) = some rest := by
  rw [readMark?, skipBlanks_cons solid]
  exact if_pos rfl

namespace IsField

variable {width number : Nat} {field rest : List Char}

theorem exists_cons (isField : IsField width field number) (wide : 0 < width) :
    ∃ c more, field = c :: more ∧ c.isDigit = true := by
  cases field with
  | nil => exact absurd isField.length wide.ne
  | cons c more => exact ⟨c, more, rfl, isField.isDigit c (List.mem_cons_self ..)⟩

theorem skipBlanks_append (isField : IsField width field number) (wide : 0 < width) :
    skipBlanks (field ++ rest) = field ++ rest := by
  rcases isField.exists_cons wide with ⟨c, more, rfl, digit⟩
  exact skipBlanks_cons (isBlank_of_isDigit digit) _

theorem isDigits (isField : IsField width field number) (wide : 0 < width) : IsDigits field := by
  rcases isField.exists_cons wide with ⟨c, more, rfl, _⟩
  exact ⟨List.cons_ne_nil c more, isField.isDigit⟩

/-- A field is read up to its last digit. -/
theorem readNumber?_append (isField : IsField width field number) (wide : 0 < width) :
    readNumber? width (field ++ rest) = some (number, rest) := by
  have digits : ((field ++ rest).take width).takeWhile Char.isDigit = field := by
    rw [← isField.length, List.take_left]
    exact List.takeWhile_eq_self_iff.mpr isField.isDigit
  simp only [readNumber?, isField.skipBlanks_append wide, digits, List.isEmpty_iff,
    (isField.isDigits wide).1, if_false, isField.value_eq, List.drop_left]

theorem readYear?_append (isField : IsField 4 field number) :
    readYear? (field ++ rest) = some ((number : Int), rest) := by
  rcases isField.exists_cons (by decide) with ⟨c, more, rfl, digit⟩
  have solid := skipBlanks_cons (isBlank_of_isDigit digit) (more ++ rest)
  unfold readYear?
  split
  next start =>
    cases solid.symm.trans start
    cases digit
  next start =>
    cases solid.symm.trans start
    cases digit
  next =>
    rw [isField.skipBlanks_append (by decide), isField.readNumber?_append (by decide)]
    rfl

end IsField

theorem readFraction?_digits {digits : List Char} (isDigits : IsDigits digits)
    (short : digits.length ≤ 9) (rest : List Char) :
    readFraction? ('.' :: (digits ++ 'Z' :: rest)) =
      some (Nat.ofDigitChars 10 digits 0 * 10 ^ (9 - digits.length), 'Z' :: rest) := by
  have leading : (digits ++ 'Z' :: rest).takeWhile Char.isDigit = digits :=
    Grammar.takeWhile_run isDigits.2 rfl
  simp only [readFraction?, leading, List.isEmpty_iff, isDigits.1, if_false,
    List.take_of_length_le short, Numeral.value_eq_ofDigitChars, List.drop_left]
  rfl

/-- A date and time in fields is read as the instant at which it is.  Second sixty is read as the
second before it and a full second of nanoseconds. -/
theorem read?_of_starts {civil : CivilTime} {text digits : List Char} {seconds : Int}
    (starts : civil.Starts text ('.' :: digits ++ ['Z'])) (isAt : civil.IsAt seconds)
    (isDigits : IsDigits digits) (short : digits.length ≤ 9)
    (counted : isCounted civil.year = true) :
    read? text = some
      ⟨seconds - (civil.second / 60 : Nat), civil.second / 60 * nanosPerSecond +
        Nat.ofDigitChars 10 digits 0 * 10 ^ (9 - digits.length)⟩ := by
  rcases starts with ⟨year, month, day, hour, minute, second⟩
  rcases isAt with @⟨days, numbered, inDay, inHour, inMinute⟩
  have hyphen : isBlank '-' = false := rfl
  have colon : isBlank ':' = false := rfl
  refine Option.bind_eq_some_iff.mpr ⟨_, year.readYear?_append, ?_⟩
  refine Option.bind_eq_some_iff.mpr ⟨_, readMark?_cons hyphen _, ?_⟩
  refine Option.bind_eq_some_iff.mpr ⟨_, month.readNumber?_append (by decide), ?_⟩
  refine Option.bind_eq_some_iff.mpr ⟨_, readMark?_cons hyphen _, ?_⟩
  refine Option.bind_eq_some_iff.mpr ⟨_, day.readNumber?_append (by decide), ?_⟩
  refine Option.bind_eq_some_iff.mpr ⟨_, rfl, ?_⟩
  refine Option.bind_eq_some_iff.mpr ⟨_, hour.readNumber?_append (by decide), ?_⟩
  refine Option.bind_eq_some_iff.mpr ⟨_, readMark?_cons colon _, ?_⟩
  refine Option.bind_eq_some_iff.mpr ⟨_, minute.readNumber?_append (by decide), ?_⟩
  refine Option.bind_eq_some_iff.mpr ⟨_, readMark?_cons colon _, ?_⟩
  refine Option.bind_eq_some_iff.mpr ⟨_, second.readNumber?_append (by decide), ?_⟩
  refine Option.bind_eq_some_iff.mpr ⟨_, readFraction?_digits isDigits short _, ?_⟩
  refine Option.bind_eq_some_iff.mpr ⟨(0, []), rfl, ?_⟩
  have valid := Date.isValid_eq_true.mpr numbered.valid
  refine (if_pos ⟨rfl, valid, inDay, inHour, inMinute, counted⟩).trans ?_
  have sum : (days * 86400 + civil.hour * 3600 + civil.minute * 60 +
      (civil.second - civil.second / 60 : Nat) : Int) =
      days * 86400 + civil.hour * 3600 + civil.minute * 60 + civil.second -
        (civil.second / 60 : Nat) := by
    omega
  have sameDay : (days * 86400 + civil.hour * 3600 + civil.minute * 60 + civil.second -
      (civil.second / 60 : Nat)) / 86400 = days := by
    omega
  simp only [numbered.toDays_eq, Int.sub_zero, sum, Instant.date, sameDay,
    ← Date.hasNumber_iff.mp numbered, counted, if_true]

/-! ## Writing -/

/-- The date and time of an instant as they are written. -/
def civil (instant : Instant) : CivilTime where
  year := instant.date.year.toNat
  month := instant.date.month
  day := instant.date.day
  hour := (instant.seconds % 86400).toNat / 3600
  minute := (instant.seconds % 86400).toNat / 60 % 60
  second := (instant.seconds % 86400).toNat % 60 + instant.nanos / nanosPerSecond

/-- Milliseconds are cut off towards the past, also before 1970. -/
theorem millis_eq_floor (instant : Instant) : instant.millis = ⌊instant.time * 1000⌋ := by
  have scaled : instant.time * 1000 =
      (instant.seconds * 1000 : Int) + (instant.nanos : ℚ) / (1000000 : Nat) := by
    rw [time]
    push_cast
    ring
  rw [scaled, Int.floor_intCast_add, Rat.floor_natCast_div_natCast, millis, Int.natCast_ediv]

theorem isField_millis (instant : Instant) :
    IsField 3 (padded 3 (instant.nanos % nanosPerSecond / 1000000))
      (instant.nanos % nanosPerSecond / 1000000) := by
  apply isField_padded (by decide)
  unfold nanosPerSecond
  omega

theorem leapSeconds_le_one {instant : Instant} (precise : instant.nanos < 2 * nanosPerSecond) :
    instant.nanos / nanosPerSecond ≤ 1 := by
  unfold nanosPerSecond at precise ⊢
  omega

section Written

variable {instant : Instant} (precise : instant.nanos < 2 * nanosPerSecond)
  (years : 0 ≤ instant.date.year ∧ instant.date.year ≤ 9999)

include precise years

theorem isAt_civil :
    instant.civil.IsAt (instant.seconds + (instant.nanos / nanosPerSecond : Nat)) := by
  have date : (⟨instant.civil.year, instant.civil.month, instant.civil.day⟩ : Date) =
      instant.date := by
    simp only [civil, Int.toNat_of_nonneg years.1]
  have numbered : Date.HasNumber ⟨instant.civil.year, instant.civil.month, instant.civil.day⟩
      (instant.seconds / 86400) := by
    rw [date]
    exact Date.hasNumber_ofDays _
  have leap := leapSeconds_le_one precise
  have isAt : instant.civil.IsAt _ := .intro numbered (by simp only [civil]; omega)
    (by simp only [civil]; omega) (by simp only [civil]; omega)
  convert isAt using 1
  simp only [civil]
  omega

theorem starts_localText (precision : Precision) (rest : List Char) :
    instant.civil.Starts (instant.localText precision ++ rest)
      (fractionText precision (instant.nanos % nanosPerSecond) ++ rest) := by
  have valid : instant.date.Valid := Date.valid_ofDays _
  have month := valid.month_le
  have day : instant.date.day ≤ 31 := by
    have inside := valid.day_le
    unfold Date.daysInMonth at inside
    split at inside <;> split at inside <;> omega
  have leap := leapSeconds_le_one precise
  have year : yearText instant.date.year = padded 4 instant.date.year.toNat := if_pos years
  simp only [localText, year, List.append_assoc, List.cons_append]
  refine .intro (isField_padded (by decide) ?_) (isField_padded (by decide) ?_)
    (isField_padded (by decide) ?_) (isField_padded (by decide) ?_)
    (isField_padded (by decide) ?_) (isField_padded (by decide) ?_) <;>
    omega

/-- The text to the millisecond names the time of its milliseconds, and no other. -/
theorem names_millisText_iff {time : ℚ} :
    Names instant.millisText.toList time ↔ time * 1000 = instant.millis := by
  have field := isField_millis instant
  have names : Names (instant.localText .millis ++ ['Z']) _ :=
    .intro (starts_localText precise years .millis ['Z']) (isAt_civil precise years)
      (.digits (field.isDigits (by decide)))
  rw [field.length, field.number] at names
  have whole : ((instant.seconds + (instant.nanos / nanosPerSecond : Nat)) * 1000 +
      (instant.nanos % nanosPerSecond / 1000000 : Nat) : Int) = instant.millis := by
    unfold millis nanosPerSecond
    omega
  have scaled : (((instant.seconds + (instant.nanos / nanosPerSecond : Nat) : Int) : ℚ) +
      (instant.nanos % nanosPerSecond / 1000000 : Nat) / 10 ^ 3) * 1000 = instant.millis := by
    rw [← whole]
    generalize instant.nanos / nanosPerSecond = leap
    generalize instant.nanos % nanosPerSecond / 1000000 = fraction
    push_cast
    ring
  rw [millisText, String.toList_ofList]
  constructor
  · intro alsoNames
    rw [alsoNames.unique names, scaled]
  · intro same
    rwa [mul_right_cancel₀ (by decide : (1000 : ℚ) ≠ 0) (same.trans scaled.symm)]

/-- The text to the millisecond is read back up to the millisecond. -/
theorem exists_read?_millisText :
    ∃ back, read? instant.millisText.toList = some back ∧ back.millis = instant.millis := by
  have field := isField_millis instant
  have bound : instant.date.year ≤ 262142 := by omega
  have counted : isCounted instant.civil.year = true := by simpa [isCounted, civil] using bound
  have read := read?_of_starts (starts_localText precise years .millis ['Z'])
    (isAt_civil precise years) (field.isDigits (by decide)) (by rw [field.length]; decide) counted
  rw [field.length, field.number] at read
  refine ⟨_, (congrArg read? (String.toList_ofList ..)).trans read, ?_⟩
  simp only [millis, civil]
  unfold nanosPerSecond at precise ⊢
  omega

end Written

end Instant

end DocumentQuery
