import DocumentQuery.Time.Calendar
import Mathlib.Tactic.IntervalCases

/-!
# Dates and their numbers

The dates of the calendar are numbered by counting the days from the first of January 1970, on and
back.  Every day has one date and every date of the calendar one number, and both are given by
closed formulas.

The formulas count years from March on.  Then the leap day is the last day of a year, the months
start at the same days in every year, and a year is as long as its number says: four centuries hold
25 spans of four years each, and the last day of a span, of a century and of all four of them is
the only one that the division by the shorter length misses.
-/

namespace DocumentQuery.Date

/-! ## Counting days -/

/-- The day on which counting starts. -/
def epoch : Date := ⟨1970, 1, 1⟩

/-- The day after a date. -/
def next (date : Date) : Date :=
  if date.day < daysInMonth date.year date.month then { date with day := date.day + 1 }
  else if date.month < 12 then ⟨date.year, date.month + 1, 1⟩
  else ⟨date.year + 1, 1, 1⟩

/-- Whether a date is reached from the first of January 1970 by counting the given number of days,
back if the number is negative. -/
inductive HasNumber : Date → Int → Prop where
  | epoch : HasNumber epoch 0
  | next {date : Date} {days : Int} : date.HasNumber days → date.next.HasNumber (days + 1)
  | previous {date : Date} {days : Int} :
      date.Valid → date.next.HasNumber (days + 1) → date.HasNumber days

theorem daysInMonth_pos (year : Int) (month : Nat) : 1 ≤ daysInMonth year month := by
  unfold daysInMonth
  split
  · split <;> decide
  · split <;> decide

theorem valid_next {date : Date} (valid : date.Valid) : date.next.Valid := by
  have first := valid.month_pos
  have last := valid.month_le
  unfold next
  split
  next inside => exact ⟨first, last, by simp, inside⟩
  next =>
    split
    next inside => exact ⟨by simp, inside, Nat.le_refl 1, daysInMonth_pos _ _⟩
    next => exact ⟨by simp, by simp, Nat.le_refl 1, daysInMonth_pos _ _⟩

theorem HasNumber.valid {date : Date} {days : Int} (numbered : date.HasNumber days) :
    date.Valid := by
  induction numbered with
  | epoch => exact isValid_eq_true.mp (by decide)
  | next _ ih => exact valid_next ih
  | previous valid _ _ => exact valid

/-! ## Years from March on -/

/-- The days before the first of March of a year, from that of the year zero on. -/
def yearStart (year : Int) : Int := 365 * year + year / 4 - year / 100 + year / 400

/-- The days of a year before one of its months, March being month zero. -/
def monthStart (month : Int) : Int := (153 * month + 2) / 5

/-- The year from March on that a date is in. -/
def marchYear (date : Date) : Int := if date.month ≤ 2 then date.year - 1 else date.year

/-- The month of a date, March being month zero. -/
def marchMonth (date : Date) : Int := if date.month ≤ 2 then date.month + 9 else date.month - 3

theorem toDays_eq (date : Date) :
    date.toDays =
      yearStart date.marchYear + (monthStart date.marchMonth + date.day - 1) - 719468 := rfl

/-- A year from March on is longer by a day if it ends in a leap day. -/
theorem yearStart_succ (year : Int) :
    yearStart (year + 1) = yearStart year + if isLeap (year + 1) then 366 else 365 := by
  unfold yearStart isLeap
  simp only [Bool.and_eq_true, Bool.or_eq_true, decide_eq_true_eq, bne_iff_ne]
  split <;> omega

theorem yearStart_mono {first second : Int} (before : first ≤ second) :
    yearStart first ≤ yearStart second := by
  unfold yearStart
  omega

/-- Every month but February is as long as the closed formula says. -/
theorem monthStart_succ {date : Date} (first : 1 ≤ date.month) (last : date.month ≤ 12)
    (other : date.month ≠ 2) :
    monthStart (date.marchMonth + 1) =
      monthStart date.marchMonth + daysInMonth date.year date.month := by
  simp only [marchMonth, daysInMonth, if_neg other]
  have cases : date.month = 1 ∨ 3 ≤ date.month := by omega
  rcases cases with january | later
  · simp only [january]
    rfl
  · interval_cases date.month <;> rfl

/-- February ends a year. -/
theorem yearStart_succ_of_february {date : Date} (february : date.month = 2) :
    yearStart (date.marchYear + 1) =
      yearStart date.marchYear +
        (monthStart date.marchMonth + daysInMonth date.year date.month) := by
  rw [yearStart_succ]
  simp only [marchYear, marchMonth, daysInMonth, february, if_true, Nat.le_refl]
  have same : date.year - 1 + 1 = date.year := by omega
  rw [same]
  split <;> rfl

section Months

variable {date : Date} (valid : date.Valid)

include valid

theorem marchMonth_bounds : 0 ≤ date.marchMonth ∧ date.marchMonth ≤ 11 := by
  have first := valid.month_pos
  have last := valid.month_le
  unfold marchMonth
  split <;> omega

/-- A date on the calendar lies before the next month. -/
theorem day_lt_monthStart :
    monthStart date.marchMonth + date.day - 1 < monthStart (date.marchMonth + 1) := by
  have inside := valid.day_le
  by_cases february : date.month = 2
  · have short : daysInMonth date.year date.month ≤ 29 := by
      rw [daysInMonth, if_pos february]
      split <;> decide
    simp only [monthStart, marchMonth, february, Nat.le_refl, if_true]
    omega
  · rw [monthStart_succ valid.month_pos valid.month_le february]
    omega

/-- A date on the calendar lies before the next year. -/
theorem day_lt_yearStart :
    yearStart date.marchYear + (monthStart date.marchMonth + date.day - 1) <
      yearStart (date.marchYear + 1) := by
  by_cases february : date.month = 2
  · have inside := valid.day_le
    rw [yearStart_succ_of_february february]
    omega
  · have inside := day_lt_monthStart valid
    have first := valid.month_pos
    have early : date.marchMonth ≤ 10 := by
      have last := valid.month_le
      unfold marchMonth
      split <;> omega
    have long : 365 ≤ yearStart (date.marchYear + 1) - yearStart date.marchYear := by
      rw [yearStart_succ]
      split <;> omega
    have bound : monthStart (date.marchMonth + 1) ≤ 337 := by
      unfold monthStart
      omega
    omega

end Months

/-- Behind the last day of a month comes the next one, and behind February the next year. -/
theorem toDays_first_of_next {date : Date} (valid : date.Valid)
    (isLast : date.day = daysInMonth date.year date.month) {first : Date} (isFirst : first.day = 1)
    (follows : first.month = date.month + 1 ∧ first.year = date.year ∨
      date.month = 12 ∧ first.month = 1 ∧ first.year = date.year + 1) :
    first.toDays = date.toDays + 1 := by
  have january := valid.month_pos
  rw [toDays_eq, toDays_eq, isFirst, isLast]
  by_cases february : date.month = 2
  · have ends := yearStart_succ_of_february february
    have march : first.marchMonth = 0 ∧ first.marchYear = date.marchYear + 1 := by
      unfold marchMonth marchYear
      split <;> split <;> omega
    rw [march.1, march.2, ends, show monthStart 0 = 0 from rfl]
    omega
  · have later : first.marchMonth = date.marchMonth + 1 ∧ first.marchYear = date.marchYear := by
      unfold marchMonth marchYear
      split <;> split <;> omega
    rw [later.1, later.2, monthStart_succ january valid.month_le february]
    omega

/-- The day after a date has the next number. -/
theorem toDays_next {date : Date} (valid : date.Valid) : date.next.toDays = date.toDays + 1 := by
  have last := valid.month_le
  have inside := valid.day_le
  unfold next
  split
  next =>
    simp only [toDays_eq, marchYear, marchMonth]
    omega
  next isLast =>
    have full : date.day = daysInMonth date.year date.month := by omega
    split
    next => exact toDays_first_of_next valid full rfl (Or.inl ⟨rfl, rfl⟩)
    next => exact toDays_first_of_next valid full rfl (Or.inr ⟨by omega, rfl, rfl⟩)

theorem HasNumber.toDays_eq {date : Date} {days : Int} (numbered : date.HasNumber days) :
    date.toDays = days := by
  induction numbered with
  | epoch => rfl
  | next numbered ih => rw [toDays_next numbered.valid, ih]
  | previous valid _ ih =>
      rw [toDays_next valid] at ih
      omega

theorem monthStart_mono {first second : Int} (before : first ≤ second) :
    monthStart first ≤ monthStart second := by
  unfold monthStart
  omega

theorem marchYear_le_of_toDays_le {first second : Date} (firstValid : first.Valid)
    (secondValid : second.Valid) (before : first.toDays ≤ second.toDays) :
    first.marchYear ≤ second.marchYear := by
  by_contra later
  have years : yearStart (second.marchYear + 1) ≤ yearStart first.marchYear :=
    yearStart_mono (by omega)
  have inside := day_lt_yearStart secondValid
  have months : monthStart 0 ≤ monthStart first.marchMonth :=
    monthStart_mono (marchMonth_bounds firstValid).1
  have start : monthStart 0 = 0 := rfl
  have dayPos := firstValid.day_pos
  rw [toDays_eq, toDays_eq] at before
  omega

theorem marchMonth_le_of_toDays_le {first second : Date} (firstValid : first.Valid)
    (secondValid : second.Valid) (sameYear : first.marchYear = second.marchYear)
    (before : first.toDays ≤ second.toDays) : first.marchMonth ≤ second.marchMonth := by
  by_contra later
  have months : monthStart (second.marchMonth + 1) ≤ monthStart first.marchMonth :=
    monthStart_mono (by omega)
  have inside := day_lt_monthStart secondValid
  have dayPos := firstValid.day_pos
  rw [toDays_eq, toDays_eq, sameYear] at before
  omega

/-- Different dates of the calendar have different numbers. -/
theorem eq_of_toDays_eq {first second : Date} (firstValid : first.Valid)
    (secondValid : second.Valid) (same : first.toDays = second.toDays) : first = second := by
  have years : first.marchYear = second.marchYear :=
    Int.le_antisymm (marchYear_le_of_toDays_le firstValid secondValid same.le)
      (marchYear_le_of_toDays_le secondValid firstValid same.ge)
  have months : first.marchMonth = second.marchMonth :=
    Int.le_antisymm (marchMonth_le_of_toDays_le firstValid secondValid years same.le)
      (marchMonth_le_of_toDays_le secondValid firstValid years.symm same.ge)
  have days : first.day = second.day := by
    rw [toDays_eq, toDays_eq, years, months] at same
    omega
  have firstBounds := And.intro firstValid.month_pos firstValid.month_le
  have secondBounds := And.intro secondValid.month_pos secondValid.month_le
  have fields : first.year = second.year ∧ first.month = second.month := by
    unfold marchYear at years
    unfold marchMonth at months
    split at months <;> split at months <;> omega
  cases first
  cases second
  simp_all

/-! ## From numbers to dates -/

/-- The date at a day of a year from March on. -/
def ofMarch (year dayOfYear : Int) : Date :=
  let month := (5 * dayOfYear + 2) / 153
  let day := dayOfYear - monthStart month + 1
  if month < 10 then ⟨year, (month + 3).toNat, day.toNat⟩
  else ⟨year + 1, (month - 9).toNat, day.toNat⟩

/-- Where a day of four centuries lies: in which of them, in which span of four years there, in
which year of that, and on which day.  A year has a leap day at its end if it is the last of its
span, except for the last span of the first three centuries. -/
structure InEra (dayOfEra century span year day : Int) : Prop where
  century_bounds : 0 ≤ century ∧ century ≤ 3
  span_bounds : 0 ≤ span ∧ span ≤ 24
  year_bounds : 0 ≤ year ∧ year ≤ 3
  day_bounds : 0 ≤ day ∧ day ≤ 365
  leap : day = 365 → year = 3 ∧ (span = 24 → century = 3)
  sum : dayOfEra = 36524 * century + 1461 * span + 365 * year + day

theorem exists_inEra {dayOfEra : Int} (first : 0 ≤ dayOfEra) (last : dayOfEra < 146097) :
    ∃ century span year day, InEra dayOfEra century span year day := by
  rcases show ∃ century, (0 ≤ century ∧ century ≤ 3) ∧ 36524 * century ≤ dayOfEra ∧
      (dayOfEra < 36524 * (century + 1) ∨ century = 3) from
    ⟨min 3 (dayOfEra / 36524), by omega, by omega, by omega⟩ with ⟨century, centuries, begun, ends⟩
  rcases show ∃ span, 0 ≤ span ∧ 36524 * century + 1461 * span ≤ dayOfEra ∧
      dayOfEra < 36524 * century + 1461 * (span + 1) from
    ⟨(dayOfEra - 36524 * century) / 1461, by omega, by omega, by omega⟩ with
    ⟨span, spans, spanBegun, spanEnds⟩
  rcases show ∃ year, (0 ≤ year ∧ year ≤ 3) ∧
      36524 * century + 1461 * span + 365 * year ≤ dayOfEra ∧
      (dayOfEra < 36524 * century + 1461 * span + 365 * (year + 1) ∨ year = 3) from
    ⟨min 3 ((dayOfEra - 36524 * century - 1461 * span) / 365), by omega, by omega, by omega⟩ with
    ⟨year, years, yearBegun, yearEnds⟩
  exact ⟨century, span, year, dayOfEra - 36524 * century - 1461 * span - 365 * year, centuries,
    by omega, years, by omega, by omega, by omega⟩

section Eras

variable {dayOfEra century span year day : Int} (inEra : InEra dayOfEra century span year day)

include inEra

theorem yearOfEra_eq :
    (dayOfEra - dayOfEra / 1460 + dayOfEra / 36524 - dayOfEra / 146096) / 365 =
      100 * century + 4 * span + year := by
  rcases inEra with ⟨centuries, spans, years, days, leap, sum⟩
  have centuryEq : dayOfEra / 36524 - dayOfEra / 146096 = century := by
    have inside : 1461 * span + 365 * year + day < 36524 ∨ dayOfEra = 146096 ∧ century = 3 := by
      omega
    rcases inside with inside | ⟨rfl, rfl⟩
    · have short : dayOfEra / 36524 = century := by omega
      have whole : dayOfEra / 146096 = 0 := by omega
      omega
    · rfl
  -- Only in the last year of a span can the shorter span have passed already.
  have spanEq : dayOfEra / 1460 = 25 * century + span ∨
      dayOfEra / 1460 = 25 * century + span + 1 ∧ year = 3 ∧ 365 ≤ 24 * century + span + day := by
    omega
  omega

theorem yearOfEra_inside :
    yearStart (100 * century + 4 * span + year) + day = dayOfEra ∧
      dayOfEra < yearStart (100 * century + 4 * span + year + 1) := by
  rcases inEra with ⟨centuries, spans, years, days, leap, sum⟩
  unfold yearStart
  omega

end Eras

/-- The formula for the year of a day finds the year that the day lies in. -/
theorem exists_yearOfEra {dayOfEra : Int} (first : 0 ≤ dayOfEra) (last : dayOfEra < 146097) :
    ∃ year day,
      (dayOfEra - dayOfEra / 1460 + dayOfEra / 36524 - dayOfEra / 146096) / 365 = year ∧
      (0 ≤ year ∧ year < 400) ∧ 0 ≤ day ∧ yearStart year + day = dayOfEra ∧
      dayOfEra < yearStart (year + 1) := by
  rcases exists_inEra first last with ⟨century, span, year, day, inEra⟩
  have bounds := And.intro inEra.century_bounds (And.intro inEra.span_bounds inEra.year_bounds)
  exact ⟨100 * century + 4 * span + year, day, yearOfEra_eq inEra, by omega, inEra.day_bounds.1,
    yearOfEra_inside inEra⟩

theorem yearStart_add_eras (year era : Int) :
    yearStart (year + era * 400) = yearStart year + 146097 * era := by
  unfold yearStart
  omega

/-- Every day lies in a year from March on, and its date is the one at that day of the year. -/
theorem exists_ofDays_eq (days : Int) :
    ∃ year dayOfYear, ofDays days = ofMarch year dayOfYear ∧ 0 ≤ dayOfYear ∧
      yearStart year + dayOfYear < yearStart (year + 1) ∧
      days = yearStart year + dayOfYear - 719468 := by
  rcases exists_yearOfEra (Int.emod_nonneg (days + 719468) (by decide : (146097 : Int) ≠ 0))
    (Int.emod_lt_of_pos (days + 719468) (by decide)) with
    ⟨yearOfEra, day, found, bounds, begun, sum, inside⟩
  refine ⟨yearOfEra + (days + 719468) / 146097 * 400, day, ?_, begun, ?_, ?_⟩
  · have sameDay : (days + 719468) % 146097 -
        (365 * yearOfEra + yearOfEra / 4 - yearOfEra / 100) = day := by
      unfold yearStart at sum
      omega
    simp only [ofDays, found, sameDay]
    rfl
  · rw [Int.add_right_comm, yearStart_add_eras, yearStart_add_eras]
    omega
  · rw [yearStart_add_eras]
    omega

theorem dayOfYear_le {year dayOfYear : Int}
    (inside : yearStart year + dayOfYear < yearStart (year + 1)) : dayOfYear ≤ 365 := by
  rw [yearStart_succ] at inside
  split at inside <;> omega

section March

variable {year dayOfYear : Int} (begun : 0 ≤ dayOfYear)
  (inside : yearStart year + dayOfYear < yearStart (year + 1))

include begun inside

/-- The formula for the month of a day finds the month that the day lies in. -/
theorem month_inside :
    ∃ month, (5 * dayOfYear + 2) / 153 = month ∧ (0 ≤ month ∧ month ≤ 11) ∧
      monthStart month ≤ dayOfYear ∧ dayOfYear < monthStart (month + 1) := by
  have last := dayOfYear_le inside
  refine ⟨_, rfl, by omega, ?_, ?_⟩
  all_goals
    unfold monthStart
    omega

theorem ofMarch_spec :
    (ofMarch year dayOfYear).Valid ∧
      (ofMarch year dayOfYear).toDays = yearStart year + dayOfYear - 719468 := by
  rcases month_inside begun inside with ⟨month, found, bounds, after, before⟩
  generalize made : ofMarch year dayOfYear = date
  have fields : (date.marchYear = year ∧ date.marchMonth = month) ∧
      (1 ≤ date.month ∧ date.month ≤ 12) ∧ date.day = dayOfYear - monthStart month + 1 := by
    rw [← made]
    simp only [ofMarch, found]
    split
    next early =>
      simp only [marchYear, marchMonth]
      split <;> omega
    next late =>
      simp only [marchYear, marchMonth]
      split <;> omega
  rcases fields with ⟨⟨rfl, rfl⟩, months, day⟩
  have dayInside : date.day ≤ daysInMonth date.year date.month := by
    by_cases february : date.month = 2
    · rw [yearStart_succ_of_february february] at inside
      omega
    · rw [monthStart_succ months.1 months.2 february] at before
      omega
  refine ⟨⟨months.1, months.2, by omega, dayInside⟩, ?_⟩
  rw [toDays_eq]
  omega

end March

theorem valid_ofDays (days : Int) : (ofDays days).Valid := by
  rcases exists_ofDays_eq days with ⟨year, dayOfYear, made, begun, inside, _⟩
  rw [made]
  exact (ofMarch_spec begun inside).1

theorem toDays_ofDays (days : Int) : (ofDays days).toDays = days := by
  rcases exists_ofDays_eq days with ⟨year, dayOfYear, made, begun, inside, sum⟩
  rw [made, (ofMarch_spec begun inside).2, sum]

theorem next_ofDays (days : Int) : (ofDays days).next = ofDays (days + 1) := by
  apply eq_of_toDays_eq (valid_next (valid_ofDays days)) (valid_ofDays _)
  rw [toDays_next (valid_ofDays days), toDays_ofDays, toDays_ofDays]

/-- Counting reaches every day, in both directions. -/
theorem hasNumber_ofDays (days : Int) : (ofDays days).HasNumber days := by
  induction days with
  | zero => exact .epoch
  | succ days ih =>
      rw [← next_ofDays]
      exact ih.next
  | pred days ih =>
      refine .previous (valid_ofDays _) ?_
      rw [next_ofDays, Int.sub_add_cancel]
      exact ih

theorem hasNumber_iff {date : Date} {days : Int} : date.HasNumber days ↔ date = ofDays days := by
  constructor
  · intro numbered
    apply eq_of_toDays_eq numbered.valid (valid_ofDays days)
    rw [numbered.toDays_eq, toDays_ofDays]
  · rintro rfl
    exact hasNumber_ofDays days

end DocumentQuery.Date
