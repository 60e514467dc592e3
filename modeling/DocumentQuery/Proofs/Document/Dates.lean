import DocumentQuery.Document.Encoding
import DocumentQuery.Proofs.Statement.Literals
import DocumentQuery.Proofs.Time.Text

/-!
# Dates in documents

An instant stands in a document as a text, or as the number of its milliseconds.  Both say the same
time, rounded down to the millisecond.  The number comes from the seconds that are counted and the
text from the fields of a calendar, so this is where the two meet.
-/

namespace DocumentQuery.Instant

/-- The readable form of an instant names the millisecond that its canonical form counts, and is
read back as one in it.  Outside of the years from 1970 to 9999 there is no readable form. -/
theorem encodings_agree (instant : Instant) (precise : instant.nanos < 2 * nanosPerSecond) :
    ∃ date : Date, date.HasNumber (instant.seconds / 86400) ∧
      (∃ number, (Value.timestamp instant).encode .canonical =
          .single "$date" (.single "$numberLong" (.string number)) ∧
        Numeral.Denotes number.toList ⌊instant.time * 1000⌋) ∧
      (1970 ≤ date.year ∧ date.year ≤ 9999 → ∃ text,
        (Value.timestamp instant).encode .relaxed = .single "$date" (.string text) ∧
        (∀ time, Names text.toList time ↔ time * 1000 = ⌊instant.time * 1000⌋) ∧
        ∃ back, read? text.toList = some back ∧ back.millis = ⌊instant.time * 1000⌋) ∧
      (¬ (1970 ≤ date.year ∧ date.year ≤ 9999) →
        (Value.timestamp instant).encode .relaxed =
          (Value.timestamp instant).encode .canonical) := by
  rw [← millis_eq_floor]
  refine ⟨instant.date, Date.hasNumber_ofDays _, ?_, ?_, ?_⟩
  · refine ⟨String.ofList (Numeral.ofInt instant.millis), rfl, ?_⟩
    rw [String.toList_ofList]
    exact Numeral.denotes_ofInt instant.millis
  · intro readable
    have years : 0 ≤ instant.date.year ∧ instant.date.year ≤ 9999 := by omega
    refine ⟨instant.millisText, ?_, fun time => names_millisText_iff precise years,
      exists_read?_millisText precise years⟩
    rw [Value.encode, encode, if_pos ⟨rfl, readable⟩]
  · intro outside
    rw [Value.encode, Value.encode, encode, encode, if_neg fun relaxed => outside relaxed.2,
      if_neg fun relaxed => outside relaxed.2]

/-- The last nanosecond of the leap second that ends the year 9999. -/
def lastReadable : Instant := ⟨253402300799, 1999999999⟩

/-- The last nanosecond before 1970. -/
def beforeEpoch : Instant := ⟨-1, 999999999⟩

/-- The leap second at the end of the year 9999 has a readable form, although its milliseconds are
counted in the next year.  The last nanosecond before 1970 has none, and counts as a whole
millisecond. -/
theorem encodings_agree_at_bounds :
    lastReadable.nanos < 2 * nanosPerSecond ∧ beforeEpoch.nanos < 2 * nanosPerSecond ∧
    (Value.timestamp lastReadable).encode .relaxed =
      .single "$date" (.string "9999-12-31T23:59:60.999Z") ∧
    Names "9999-12-31T23:59:60.999Z".toList (253402300800999 / 1000) ∧
    (∃ number, (Value.timestamp lastReadable).encode .canonical =
        .single "$date" (.single "$numberLong" (.string number)) ∧
      Numeral.Denotes number.toList 253402300800999) ∧
    ∃ number, (Value.timestamp beforeEpoch).encode .relaxed =
        .single "$date" (.single "$numberLong" (.string number)) ∧
      Numeral.Denotes number.toList (-1) := by
  have lastPrecise : lastReadable.nanos < 2 * nanosPerSecond := by decide
  have beforePrecise : beforeEpoch.nanos < 2 * nanosPerSecond := by decide
  have relaxed : (Value.timestamp lastReadable).encode .relaxed =
      .single "$date" (.string "9999-12-31T23:59:60.999Z") := rfl
  rcases encodings_agree lastReadable lastPrecise with
    ⟨last, lastNumber, lastCanonical, readable, _⟩
  rcases encodings_agree beforeEpoch beforePrecise with
    ⟨before, beforeNumber, ⟨number, canonical, denotes⟩, _, unreadable⟩
  cases Date.hasNumber_iff.mp lastNumber
  cases Date.hasNumber_iff.mp beforeNumber
  rcases readable (by decide) with ⟨text, written, names, _⟩
  rw [relaxed] at written
  cases written
  rw [← millis_eq_floor] at lastCanonical denotes names
  have named := (names (253402300800999 / 1000)).mpr (by norm_num [millis, lastReadable])
  exact ⟨lastPrecise, beforePrecise, relaxed, named, lastCanonical, number,
    (unreadable (by decide)).trans canonical, denotes⟩

end DocumentQuery.Instant
