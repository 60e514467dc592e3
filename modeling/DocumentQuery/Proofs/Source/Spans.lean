import Mathlib.Data.List.DropRight
import Mathlib.Data.String.Basic
import DocumentQuery.Source.Position

/-!
# Spans as stretches of a text

A position is counted up character by character.  Behind some text it gives the bytes and the line
feeds of the text, and the characters after the last of these.  So the span between two positions
can be sliced out of the text, and its line and column can be counted in what stands before it.
-/

namespace DocumentQuery

/-! ## Positions behind a text -/

namespace Position

theorem offset_advanceAll (position : Position) (text : List Char) :
    (position.advanceAll text).offset = position.offset + String.utf8Len text := by
  induction text generalizing position with
  | nil => rfl
  | cons c text ih =>
      rw [advanceAll_cons, ih, String.utf8Len_cons]
      simp only [advance]
      omega

theorem line_advanceAll (position : Position) (text : List Char) :
    (position.advanceAll text).line = position.line + text.count '\n' := by
  induction text generalizing position with
  | nil => rfl
  | cons c text ih =>
      rw [advanceAll_cons, ih, advance]
      by_cases lineFeed : c = '\n'
      · simp only [lineFeed, if_true, List.count_cons_self]
        omega
      · simp only [lineFeed, if_false, List.count_cons_of_ne lineFeed]

/-- The column counts from the last line feed. -/
theorem column_advanceAll_start (text : List Char) :
    (start.advanceAll text).column = 1 + (text.rtakeWhile (· != '\n')).length := by
  induction text using List.reverseRecOn with
  | nil => rfl
  | append_singleton text c ih =>
      rw [advanceAll_append, advanceAll_cons, advanceAll_nil, advance]
      by_cases lineFeed : c = '\n'
      · rw [List.rtakeWhile_concat_neg _ _ _ (by simp [lineFeed])]
        simp [lineFeed]
      · rw [List.rtakeWhile_concat_pos _ _ _ (by simp [lineFeed]), List.length_append]
        simp only [lineFeed, if_false, ih, List.length_singleton]
        omega

end Position

/-! ## Spans -/

namespace Span

/-- The characters of a text in front of a span. -/
def before (span : Span) (text : String) : List Char :=
  (String.Pos.Raw.extract text 0 ⟨span.start⟩).toList

/-- The characters of a text in a span. -/
def slice (span : Span) (text : String) : List Char :=
  (String.Pos.Raw.extract text ⟨span.start⟩ ⟨span.stop⟩).toList

/-- Whether a span is a stretch of a text between characters of it, and starts in the line and the
column that it says. -/
structure Describes (span : Span) (text : String) : Prop where
  ordered : span.start ≤ span.stop
  bounded : span.stop ≤ text.utf8ByteSize
  startsBetween : String.Pos.Raw.IsValid text ⟨span.start⟩
  stopsBetween : String.Pos.Raw.IsValid text ⟨span.stop⟩
  line : span.line = 1 + (span.before text).count '\n'
  column : span.column = 1 + ((span.before text).rtakeWhile (· != '\n')).length

/-- The span of some characters that stand between others. -/
def ofCut (before inside : List Char) : Span :=
  between (Position.start.advanceAll before) (Position.start.advanceAll (before ++ inside))

variable (before inside after : List Char)

theorem start_ofCut : (ofCut before inside).start = String.utf8Len before := by
  simp [ofCut, between, Position.offset_advanceAll, Position.start]

theorem stop_ofCut :
    (ofCut before inside).stop = String.utf8Len before + String.utf8Len inside := by
  simp [ofCut, between, Position.offset_advanceAll, Position.start]

theorem slice_ofCut :
    (ofCut before inside).slice (String.ofList (before ++ (inside ++ after))) = inside := by
  have cut := String.extract_of_valid before inside after
  rw [List.append_assoc] at cut
  rw [slice, start_ofCut, stop_ofCut, cut, String.toList_ofList]

theorem before_ofCut :
    (ofCut before inside).before (String.ofList (before ++ (inside ++ after))) = before := by
  have cut := String.extract_of_valid [] before (inside ++ after)
  rw [String.utf8Len_nil, Nat.zero_add, List.nil_append] at cut
  rw [Span.before, start_ofCut]
  exact (congrArg String.toList cut).trans String.toList_ofList

theorem isValid_utf8Len (front back : List Char) :
    String.Pos.Raw.IsValid (String.ofList (front ++ back)) ⟨String.utf8Len front⟩ := by
  refine String.Pos.Raw.isValid_iff_exists_append.mpr
    ⟨String.ofList front, String.ofList back, String.ofList_append, ?_⟩
  ext
  exact (String.utf8ByteSize_ofList front).symm

theorem describes_ofCut :
    (ofCut before inside).Describes (String.ofList (before ++ (inside ++ after))) where
  ordered := by
    rw [start_ofCut, stop_ofCut]
    exact Nat.le_add_right _ _
  bounded := by
    rw [stop_ofCut, String.utf8ByteSize_ofList, String.utf8Len_append, String.utf8Len_append]
    omega
  startsBetween := by
    rw [start_ofCut]
    exact isValid_utf8Len before (inside ++ after)
  stopsBetween := by
    rw [stop_ofCut, ← String.utf8Len_append, ← List.append_assoc]
    exact isValid_utf8Len (before ++ inside) after
  line := by
    rw [before_ofCut]
    exact Position.line_advanceAll .start before
  column := by
    rw [before_ofCut]
    exact Position.column_advanceAll_start before

end Span

end DocumentQuery
