import DocumentQuery.Proofs.Handoff.Attribution

/-!
# Leaving a receiver by unwinding

A receiver may be left without a result, when something in its body unwinds.  In any case what
was expected before it is expected again and the number of receivers is what it was.  But only
a receiver that returns clears the slot.  A value that was put down for a receiver that unwinds
stays there, and from then on every receiver at that level finds the slot occupied.
-/

namespace DocumentQuery

variable {Kind : Type} [DecidableEq Kind] {Content : Kind → Type}

/-! ## The slot at the end of a run -/

/-- Whether the slot was free after the last of some steps, or before them if there are none. -/
def Record.slotFreeAfter (before : Bool) (records : List (Record Content)) : Bool :=
  records.foldl (fun _ record => record.slotFree) before

section

omit [DecidableEq Kind]

@[simp] theorem Record.slotFreeAfter_concat (before : Bool) (records : List (Record Content))
    (last : Record Content) : slotFreeAfter before (records ++ [last]) = last.slotFree := by
  rw [slotFreeAfter, List.foldl_append]
  rfl

/-- Steps that come first decide what there was before the others. -/
theorem Run.isEmpty_after {run : Run Content} {before : Bool} {first : List (Record Content)}
    (shown : run.handoff.isEmpty =
      Record.slotFreeAfter (Record.slotFreeAfter before first) run.records) :
    (run.after first).handoff.isEmpty = Record.slotFreeAfter before (run.after first).records :=
  shown.trans List.foldl_append.symm

end

namespace Script

/-- The records of a run show at its end whether the slot is free, as the steps that are not
recorded leave it alone. -/
theorem isEmpty_run (script : Script Content) (handoff : Handoff Content) :
    (script.run handoff).handoff.isEmpty =
      Record.slotFreeAfter handoff.isEmpty (script.run handoff).records := by
  induction script generalizing handoff with
  | done | unwind | abort => rfl
  | put tag value next ih => exact ih (handoff.put tag value)
  | receive tag body next bodyIH nextIH =>
      cases slot : handoff.slot with
      | some held =>
          rw [run_receive_of_occupied slot]
          exact nextIH _ handoff
      | none =>
          have inner := bodyIH (handoff.enter tag)
          rw [run_receive_of_free slot]
          cases (body.run (handoff.enter tag)).ending with
          | finished =>
              apply Run.isEmpty_after
              rw [Record.slotFreeAfter_concat]
              exact nextIH (received tag body handoff).1 (received tag body handoff).2
          | unwound | aborted reason => exact inner
  | attempt body next bodyIH nextIH =>
      have inner := bodyIH handoff
      rw [run_attempt]
      cases (body.run handoff).ending with
      | finished =>
          apply Run.isEmpty_after
          rw [← inner]
          exact nextIH false (body.run handoff).handoff
      | unwound =>
          apply Run.isEmpty_after
          rw [Record.slotFreeAfter_concat]
          exact nextIH true (body.run handoff).handoff
      | aborted reason => exact inner

/-- A value in the slot stays there, whatever is done at its level. -/
theorem slot_run_of_occupied (script : Script Content) {handoff : Handoff Content}
    {held : Item Content} (occupied : handoff.slot = some held) :
    (script.run handoff).handoff.slot = some held := by
  induction script generalizing handoff with
  | done | unwind | abort => exact occupied
  | put tag value next ih =>
      have stays : (handoff.put tag value).slot = some held := by
        rw [Handoff.put_eq, occupied]
        rfl
      exact ih stays
  | receive tag body next bodyIH nextIH =>
      rw [run_receive_of_occupied occupied]
      exact nextIH _ occupied
  | attempt body next bodyIH nextIH =>
      have stays := bodyIH occupied
      rw [run_attempt]
      cases (body.run handoff).ending with
      | finished => exact nextIH false stays
      | unwound => exact nextIH true stays
      | aborted reason => exact stays

/-! ## What is left behind -/

/-- A receiver that finds nothing left from before gets the single value that is put down for
it. -/
theorem fst_received_of_single {tag : Tag Kind} {body : Script Content} (orderly : body.IsOrderly)
    {entry : Handoff Content} (free : entry.slot = none) (settled : entry.fault = none)
    {value : Content tag.kind}
    (single : (body.deeds (entry.enter tag)).filterMap Deed.item? = [⟨tag, value⟩]) :
    (received tag body entry).1 = .ok value := by
  have clean := violation?_of_single orderly free single
  have found : awaited? tag body entry = some ⟨tag, value⟩ := by
    simp [awaited?, single]
  exact fst_received_of_settled orderly free found (Deed.foldl_settle_clean clean (Or.inl settled))

/-- The handoff that a receiver leaves behind, by returning or without a result. -/
def leftBehind (tag : Tag Kind) (body : Script Content) (entry : Handoff Content) :
    Handoff Content :=
  if (body.run (entry.enter tag)).ending = .finished then (received tag body entry).2
  else (body.run (entry.enter tag)).handoff.leave entry.expected

variable {tag : Tag Kind} {body : Script Content} {entry : Handoff Content}

theorem run_receive_leftBehind (free : entry.slot = none)
    (next : Except Violation (Content tag.kind) → Script Content) :
    (receive tag body next).run entry =
      match (body.run (entry.enter tag)).ending with
      | .finished =>
          ((next (received tag body entry).1).run (leftBehind tag body entry)).after
            ((body.run (entry.enter tag)).records ++
              [(leftBehind tag body entry).record (.received tag (received tag body entry).1)])
      | ending => ⟨ending, leftBehind tag body entry, (body.run (entry.enter tag)).records⟩ := by
  rw [run_receive_of_free free, leftBehind]
  cases (body.run (entry.enter tag)).ending with
  | finished | unwound | aborted reason => rfl

theorem frame_leftBehind (free : entry.slot = none) :
    (leftBehind tag body entry).expected = entry.expected ∧
      (leftBehind tag body entry).depth = entry.depth := by
  unfold leftBehind
  split
  next =>
    rw [snd_received_of_free free]
    exact ⟨rfl, rfl⟩
  next =>
    have balanced := (frame_run body (entry.enter tag)).2
    refine ⟨rfl, ?_⟩
    rw [Handoff.leave, balanced]
    rfl

/-- A receiver that returns clears the slot, and any other one leaves it as the last step in its
body did. -/
theorem slot_leftBehind_eq_none_iff (free : entry.slot = none) :
    (leftBehind tag body entry).slot = none ↔
      (body.run (entry.enter tag)).ending = .finished ∨
        Record.slotFreeAfter true (body.run (entry.enter tag)).records = true := by
  unfold leftBehind
  split
  next finished =>
    rw [snd_received_of_free free]
    exact iff_of_true free (Or.inl finished)
  next unfinished =>
    have shown := isEmpty_run body (entry.enter tag)
    have freeAtEntry : (entry.enter tag).isEmpty = true := Option.isNone_iff_eq_none.mpr free
    rw [freeAtEntry] at shown
    rw [or_iff_right unfinished, ← shown]
    exact Option.isNone_iff_eq_none.symm

/-- What a receiver that found the slot free leaves behind, by returning or by unwinding.  What
is expected and the number of receivers are as before it.  The slot is free again if it returns,
or if it was free after the last step that was seen in its body, and only then.  With a free
slot and no violation left, a later receiver gets the single value that is put down for it.  But
a value that stays behind is in the way of every later receiver at that level, whatever is done
there before. -/
theorem run_receive_leaves (tag : Tag Kind) (body : Script Content) {entry : Handoff Content}
    (free : entry.slot = none) :
    (∀ next, (receive tag body next).run entry =
      match (body.run (entry.enter tag)).ending with
      | .finished =>
          ((next (received tag body entry).1).run (leftBehind tag body entry)).after
            ((body.run (entry.enter tag)).records ++
              [(leftBehind tag body entry).record (.received tag (received tag body entry).1)])
      | ending => ⟨ending, leftBehind tag body entry, (body.run (entry.enter tag)).records⟩) ∧
    ((leftBehind tag body entry).expected = entry.expected ∧
      (leftBehind tag body entry).depth = entry.depth) ∧
    ((leftBehind tag body entry).slot = none ↔
      (body.run (entry.enter tag)).ending = .finished ∨
        Record.slotFreeAfter true (body.run (entry.enter tag)).records = true) ∧
    ((leftBehind tag body entry).slot = none → (leftBehind tag body entry).fault = none →
      ∀ (later : Tag Kind) (laterBody : Script Content) (value : Content later.kind),
        laterBody.IsOrderly →
        (laterBody.deeds ((leftBehind tag body entry).enter later)).filterMap Deed.item? =
          [⟨later, value⟩] →
        (received later laterBody (leftBehind tag body entry)).1 = .ok value) ∧
    ∀ held, (leftBehind tag body entry).slot = some held →
      ∀ (script : Script Content) (later : Tag Kind) (laterBody : Script Content),
        (received later laterBody (script.run (leftBehind tag body entry)).handoff).1 =
          .error (.occupied later.name held.tag.name) := by
  refine ⟨run_receive_leftBehind free, frame_leftBehind free, slot_leftBehind_eq_none_iff free,
    ?_, ?_⟩
  · intro leftFree settled later laterBody value orderly single
    exact fst_received_of_single orderly leftFree settled single
  · intro held occupied script later laterBody
    rw [received_of_occupied (slot_run_of_occupied script occupied)]

end Script

/-! ## A text that stays behind -/

namespace Ware

/-- A number is received, and then everything is given up. -/
def discouraged : Script Load :=
  .receive numberTag (.put numberTag (2 : Int) .done) fun _ => .unwind

/-- Inside the receiver of a number, a receiver of a text is given up before a text was put
down.  The number can still be received. -/
theorem discouraged_leaves :
    (Handoff.empty.enter numberTag : Handoff Load).slot = none ∧
      ∃ left : Handoff Load,
        (∀ next, (Script.receive textTag discouraged next).run (Handoff.empty.enter numberTag) =
          ⟨.unwound, left, [⟨.put numberTag, 3, false⟩,
            ⟨.received numberTag (.ok (2 : Int)), 2, true⟩]⟩) ∧
        left.expected = some numberTag ∧ left.depth = 1 ∧ left.slot = none := by
  have free : (Handoff.empty.enter numberTag : Handoff Load).slot = none := rfl
  have inner : discouraged.run ((Handoff.empty.enter numberTag).enter textTag) =
      ⟨.unwound, ⟨some textTag, none, none, 2⟩,
        [⟨.put numberTag, 3, false⟩, ⟨.received numberTag (.ok (2 : Int)), 2, true⟩]⟩ := by
    simp [discouraged, Script.run, Run.after, Handoff.empty, Handoff.enter, Handoff.put,
      Handoff.leave, Handoff.collect, Handoff.open?, Handoff.record, Handoff.isEmpty]
  rcases Script.run_receive_leaves textTag discouraged free with ⟨goesOn, frame, freed, _⟩
  rw [inner] at goesOn freed
  exact ⟨free, _, goesOn, frame.1, frame.2, freed.mpr (Or.inr rfl)⟩

/-- A text is put down, and then everything up to the attempt is given up.  A number is asked
for after that. -/
def abandoned : Script Load :=
  .attempt (.receive textTag (.put textTag "x" .unwind) fun _ => .done) fun _ =>
    .receive numberTag (.put numberTag (1 : Int) .done) fun _ => .done

/-- The text stays in the slot when its receiver unwinds, and the receiver of the number is
refused although it did nothing wrong. -/
theorem abandoned_leaves_text :
    (abandoned.run .empty).records =
      [⟨.put textTag, 1, false⟩, ⟨.caught, 0, false⟩,
        ⟨.received numberTag (.error (.occupied "number" "text")), 0, false⟩] ∧
    (abandoned.run .empty).handoff.slot = some ⟨textTag, "x"⟩ := by
  simp [abandoned, Script.run, Run.after, Handoff.empty, Handoff.enter, Handoff.put,
    Handoff.leave, Handoff.record, Handoff.isEmpty]

end Ware

end DocumentQuery
