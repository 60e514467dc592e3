import DocumentQuery.Proofs.Handoff.Deeds

/-!
# Who gets a violation

There is one place for a violation, however many receivers wait.  A violation stays there until
the body of a receiver was run, and goes to that receiver.  So the receiver around a violation
gets it only if no other one comes first, and a receiver may get one that is not its own.
-/

namespace DocumentQuery

variable {Kind : Type} [DecidableEq Kind] {Content : Kind → Type}

namespace Deed

variable {deeds : List (Deed Content)}

omit [DecidableEq Kind]

/-- A violation is remembered until the body of a receiver is run. -/
theorem foldl_settle_some (untaken : .receive true ∉ deeds) (violation : Violation) :
    deeds.foldl settle (some violation) = some violation := by
  induction deeds with
  | nil => rfl
  | cons deed deeds ih =>
      rw [List.mem_cons, not_or] at untaken
      have kept : settle (some violation) deed = some violation := by
        cases deed with
        | put item other => rfl
        | receive ran =>
            cases ran with
            | false => rfl
            | true => exact absurd rfl untaken.1
      rw [List.foldl_cons, kept, ih untaken.2]

theorem foldl_settle_none (clean : ∀ deed ∈ deeds, deed.violation? = none) :
    deeds.foldl settle none = none := by
  induction deeds with
  | nil => rfl
  | cons deed deeds ih =>
      have kept : settle none deed = none := by
        have fits := clean deed List.mem_cons_self
        cases deed with
        | put item other => exact fits
        | receive ran => cases ran <;> rfl
      rw [List.foldl_cons, kept, ih fun other member => clean other (List.mem_cons_of_mem _ member)]

/-- Nothing that came before the body of a receiver was run is remembered after it. -/
theorem foldl_settle_taken {before after : List (Deed Content)}
    (clean : ∀ deed ∈ after, deed.violation? = none) (remembered : Option Violation) :
    (before ++ .receive true :: after).foldl settle remembered = none := by
  rw [List.foldl_append, List.foldl_cons]
  exact foldl_settle_none clean

/-- Steps without a violation leave nothing that is remembered, if nothing was or it is taken. -/
theorem foldl_settle_clean (clean : ∀ deed ∈ deeds, deed.violation? = none)
    {remembered : Option Violation} (settled : remembered = none ∨ .receive true ∈ deeds) :
    deeds.foldl settle remembered = none := by
  rcases settled with rfl | taken
  · exact foldl_settle_none clean
  · rcases List.append_of_mem taken with ⟨before, after, rfl⟩
    apply foldl_settle_taken
    intro deed member
    exact clean deed (List.mem_append_right _ (List.mem_cons_of_mem _ member))

theorem eq_put_of_accepted? {deed : Deed Content} {item : Item Content}
    (accepted : deed.accepted? = some item) : deed = .put item none := by
  cases deed with
  | receive ran => cases accepted
  | put other violation =>
      cases violation with
      | none =>
          cases accepted
          rfl
      | some violation => cases accepted

theorem violation?_of_item?_eq_none {deed : Deed Content} (receives : deed.item? = none) :
    deed.violation? = none := by
  cases deed with
  | receive ran => rfl
  | put item violation => cases receives

end Deed

namespace Script

variable {tag : Tag Kind} {body : Script Content}

/-- Where a single value is put down, under the tag that is waited for, nothing is violated. -/
theorem violation?_of_single (orderly : body.IsOrderly) {entry : Handoff Content}
    (free : entry.slot = none) {value : Content tag.kind}
    (single : (body.deeds (entry.enter tag)).filterMap Deed.item? = [⟨tag, value⟩]) :
    ∀ deed ∈ body.deeds (entry.enter tag), deed.violation? = none := by
  have free : (entry.enter tag).slot = none := free
  have accepted : (body.deeds (entry.enter tag)).findSome? Deed.accepted? = some ⟨tag, value⟩ := by
    rw [findSome?_accepted?_deeds orderly free rfl, single]
    simp
  rcases List.exists_of_findSome?_eq_some accepted with ⟨found, foundMember, isAccepted⟩
  cases Deed.eq_put_of_accepted? isAccepted
  rcases List.filterMap_eq_cons_iff.mp single with
    ⟨before, put, after, split, nothingBefore, isPut, nothingAfter⟩
  rw [List.filterMap_eq_nil_iff] at nothingAfter
  rw [split] at foundMember ⊢
  -- Some step is accepted, and no other step puts a value down.
  have isFound : put = .put ⟨tag, value⟩ none := by
    rcases List.mem_append.mp foundMember with inBefore | inRest
    · cases nothingBefore _ inBefore
    · rcases List.mem_cons.mp inRest with same | inAfter
      · exact same.symm
      · cases nothingAfter _ inAfter
  intro deed member
  rcases List.mem_append.mp member with inBefore | inRest
  · exact Deed.violation?_of_item?_eq_none (nothingBefore deed inBefore)
  · rcases List.mem_cons.mp inRest with rfl | inAfter
    · rw [isFound]
      rfl
    · exact Deed.violation?_of_item?_eq_none (nothingAfter deed inAfter)

theorem fst_received_of_settled (orderly : body.IsOrderly) {entry : Handoff Content}
    (free : entry.slot = none) {value : Content tag.kind}
    (found : awaited? tag body entry = some ⟨tag, value⟩)
    (settled : (body.deeds (entry.enter tag)).foldl Deed.settle entry.fault = none) :
    (received tag body entry).1 = .ok value := by
  rw [fst_received_of_free orderly free, settled, found]
  simp [Handoff.verdict, Handoff.open?]

theorem fst_received_of_remembered (orderly : body.IsOrderly) {entry : Handoff Content}
    (free : entry.slot = none) {violation : Violation}
    (remembered : (body.deeds (entry.enter tag)).foldl Deed.settle entry.fault = some violation) :
    (received tag body entry).1 = .error violation := by
  rw [fst_received_of_free orderly free, remembered]
  rfl

/-- What a receiver that finds the slot free gets, and goes on with.  It gets the first
violation directly in its body, if the body of no other receiver is run after that and nothing
was left from before.  A single value that is put down for it reaches it exactly if nothing was
left from before or the body of another receiver was run.  A violation that was left is its
own if the body of no other receiver is run, and one before such a body is never its own. -/
theorem run_receive_attribution (tag : Tag Kind) (orderly : body.IsOrderly)
    {entry : Handoff Content} (free : entry.slot = none) :
    ∃ result : Except Violation (Content tag.kind),
      (∀ next, (receive tag body next).run entry =
        ((next result).run { entry with fault := none }).after
          ((body.run (entry.enter tag)).records ++ [entry.record (.received tag result)])) ∧
      (∀ before item violation after,
        body.deeds (entry.enter tag) = before ++ .put item (some violation) :: after →
        (∀ deed ∈ before, deed.violation? = none) → .receive true ∉ after →
        entry.fault = none ∨ .receive true ∈ before → result = .error violation) ∧
      (∀ value, (body.deeds (entry.enter tag)).filterMap Deed.item? = [⟨tag, value⟩] →
        (result = .ok value ↔
          entry.fault = none ∨ .receive true ∈ body.deeds (entry.enter tag))) ∧
      (∀ violation, entry.fault = some violation →
        .receive true ∉ body.deeds (entry.enter tag) → result = .error violation) ∧
      (∀ before after value, body.deeds (entry.enter tag) = before ++ .receive true :: after →
        (∀ deed ∈ after, deed.violation? = none) →
        awaited? tag body entry = some ⟨tag, value⟩ → result = .ok value) := by
  have getsLeft : ∀ violation, entry.fault = some violation →
      .receive true ∉ body.deeds (entry.enter tag) →
      (received tag body entry).1 = .error violation := by
    intro violation left untaken
    apply fst_received_of_remembered orderly free
    rw [left, Deed.foldl_settle_some untaken]
  refine ⟨(received tag body entry).1, ?_, ?_, ?_, getsLeft, ?_⟩
  · intro next
    rw [run_receive orderly, snd_received_of_free free]
    simp [Handoff.isEmpty, free, Handoff.record]
  · intro before item violation after split clean untaken settled
    apply fst_received_of_remembered orderly free
    rw [split, List.foldl_append, Deed.foldl_settle_clean clean settled, List.foldl_cons]
    exact Deed.foldl_settle_some untaken violation
  · intro value single
    have clean := violation?_of_single orderly free single
    have found : awaited? tag body entry = some ⟨tag, value⟩ := by
      simp [awaited?, single]
    constructor
    · intro succeeded
      cases left : entry.fault with
      | none => exact Or.inl rfl
      | some violation =>
          refine Or.inr (Classical.byContradiction fun untaken => ?_)
          rw [getsLeft violation left untaken] at succeeded
          cases succeeded
    · intro settled
      exact fst_received_of_settled orderly free found (Deed.foldl_settle_clean clean settled)
  · intro before after value split clean found
    apply fst_received_of_settled orderly free found
    rw [split]
    exact Deed.foldl_settle_taken clean _

end Script

/-! ## A text for a number -/

namespace Ware

/-- A text is received, and another one is put down for a number. -/
def mislabelled : Script Load :=
  .receive textTag (.put textTag "y" .done) fun _ =>
    .put textTag "x" (.put numberTag (1 : Int) .done)

/-- A handoff at which a violation was left from before. -/
def misused : Handoff Load := Handoff.empty.put textTag "late"

/-- The receiver of the number gets the violation in its body, not the one left from before. -/
theorem mislabelled_attribution :
    mislabelled.IsOrderly ∧ misused.slot = none ∧
      ∃ result : Except Violation Int,
        (∀ next, (Script.receive numberTag mislabelled next).run misused =
          ((next result).run .empty).after
            ((mislabelled.run (misused.enter numberTag)).records ++
              [Handoff.empty.record (.received numberTag result)])) ∧
        result = .error (.tagMismatch "number" "text") := by
  have orderly : mislabelled.IsOrderly := ⟨trivial, fun _ => trivial⟩
  have free : misused.slot = none := rfl
  rcases Script.run_receive_attribution numberTag orderly free with ⟨result, goesOn, own, _⟩
  exact ⟨orderly, free, result, goesOn,
    own [.receive true] ⟨textTag, "x"⟩ _ [.put ⟨numberTag, (1 : Int)⟩ none] rfl
      (by simp [Deed.violation?]) (by simp) (Or.inr (by simp))⟩

/-- A text is put down for a number before another one is received. -/
def displaced : Script Load :=
  .put textTag "x"
    (.receive textTag (.put textTag "y" .done) fun _ => .put numberTag (1 : Int) .done)

/-- The violation goes to the receiver of the text, which did nothing wrong.  The receiver of
the number, in whose body it is, gets the number. -/
theorem displaced_attribution :
    displaced.IsOrderly ∧
      displaced.deeds (Handoff.empty.enter numberTag) =
        [.put ⟨textTag, "x"⟩ (some (.tagMismatch "number" "text")), .receive true,
          .put ⟨numberTag, (1 : Int)⟩ none] ∧
      ((Script.receive numberTag displaced fun _ => .done).run .empty).records =
        [⟨.put textTag, 1, true⟩, ⟨.put textTag, 2, false⟩,
          ⟨.received textTag (.error (.tagMismatch "number" "text")), 1, true⟩,
          ⟨.put numberTag, 1, false⟩, ⟨.received numberTag (.ok (1 : Int)), 0, true⟩] := by
  refine ⟨⟨trivial, fun _ => trivial⟩, rfl, ?_⟩
  simp [displaced, Script.run, Run.after, Handoff.empty, Handoff.enter, Handoff.put,
    Handoff.remember, Handoff.leave, Handoff.collect, Handoff.open?, Handoff.record,
    Handoff.isEmpty]

end Ware

end DocumentQuery
