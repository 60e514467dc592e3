import DocumentQuery.Handoff.Script

/-!
# What a script does to a handoff

The steps directly in a script, without those in the bodies of its receivers, decide what
becomes of the handoff: `Script.handoff_run`.  The first value that fits stays in the slot.  A
violation is remembered until the body of a receiver was run, which takes it.  So they also
decide what a receiver gets.
-/

namespace DocumentQuery

variable {Kind : Type} [DecidableEq Kind] {Content : Kind → Type}

/-! ## Putting a value down -/

/-- What is wrong about putting a value down under a tag. -/
def Handoff.violation? (handoff : Handoff Content) (tag : Tag Kind) : Option Violation :=
  match handoff.expected with
  | none => some (.unexpected tag.name)
  | some expected =>
      if expected = tag then handoff.slot.map fun held => .occupied tag.name held.tag.name
      else some (.tagMismatch expected.name tag.name)

/-- A step directly in a body: a value that is put down, with what is wrong about that, or a
receiver, with whether its own body was run. -/
inductive Deed {Kind : Type} (Content : Kind → Type) where
  | put (item : Item Content) (violation : Option Violation)
  | receive (ran : Bool)

namespace Deed

/-- The value that is put down. -/
def item? : Deed Content → Option (Item Content)
  | put item _ => some item
  | receive _ => none

/-- The value that stays in the slot. -/
def accepted? : Deed Content → Option (Item Content)
  | put item none => some item
  | put _ (some _) | receive _ => none

def violation? : Deed Content → Option Violation
  | put _ violation => violation
  | receive _ => none

/-- The violation that is remembered after a step.  A receiver whose body was run takes it. -/
def settle (remembered : Option Violation) : Deed Content → Option Violation
  | put _ violation => remembered.or violation
  | receive ran => if ran then none else remembered

omit [DecidableEq Kind] in
theorem findSome?_accepted?_cons (deed : Deed Content) (deeds : List (Deed Content)) :
    (deed :: deeds).findSome? accepted? = deed.accepted?.or (deeds.findSome? accepted?) := by
  rw [List.findSome?_cons]
  cases deed.accepted? <;> rfl

end Deed

namespace Handoff

theorem put_eq (handoff : Handoff Content) (tag : Tag Kind) (value : Content tag.kind) :
    handoff.put tag value =
      { handoff with
        slot := handoff.slot.or (Deed.put ⟨tag, value⟩ (handoff.violation? tag)).accepted?
        fault := handoff.fault.or (handoff.violation? tag) } := by
  obtain ⟨expected, slot, fault, depth⟩ := handoff
  cases expected with
  | none => simp [put, violation?, remember, Deed.accepted?]
  | some expected =>
      by_cases same : expected = tag
      · cases slot <;> simp [put, violation?, remember, same, Deed.accepted?]
      · simp [put, violation?, remember, same, Deed.accepted?]

@[simp] theorem expected_put (handoff : Handoff Content) (tag : Tag Kind)
    (value : Content tag.kind) : (handoff.put tag value).expected = handoff.expected := by
  rw [put_eq]

@[simp] theorem depth_put (handoff : Handoff Content) (tag : Tag Kind)
    (value : Content tag.kind) : (handoff.put tag value).depth = handoff.depth := by
  rw [put_eq]

theorem slot_put_of_violation {handoff : Handoff Content} {tag : Tag Kind}
    {violation : Violation} (wrong : handoff.violation? tag = some violation)
    (value : Content tag.kind) : (handoff.put tag value).slot = handoff.slot := by
  rw [put_eq, wrong]
  exact Option.or_none

theorem expected_of_violation?_eq_none {handoff : Handoff Content} {tag : Tag Kind}
    (fits : handoff.violation? tag = none) : handoff.expected = some tag := by
  unfold violation? at fits
  split at fits
  next => cases fits
  next expected awaited =>
    split at fits
    next same => rw [awaited, same]
    next => cases fits

/-- A value comes into the slot only under the tag that is waited for. -/
theorem slot_put_eq_some {handoff : Handoff Content} {tag : Tag Kind}
    {value : Content tag.kind} {item : Item Content}
    (holds : (handoff.put tag value).slot = some item) :
    handoff.slot = some item ∨ item = ⟨tag, value⟩ ∧ handoff.expected = some tag := by
  cases wrong : handoff.violation? tag with
  | some violation => exact Or.inl ((slot_put_of_violation wrong value).symm.trans holds)
  | none =>
      rw [put_eq, wrong] at holds
      rcases Option.or_eq_some_iff.mp holds with held | ⟨_, accepted⟩
      · exact Or.inl held
      · cases accepted
        exact Or.inr ⟨rfl, expected_of_violation?_eq_none wrong⟩

/-- What is collected of a remembered violation and a slot. -/
def verdict (tag : Tag Kind) (fault : Option Violation) (slot : Option (Item Content)) :
    Except Violation (Content tag.kind) :=
  match fault, slot with
  | some violation, _ => .error violation
  | none, some item => open? tag item
  | none, none => .error (.nothingPut tag.name)

theorem fst_collect (handoff : Handoff Content) (tag : Tag Kind) :
    (handoff.collect tag).1 = verdict tag handoff.fault handoff.slot := by
  obtain ⟨expected, slot, fault, depth⟩ := handoff
  cases fault <;> cases slot <;> rfl

theorem exists_open?_eq_ok {tag : Tag Kind} {item : Item Content}
    (same : item.tag = tag) : ∃ value, item = ⟨tag, value⟩ ∧ open? tag item = .ok value := by
  subst same
  exact ⟨item.value, rfl, by simp [open?]⟩

end Handoff

/-! ## Running a receiver -/

namespace Script

variable {tag : Tag Kind} {body : Script Content}

/-- What a receiver gets and the handoff that it leaves behind. -/
def received (tag : Tag Kind) (body : Script Content) (handoff : Handoff Content) :
    Except Violation (Content tag.kind) × Handoff Content :=
  match handoff.slot with
  | some held => (.error (.occupied tag.name held.tag.name), handoff)
  | none => ((body.run (handoff.enter tag)).handoff.leave handoff.expected).collect tag

theorem received_of_occupied {handoff : Handoff Content} {held : Item Content}
    (occupied : handoff.slot = some held) :
    received tag body handoff = (.error (.occupied tag.name held.tag.name), handoff) := by
  rw [received, occupied]

theorem run_receive_of_occupied {handoff : Handoff Content} {held : Item Content}
    (occupied : handoff.slot = some held)
    (next : Except Violation (Content tag.kind) → Script Content) :
    (receive tag body next).run handoff =
      ((next (received tag body handoff).1).run handoff).after
        [handoff.record (.received tag (received tag body handoff).1)] := by
  rw [run, received_of_occupied occupied, occupied]

/-- The body of a receiver is run if the slot is free.  Unless it finishes, the receiver is left
without a result. -/
theorem run_receive_of_free {handoff : Handoff Content} (free : handoff.slot = none)
    (next : Except Violation (Content tag.kind) → Script Content) :
    (receive tag body next).run handoff =
      match (body.run (handoff.enter tag)).ending with
      | .finished =>
          ((next (received tag body handoff).1).run (received tag body handoff).2).after
            ((body.run (handoff.enter tag)).records ++
              [(received tag body handoff).2.record
                (.received tag (received tag body handoff).1)])
      | ending =>
          ⟨ending, (body.run (handoff.enter tag)).handoff.leave handoff.expected,
            (body.run (handoff.enter tag)).records⟩ := by
  cases ending : (body.run (handoff.enter tag)).ending <;>
    simp only [run, received, free, ending]

theorem run_attempt (body : Script Content) (next : Bool → Script Content)
    (handoff : Handoff Content) :
    (attempt body next).run handoff =
      match (body.run handoff).ending with
      | .finished => ((next false).run (body.run handoff).handoff).after (body.run handoff).records
      | .unwound =>
          ((next true).run (body.run handoff).handoff).after
            ((body.run handoff).records ++ [(body.run handoff).handoff.record .caught])
      | .aborted reason =>
          ⟨.aborted reason, (body.run handoff).handoff, (body.run handoff).records⟩ :=
  rfl

/-- However a script ends, what was expected before it is expected after it, and the number of
receivers is the same. -/
theorem frame_run (script : Script Content) (handoff : Handoff Content) :
    (script.run handoff).handoff.expected = handoff.expected ∧
      (script.run handoff).handoff.depth = handoff.depth := by
  induction script generalizing handoff with
  | done | unwind | abort => exact ⟨rfl, rfl⟩
  | put tag value next ih => simpa [run, Run.after] using ih (handoff.put tag value)
  | receive tag body next bodyIH nextIH =>
      cases slot : handoff.slot with
      | some held =>
          rw [run_receive_of_occupied slot]
          exact nextIH _ handoff
      | none =>
          have left : ((body.run (handoff.enter tag)).handoff.leave handoff.expected).depth =
              handoff.depth := by
            rw [Handoff.leave, (bodyIH (handoff.enter tag)).2]
            rfl
          have after : (received tag body handoff).2.expected = handoff.expected ∧
              (received tag body handoff).2.depth = handoff.depth := by
            rw [received, slot]
            exact ⟨rfl, left⟩
          rw [run_receive_of_free slot]
          cases (body.run (handoff.enter tag)).ending with
          | finished =>
              have later := nextIH (received tag body handoff).1 (received tag body handoff).2
              exact ⟨later.1.trans after.1, later.2.trans after.2⟩
          | unwound | aborted reason => exact ⟨rfl, left⟩
  | attempt body next bodyIH nextIH =>
      have inner := bodyIH handoff
      rw [run_attempt]
      cases (body.run handoff).ending with
      | finished =>
          have later := nextIH false (body.run handoff).handoff
          exact ⟨later.1.trans inner.1, later.2.trans inner.2⟩
      | unwound =>
          have later := nextIH true (body.run handoff).handoff
          exact ⟨later.1.trans inner.1, later.2.trans inner.2⟩
      | aborted reason => exact inner

/-- A receiver that leaves with a result takes the value and the violation, and leaves all else
as it was. -/
theorem snd_received_of_free {handoff : Handoff Content} (free : handoff.slot = none) :
    (received tag body handoff).2 = { handoff with fault := none } := by
  have balanced := (frame_run body (handoff.enter tag)).2
  rw [received, free, Handoff.collect, Handoff.leave, balanced]
  rfl

end Script

/-! ## Scripts that keep order -/

namespace Script

/-- Whether a script only puts values down and receives them. -/
def IsOrderly : Script Content → Prop
  | done => True
  | put _ _ next => next.IsOrderly
  | receive _ body next => body.IsOrderly ∧ ∀ result, (next result).IsOrderly
  | unwind | attempt _ _ | abort _ => False

/-- The steps directly in a script, as it is run. -/
def deeds : Script Content → Handoff Content → List (Deed Content)
  | put tag value next, handoff =>
      .put ⟨tag, value⟩ (handoff.violation? tag) :: next.deeds (handoff.put tag value)
  | receive tag body next, handoff =>
      .receive handoff.isEmpty ::
        (next (received tag body handoff).1).deeds (received tag body handoff).2
  | done, _ | unwind, _ | attempt _ _, _ | abort _, _ => []

variable {tag : Tag Kind} {body script : Script Content}

theorem ending_run (orderly : script.IsOrderly) (handoff : Handoff Content) :
    (script.run handoff).ending = .finished := by
  induction script generalizing handoff with
  | done => rfl
  | put tag value next ih => exact ih orderly _
  | receive tag body next bodyIH nextIH =>
      cases slot : handoff.slot with
      | some held =>
          rw [run_receive_of_occupied slot]
          exact nextIH _ (orderly.2 _) _
      | none =>
          rw [run_receive_of_free slot, bodyIH orderly.1]
          exact nextIH _ (orderly.2 _) _
  | unwind | attempt | abort => cases orderly

/-- A receiver goes on with what it got, and its body is run only if the slot was free. -/
theorem run_receive (orderly : body.IsOrderly)
    (next : Except Violation (Content tag.kind) → Script Content) (handoff : Handoff Content) :
    (receive tag body next).run handoff =
      ((next (received tag body handoff).1).run (received tag body handoff).2).after
        ((if handoff.isEmpty then (body.run (handoff.enter tag)).records else []) ++
          [(received tag body handoff).2.record
            (.received tag (received tag body handoff).1)]) := by
  cases slot : handoff.slot with
  | some held =>
      simp [run_receive_of_occupied slot, received_of_occupied slot, Handoff.isEmpty, slot]
  | none => simp [run_receive_of_free slot, ending_run orderly, Handoff.isEmpty, slot]

/-- A run keeps what is expected and the number of receivers.  The first value that is accepted
stays in the slot, and the violations are remembered and taken in order. -/
theorem handoff_run (orderly : script.IsOrderly) (handoff : Handoff Content) :
    (script.run handoff).handoff =
      { handoff with
        slot := handoff.slot.or ((script.deeds handoff).findSome? Deed.accepted?)
        fault := (script.deeds handoff).foldl Deed.settle handoff.fault } := by
  induction script generalizing handoff with
  | done => simp [run, deeds]
  | put tag value next ih =>
      have later := ih orderly (handoff.put tag value)
      rw [run, Run.after, later, deeds, Deed.findSome?_accepted?_cons, List.foldl_cons,
        Handoff.put_eq]
      simp only [Option.or_assoc, Deed.settle]
  | receive tag body next bodyIH nextIH =>
      have later := nextIH _ (orderly.2 (received tag body handoff).1) (received tag body handoff).2
      rw [run_receive orderly.1, Run.after, later, deeds, Deed.findSome?_accepted?_cons,
        List.foldl_cons]
      cases slot : handoff.slot with
      | some held => simp [received_of_occupied slot, Handoff.isEmpty, slot, Deed.settle]
      | none =>
          simp [snd_received_of_free slot, Handoff.isEmpty, slot, Deed.settle,
            Deed.accepted?]
  | unwind | attempt | abort => cases orderly

/-- In a body that starts with a free slot, the value that is accepted is the first one under
the tag that is waited for. -/
theorem findSome?_accepted?_deeds (orderly : script.IsOrderly) {handoff : Handoff Content}
    (free : handoff.slot = none) (awaited : handoff.expected = some tag) :
    (script.deeds handoff).findSome? Deed.accepted? =
      ((script.deeds handoff).filterMap Deed.item?).find? fun item => item.tag = tag := by
  induction script generalizing handoff with
  | done => rfl
  | put other value next ih =>
      rw [deeds, List.findSome?_cons, List.filterMap_cons]
      by_cases same : other = tag
      · subst same
        simp [Handoff.violation?, awaited, free, Deed.accepted?, Deed.item?]
      · have wrong : handoff.violation? other = some (.tagMismatch tag.name other.name) := by
          simp [Handoff.violation?, awaited, Ne.symm same]
        have stillFree : (handoff.put other value).slot = none :=
          (Handoff.slot_put_of_violation wrong value).trans free
        have later := ih orderly stillFree ((handoff.expected_put other value).trans awaited)
        simpa [wrong, Deed.accepted?, Deed.item?, List.find?_cons, same] using later
  | receive other body next bodyIH nextIH =>
      have left : (received other body handoff).2 = { handoff with fault := none } :=
        snd_received_of_free free
      have stillFree : (received other body handoff).2.slot = none := by
        rw [left]
        exact free
      have stillAwaited : (received other body handoff).2.expected = some tag := by
        rw [left]
        exact awaited
      rw [deeds, List.findSome?_cons, List.filterMap_cons]
      exact nextIH _ (orderly.2 _) stillFree stillAwaited
  | unwind | attempt | abort => cases orderly

/-- The value that a receiver waits for in its body. -/
def awaited? (tag : Tag Kind) (body : Script Content) (handoff : Handoff Content) :
    Option (Item Content) :=
  ((body.deeds (handoff.enter tag)).filterMap Deed.item?).find? fun item => item.tag = tag

theorem slot_run_enter (orderly : body.IsOrderly) {handoff : Handoff Content}
    (free : handoff.slot = none) :
    (body.run (handoff.enter tag)).handoff.slot = awaited? tag body handoff := by
  have free : (handoff.enter tag).slot = none := free
  rw [handoff_run orderly, free, Option.none_or, awaited?,
    findSome?_accepted?_deeds orderly free rfl]

theorem fault_run_enter (orderly : body.IsOrderly) (handoff : Handoff Content) :
    (body.run (handoff.enter tag)).handoff.fault =
      (body.deeds (handoff.enter tag)).foldl Deed.settle handoff.fault := by
  rw [handoff_run orderly]
  rfl

/-- What a receiver gets, by the steps directly in its body. -/
theorem fst_received_of_free (orderly : body.IsOrderly) {handoff : Handoff Content}
    (free : handoff.slot = none) :
    (received tag body handoff).1 =
      Handoff.verdict tag ((body.deeds (handoff.enter tag)).foldl Deed.settle handoff.fault)
        (awaited? tag body handoff) := by
  rw [received, free, Handoff.fst_collect, ← slot_run_enter orderly free,
    ← fault_run_enter orderly handoff]
  rfl

end Script

/-! ## Wares -/

/-- What examples hand over. -/
inductive Ware where
  | number
  | text
  deriving DecidableEq

namespace Ware

abbrev Load : Ware → Type
  | number => Int
  | text => String

abbrev numberTag : Tag Ware := ⟨"number", number⟩

abbrev textTag : Tag Ware := ⟨"text", text⟩

end Ware

end DocumentQuery
