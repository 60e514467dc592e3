import DocumentQuery.Proofs.Handoff.Deeds
import Mathlib.Logic.Relation

/-!
# Order in handing over

A run goes through moments, at each of which some receivers wait inside each other.  What one
step keeps, every run keeps: the innermost receiver is the one that is expected, all that wait
are counted, and a value in the slot is for the innermost one.  A receiver leaves all this as
it found it.
-/

namespace DocumentQuery

variable {Kind : Type} [DecidableEq Kind] {Content : Kind → Type}

/-! ## Moments of a run -/

/-- A moment of a run: the tags of the receivers that wait, from the inside out, the steps to
come in the innermost body, and the handoff. -/
structure Moment {Kind : Type} (Content : Kind → Type) where
  waiting : List (Tag Kind)
  rest : Script Content
  handoff : Handoff Content

namespace Moment

/-- How a run goes on: into the body of a receiver, and past a step. -/
inductive Next : Moment Content → Moment Content → Prop where
  | put {waiting : List (Tag Kind)} {handoff : Handoff Content} (tag : Tag Kind)
      (value : Content tag.kind) (next : Script Content) :
      Next ⟨waiting, .put tag value next, handoff⟩ ⟨waiting, next, handoff.put tag value⟩
  | enter {waiting : List (Tag Kind)} {handoff : Handoff Content} (tag : Tag Kind)
      (body : Script Content) (next : Except Violation (Content tag.kind) → Script Content) :
      handoff.slot = none →
      Next ⟨waiting, .receive tag body next, handoff⟩ ⟨tag :: waiting, body, handoff.enter tag⟩
  | receive {waiting : List (Tag Kind)} {handoff : Handoff Content} (tag : Tag Kind)
      (body : Script Content) (next : Except Violation (Content tag.kind) → Script Content) :
      Next ⟨waiting, .receive tag body next, handoff⟩
        ⟨waiting, next (Script.received tag body handoff).1, (Script.received tag body handoff).2⟩

/-- A run comes from one moment to another. -/
def Reaches : Moment Content → Moment Content → Prop := Relation.ReflTransGen Next

/-- What holds at every moment: the innermost receiver that waits is the one that is expected,
every waiting receiver is counted, and a value in the slot is for the innermost one. -/
structure IsSound (moment : Moment Content) : Prop where
  orderly : moment.rest.IsOrderly
  expected : moment.handoff.expected = moment.waiting.head?
  depth : moment.handoff.depth = moment.waiting.length
  slot : ∀ item, moment.handoff.slot = some item → moment.waiting.head? = some item.tag

theorem IsSound.next {moment later : Moment Content} (sound : moment.IsSound)
    (step : moment.Next later) : later.IsSound := by
  cases step with
  | @put waiting handoff tag value next =>
      refine ⟨sound.orderly, ?_, ?_, ?_⟩
      · exact (handoff.expected_put tag value).trans sound.expected
      · exact (handoff.depth_put tag value).trans sound.depth
      · intro item holds
        rcases Handoff.slot_put_eq_some holds with held | ⟨rfl, awaited⟩
        · exact sound.slot item held
        · exact sound.expected.symm.trans awaited
  | @enter waiting handoff tag body next free =>
      refine ⟨sound.orderly.1, rfl, congrArg Nat.succ sound.depth, ?_⟩
      intro item holds
      cases free.symm.trans holds
  | @receive waiting handoff tag body next =>
      have orderly := sound.orderly.2 (Script.received tag body handoff).1
      cases slot : handoff.slot with
      | some held =>
          rw [Script.received_of_occupied slot] at orderly ⊢
          exact ⟨orderly, sound.expected, sound.depth, sound.slot⟩
      | none =>
          rw [Script.snd_received_of_free slot]
          exact ⟨orderly, sound.expected, sound.depth, sound.slot⟩

theorem IsSound.reaches {moment later : Moment Content} (sound : moment.IsSound)
    (reached : moment.Reaches later) : later.IsSound := by
  induction reached with
  | refl => exact sound
  | tail _ step ih => exact ih.next step

/-- A script on a fresh handoff. -/
def start (script : Script Content) : Moment Content := ⟨[], script, .empty⟩

omit [DecidableEq Kind] in
theorem isSound_start {script : Script Content} (orderly : script.IsOrderly) :
    (start script).IsSound :=
  ⟨orderly, rfl, rfl, nofun⟩

/-- The record of the step that comes next. -/
def Shows (moment : Moment Content) (record : Record Content) : Prop :=
  match moment.rest with
  | .put tag value _ => record = (moment.handoff.put tag value).record (.put tag)
  | .receive tag body _ =>
      record = (Script.received tag body moment.handoff).2.record
        (.received tag (Script.received tag body moment.handoff).1)
  | _ => False

/-- Every step of a run that is recorded is reached. -/
theorem exists_shows_of_mem_records {script : Script Content} (orderly : script.IsOrderly)
    (waiting : List (Tag Kind)) (handoff : Handoff Content) {record : Record Content}
    (member : record ∈ (script.run handoff).records) :
    ∃ moment, Reaches ⟨waiting, script, handoff⟩ moment ∧ moment.Shows record := by
  induction script generalizing waiting handoff with
  | done => cases member
  | put tag value next ih =>
      rw [Script.run, Run.after, List.singleton_append, List.mem_cons] at member
      rcases member with rfl | member
      · exact ⟨_, .refl, rfl⟩
      · rcases ih orderly waiting _ member with ⟨moment, reached, shows⟩
        exact ⟨moment, .head (.put tag value next) reached, shows⟩
  | receive tag body next bodyIH nextIH =>
      rw [Script.run_receive orderly.1, Run.after] at member
      rcases List.mem_append.mp member with member | member
      · rcases List.mem_append.mp member with member | member
        · cases slot : handoff.slot with
          | some held => simp [Handoff.isEmpty, slot] at member
          | none =>
              rw [Handoff.isEmpty, slot] at member
              rcases bodyIH orderly.1 (tag :: waiting) _ member with ⟨moment, reached, shows⟩
              exact ⟨moment, .head (.enter tag body next slot) reached, shows⟩
        · cases List.mem_singleton.mp member
          exact ⟨_, .refl, rfl⟩
      · rcases nextIH _ (orderly.2 _) waiting _ member with ⟨moment, reached, shows⟩
        exact ⟨moment, .head (.receive tag body next) reached, shows⟩
  | unwind | attempt | abort => cases orderly

end Moment

namespace Script

/-- What a receiver does. -/
structure Receives (tag : Tag Kind) (body : Script Content)
    (next : Except Violation (Content tag.kind) → Script Content) (entry : Handoff Content) :
    Prop where
  run_eq : (receive tag body next).run entry =
    ((next (received tag body entry).1).run (received tag body entry).2).after
      ((if entry.isEmpty then (body.run (entry.enter tag)).records else []) ++
        [(received tag body entry).2.record (.received tag (received tag body entry).1)])
  expected : (received tag body entry).2.expected = entry.expected
  depth : (received tag body entry).2.depth = entry.depth
  free : entry.slot = none →
    (received tag body entry).2.slot = none ∧ (received tag body entry).2.fault = none
  occupied : ∀ held, entry.slot = some held →
    received tag body entry = (.error (.occupied tag.name held.tag.name), entry)
  opens : entry.slot = none → ∀ item, (body.run (entry.enter tag)).handoff.slot = some item →
    item.tag = tag ∧ ∃ value, Handoff.open? tag item = .ok value
  first : ∀ value, (received tag body entry).1 = .ok value →
    awaited? tag body entry = some ⟨tag, value⟩

variable {tag : Tag Kind} {body : Script Content}

theorem tag_of_awaited? {entry : Handoff Content} {item : Item Content}
    (found : awaited? tag body entry = some item) : item.tag = tag := by
  simpa using List.find?_some found

theorem frame_received (entry : Handoff Content) :
    (received tag body entry).2.expected = entry.expected ∧
      (received tag body entry).2.depth = entry.depth := by
  cases slot : entry.slot with
  | some held =>
      rw [received_of_occupied slot]
      exact ⟨rfl, rfl⟩
  | none =>
      rw [snd_received_of_free slot]
      exact ⟨rfl, rfl⟩

theorem awaited?_of_received_eq_ok (orderly : body.IsOrderly) {entry : Handoff Content}
    {value : Content tag.kind} (succeeded : (received tag body entry).1 = .ok value) :
    awaited? tag body entry = some ⟨tag, value⟩ := by
  cases slot : entry.slot with
  | some held =>
      rw [received_of_occupied slot] at succeeded
      cases succeeded
  | none =>
      rw [fst_received_of_free orderly slot] at succeeded
      unfold Handoff.verdict at succeeded
      split at succeeded
      next => cases succeeded
      next item noFault found =>
        rcases Handoff.exists_open?_eq_ok (tag_of_awaited? found) with ⟨other, rfl, opened⟩
        rw [opened] at succeeded
        cases succeeded
        exact found
      next => cases succeeded

theorem receives_of_isOrderly (orderly : body.IsOrderly)
    (next : Except Violation (Content tag.kind) → Script Content) (entry : Handoff Content) :
    Receives tag body next entry where
  run_eq := run_receive orderly next entry
  expected := (frame_received entry).1
  depth := (frame_received entry).2
  free := by
    intro free
    rw [snd_received_of_free free]
    exact ⟨free, rfl⟩
  occupied := fun _ occupied => received_of_occupied occupied
  opens := by
    intro free item holds
    rw [slot_run_enter orderly free] at holds
    have same := tag_of_awaited? holds
    rcases Handoff.exists_open?_eq_ok same with ⟨value, _, opened⟩
    exact ⟨same, value, opened⟩
  first := fun _ succeeded => awaited?_of_received_eq_ok orderly succeeded

/-- From any moment of any run, every further run keeps order.  Its moments are sound, its
records show steps that were reached, and each of its receivers leaves the handoff as it is
meant to and gets the first value that was put down for it. -/
theorem run_discipline {setup script : Script Content} (setupOrderly : setup.IsOrderly)
    (orderly : script.IsOrderly) {outer : List (Tag Kind)} {rest : Script Content}
    {handoff : Handoff Content}
    (reachable : (Moment.start setup).Reaches ⟨outer, rest, handoff⟩) :
    (∀ record ∈ (script.run handoff).records,
      ∃ moment, Moment.Reaches ⟨outer, script, handoff⟩ moment ∧ moment.Shows record) ∧
    ∀ moment, Moment.Reaches ⟨outer, script, handoff⟩ moment →
      moment.IsSound ∧
        ∀ tag body next, moment.rest = .receive tag body next →
          Receives tag body next moment.handoff := by
  have before := (Moment.isSound_start setupOrderly).reaches reachable
  have sound : Moment.IsSound ⟨outer, script, handoff⟩ :=
    ⟨orderly, before.expected, before.depth, before.slot⟩
  refine ⟨fun record member => Moment.exists_shows_of_mem_records orderly outer handoff member, ?_⟩
  intro moment reached
  have momentSound := sound.reaches reached
  refine ⟨momentSound, ?_⟩
  intro tag body next isReceiver
  have receiverOrderly := momentSound.orderly
  rw [isReceiver] at receiverOrderly
  exact receives_of_isOrderly receiverOrderly.1 next moment.handoff

end Script

/-! ## A receiver in a hurry -/

namespace Ware

/-- A value that nobody waits for. -/
def stray : Script Load := .put textTag "late" .done

/-- A text is asked for while a number is still in the slot. -/
def hurried : Script Load :=
  .receive numberTag
    (.put numberTag (1 : Int) (.receive textTag (.put textTag "y" .done) fun _ => .done))
    fun _ => .done

/-- The receiver of the text finds the number, which is for the one around it. -/
theorem hurried_discipline :
    stray.IsOrderly ∧ hurried.IsOrderly ∧
      (Moment.start stray).Reaches ⟨[], .done, Handoff.empty.put textTag "late"⟩ ∧
        ∃ moment, Moment.Reaches ⟨[], hurried, Handoff.empty.put textTag "late"⟩ moment ∧
          moment.waiting = [numberTag] ∧ moment.handoff.slot = some ⟨numberTag, (1 : Int)⟩ ∧
            moment.IsSound ∧
              Script.Receives textTag (.put textTag "y" .done) (fun _ => .done) moment.handoff := by
  have strayOrderly : stray.IsOrderly := trivial
  have hurriedOrderly : hurried.IsOrderly := ⟨⟨trivial, fun _ => trivial⟩, fun _ => trivial⟩
  have reachable : (Moment.start stray).Reaches ⟨[], .done, Handoff.empty.put textTag "late"⟩ :=
    .single (.put _ _ _)
  have entered : Moment.Reaches ⟨[], hurried, Handoff.empty.put textTag "late"⟩ _ :=
    .tail (.single (.enter _ _ _ rfl)) (.put _ _ _)
  have kept := (Script.run_discipline strayOrderly hurriedOrderly reachable).2 _ entered
  exact ⟨strayOrderly, hurriedOrderly, reachable, _, entered, rfl, rfl, kept.1, kept.2 _ _ _ rfl⟩

end Ware

end DocumentQuery
