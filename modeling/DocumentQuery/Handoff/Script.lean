import DocumentQuery.Handoff.Basic

/-!
# Scripts of handing over

A script puts values down and receives them from nested scripts.  What follows may
depend on what was received.  A script may also unwind: the receivers around it
are left without a result, until an attempt stops the unwinding.
-/

namespace DocumentQuery

/-- A sequence of steps on a handoff. -/
inductive Script {Kind : Type} (Content : Kind → Type) where
  | done
  | put (tag : Tag Kind) (value : Content tag.kind) (next : Script Content)
  /-- Receive what the body puts down. -/
  | receive (tag : Tag Kind) (body : Script Content)
      (next : Except Violation (Content tag.kind) → Script Content)
  /-- Leave all that surrounds this step, up to an attempt. -/
  | unwind
  /-- Run the body, and go on with whether it unwound. -/
  | attempt (body : Script Content) (next : Bool → Script Content)
  /-- Give up the whole script. -/
  | abort (reason : String)

/-- How a script ends. -/
inductive Ending where
  | finished
  | unwound
  | aborted (reason : String)
  deriving DecidableEq, Repr

/-- What can be seen of a step. -/
inductive Step {Kind : Type} (Content : Kind → Type) where
  | put (tag : Tag Kind)
  | received (tag : Tag Kind) (result : Except Violation (Content tag.kind))
  | caught
  | unwound

/-- A step with the number of waiting receivers and whether the slot is free, right
after it. -/
structure Record {Kind : Type} (Content : Kind → Type) where
  step : Step Content
  depth : Nat
  slotFree : Bool

/-- The end of a script, the handoff it leaves behind, and its steps in order. -/
structure Run {Kind : Type} (Content : Kind → Type) where
  ending : Ending
  handoff : Handoff Content
  records : List (Record Content)

variable {Kind : Type} [DecidableEq Kind] {Content : Kind → Type}

/-- Record a step. -/
def Handoff.record (handoff : Handoff Content) (step : Step Content) : Record Content :=
  ⟨step, handoff.depth, handoff.isEmpty⟩

/-- A run that comes after the given steps. -/
def Run.after (run : Run Content) (records : List (Record Content)) : Run Content :=
  { run with records := records ++ run.records }

namespace Script

/-- Run a script.  The body of a receiver is not run while the slot is occupied. -/
def run : Script Content → Handoff Content → Run Content
  | done, handoff => ⟨.finished, handoff, []⟩
  | put tag value next, handoff =>
      let handoff := handoff.put tag value
      (next.run handoff).after [handoff.record (.put tag)]
  | receive tag body next, handoff =>
      match handoff.slot with
      | some held =>
          let result := .error (.occupied tag.name held.tag.name)
          ((next result).run handoff).after [handoff.record (.received tag result)]
      | none =>
          let inner := body.run (handoff.enter tag)
          let left := inner.handoff.leave handoff.expected
          match inner.ending with
          | .finished =>
              let collected := left.collect tag
              ((next collected.1).run collected.2).after
                (inner.records ++ [collected.2.record (.received tag collected.1)])
          | ending => ⟨ending, left, inner.records⟩
  | unwind, handoff => ⟨.unwound, handoff, []⟩
  | attempt body next, handoff =>
      let inner := body.run handoff
      match inner.ending with
      | .finished => ((next false).run inner.handoff).after inner.records
      | .unwound =>
          ((next true).run inner.handoff).after (inner.records ++ [inner.handoff.record .caught])
      | .aborted reason => ⟨.aborted reason, inner.handoff, inner.records⟩
  | abort reason, handoff => ⟨.aborted reason, handoff, []⟩

/-- The steps of a script that starts with nothing, or the reason for which it was
given up.  An unwinding that nothing stopped is the last step. -/
def report (script : Script Content) : Except String (List (Record Content)) :=
  let run := script.run .empty
  match run.ending with
  | .finished => .ok run.records
  | .unwound => .ok (run.records ++ [run.handoff.record .unwound])
  | .aborted reason => .error reason

end Script

end DocumentQuery
