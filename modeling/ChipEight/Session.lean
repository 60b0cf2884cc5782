import ChipEight.Journal
import ChipEight.Repetition

/-! # Sessions

A session is a machine with the journal of what was done to it and the number of
steps it has run.
-/

namespace ChipEight

/-- A machine at work. -/
structure Session where
  machine : Machine
  journal : Journal
  /-- How many steps have succeeded. -/
  steps : Nat

namespace Session

/-- A session with a given machine in which nothing has happened yet. -/
def opening (machine : Machine) (threshold : Option Level) : Session :=
  ⟨machine, .empty threshold, 0⟩

/-- The session with one more event recorded. -/
def record (session : Session) (event : Event) : Session :=
  { session with journal := session.journal.record event }

/-- Performs an operation on the machine and records what it tells. -/
def perform (session : Session) (operation : Operation) : Reply × Session :=
  let (reply, machine) := operation.perform session.machine
  (reply,
    { session with
      machine := machine
      journal := session.journal.recordAll (operation.events session.machine) })

/-- Makes one step of the machine, counts it and records what it tells. A step that
fails tells nothing. -/
def step (session : Session) : Except Fault Session :=
  match session.machine.step with
  | .ok machine => .ok
    { machine := machine
      journal := session.journal.recordAll session.machine.stepEvents
      steps := session.steps + 1 }
  | .error fault => .error fault

/-- The session after its frame was taken, if it was pending. -/
def collectFrame (session : Session) : Session :=
  match session.machine.takeFrame with
  | (some frame, machine) =>
    { session with machine := machine }.record (.frameTaken session.steps frame.litCount)
  | (none, machine) => { session with machine := machine }

/-- The session after one cycle: a step, and then the frame is taken. -/
def cycle (session : Session) : Except Fault Session :=
  session.step.map collectFrame

end Session

end ChipEight
