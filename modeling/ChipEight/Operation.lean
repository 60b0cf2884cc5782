import ChipEight.Machine

/-! # Operations on a machine

Everything that can be asked of a machine from outside, as data. A refused
operation leaves the machine as it was.
-/

namespace ChipEight

/-- What can be asked of a machine. -/
inductive Operation
  /-- Put a new machine in its place. -/
  | restart
  | reset
  | load (bytes : Array UInt8)
  | step
  | takeFrame
  | viewFrame
  | press (key : UInt8)
  | release (key : UInt8)
  | setKeys (keypad : Keypad)

/-- What a machine answers. -/
inductive Reply
  | done
  | frame (frame? : Option Frame)
  | refused (fault : Fault)

/-- A machine's reply to an attempt on it, and the machine it leaves: the old one
if the attempt failed. -/
def Machine.answer (machine : Machine) : Except Fault Machine → Reply × Machine
  | .ok next => (.done, next)
  | .error fault => (.refused fault, machine)

namespace Operation

/-- The reply to an operation, and the machine it leaves. -/
def perform : Operation → Machine → Reply × Machine
  | .restart, _ => (.done, .powerOn)
  | .reset, _ => (.done, .powerOn)
  | .load bytes, machine => machine.answer ((Rom.ofBytes bytes).map Machine.loaded)
  | .step, machine => machine.answer machine.step
  | .takeFrame, machine => (.frame machine.takeFrame.1, machine.takeFrame.2)
  | .viewFrame, machine => (.frame (some machine.state.frame), machine)
  | .press key, machine => machine.answer (machine.putKey key true)
  | .release key, machine => machine.answer (machine.putKey key false)
  | .setKeys keypad, machine => (.done, machine.setKeypad keypad)

/-- The machine left by a list of operations, carried out from the first on. -/
def performAll (operations : List Operation) (machine : Machine) : Machine :=
  operations.foldl (fun current operation => (operation.perform current).2) machine

@[simp] theorem performAll_nil (machine : Machine) : performAll [] machine = machine := rfl

@[simp] theorem performAll_cons (operation : Operation) (rest : List Operation)
    (machine : Machine) :
    performAll (operation :: rest) machine = performAll rest (operation.perform machine).2 := rfl

theorem performAll_append (first second : List Operation) (machine : Machine) :
    performAll (first ++ second) machine = performAll second (performAll first machine) :=
  List.foldl_append

/-- A refused operation leaves the machine as it was. -/
theorem perform_of_refused {operation : Operation} {machine : Machine} {fault : Fault}
    (refused : (operation.perform machine).1 = .refused fault) :
    (operation.perform machine).2 = machine := by
  have attempted (outcome : Except Fault Machine)
      (refused : (machine.answer outcome).1 = .refused fault) :
      (machine.answer outcome).2 = machine := by
    cases outcome with
    | ok next => cases refused
    | error fault => rfl
  cases operation with
  | restart => cases refused
  | reset => cases refused
  | load bytes => exact attempted _ refused
  | step => exact attempted _ refused
  | takeFrame => cases refused
  | viewFrame => rfl
  | press key => exact attempted _ refused
  | release key => exact attempted _ refused
  | setKeys keypad => cases refused

end Operation

end ChipEight
