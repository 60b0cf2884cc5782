import ChipEight.Operation

/-! # Histories

What a list of operations did to a machine is told by its calls: each operation
together with the machine it found. Whatever a record of the calls is meant to say
about the machine holds after every history if each call keeps it
(`Operation.performAll_keeps`).
-/

namespace ChipEight

/-- An operation carried out on a machine. -/
structure Call where
  machine : Machine
  operation : Operation

namespace Call

/-- What a call answers. -/
def reply (call : Call) : Reply :=
  (call.operation.perform call.machine).1

/-- The machine after a call. -/
def next (call : Call) : Machine :=
  (call.operation.perform call.machine).2

/-- The program in the memory after a call, given the one before: a machine that is new
or reset has none, and a load brings its own if it is not refused. -/
def install (program : Array UInt8) (call : Call) : Array UInt8 :=
  match call.operation, call.reply with
  | .restart, _ => #[]
  | .reset, _ => #[]
  | .load bytes, .done => bytes
  | _, _ => program

end Call

namespace Operation

/-- The calls that a list of operations makes on a machine, from the first on. -/
def calls : List Operation → Machine → List Call
  | [], _ => []
  | operation :: rest, machine => ⟨machine, operation⟩ :: calls rest (operation.perform machine).2

/-- A record kept along the calls stays true of the machine if every call keeps it so. -/
theorem performAll_keeps {Record : Type} (record : Record → Call → Record)
    (Holds : Record → Machine → Prop)
    (keeps : ∀ noted call, Holds noted call.machine → Holds (record noted call) call.next)
    (operations : List Operation) {noted : Record} {machine : Machine}
    (initially : Holds noted machine) :
    Holds ((calls operations machine).foldl record noted) (performAll operations machine) := by
  induction operations generalizing noted machine with
  | nil => exact initially
  | cons operation rest ih => exact ih (keeps noted ⟨machine, operation⟩ initially)

end Operation

end ChipEight
