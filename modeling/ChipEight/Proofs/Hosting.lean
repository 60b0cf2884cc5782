import ChipEight.Proofs.ControlFlow
import ChipEight.Proofs.History

/-! # What the host touches

A host presses keys and takes frames while a machine runs. All it changes by that are the
keypad and the pending frame, and no step reads either. So a machine whose host never
installs a program is, up to these two, where it would be after its steps alone, and has
executed the same opcodes (`Operation.performAll_of_not_installs`).
-/

namespace ChipEight

namespace Machine

/-- The machine without what its host touches: no key is held and no frame is pending. -/
def detached (machine : Machine) : Machine :=
  { machine with
    state := { machine.state with framePending := false, keypad := Keypad.released } }

@[simp] theorem detached_setKeypad (machine : Machine) (keypad : Keypad) :
    (machine.setKeypad keypad).detached = machine.detached := rfl

@[simp] theorem detached_takeFrame (machine : Machine) :
    machine.takeFrame.2.detached = machine.detached := by
  unfold takeFrame
  split <;> rfl

/-- A request for a key changes nothing but the keypad. -/
theorem detached_putKey (machine : Machine) (key : UInt8) (held : Bool) :
    (machine.answer (machine.putKey key held)).2.detached = machine.detached := by
  unfold putKey
  cases Key.ofByte key <;> rfl

/-- What an opcode does to the rest does not depend on the keys or on a pending frame. -/
theorem detached_complete (machine : Machine) (op : Opcode) :
    (machine.detached.complete op).detached = (machine.complete op).detached := by
  unfold complete
  cases Instruction.decode? op with
  | none => rfl
  | some instruction => cases instruction <;> rfl

/-- A step of a machine that has no host. -/
def stepDetached (machine : Machine) : Except Fault Machine :=
  machine.step.map detached

theorem map_detached_step (machine : Machine) :
    machine.step.map detached = machine.detached.stepDetached := by
  have fetch : machine.detached.state.fetch = machine.state.fetch := rfl
  unfold stepDetached step
  rw [fetch]
  cases machine.state.fetch with
  | ok op => exact congrArg Except.ok (machine.detached_complete op).symm
  | error fault => rfl

/-- Whatever works on a machine as a step does, but for the host's part, goes where the steps
go, and is ended by the same fault. -/
theorem repeatUpTo_detached {α : Type} {action : α → Except Fault α} (view : α → Machine)
    (simulates : ∀ current,
      (action current).map (fun next => (view next).detached) =
        (view current).detached.stepDetached)
    {current : α} {machine : Machine} (same : (view current).detached = machine.detached)
    (times : Nat) :
    (view (repeatUpTo action times current).1).detached =
        (repeatUpTo step times machine).1.detached ∧
      (repeatUpTo action times current).2 = (repeatUpTo step times machine).2 := by
  have seen := repeatUpTo_map (fun current => (view current).detached) simulates times current
  rw [same, repeatUpTo_map detached map_detached_step times machine] at seen
  exact ⟨(congrArg Prod.fst seen).symm, (congrArg Prod.snd seen).symm⟩

/-- Machines that differ in these alone still do after some steps. -/
theorem detached_repeatUpTo {first second : Machine} (same : first.detached = second.detached)
    (steps : Nat) :
    (repeatUpTo step steps first).1.detached = (repeatUpTo step steps second).1.detached :=
  (repeatUpTo_detached id map_detached_step same steps).1

/-- Whatever is seen of a machine without looking at the host's part is the same in machines that
differ only there. -/
theorem eq_of_detached {α : Type} (view : Machine → α)
    (blind : ∀ machine, view machine.detached = view machine) {first second : Machine}
    (same : first.detached = second.detached) : view first = view second := by
  rw [← blind first, same, blind second]

/-- Neither decides the course of a run. -/
theorem control_of_detached {first second : Machine} (same : first.detached = second.detached) :
    first.control = second.control :=
  eq_of_detached control (fun _ => rfl) same

/-- What the host touches is not in the account of skipped opcodes. -/
theorem HasSkipped.of_detached {machine left earlier : Machine} {skips : List Opcode}
    (account : machine.HasSkipped earlier skips) (same : left.detached = machine.detached) :
    left.HasSkipped earlier skips where
  count := (congrArg Machine.skipped same).trans account.count
  last := (congrArg Machine.lastSkipped same).trans account.last

end Machine

/-- The opcode that a call executes: only a step executes one, if it does not fail. -/
def Call.opcode? (call : Call) : Option Opcode :=
  match call.operation, call.machine.state.fetch with
  | .step, .ok op => some op
  | _, _ => none

namespace Operation

/-- Whether an operation puts a program into the machine: the machine becomes new, is reset,
or loads a program that fits. -/
def installs : Operation → Bool
  | .restart => true
  | .reset => true
  | .load bytes => decide (bytes.size ≤ Rom.maxSize)
  | _ => false

/-- Whether an operation is a step. -/
def isStep : Operation → Bool
  | .step => true
  | _ => false

/-- The number of steps among some operations. -/
def stepCount (operations : List Operation) : Nat :=
  operations.countP isStep

/-- The opcodes that a list of operations executes. -/
def opcodes (operations : List Operation) (machine : Machine) : List Opcode :=
  (calls operations machine).filterMap Call.opcode?

/-- An operation that neither installs a program nor steps changes keys and the pending frame
only. -/
theorem detached_perform {operation : Operation} (installs : operation.installs = false)
    (other : operation.isStep = false) (machine : Machine) :
    (operation.perform machine).2.detached = machine.detached := by
  cases operation with
  | restart => cases installs
  | reset => cases installs
  | load bytes =>
      have large : Rom.maxSize < bytes.size := Nat.lt_of_not_le (of_decide_eq_false installs)
      simp only [perform, Rom.ofBytes_of_lt large, Except.map, Machine.answer]
  | step => cases other
  | takeFrame => exact machine.detached_takeFrame
  | viewFrame => rfl
  | press key => exact machine.detached_putKey key true
  | release key => exact machine.detached_putKey key false
  | setKeys keypad => exact machine.detached_setKeypad keypad

theorem stepCount_cons (operation : Operation) (rest : List Operation) :
    stepCount (operation :: rest) = stepCount rest + if operation.isStep then 1 else 0 :=
  List.countP_cons

theorem eq_step_of_isStep {operation : Operation} (steps : operation.isStep = true) :
    operation = .step := by
  cases operation with
  | step => rfl
  | _ => cases steps

theorem opcode?_of_not_isStep {operation : Operation} (other : operation.isStep = false)
    (machine : Machine) : Call.opcode? ⟨machine, operation⟩ = none := by
  cases operation with
  | step => cases other
  | _ => rfl

theorem opcodes_cons (operation : Operation) (rest : List Operation) (machine : Machine) :
    opcodes (operation :: rest) machine =
      (Call.opcode? ⟨machine, operation⟩).toList ++ opcodes rest (operation.perform machine).2 := by
  simp only [opcodes, calls, List.filterMap_cons]
  cases Call.opcode? ⟨machine, operation⟩ <;> rfl

/-- Attempting a step and then some more is attempting one more, be it that the first fails. -/
theorem repeatUpTo_perform_step (machine : Machine) (steps : Nat) :
    (repeatUpTo Machine.step steps (Operation.step.perform machine).2).1 =
        (repeatUpTo Machine.step (steps + 1) machine).1 ∧
      (Call.opcode? ⟨machine, .step⟩).toList ++ (Operation.step.perform machine).2.opcodes steps =
        machine.opcodes (steps + 1) := by
  cases fetched : machine.state.fetch with
  | ok op =>
      have success : machine.step = .ok (machine.complete op) :=
        Machine.step_eq_ok_iff.mpr ⟨op, fetched, rfl⟩
      rw [repeatUpTo_succ_of_ok success, Machine.opcodes_succ_of_fetch fetched]
      simp only [perform, success, Machine.answer, Call.opcode?, fetched, Option.toList_some,
        List.singleton_append, and_self]
  | error fault =>
      have failure := Machine.step_eq_error_iff.mpr fetched
      rw [fst_repeatUpTo_of_error failure, Machine.opcodes_of_fetch_error fetched]
      simp only [perform, failure, Machine.answer, Call.opcode?, fetched, Option.toList_none,
        List.nil_append, fst_repeatUpTo_of_error failure,
        Machine.opcodes_of_fetch_error fetched, and_self]

/-- A history that installs no program leads, up to what the host touches, where its steps
lead alone, and executes the opcodes that they do. -/
theorem performAll_of_not_installs {operations : List Operation}
    (installs : ∀ operation ∈ operations, operation.installs = false) (machine : Machine) :
    (performAll operations machine).detached =
        (repeatUpTo Machine.step (stepCount operations) machine).1.detached ∧
      opcodes operations machine = machine.opcodes (stepCount operations) := by
  induction operations generalizing machine with
  | nil => exact ⟨rfl, rfl⟩
  | cons operation rest ih =>
      obtain ⟨here, later⟩ := List.forall_mem_cons.mp installs
      obtain ⟨reaches, executes⟩ := ih later (operation.perform machine).2
      rw [performAll_cons, reaches, opcodes_cons, executes]
      cases steps : operation.isStep with
      | false =>
          have same := detached_perform here steps machine
          rw [stepCount_cons, steps, opcode?_of_not_isStep steps]
          exact ⟨Machine.detached_repeatUpTo same _,
            Machine.opcodes_of_control (Machine.control_of_detached same) _⟩
      | true =>
          obtain rfl := eq_step_of_isStep steps
          obtain ⟨reached, executed⟩ := repeatUpTo_perform_step machine (stepCount rest)
          rw [reached, executed, stepCount_cons]
          exact ⟨rfl, rfl⟩

end Operation

end ChipEight
