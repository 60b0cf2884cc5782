import ChipEight.Proofs.Stepping
import ChipEight.Repetition

/-! # Traces

The steps of a run that succeed are told by the opcodes they executed, each together with
the state it found. Whatever a record of them is meant to say about the machine holds after
every run if each of them keeps it (`Machine.run_keeps`). So the account of skipped opcodes
grows by those among them that are not implemented (`Machine.hasSkipped_repeatUpTo`).
-/

namespace ChipEight

/-- An opcode that a step executed. -/
structure Execution where
  state : State
  op : Opcode

namespace Machine

/-- What a number of steps executes, from the first on; nothing more once a step fails. -/
def executions (machine : Machine) : Nat → List Execution
  | 0 => []
  | steps + 1 =>
    match machine.state.fetch with
    | .ok op => ⟨machine.state, op⟩ :: (machine.complete op).executions steps
    | .error _ => []

/-- A record kept along the executions of a run stays true of the machine if every one of
them keeps it so. -/
theorem run_keeps {Record : Type} (record : Record → Execution → Record)
    (Holds : Record → Machine → Prop)
    (keeps : ∀ noted machine op, machine.state.fetch = .ok op → Holds noted machine →
      Holds (record noted ⟨machine.state, op⟩) (machine.complete op))
    (steps : Nat) {noted : Record} {machine : Machine} (initially : Holds noted machine) :
    Holds ((machine.executions steps).foldl record noted) (repeatUpTo step steps machine).1 := by
  induction steps generalizing noted machine with
  | zero => exact initially
  | succ steps ih =>
      cases fetched : machine.state.fetch with
      | ok op =>
          rw [repeatUpTo_succ_of_ok (step_eq_ok_iff.mpr ⟨op, fetched, rfl⟩)]
          simp only [executions, fetched, List.foldl_cons]
          exact ih (keeps noted machine op fetched initially)
      | error fault =>
          rw [repeatUpTo_succ_of_error (step_eq_error_iff.mpr fetched)]
          simp only [executions, fetched, List.foldl_nil]
          exact initially

/-- Every step that succeeds executes one opcode. -/
theorem length_executions {machine last : Machine} {steps : Nat}
    (successes : repeatUpTo step steps machine = (last, none)) :
    (machine.executions steps).length = steps := by
  induction steps generalizing machine with
  | zero => rfl
  | succ steps ih =>
      cases fetched : machine.state.fetch with
      | ok op =>
          rw [repeatUpTo_succ_of_ok (step_eq_ok_iff.mpr ⟨op, fetched, rfl⟩)] at successes
          simp only [executions, fetched, List.length_cons, ih successes]
      | error fault =>
          rw [repeatUpTo_succ_of_error (step_eq_error_iff.mpr fetched)] at successes
          cases successes

/-- The executions of a run in which every step succeeds are those of its machines, one step after
the other. -/
theorem getElem?_executions {machine last : Machine} {steps number : Nat}
    (successes : repeatUpTo step steps machine = (last, none)) (below : number < steps) :
    ∃ op, (repeatUpTo step number machine).1.state.fetch = .ok op ∧
      (machine.executions steps)[number]? =
        some ⟨(repeatUpTo step number machine).1.state, op⟩ := by
  induction steps generalizing machine number with
  | zero => exact absurd below (Nat.not_lt_zero number)
  | succ steps ih =>
      cases fetched : machine.state.fetch with
      | error fault =>
          rw [repeatUpTo_succ_of_error (step_eq_error_iff.mpr fetched)] at successes
          cases successes
      | ok op =>
          have success := step_eq_ok_iff.mpr ⟨op, fetched, rfl⟩
          rw [repeatUpTo_succ_of_ok success] at successes
          simp only [executions, fetched]
          cases number with
          | zero => exact ⟨op, fetched, rfl⟩
          | succ number =>
              rw [repeatUpTo_succ_of_ok success, List.getElem?_cons_succ]
              exact ih successes (Nat.lt_of_succ_lt_succ below)

/-! ## The opcodes of a run -/

/-- The opcodes that a number of steps executes. -/
def opcodes (machine : Machine) (steps : Nat) : List Opcode :=
  (machine.executions steps).map Execution.op

/-- Those of the executed opcodes that are skipped. -/
def skips (machine : Machine) (steps : Nat) : List Opcode :=
  (machine.opcodes steps).filter fun op => !op.isImplemented

/-- The account of a machine is that of an earlier one, with some more opcodes skipped. -/
structure HasSkipped (machine earlier : Machine) (skips : List Opcode) : Prop where
  count : machine.skipped = earlier.skipped + skips.length
  last : machine.lastSkipped = skips.getLast?.or earlier.lastSkipped

/-- The opcodes of a run start with the one that is fetched first. -/
theorem opcodes_succ_of_fetch {machine : Machine} {op : Opcode}
    (fetched : machine.state.fetch = .ok op) (steps : Nat) :
    machine.opcodes (steps + 1) = op :: (machine.complete op).opcodes steps := by
  simp only [opcodes, executions, fetched, List.map_cons]

/-- A machine that has halted executes none. -/
theorem opcodes_of_fetch_error {machine : Machine} {fault : Fault}
    (failed : machine.state.fetch = .error fault) (steps : Nat) : machine.opcodes steps = [] := by
  cases steps with
  | zero => rfl
  | succ steps => simp only [opcodes, executions, failed, List.map_nil]

/-- An opcode that is completed first comes first among the skipped ones, if it is not
implemented. -/
theorem HasSkipped.of_complete {machine later : Machine} {op : Opcode} {skips : List Opcode}
    (account : later.HasSkipped (machine.complete op) skips) :
    later.HasSkipped machine (if op.isImplemented then skips else op :: skips) := by
  obtain ⟨count, last⟩ := account
  rw [skipped_complete] at count
  rw [lastSkipped_complete] at last
  cases implemented : op.isImplemented with
  | true =>
      simp only [implemented, ↓reduceIte] at count last ⊢
      exact ⟨count, last⟩
  | false =>
      simp only [implemented, Bool.false_eq_true, ↓reduceIte] at count last ⊢
      constructor
      · rw [count, List.length_cons]
        omega
      · rw [last, List.getLast?_cons]
        cases skips.getLast? <;> rfl

/-- An opcode that is completed last comes last among the skipped ones, if it is not
implemented. -/
theorem HasSkipped.complete {machine earlier : Machine} {skips : List Opcode}
    (account : machine.HasSkipped earlier skips) (op : Opcode) :
    (machine.complete op).HasSkipped earlier (skips ++ if op.isImplemented then [] else [op]) := by
  obtain ⟨count, last⟩ := account
  cases implemented : op.isImplemented with
  | true =>
      simp only [↓reduceIte, List.append_nil]
      constructor
      · rw [skipped_complete, if_pos implemented, count]
      · rw [lastSkipped_complete, if_pos implemented, last]
  | false =>
      have skipped : ¬op.isImplemented = true := Bool.not_eq_true _ ▸ implemented
      simp only [Bool.false_eq_true, ↓reduceIte]
      constructor
      · rw [skipped_complete, if_neg skipped, count, List.length_append, List.length_singleton,
          Nat.add_assoc]
      · rw [lastSkipped_complete, if_neg skipped, List.getLast?_concat, Option.some_or]

/-- The account of skipped opcodes is right after every run. -/
theorem hasSkipped_repeatUpTo (machine : Machine) (steps : Nat) :
    (repeatUpTo step steps machine).1.HasSkipped machine (machine.skips steps) := by
  induction steps generalizing machine with
  | zero => exact ⟨rfl, rfl⟩
  | succ steps ih =>
      cases fetched : machine.state.fetch with
      | error fault =>
          rw [repeatUpTo_succ_of_error (step_eq_error_iff.mpr fetched), skips,
            opcodes_of_fetch_error fetched]
          exact ⟨rfl, rfl⟩
      | ok op =>
          rw [repeatUpTo_succ_of_ok (step_eq_ok_iff.mpr ⟨op, fetched, rfl⟩)]
          have account := (ih (machine.complete op)).of_complete
          cases implemented : op.isImplemented <;>
            simpa only [skips, opcodes_succ_of_fetch fetched, List.filter_cons, implemented,
              Bool.not_true, Bool.not_false, Bool.false_eq_true, ↓reduceIte] using account

end Machine

end ChipEight
