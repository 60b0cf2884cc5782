import ChipEight.Proofs.Control
import ChipEight.Proofs.Tracing

/-! # Control flow

Two machines with the same memory and the same program counter take the same course,
whatever else they hold: they execute the same opcodes, skip the same ones, and fail in the
same way (`Machine.same_course`).
-/

namespace ChipEight

namespace Machine

variable {first second : Machine}

/-- The memory and the program counter decide what is fetched. -/
theorem fetch_of_control (same : first.control = second.control) :
    first.state.fetch = second.state.fetch := by
  obtain ⟨memory, pc⟩ := Control.mk.inj same
  unfold State.fetch
  rw [memory, pc]

/-- They decide whether a step fails, and how. -/
theorem step_eq_error_of_control (same : first.control = second.control) (fault : Fault) :
    first.step = .error fault ↔ second.step = .error fault := by
  rw [step_eq_error_iff, step_eq_error_iff, fetch_of_control same]

/-- They decide how they go on after an opcode. -/
theorem control_complete (same : first.control = second.control) (op : Opcode) :
    (first.complete op).control = (second.complete op).control := by
  obtain ⟨memory, pc⟩ := Control.mk.inj same
  simp only [control, memory_complete, pc_complete, memory, pc]

/-- Machines with the same control execute the same opcodes. -/
theorem opcodes_of_control (same : first.control = second.control) (steps : Nat) :
    first.opcodes steps = second.opcodes steps := by
  induction steps generalizing first second with
  | zero => rfl
  | succ steps ih =>
      have fetches := fetch_of_control same
      cases fetched : first.state.fetch with
      | ok op =>
          rw [opcodes_succ_of_fetch fetched, opcodes_succ_of_fetch (fetches ▸ fetched),
            ih (control_complete same op)]
      | error fault =>
          rw [opcodes_of_fetch_error fetched, opcodes_of_fetch_error (fetches ▸ fetched)]

/-- So they decide the whole course of a run, by induction over its steps. -/
theorem control_repeatUpTo (same : first.control = second.control) (steps : Nat) :
    (repeatUpTo step steps first).1.control = (repeatUpTo step steps second).1.control := by
  have firstSeen := repeatUpTo_map control map_control_step steps first
  have secondSeen := repeatUpTo_map control map_control_step steps second
  rw [same, secondSeen] at firstSeen
  exact (congrArg Prod.fst firstSeen).symm

/-- No step writes to the memory. -/
theorem memory_repeatUpTo (machine : Machine) (steps : Nat) :
    (repeatUpTo step steps machine).1.state.memory = machine.state.memory := by
  have kept := machine.control.memory_repeatUpTo steps
  rw [repeatUpTo_map control map_control_step] at kept
  exact kept

/-- **Control flow depends on memory and program counter alone.** Take two machines with the
same memory and the same program counter, but with anything else in their other parts, and
let each of them attempt a number of steps. They stand at the same program counter, where they
fetch the same opcode or fail for the same reason, and so does the next step. They have
executed the same opcodes, so that the same ones were added to both accounts of skipped
opcodes, and both memories are what they were. -/
theorem same_course (first second : Machine)
    (memory : first.state.memory = second.state.memory) (pc : first.state.pc = second.state.pc)
    (steps : Nat) :
    let firstNow := (repeatUpTo step steps first).1
    let secondNow := (repeatUpTo step steps second).1
    firstNow.state.pc = secondNow.state.pc ∧
      firstNow.state.fetch = secondNow.state.fetch ∧
      (∀ fault, firstNow.step = .error fault ↔ secondNow.step = .error fault) ∧
      first.opcodes steps = second.opcodes steps ∧
      firstNow.HasSkipped first (first.skips steps) ∧
      secondNow.HasSkipped second (first.skips steps) ∧
      firstNow.state.memory = first.state.memory ∧
      secondNow.state.memory = second.state.memory := by
  intro firstNow secondNow
  have same : first.control = second.control := Control.ext memory pc
  have sameNow : firstNow.control = secondNow.control := control_repeatUpTo same steps
  have executed := opcodes_of_control same steps
  refine ⟨congrArg Control.pc sameNow, fetch_of_control sameNow, step_eq_error_of_control sameNow,
    executed, first.hasSkipped_repeatUpTo steps, ?_, first.memory_repeatUpTo steps,
    second.memory_repeatUpTo steps⟩
  rw [skips, executed]
  exact second.hasSkipped_repeatUpTo steps

/-- A program that skips an opcode and jumps to the last one, on a fresh machine and on one
that holds other values everywhere else. -/
theorem same_course_on_another_state :
    let first := loaded ⟨#[0x60, 0x05, 0x80, 0x10, 0x1F, 0xFE], by decide⟩
    let second : Machine :=
      { state :=
          { first.state with
            registers := Vector.replicate 16 0xAB
            index := 0xFFFF
            delayTimer := 9
            frame := ⟨Vector.replicate 2048 1⟩
            framePending := true
            keypad := Keypad.released.put 3 true }
        skipped := 41
        lastSkipped := some ⟨0x5120⟩ }
    first.state.memory = second.state.memory ∧ first.state.pc = second.state.pc ∧
      (repeatUpTo step 4 second).1.HasSkipped second [⟨0x8010⟩, ⟨0x0000⟩] ∧
      ((repeatUpTo step 4 second).1.step = .error (.outOfBounds 0x1000)) := by
  intro first second
  have course := same_course first second rfl rfl 4
  have stopped : (repeatUpTo step 4 first).1.step = .error (.outOfBounds 0x1000) :=
    step_eq_error_iff.mpr (State.fetch_eq_error_iff.mpr (by decide))
  have skipped : first.skips 4 = [⟨0x8010⟩, ⟨0x0000⟩] := by decide
  refine ⟨rfl, rfl, ?_, (course.2.2.1 _).mp stopped⟩
  exact skipped ▸ course.2.2.2.2.2.1

end Machine

end ChipEight
