import ChipEight.Proofs.Covering
import ChipEight.Proofs.Holding
import ChipEight.Proofs.Hosting

/-! # Parts that do not interfere

The flag register, the timers, the keypad and the pending frame have no influence on what a
machine does. The flag is the delicate one, for a draw may take a coordinate from it; but a
draw resets it first (`Machine.Agrees.sprite`). So machines that agree in their other parts
go on agreeing, however their hosts interrupt them, and agree in the flag too once a draw or
a load has set it (`Machine.hidden_parts_do_not_interfere`). Runs that hold other keys down
give the same report.
-/

namespace ChipEight

/-- Whether an opcode sets the flag register whatever it held: a draw does, and a load of
this register. -/
def Opcode.FixesFlag (op : Opcode) : Prop :=
  op.family.val = 0xD ∨ op.family.val = 0x6 ∧ op.x = State.flagRegister

namespace Machine

/-- Two machines agree if they differ at most in the flag register, the timers, the keypad,
the pending frame, and the account of skipped opcodes. -/
structure Agrees (first second : Machine) : Prop where
  memory : first.state.memory = second.state.memory
  pc : first.state.pc = second.state.pc
  index : first.state.index = second.state.index
  registers : ∀ register, register ≠ State.flagRegister →
    first.state.register register = second.state.register register
  frame : first.state.frame = second.state.frame

variable {first second : Machine}

/-- Whether machines agree does not depend on their hidden parts. -/
theorem agrees_detached_iff : first.detached.Agrees second.detached ↔ first.Agrees second :=
  ⟨fun agree => ⟨agree.memory, agree.pc, agree.index, agree.registers, agree.frame⟩,
    fun agree => ⟨agree.memory, agree.pc, agree.index, agree.registers, agree.frame⟩⟩

namespace Agrees

/-- Machines that agree take the same course. -/
theorem control (agree : first.Agrees second) : first.control = second.control :=
  Control.ext agree.memory agree.pc

/-- Machines that agree draw the same sprites, also at the coordinate that the flag register
stands for. -/
theorem sprite (agree : first.Agrees second) (left top : Register) (height : Nat) :
    first.state.sprite left top height = second.state.sprite left top height := by
  have coordinate (register : Register) :
      first.state.coordinate register = second.state.coordinate register := by
    unfold State.coordinate
    split
    · rfl
    · next general => exact agree.registers register general
  simp only [State.sprite, State.register_resetFlag, coordinate, agree.memory, agree.index]

/-- Machines that agree still do after the same opcode. -/
theorem complete (agree : first.Agrees second) (op : Opcode) :
    (first.complete op).Agrees (second.complete op) where
  memory := by rw [memory_complete, memory_complete, agree.memory]
  pc := by rw [pc_complete, pc_complete, agree.pc]
  index := by rw [index_complete, index_complete, agree.index]
  registers := by
    intro register general
    simp only [register_complete, agree.registers register general, Ne.symm general, and_false,
      ↓reduceIte]
  frame := by simp only [frame_complete, agree.sprite, agree.frame]

/-- An opcode that fixes the flag makes the flags the same, and every other one keeps them
so. -/
theorem flag_complete (agree : first.Agrees second) {op : Opcode}
    (fixed : op.FixesFlag ∨
      first.state.register State.flagRegister = second.state.register State.flagRegister) :
    (first.complete op).state.register State.flagRegister =
      (second.complete op).state.register State.flagRegister := by
  simp only [register_complete, agree.sprite, agree.frame]
  rcases fixed with (draws | ⟨loads, flag⟩) | same
  · have family : op.family = 0xD := Fin.ext draws
    simp only [family, Fin.reduceEq, false_and, true_and, ↓reduceIte]
  · have family : op.family = 0x6 := Fin.ext loads
    simp only [family, flag, true_and, ↓reduceIte]
  · simp only [same]

/-- Machines that agree do so after any number of steps, and in the flag register too if it
was fixed meanwhile or was the same from the start. -/
theorem run (agree : first.Agrees second) (steps : Nat) :
    (repeatUpTo step steps first).1.Agrees (repeatUpTo step steps second).1 ∧
      ((∃ op ∈ first.opcodes steps, op.FixesFlag) ∨
          first.state.register State.flagRegister = second.state.register State.flagRegister →
        (repeatUpTo step steps first).1.state.register State.flagRegister =
          (repeatUpTo step steps second).1.state.register State.flagRegister) := by
  induction steps generalizing first second with
  | zero =>
      refine ⟨agree, ?_⟩
      rintro (⟨op, member, _⟩ | same)
      · cases member
      · exact same
  | succ steps ih =>
      have fetches := fetch_of_control agree.control
      cases fetched : first.state.fetch with
      | ok op =>
          obtain ⟨agreeing, flags⟩ := ih (agree.complete op)
          rw [repeatUpTo_succ_of_ok (step_eq_ok_iff.mpr ⟨op, fetched, rfl⟩),
            repeatUpTo_succ_of_ok (step_eq_ok_iff.mpr ⟨op, fetches ▸ fetched, rfl⟩),
            opcodes_succ_of_fetch fetched]
          refine ⟨agreeing, ?_⟩
          rintro (⟨fixing, member, fixes⟩ | same)
          · rcases List.mem_cons.mp member with rfl | later
            · exact flags (.inr (agree.flag_complete (.inl fixes)))
            · exact flags (.inl ⟨fixing, later, fixes⟩)
          · exact flags (.inr (agree.flag_complete (.inr same)))
      | error fault =>
          rw [fst_repeatUpTo_of_error (step_eq_error_iff.mpr fetched),
            fst_repeatUpTo_of_error (step_eq_error_iff.mpr (fetches ▸ fetched)),
            opcodes_of_fetch_error fetched]
          refine ⟨agree, ?_⟩
          rintro (⟨op, member, _⟩ | same)
          · cases member
          · exact same

end Agrees

end Machine

namespace Operation

open Machine

/-- Histories that install no program and attempt equally many steps keep machines in
agreement, however else they differ. -/
theorem agrees_performAll {first second : Machine} (agree : first.Agrees second)
    {firstOperations secondOperations : List Operation}
    (firstInstalls : ∀ operation ∈ firstOperations, operation.installs = false)
    (secondInstalls : ∀ operation ∈ secondOperations, operation.installs = false)
    (steps : stepCount firstOperations = stepCount secondOperations) :
    (performAll firstOperations first).Agrees (performAll secondOperations second) := by
  obtain ⟨firstReaches, _⟩ := performAll_of_not_installs firstInstalls first
  obtain ⟨secondReaches, _⟩ := performAll_of_not_installs secondInstalls second
  rw [← agrees_detached_iff, firstReaches, secondReaches, agrees_detached_iff, steps]
  exact (agree.run _).1

/-- A history that installs no program lets the account of skipped opcodes grow by those of
the executed opcodes that are not implemented. -/
theorem hasSkipped_performAll {operations : List Operation}
    (installs : ∀ operation ∈ operations, operation.installs = false) (machine : Machine) :
    (performAll operations machine).HasSkipped machine
      ((opcodes operations machine).filter fun op => !op.isImplemented) := by
  obtain ⟨reaches, executes⟩ := performAll_of_not_installs installs machine
  obtain ⟨count, last⟩ := machine.hasSkipped_repeatUpTo (stepCount operations)
  rw [executes]
  exact ⟨(congrArg Machine.skipped reaches).trans count,
    (congrArg Machine.lastSkipped reaches).trans last⟩

end Operation

namespace Machine

/-- **Hidden parts do not interfere.** Let two machines differ at most in the flag register,
the timers, the keypad, the pending frame, and their accounts of skipped opcodes, and let them
go through histories that install no program and attempt equally many steps, whatever the
hosts ask for in between. Then they still agree in all the other parts, and the next step
fails on both for the same reason or on neither. They have executed the same opcodes, so that
the same ones were added to both accounts, and they agree in the flag register too if one of
those opcodes fixes it. Hence runs that differ in the keys held down give the same report, be
it that neither ever does. -/
theorem hidden_parts_do_not_interfere :
    (∀ (first second : Machine) (firstOperations secondOperations : List Operation),
      first.Agrees second →
      (∀ operation ∈ firstOperations, operation.installs = false) →
      (∀ operation ∈ secondOperations, operation.installs = false) →
      Operation.stepCount firstOperations = Operation.stepCount secondOperations →
        let firstNow := Operation.performAll firstOperations first
        let secondNow := Operation.performAll secondOperations second
        let executed := Operation.opcodes firstOperations first
        let skips := executed.filter fun op => !op.isImplemented
        firstNow.Agrees secondNow ∧
          (∀ fault, firstNow.step = .error fault ↔ secondNow.step = .error fault) ∧
          Operation.opcodes secondOperations second = executed ∧
          firstNow.HasSkipped first skips ∧
          secondNow.HasSkipped second skips ∧
          ((∃ op ∈ executed, op.FixesFlag) →
            firstNow.state.register State.flagRegister =
              secondNow.state.register State.flagRegister)) ∧
    ∀ (options : Options) (firstHold secondHold : String) (firstKeypad secondKeypad : Keypad)
      (file : FileContents) (threshold : Option Level),
      Keypad.holding firstHold = .ok firstKeypad → Keypad.holding secondHold = .ok secondKeypad →
        { options with hold := firstHold }.report? file threshold =
          { options with hold := secondHold }.report? file threshold := by
  refine ⟨?machines, ?runs⟩
  case machines =>
    intro first second firstOperations secondOperations agree firstInstalls secondInstalls steps
      firstNow secondNow executed skips
    have agreeing : firstNow.Agrees secondNow :=
      Operation.agrees_performAll agree firstInstalls secondInstalls steps
    obtain ⟨firstReaches, firstExecutes⟩ := Operation.performAll_of_not_installs firstInstalls first
    obtain ⟨secondReaches, secondExecutes⟩ :=
      Operation.performAll_of_not_installs secondInstalls second
    have same : Operation.opcodes secondOperations second = executed := by
      rw [secondExecutes, ← steps, ← opcodes_of_control agree.control]
      exact firstExecutes.symm
    refine ⟨agreeing, step_eq_error_of_control agreeing.control, same,
      Operation.hasSkipped_performAll firstInstalls first, ?_, fun fixed => ?_⟩
    · have account := Operation.hasSkipped_performAll secondInstalls second
      rw [same] at account
      exact account
    · have flags :=
        (agree.run (Operation.stepCount firstOperations)).2 (.inl (firstExecutes ▸ fixed))
      have flag {now bare : Machine} (reached : now.detached = bare.detached) :
          now.state.register State.flagRegister = bare.state.register State.flagRegister :=
        congrArg (fun machine => machine.state.register State.flagRegister) reached
      rw [flag firstReaches, flag secondReaches, ← steps, flags]
  case runs =>
    intro options firstHold secondHold firstKeypad secondKeypad file threshold first second
    exact Options.report?_of_hold first second file threshold

/-- A program that draws at the flag register, with different flags at the start and hosts
that interrupt it differently. -/
theorem hidden_parts_do_not_interfere_with_a_draw :
    let first := loaded ⟨#[0xA0, 0x05, 0xDF, 0x05, 0x7F, 0x01], by decide⟩
    let second : Machine :=
      { first with
        state :=
          { first.state with
            registers := first.state.registers.set 15 7
            delayTimer := 3
            framePending := true
            keypad := Keypad.released.put 2 true } }
    let firstOperations : List Operation := [.step, .press 3, .step]
    let secondOperations : List Operation :=
      [.takeFrame, .step, .setKeys Keypad.released, .press 0x20, .viewFrame, .step]
    let firstNow := Operation.performAll firstOperations first
    let secondNow := Operation.performAll secondOperations second
    let options : Options := { path := "rom" }
    first.state.register State.flagRegister ≠ second.state.register State.flagRegister ∧
      firstNow.Agrees secondNow ∧
      firstNow.state.register State.flagRegister = secondNow.state.register State.flagRegister ∧
      { options with hold := "" }.report? (.ok #[0x1F, 0xFE]) (some .trace) =
        { options with hold := "qV" }.report? (.ok #[0x1F, 0xFE]) (some .trace) := by
  intro first second firstOperations secondOperations firstNow secondNow options
  have agree : first.Agrees second := ⟨rfl, rfl, rfl, by decide, rfl⟩
  have same := hidden_parts_do_not_interfere.1 first second firstOperations secondOperations agree
    (by decide) (by decide) rfl
  refine ⟨by decide, same.1, same.2.2.2.2.2 ?_, ?_⟩
  · exact ⟨⟨0xDF05⟩, by decide, .inl rfl⟩
  · exact hidden_parts_do_not_interfere.2 options "" "qV" _ _ _ _ rfl rfl

end Machine

end ChipEight
