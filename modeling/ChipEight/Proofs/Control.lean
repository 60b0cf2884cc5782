import ChipEight.Proofs.Stepping
import ChipEight.Run
import Mathlib.Data.Fintype.Card

/-! # Control

Which opcodes a machine fetches, and whether it can fetch one at all, depends on its
memory and its program counter alone: no instruction writes the memory or branches on
anything else. Both the steps of a machine and the cycles of a session are seen as steps
of this control (`Machine.map_control_step`, `Session.map_control_cycle`).

A run that ends is at a different program counter before each of its steps, for otherwise
it would go round for ever. There are 4095 program counters at which an opcode can be
fetched, so a run ends within as many steps or never (`Control.successes_le`), and a run
without a limit ends exactly if it does within 4096 cycles
(`Session.runToFault?_eq_some_iff`).
-/

namespace ChipEight

/-- What decides about the course of a run. -/
@[ext]
structure Control where
  memory : Memory
  pc : UInt16

namespace Control

/-- The course of a run after one more step. -/
def step (control : Control) : Except Fault Control :=
  match control.memory.opcode? control.pc.toNat with
  | some op => .ok
    { control with
      pc := if op.family.val = 0x1 then UInt16.ofNat op.address.val else control.pc + 2 }
  | none => .error (.outOfBounds (max control.pc.toNat Memory.size))

/-- A step can only be made where both bytes of an opcode lie inside the memory. -/
theorem pc_lt_of_step {control next : Control} (success : control.step = .ok next) :
    control.pc.toNat < 4095 := by
  apply Nat.lt_of_not_le
  intro outside
  have none := (control.memory.opcode?_eq_none_iff control.pc.toNat).mpr (Nat.succ_le_succ outside)
  rw [step, none] at success
  cases success

/-- A step that cannot be made misses a byte outside the memory. -/
theorem exists_address_of_step (control : Control) {fault : Fault}
    (failure : control.step = .error fault) : ∃ address, fault = .outOfBounds address := by
  unfold step at failure
  split at failure
  · cases failure
  · cases failure
    exact ⟨_, rfl⟩

/-- The course of a run never writes to the memory. -/
theorem memory_step {control next : Control} (success : control.step = .ok next) :
    next.memory = control.memory := by
  unfold step at success
  split at success
  · cases success
    rfl
  · cases success

/-- The memory stays the same along the course of a run. -/
theorem memory_repeatUpTo (control : Control) (times : Nat) :
    (repeatUpTo step times control).1.memory = control.memory := by
  induction times generalizing control with
  | zero => rfl
  | succ times ih =>
      cases attempt : control.step with
      | ok next => rw [repeatUpTo_succ_of_ok attempt, ih, memory_step attempt]
      | error fault => rw [repeatUpTo_succ_of_error attempt]

/-- **A run ends within 4095 steps.** Two of the program counters that it steps from
cannot be the same, since the run would have equally many steps left at both. -/
theorem steps_le (control : Control) {steps : Nat} (fails : FailsAfter step control steps) :
    steps ≤ 4095 := by
  have reached (done : Fin steps) :
      ∃ middle, repeatUpTo step done.val control = (middle, none) ∧
        FailsAfter step middle (steps - done.val) := by
    obtain ⟨_, _, made, _⟩ := id fails
    obtain ⟨middle, reaches⟩ := exists_repeatUpTo_of_le made (Nat.le_of_lt done.isLt)
    refine ⟨middle, reaches, FailsAfter.of_add ?_ reaches⟩
    rw [Nat.add_sub_cancel' (Nat.le_of_lt done.isLt)]
    exact fails
  choose middle reaches remaining using reached
  have memory (done : Fin steps) : (middle done).memory = control.memory := by
    have kept := control.memory_repeatUpTo done.val
    rw [reaches] at kept
    exact kept
  have fetches (done : Fin steps) : (middle done).pc.toNat < 4095 := by
    obtain ⟨last, fault, made, failed⟩ := remaining done
    obtain ⟨next, success⟩ := exists_repeatUpTo_of_le made (Nat.sub_pos_of_lt done.isLt)
    cases attempt : (middle done).step with
    | ok after => exact pc_lt_of_step attempt
    | error cause =>
        rw [repeatUpTo_succ_of_error attempt] at success
        cases success
  have injective : Function.Injective fun done : Fin steps =>
      (⟨(middle done).pc.toNat, fetches done⟩ : Fin 4095) := by
    intro first second same
    have samePc : (middle first).pc.toNat = (middle second).pc.toNat :=
      congrArg (fun place : Fin 4095 => place.val) same
    have sameControl : middle first = middle second :=
      Control.ext ((memory first).trans (memory second).symm) (UInt16.toNat_inj.mp samePc)
    have sameRest := (remaining first).unique (sameControl ▸ remaining second)
    apply Fin.ext
    have firstBound := first.isLt
    have secondBound := second.isLt
    omega
  simpa only [Fintype.card_fin] using Fintype.card_le_of_injective _ injective

section Views

variable {α : Type} {action : α → Except Fault α} {view : α → Control}
  (simulates : ∀ current, (action current).map view = (view current).step)

include simulates

/-- Whatever is seen as control fails within 4095 successes. -/
theorem successes_le {current : α} {successes : Nat} (fails : FailsAfter action current successes) :
    successes ≤ 4095 := by
  obtain ⟨last, fault, made, failed⟩ := fails
  refine steps_le (view current) ⟨view last, fault, ?_, ?_⟩
  · rw [repeatUpTo_map view simulates, made]
  · rw [← simulates, failed]
    rfl

/-- Whatever is seen as control can only fail for a byte outside the memory. -/
theorem exists_address_of_failure {current : α} {fault : Fault}
    (failed : action current = .error fault) : ∃ address, fault = .outOfBounds address := by
  apply exists_address_of_step (view current)
  rw [← simulates, failed]
  rfl

/-- If a number of repetitions ends with a fault, then 4096 do, and in the same way. -/
theorem repeatUpTo_eq_fault_of {current last : α} {fault : Fault} {times : Nat}
    (ended : repeatUpTo action times current = (last, some fault)) :
    repeatUpTo action 4096 current = (last, some fault) := by
  obtain ⟨successes, _, made, failed⟩ := repeatUpTo_eq_fault_iff.mp ended
  exact repeatUpTo_eq_fault_iff.mpr
    ⟨successes, Nat.lt_succ_of_le (successes_le simulates ⟨last, fault, made, failed⟩), made, failed⟩

/-- If 4096 repetitions succeed, then so does every number of them. -/
theorem exists_repeatUpTo_of_successes {current last : α}
    (successes : repeatUpTo action 4096 current = (last, none)) (times : Nat) :
    ∃ next, repeatUpTo action times current = (next, none) := by
  cases outcome : repeatUpTo action times current with
  | mk next fault? =>
      cases fault? with
      | none => exact ⟨next, rfl⟩
      | some fault =>
          rw [repeatUpTo_eq_fault_of simulates outcome] at successes
          cases successes

end Views

end Control

namespace Machine

/-- The part of a machine that decides about its course. -/
def control (machine : Machine) : Control :=
  ⟨machine.state.memory, machine.state.pc⟩

/-- The steps of a machine are seen as steps of its control. -/
theorem map_control_step (machine : Machine) : machine.step.map control = machine.control.step := by
  unfold step Control.step State.fetch
  cases found : machine.state.memory.opcode? machine.state.pc.toNat with
  | none =>
      simp only [control, found]
      rfl
  | some op =>
      have jumps : op.family = 0x1 ↔ op.family.val = 0x1 := Fin.ext_iff
      simp only [control, found, Except.map, memory_complete, pc_complete, jumps]

/-- To take a frame does not change the course of a run. -/
theorem control_takeFrame (machine : Machine) : machine.takeFrame.2.control = machine.control := by
  unfold takeFrame
  split <;> rfl

end Machine

namespace Session

/-- A session takes the frame of its machine. -/
theorem machine_collectFrame (session : Session) :
    session.collectFrame.machine = session.machine.takeFrame.2 := by
  unfold collectFrame
  rcases session.machine.takeFrame with ⟨_ | frame, machine⟩ <;> rfl

/-- The cycles of a session are seen as steps of its machine's control. -/
theorem map_control_cycle (session : Session) :
    session.cycle.map (fun session => session.machine.control) = session.machine.control.step := by
  rw [← Machine.map_control_step]
  unfold cycle step
  cases session.machine.step with
  | ok machine =>
      simp only [Except.map, machine_collectFrame, Machine.control_takeFrame]
  | error fault => rfl

/-- A run without a limit ends exactly as the run with a limit of 4096 cycles does that ends
with a fault. -/
theorem runToFault?_eq_some_iff {session last : Session} {fault : Fault} :
    session.runToFault? = some (last, fault) ↔ session.runFor 4096 = (last, some fault) := by
  rw [runToFault?_eq_some_iff_exists]
  constructor
  · rintro ⟨times, ended⟩
    exact Control.repeatUpTo_eq_fault_of map_control_cycle ended
  · exact fun ended => ⟨4096, ended⟩

/-- A fault that ends a run is that of a byte outside the memory. -/
theorem exists_address_of_runFor {session last : Session} {fault : Fault} {limit : Nat}
    (ended : session.runFor limit = (last, some fault)) : ∃ address, fault = .outOfBounds address := by
  obtain ⟨_, _, _, failed⟩ := repeatUpTo_eq_fault_iff.mp ended
  exact Control.exists_address_of_failure map_control_cycle failed

end Session

end ChipEight
