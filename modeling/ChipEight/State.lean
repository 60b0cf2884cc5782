import ChipEight.Font
import ChipEight.Frame
import ChipEight.Keypad

/-! # The state of the machine

Registers, timers, memory, display and keypad.
-/

namespace ChipEight

/-- The state that instructions work on. -/
@[ext]
structure State where
  registers : Vector UInt8 16
  index : UInt16
  pc : UInt16
  delayTimer : UInt8
  soundTimer : UInt8
  memory : Memory
  frame : Frame
  /-- Whether the frame was drawn on or cleared since it was last taken. -/
  framePending : Bool
  keypad : Keypad

namespace State

/-- The state of a machine with a given memory that has not run yet. -/
def starting (memory : Memory) : State where
  registers := Vector.replicate 16 0
  index := 0
  pc := UInt16.ofNat Memory.programStart
  delayTimer := 0
  soundTimer := 0
  memory := memory
  frame := Frame.blank
  framePending := false
  keypad := Keypad.released

/-- The state in which a machine is switched on. -/
def powerOn : State :=
  starting Memory.powerOn

/-- What a register holds. -/
def register (state : State) (register : Register) : UInt8 :=
  state.registers[register]

/-- The state with another value in a register. -/
def setRegister (state : State) (register : Register) (value : UInt8) : State :=
  { state with registers := state.registers.set register value }

/-- The register `VF`, which tells about collisions. -/
def flagRegister : Register := ⟨0xF, by decide⟩

/-- A timer one step later. It stops at zero. -/
def countDown (timer : UInt8) : UInt8 :=
  if timer = 0 then 0 else timer - 1

/-- The state after both timers have counted down. -/
def tick (state : State) : State :=
  { state with
    delayTimer := countDown state.delayTimer
    soundTimer := countDown state.soundTimer }

/-- The opcode at the program counter. It has to lie inside the memory with both
bytes; the address of the first byte outside is refused. -/
def fetch (state : State) : Except Fault Opcode :=
  match state.memory.opcode? state.pc.toNat with
  | some op => .ok op
  | none => .error (.outOfBounds (max state.pc.toNat Memory.size))

/-- The state with the program counter moved past an opcode. -/
def passOpcode (state : State) : State :=
  { state with pc := state.pc + 2 }

/-- A value that is stored in a register is found there, and the others keep theirs. -/
theorem register_setRegister (state : State) (target other : Register) (value : UInt8) :
    (state.setRegister target value).register other =
      if target = other then value else state.register other := by
  simp only [register, setRegister, Fin.getElem_fin, Vector.getElem_set, Fin.ext_iff]

theorem registers_eq_of_register_eq {first second : State}
    (same : ∀ register, first.register register = second.register register) :
    first.registers = second.registers :=
  Vector.ext fun number inside => same ⟨number, inside⟩

/-- A timer counts down by one and stops at zero. -/
theorem toNat_countDown (timer : UInt8) : (countDown timer).toNat = timer.toNat - 1 := by
  unfold countDown
  split
  · next zero => rw [zero]; rfl
  · next nonzero =>
      have positive : timer.toNat ≠ 0 := fun zero => nonzero (UInt8.toNat_inj.mp zero)
      have one : (1 : UInt8).toNat = 1 := rfl
      rw [UInt8.toNat_sub_of_le timer 1 (UInt8.le_iff_toNat_le.mpr (by omega)), one]

end State

end ChipEight
