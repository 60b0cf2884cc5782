import ChipEight.Instruction
import ChipEight.Sprite
import ChipEight.State

/-! # Execution

What each instruction does to the state. An instruction does not move the program
counter past itself and does not run the timers; the machine's step does both.
-/

namespace ChipEight

namespace State

/-- The sprite that a draw instruction draws: the rows at the index register, with
the corner at the coordinates held by two registers. The flag register counts as
zero, since a draw resets it before anything else. -/
def sprite (state : State) (left top : Register) (height : Nat) : Sprite where
  left := (state.setRegister flagRegister 0).register left
  top := (state.setRegister flagRegister 0).register top
  rows := state.memory.read state.index.toNat height

/-- The state after drawing a sprite. The flag register tells whether it covered a
lit pixel. -/
def draw (state : State) (sprite : Sprite) : State :=
  { state.setRegister flagRegister (if sprite.collides state.frame then 1 else 0) with
    frame := sprite.drawOn state.frame
    framePending := true }

end State

/-- The state after carrying out an instruction. -/
def Instruction.execute : Instruction → State → State
  | .clear, state => { state with frame := Frame.blank, framePending := true }
  | .jump target, state => { state with pc := UInt16.ofNat target.val }
  | .load register value, state => state.setRegister register value
  | .add register value, state =>
    state.setRegister register (state.register register + value)
  | .setIndex target, state => { state with index := UInt16.ofNat target.val }
  | .draw left top height, state => state.draw (state.sprite left top height.val)

end ChipEight
