import ChipEight.Execution
import ChipEight.Rom

/-! # The machine

A machine is a state together with an account of the opcodes that it had to skip
because it does not implement them. A step fetches an opcode, carries it out or
skips it, and lets the timers count down.
-/

namespace ChipEight

/-- A machine and its account of skipped opcodes. -/
@[ext]
structure Machine where
  state : State
  /-- How many opcodes were skipped since the machine was last reset. -/
  skipped : Nat
  lastSkipped : Option Opcode

namespace Machine

/-- A machine in some state, with nothing skipped so far. -/
def starting (state : State) : Machine where
  state := state
  skipped := 0
  lastSkipped := none

/-- The machine as it is switched on, with no program. -/
def powerOn : Machine :=
  starting State.powerOn

/-- The machine with a program loaded, before its first step. -/
def loaded (rom : Rom) : Machine :=
  starting (State.starting rom.memory)

/-- The machine after an opcode was fetched from it. The program counter moves past
the opcode first, so that a jump decides where it ends up. -/
def complete (machine : Machine) (op : Opcode) : Machine :=
  match Instruction.decode? op with
  | some instruction =>
    { machine with state := (instruction.execute machine.state.passOpcode).tick }
  | none =>
    { state := machine.state.passOpcode.tick
      skipped := machine.skipped + 1
      lastSkipped := some op }

/-- The machine after one step. It fails only where no opcode can be fetched. -/
def step (machine : Machine) : Except Fault Machine :=
  machine.state.fetch.map machine.complete

/-- Hands out the frame if it is pending, after which it no longer is. -/
def takeFrame (machine : Machine) : Option Frame × Machine :=
  if machine.state.framePending then
    (some machine.state.frame,
      { machine with state := { machine.state with framePending := false } })
  else (none, machine)

/-- The machine with other keys held down. -/
def setKeypad (machine : Machine) (keypad : Keypad) : Machine :=
  { machine with state := { machine.state with keypad := keypad } }

/-- The machine with one key held down or let go, unless it is not on the keypad. -/
def putKey (machine : Machine) (key : UInt8) (held : Bool) : Except Fault Machine :=
  (Key.ofByte key).map fun key => machine.setKeypad (machine.state.keypad.put key held)

end Machine

end ChipEight
