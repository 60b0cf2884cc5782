import ChipEight.Opcode

/-! # Instructions

The machine implements six instructions. Every other opcode decodes to nothing;
what to do about those is left to the machine.
-/

namespace ChipEight

/-- An instruction that the machine carries out. -/
inductive Instruction
  | clear
  | jump (target : Address)
  | load (register : Register) (value : UInt8)
  | add (register : Register) (value : UInt8)
  | setIndex (target : Address)
  /-- Draw the sprite of `height` rows that the index register points to, its
  upper left corner at the coordinates held by two registers. -/
  | draw (left top : Register) (height : Fin 16)
deriving DecidableEq

namespace Instruction

/-- The instruction an opcode stands for, if it is implemented. The family
decides, except that in family 0 only the word `00E0` is implemented. -/
def decode? (op : Opcode) : Option Instruction :=
  match op.family with
  | 0x0 => if op.word = 0x00E0 then some .clear else none
  | 0x1 => some (.jump op.address)
  | 0x6 => some (.load op.x op.kk)
  | 0x7 => some (.add op.x op.kk)
  | 0xA => some (.setIndex op.address)
  | 0xD => some (.draw op.x op.y op.n)
  | _ => none

end Instruction

namespace Opcode

/-- Whether an opcode stands for an instruction. -/
def isImplemented (op : Opcode) : Bool :=
  (Instruction.decode? op).isSome

end Opcode

end ChipEight
