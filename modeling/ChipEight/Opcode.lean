/-! # Opcodes

An instruction of the machine is one sixteen-bit word, stored with its high byte
first. Read from the left its four nibbles are the family and the operands `x`,
`y` and `n`; the operands overlap with the low byte `kk` and the twelve-bit
address.
-/

namespace ChipEight

/-- One of the sixteen registers `V0` to `VF`. -/
abbrev Register := Fin 16

/-- A twelve-bit address, as an instruction can name it. -/
abbrev Address := Fin 4096

/-- A sixteen-bit instruction word. -/
structure Opcode where
  word : UInt16
deriving DecidableEq

namespace Opcode

/-- The opcode stored as two consecutive bytes. -/
def ofBytes (high low : UInt8) : Opcode :=
  ⟨UInt16.ofNat (high.toNat * 256 + low.toNat)⟩

/-- The word as a number. -/
def toNat (op : Opcode) : Nat :=
  op.word.toNat

theorem toNat_lt (op : Opcode) : op.toNat < 65536 :=
  op.word.toNat_lt

/-- The leading nibble, which selects the kind of instruction. -/
def family (op : Opcode) : Fin 16 :=
  ⟨op.toNat / 4096, by have := op.toNat_lt; omega⟩

/-- The second nibble, naming a register. -/
def x (op : Opcode) : Register :=
  ⟨op.toNat / 256 % 16, Nat.mod_lt _ (by decide)⟩

/-- The third nibble, naming a register. -/
def y (op : Opcode) : Register :=
  ⟨op.toNat / 16 % 16, Nat.mod_lt _ (by decide)⟩

/-- The last nibble, a small number. -/
def n (op : Opcode) : Fin 16 :=
  ⟨op.toNat % 16, Nat.mod_lt _ (by decide)⟩

/-- The low byte. -/
def kk (op : Opcode) : UInt8 :=
  UInt8.ofNat op.toNat

/-- The low twelve bits. -/
def address (op : Opcode) : Address :=
  ⟨op.toNat % 4096, Nat.mod_lt _ (by decide)⟩

/-- The four nibbles, the leading one first. -/
def nibbles (op : Opcode) : List (Fin 16) :=
  [op.family, op.x, op.y, op.n]

end Opcode

end ChipEight
