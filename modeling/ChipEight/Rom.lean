import ChipEight.Fault
import ChipEight.Font

/-! # Programs

A ROM is a program that fits between the start of programs and the end of the
memory. Loading it places it over the power-on memory.
-/

namespace ChipEight

/-- The number of bytes from the start of programs to the end of the memory. -/
def Rom.maxSize : Nat :=
  Memory.size - Memory.programStart

/-- The bytes of a program that fits into the memory. -/
structure Rom where
  bytes : Array UInt8
  fits : bytes.size ≤ Rom.maxSize

namespace Rom

/-- Takes bytes as a program, unless there are too many of them. -/
def ofBytes (bytes : Array UInt8) : Except Fault Rom :=
  if fits : bytes.size ≤ maxSize then .ok ⟨bytes, fits⟩
  else .error (.romTooLarge bytes.size maxSize)

/-- Bytes that fit are taken as they are. -/
theorem ofBytes_of_le {bytes : Array UInt8} (fits : bytes.size ≤ maxSize) :
    ofBytes bytes = .ok ⟨bytes, fits⟩ :=
  dif_pos fits

/-- Too many bytes are refused, and the fault names their number. -/
theorem ofBytes_of_lt {bytes : Array UInt8} (large : maxSize < bytes.size) :
    ofBytes bytes = .error (.romTooLarge bytes.size maxSize) :=
  dif_neg (Nat.not_le.mpr large)

/-- The memory that a machine is switched on with, and a program in its place. -/
def memory (rom : Rom) : Memory :=
  Memory.powerOn.write Memory.programStart rom.bytes

end Rom

end ChipEight
