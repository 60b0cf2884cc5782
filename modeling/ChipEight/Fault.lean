import ChipEight.Hexadecimal

/-! # Faults

What the machine can refuse, and the text in which it says so.
-/

namespace ChipEight

/-- Why the machine refuses an operation. -/
inductive Fault
  | romTooLarge (size limit : Nat)
  | outOfBounds (address : Nat)
  | invalidKey (key : UInt8)
deriving DecidableEq

/-- The text of a fault. Sizes are written in decimal, addresses with at least
three and keys with at least two hexadecimal digits. -/
def Fault.message : Fault → String
  | .romTooLarge size limit =>
    "ROM is too large (" ++ toString size ++ " bytes), max size is " ++ toString limit ++ " bytes"
  | .outOfBounds address =>
    "memory access out of bounds at address 0x" ++ hexadecimal 3 address
  | .invalidKey key =>
    "key 0x" ++ hexadecimal 2 key.toNat ++ " is not on the keypad (expected 0x0..0xF)"

end ChipEight
