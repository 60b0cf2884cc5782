import ChipEight.Memory

/-! # The font

The sprites of the sixteen hexadecimal digits, five rows each, lie at the bottom
of the memory.
-/

namespace ChipEight

namespace Font

/-- The rows of each digit's sprite, in the order of the digits. -/
def glyphs : List (List UInt8) :=
  [[0xF0, 0x90, 0x90, 0x90, 0xF0],
   [0x20, 0x60, 0x20, 0x20, 0x70],
   [0xF0, 0x10, 0xF0, 0x80, 0xF0],
   [0xF0, 0x10, 0xF0, 0x10, 0xF0],
   [0x90, 0x90, 0xF0, 0x10, 0x10],
   [0xF0, 0x80, 0xF0, 0x10, 0xF0],
   [0xF0, 0x80, 0xF0, 0x90, 0xF0],
   [0xF0, 0x10, 0x20, 0x40, 0x40],
   [0xF0, 0x90, 0xF0, 0x90, 0xF0],
   [0xF0, 0x90, 0xF0, 0x10, 0xF0],
   [0xF0, 0x90, 0xF0, 0x90, 0x90],
   [0xE0, 0x90, 0xE0, 0x90, 0xE0],
   [0xF0, 0x80, 0x80, 0x80, 0xF0],
   [0xE0, 0x90, 0x90, 0x90, 0xE0],
   [0xF0, 0x80, 0xF0, 0x80, 0xF0],
   [0xF0, 0x80, 0xF0, 0x80, 0x80]]

/-- The font as it lies in memory, one digit after the other. -/
def bytes : Array UInt8 :=
  glyphs.flatten.toArray

/-- Sixteen digits of five rows each. -/
theorem size_bytes : bytes.size = 80 := by decide

end Font

/-- Memory at power-on: the font at the bottom and zeros elsewhere. -/
def Memory.powerOn : Memory :=
  Memory.blank.write 0 Font.bytes

end ChipEight
