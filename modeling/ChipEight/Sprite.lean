import ChipEight.Frame

/-! # Sprites

A sprite is a picture of eight columns, one byte a row with the leftmost pixel in
the highest bit. Placed on the display it wraps around the edges.
-/

namespace ChipEight

/-- A sprite and the place of its upper left corner. -/
structure Sprite where
  /-- The distance of the corner from the left edge, before wrapping. -/
  left : UInt8
  /-- The distance of the corner from the upper edge, before wrapping. -/
  top : UInt8
  rows : List UInt8

namespace Sprite

/-- The columns in which a row of a sprite has a pixel, from the left. -/
def columns (row : UInt8) : List Nat :=
  (List.range 8).filter fun column => row.toNat.testBit (7 - column)

/-- The pixels that a sprite covers on the display. -/
def pixels (sprite : Sprite) : List Pixel :=
  sprite.rows.zipIdx.flatMap fun (row, down) =>
    (columns row).map fun across =>
      Pixel.wrap (sprite.left.toNat + across) (sprite.top.toNat + down)

/-- Whether a pixel that a sprite covers is lit. -/
def collides (sprite : Sprite) (frame : Frame) : Bool :=
  sprite.pixels.any frame.isLit

/-- The frame with a sprite drawn over it: each covered cell is flipped. -/
def drawOn (sprite : Sprite) (frame : Frame) : Frame :=
  frame.toggleAll sprite.pixels

end Sprite

end ChipEight
