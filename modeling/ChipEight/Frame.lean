/-! # The frame

The display shows a frame of 64 by 32 cells. A cell is lit when it holds one.
The machine itself only ever writes zeros and ones, but every operation is
defined whatever a cell holds: it is flipped in its lowest bit.
-/

namespace ChipEight

/-- A place on the display. -/
structure Pixel where
  column : Fin 64
  row : Fin 32
deriving DecidableEq

namespace Pixel

/-- The pixel at a distance from the left and the upper edge, wrapped around both
edges. -/
def wrap (across down : Nat) : Pixel :=
  ⟨Fin.ofNat 64 across, Fin.ofNat 32 down⟩

/-- The number of the cell that shows a pixel, counted row by row. -/
def index (pixel : Pixel) : Fin 2048 :=
  ⟨pixel.column.val + 64 * pixel.row.val, by omega⟩

/-- Different pixels are stored in different cells. -/
theorem index_injective {first second : Pixel} (same : first.index = second.index) :
    first = second := by
  obtain ⟨firstColumn, firstRow⟩ := first
  obtain ⟨secondColumn, secondRow⟩ := second
  have values := congrArg Fin.val same
  simp only [index] at values
  have columns : firstColumn = secondColumn := Fin.ext (by omega)
  have rows : firstRow = secondRow := Fin.ext (by omega)
  rw [columns, rows]

end Pixel

/-- The contents of the display. -/
@[ext]
structure Frame where
  /-- The cells row by row. -/
  cells : Vector UInt8 2048

namespace Frame

/-- The number of columns. -/
def width : Nat := 64

/-- The number of rows. -/
def height : Nat := 32

/-- The frame with no pixel lit. -/
def blank : Frame :=
  ⟨Vector.replicate 2048 0⟩

/-- The contents of the cell that shows a pixel. -/
def cell (frame : Frame) (pixel : Pixel) : UInt8 :=
  frame.cells[pixel.index]

/-- Whether a pixel is lit: its cell holds exactly one. -/
def isLit (frame : Frame) (pixel : Pixel) : Bool :=
  frame.cell pixel == 1

/-- The number of pixels that are lit. -/
def litCount (frame : Frame) : Nat :=
  frame.cells.toList.count 1

/-- Flips one pixel. -/
def toggle (frame : Frame) (pixel : Pixel) : Frame :=
  ⟨frame.cells.set pixel.index (frame.cells[pixel.index] ^^^ 1)⟩

/-- Flips pixels one after the other. -/
def toggleAll (frame : Frame) (pixels : List Pixel) : Frame :=
  pixels.foldl toggle frame

/-- The cells in which two frames differ, by ascending number, with what the
second one holds there. -/
def changes (before after : Frame) : List (Fin 2048 × UInt8) :=
  (List.finRange 2048).filterMap fun index =>
    if before.cells[index] = after.cells[index] then none else some (index, after.cells[index])

@[simp] theorem cell_blank (pixel : Pixel) : blank.cell pixel = 0 := by
  simp only [cell, blank, Fin.getElem_fin, Vector.getElem_replicate]

@[simp] theorem litCount_blank : blank.litCount = 0 := by
  rw [litCount, blank, Vector.toList_replicate, List.count_replicate]
  rfl

/-- Flipping a cell changes its lowest bit and no other cell. -/
theorem cell_toggle (frame : Frame) (pixel other : Pixel) :
    (frame.toggle pixel).cell other =
      if pixel = other then frame.cell other ^^^ 1 else frame.cell other := by
  simp only [cell, toggle, Fin.getElem_fin, Vector.getElem_set]
  by_cases same : pixel = other
  · subst same
    simp only [↓reduceIte]
  · have distinct : pixel.index.val ≠ other.index.val := fun values =>
      same (Pixel.index_injective (Fin.ext values))
    simp only [distinct, same, ↓reduceIte]

@[simp] theorem toggleAll_nil (frame : Frame) : frame.toggleAll [] = frame := rfl

@[simp] theorem toggleAll_cons (frame : Frame) (pixel : Pixel) (pixels : List Pixel) :
    frame.toggleAll (pixel :: pixels) = (frame.toggle pixel).toggleAll pixels := rfl

end Frame

end ChipEight
