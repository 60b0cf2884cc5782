import ChipEight.Frame

/-! # Pictures of a frame

A frame is printed as thirty-two lines of sixty-four characters: a lit pixel as
`#` and any other as a full stop.
-/

namespace ChipEight

namespace Frame

/-- The character that shows a pixel. -/
def mark (frame : Frame) (pixel : Pixel) : Char :=
  if frame.isLit pixel then '#' else '.'

/-- The line that shows a row of a frame. -/
def line (frame : Frame) (row : Fin 32) : String :=
  String.ofList ((List.finRange 64).map fun column => frame.mark ⟨column, row⟩)

/-- The picture of the frame: its rows from the top, separated by line breaks. -/
def picture (frame : Frame) : String :=
  "\n".intercalate ((List.finRange 32).map frame.line)

end Frame

end ChipEight
