import ChipEight.Execution
import Mathlib.Data.List.Nodup

/-! # What a draw covers

A sprite placed on the display covers some of its pixels. Read from the pixel, one
goes back to the row and the column of the sprite that would fall on it, around
both edges, and looks the bit up in the memory (`State.Hits`). A sprite of at most
thirty-two rows covers no pixel twice (`Sprite.nodup_pixels`), so that drawing it
flips exactly the covered cells (`Sprite.cell_drawOn`).
-/

namespace ChipEight

namespace Pixel

/-- The row, counted from a distance from the upper edge and around the display, in
which a pixel lies. -/
def rowFrom (pixel : Pixel) (top : UInt8) : Nat :=
  (((pixel.row.val : Int) - top.toNat) % 32).toNat

/-- The column, counted from a distance from the left edge and around the display,
in which a pixel lies. -/
def columnFrom (pixel : Pixel) (left : UInt8) : Nat :=
  (((pixel.column.val : Int) - left.toNat) % 64).toNat

theorem rowFrom_lt (pixel : Pixel) (top : UInt8) : pixel.rowFrom top < 32 := by
  unfold rowFrom
  omega

/-- Going right and down from a corner reaches a pixel exactly by the way that leads
back from the pixel to the corner, as long as neither way goes round. -/
theorem wrap_eq_iff {pixel : Pixel} {left top : UInt8} {across down : Nat}
    (narrow : across < 64) (low : down < 32) :
    wrap (left.toNat + across) (top.toNat + down) = pixel ↔
      across = pixel.columnFrom left ∧ down = pixel.rowFrom top := by
  obtain ⟨column, row⟩ := pixel
  simp only [wrap, Pixel.mk.injEq, Fin.ext_iff, Fin.val_ofNat, columnFrom, rowFrom]
  omega

section Wrapping

variable {left top : UInt8} {across down : Nat} (narrow : across < 64) (low : down < 32)

include narrow low

/-- The column of a wrapped pixel, counted from the left of the sprite. -/
theorem columnFrom_wrap :
    (wrap (left.toNat + across) (top.toNat + down)).columnFrom left = across :=
  ((wrap_eq_iff narrow low).mp rfl).1.symm

theorem rowFrom_wrap : (wrap (left.toNat + across) (top.toNat + down)).rowFrom top = down :=
  ((wrap_eq_iff narrow low).mp rfl).2.symm

end Wrapping

theorem exists_index_eq (index : Fin 2048) : ∃ pixel : Pixel, pixel.index = index := by
  refine ⟨⟨⟨index.val % 64, Nat.mod_lt _ (by decide)⟩, ⟨index.val / 64, by omega⟩⟩, Fin.ext ?_⟩
  simp only [Pixel.index]
  omega

end Pixel

namespace Frame

/-- A frame is known by its cells. -/
theorem eq_of_cell_eq {first second : Frame}
    (same : ∀ pixel, first.cell pixel = second.cell pixel) : first = second := by
  apply Frame.ext
  apply Vector.ext
  intro index bound
  obtain ⟨pixel, shows⟩ := Pixel.exists_index_eq ⟨index, bound⟩
  simpa only [Frame.cell, shows, Fin.getElem_fin] using same pixel

/-- Flipping distinct cells one after the other flips each of them once. -/
theorem cell_toggleAll (frame : Frame) {pixels : List Pixel} (distinct : pixels.Nodup)
    (pixel : Pixel) :
    (frame.toggleAll pixels).cell pixel =
      if pixel ∈ pixels then frame.cell pixel ^^^ 1 else frame.cell pixel := by
  induction pixels generalizing frame with
  | nil => simp only [toggleAll_nil, List.not_mem_nil, ↓reduceIte]
  | cons head rest ih =>
      obtain ⟨fresh, distinct⟩ := List.nodup_cons.mp distinct
      rw [toggleAll_cons, ih _ distinct, cell_toggle]
      by_cases same : head = pixel
      · subst same
        simp only [fresh, List.mem_cons, true_or, ↓reduceIte]
      · simp only [same, Ne.symm same, List.mem_cons, false_or, ↓reduceIte]

end Frame

namespace Sprite

/-- The columns of a row are those of its bits, the highest one first. -/
theorem mem_columns_iff {row : UInt8} {column : Nat} :
    column ∈ columns row ↔ column < 8 ∧ row.toNat.testBit (7 - column) := by
  simp only [columns, List.mem_filter, List.mem_range]

/-- The covered pixels, row by row. -/
theorem pixels_eq_flatMap_range (sprite : Sprite) :
    sprite.pixels = (List.range sprite.rows.length).flatMap fun down =>
      (columns (sprite.rows[down]?.getD 0)).map fun across =>
        Pixel.wrap (sprite.left.toNat + across) (sprite.top.toNat + down) := by
  have numbered : sprite.rows.zipIdx =
      (List.range sprite.rows.length).map fun down => (sprite.rows[down]?.getD 0, down) := by
    refine List.ext_getElem (by simp) fun down inside _ => ?_
    rw [List.length_zipIdx] at inside
    simp [inside]
  rw [pixels, numbered, List.flatMap_map]

/-- A sprite covers a pixel exactly if its row and column there have a bit. -/
theorem mem_pixels_iff {sprite : Sprite} (small : sprite.rows.length ≤ 32) {pixel : Pixel} :
    pixel ∈ sprite.pixels ↔
      pixel.rowFrom sprite.top < sprite.rows.length ∧
        pixel.columnFrom sprite.left ∈
          columns (sprite.rows[pixel.rowFrom sprite.top]?.getD 0) := by
  rw [pixels_eq_flatMap_range]
  simp only [List.mem_flatMap, List.mem_range, List.mem_map]
  constructor
  · rintro ⟨down, inside, across, member, placed⟩
    have narrow := (mem_columns_iff.mp member).1
    obtain ⟨rfl, rfl⟩ := (Pixel.wrap_eq_iff (by omega) (by omega)).mp placed
    exact ⟨inside, member⟩
  · rintro ⟨inside, member⟩
    have narrow := (mem_columns_iff.mp member).1
    exact ⟨_, inside, _, member,
      (Pixel.wrap_eq_iff (by omega) (pixel.rowFrom_lt sprite.top)).mpr ⟨rfl, rfl⟩⟩

/-- A sprite that is no higher than the display covers no pixel twice, wherever it is
placed. -/
theorem nodup_pixels {sprite : Sprite} (small : sprite.rows.length ≤ 32) :
    sprite.pixels.Nodup := by
  rw [pixels_eq_flatMap_range, List.nodup_flatMap]
  constructor
  · intro down inside
    rw [List.mem_range] at inside
    refine List.Nodup.map_on ?_ (List.nodup_range.filter _)
    intro first firstMember second secondMember same
    have firstNarrow := (mem_columns_iff.mp firstMember).1
    have secondNarrow := (mem_columns_iff.mp secondMember).1
    exact ((Pixel.wrap_eq_iff (by omega) (by omega)).mp same).1.trans
      ((Pixel.wrap_eq_iff (by omega) (by omega)).mp rfl).1.symm
  · refine List.Pairwise.imp_of_mem ?_ List.nodup_range
    intro first second firstInside secondInside distinct pixel firstMember secondMember
    rw [List.mem_range] at firstInside secondInside
    obtain ⟨across, member, placed⟩ := List.mem_map.mp firstMember
    obtain ⟨other, otherMember, otherPlaced⟩ := List.mem_map.mp secondMember
    have narrow := (mem_columns_iff.mp member).1
    have otherNarrow := (mem_columns_iff.mp otherMember).1
    exact distinct (((Pixel.wrap_eq_iff (by omega) (by omega)).mp placed).2.trans
      ((Pixel.wrap_eq_iff (by omega) (by omega)).mp otherPlaced).2.symm)

/-- Drawing a sprite that is no higher than the display flips each cell it covers once
and leaves the others. -/
theorem cell_drawOn {sprite : Sprite} (small : sprite.rows.length ≤ 32) (frame : Frame)
    (pixel : Pixel) :
    (sprite.drawOn frame).cell pixel =
      if pixel ∈ sprite.pixels then frame.cell pixel ^^^ 1 else frame.cell pixel :=
  frame.cell_toggleAll (nodup_pixels small) pixel

end Sprite

/-- No sprite that an opcode draws is higher than the display. -/
theorem Opcode.n_le (op : Opcode) : op.n.val ≤ 32 :=
  Nat.le_trans (Nat.le_of_lt op.n.isLt) (by decide)

namespace State

/-- The coordinate that a draw reads from a register. The flag register counts as
zero. -/
def coordinate (state : State) (register : Register) : UInt8 :=
  if register = flagRegister then 0 else state.register register

/-- Whether a draw hits a pixel: going back from the pixel to the corner leads to a
row below the height and to one of eight columns, the row's byte lies inside the
memory, and the column's bit is set in it. -/
def Hits (state : State) (left top : Register) (height : Nat) (pixel : Pixel) : Prop :=
  let row := pixel.rowFrom (state.coordinate top)
  let column := pixel.columnFrom (state.coordinate left)
  row < height ∧ column < 8 ∧
    ∃ inside : state.index.toNat + row < Memory.size,
      (state.memory.byteAt ⟨state.index.toNat + row, inside⟩).toNat.testBit (7 - column)

instance (state : State) (left top : Register) (height : Nat) (pixel : Pixel) :
    Decidable (state.Hits left top height pixel) :=
  inferInstanceAs (Decidable (_ ∧ _ ∧ _))

/-- Once the flag is reset, registers are read as coordinates. -/
theorem register_resetFlag (state : State) (register : Register) :
    (state.setRegister flagRegister 0).register register = state.coordinate register := by
  rw [register_setRegister, coordinate]
  simp only [eq_comm]

theorem left_sprite (state : State) (left top : Register) (height : Nat) :
    (state.sprite left top height).left = state.coordinate left :=
  state.register_resetFlag left

theorem top_sprite (state : State) (left top : Register) (height : Nat) :
    (state.sprite left top height).top = state.coordinate top :=
  state.register_resetFlag top

theorem length_rows_sprite (state : State) (left top : Register) (height : Nat) :
    (state.sprite left top height).rows.length = height :=
  state.memory.length_read state.index.toNat height

/-- A sprite that fits on the display covers no row twice. -/
theorem length_rows_sprite_le (state : State) (left top : Register) {height : Nat}
    (small : height ≤ 32) : (state.sprite left top height).rows.length ≤ 32 := by
  rw [length_rows_sprite]
  exact small

/-- The rows of a sprite are the bytes at the index register, blank past the end of the memory. -/
theorem row_sprite (state : State) (left top : Register) {height row : Nat}
    (below : row < height) :
    (state.sprite left top height).rows[row]?.getD 0 =
      (state.memory.byte? (state.index.toNat + row)).getD 0 := by
  simp only [sprite, Memory.read, List.getElem?_map, List.getElem?_range below, Option.map_some,
    Option.getD_some]

/-- The pixels that a drawn sprite covers are those that the draw hits. -/
theorem mem_pixels_sprite_iff (state : State) (left top : Register) {height : Nat}
    (small : height ≤ 32) (pixel : Pixel) :
    pixel ∈ (state.sprite left top height).pixels ↔ state.Hits left top height pixel := by
  rw [Sprite.mem_pixels_iff (state.length_rows_sprite_le left top small), Sprite.mem_columns_iff,
    length_rows_sprite, left_sprite, top_sprite]
  refine and_congr_right fun below => and_congr_right fun _ => ?_
  rw [state.row_sprite left top below, Memory.byte?]
  -- A row past the end of the memory is blank, so it hits nothing.
  by_cases inside : state.index.toNat + pixel.rowFrom (state.coordinate top) < Memory.size
  · simp only [inside, ↓reduceDIte, Option.getD_some, exists_true_left]
  · simp only [inside, ↓reduceDIte, Option.getD_none, UInt8.toNat_zero, Nat.zero_testBit,
      Bool.false_eq_true, IsEmpty.exists_iff]

/-- The flag tells whether a lit pixel was covered. -/
theorem flag_draw (state : State) (sprite : Sprite) :
    (state.draw sprite).register flagRegister = if sprite.collides state.frame then 1 else 0 :=
  (state.register_setRegister flagRegister flagRegister _).trans (if_pos rfl)

theorem register_draw (state : State) (sprite : Sprite) {register : Register}
    (general : register ≠ flagRegister) :
    (state.draw sprite).register register = state.register register :=
  (state.register_setRegister flagRegister register _).trans (if_neg general.symm)

/-- A draw leaves the coordinates that other draws read: it writes the flag register only. -/
theorem coordinate_draw (state : State) (sprite : Sprite) (register : Register) :
    (state.draw sprite).coordinate register = state.coordinate register := by
  unfold coordinate
  split
  · rfl
  · next general => exact state.register_draw sprite general

/-- A draw flips exactly the cells it hits. -/
theorem cell_draw (state : State) (left top : Register) {height : Nat} (small : height ≤ 32)
    (pixel : Pixel) :
    (state.draw (state.sprite left top height)).frame.cell pixel =
      if state.Hits left top height pixel then state.frame.cell pixel ^^^ 1
      else state.frame.cell pixel := by
  simp only [← state.mem_pixels_sprite_iff left top small]
  exact Sprite.cell_drawOn (state.length_rows_sprite_le left top small) state.frame pixel

end State

end ChipEight
