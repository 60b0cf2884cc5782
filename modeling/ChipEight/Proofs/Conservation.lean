import ChipEight.Proofs.Redrawing
import Mathlib.Algebra.BigOperators.Group.Finset.Piecewise
import Mathlib.Algebra.BigOperators.Ring.Finset
import Mathlib.Data.Fintype.Basic

/-! # Lit cells across a draw

A sprite covers as many cells as it has bits inside the memory, wherever it is placed
(`State.card_covered_sprite`), and these are the cells that a draw changes. Where cells hold
nothing but zero and one, each of them is either erased or lit. So a draw loses the erased cells
and gains the others (`Frame.litCount_drawOn`), and it sets the flag register exactly if it erases
a cell (`Instruction.draw_conserves_lit_cells`).
-/

namespace ChipEight

/-- How many of the eight bits of a byte are set. -/
def Sprite.bitCount (row : UInt8) : Nat :=
  (List.range 8).countP fun place => row.toNat.testBit place

/-- How many bits are set in those rows of the sprite at the index register that lie inside the
memory. -/
def State.spriteBits (state : State) (height : Nat) : Nat :=
  ((List.range height).map fun row =>
    match state.memory.byte? (state.index.toNat + row) with
    | some byte => Sprite.bitCount byte
    | none => 0).sum

namespace Frame

/-- How many cells hold one in a frame and zero in a later one. -/
def erasedCount (before after : Frame) : Nat :=
  (Finset.univ.filter fun number : Fin 2048 =>
    before.cells.get number = 1 ∧ after.cells.get number = 0).card

/-- Counting in a list of all numbers is counting in the finite set. -/
theorem countP_finRange {size : Nat} (holds : Fin size → Prop) [DecidablePred holds] :
    (List.finRange size).countP (fun number => holds number) =
      (Finset.univ.filter holds).card := by
  rw [List.countP_eq_length_filter]
  rfl

/-- Lit pixels are counted by their cells. -/
theorem litCount_eq_card (frame : Frame) :
    frame.litCount = (Finset.univ.filter fun number => frame.cells.get number = 1).card := by
  have listed : frame.cells.toList = (List.finRange 2048).map frame.cells.get := by
    apply List.ext_getElem
    · simp only [Vector.length_toList, List.length_map, List.length_finRange]
    · intro index _ _
      rw [Vector.getElem_toList, List.getElem_map, List.getElem_finRange]
      rfl
  rw [← countP_finRange, litCount, listed, List.count_eq_countP, List.countP_map]
  rfl

/-- Some pixel is erased exactly if one was lit and no longer is. -/
theorem erasedCount_pos_iff {before after : Frame} :
    0 < before.erasedCount after ↔ ∃ pixel, before.cell pixel = 1 ∧ after.cell pixel = 0 := by
  rw [erasedCount, Finset.card_pos, Finset.filter_nonempty_iff]
  constructor
  · rintro ⟨number, _, erased⟩
    obtain ⟨pixel, rfl⟩ := Pixel.exists_index_eq number
    exact ⟨pixel, erased⟩
  · rintro ⟨pixel, erased⟩
    exact ⟨pixel.index, Finset.mem_univ _, erased⟩

/-- Changes are counted by the cells that differ. -/
theorem length_changes (before after : Frame) :
    (before.changes after).length =
      (Finset.univ.filter fun number => before.cells.get number ≠ after.cells.get number).card := by
  rw [← countP_finRange, changes, List.length_filterMap_eq_countP]
  apply List.countP_congr
  intro number _
  rw [decide_eq_true_iff]
  split
  · next same => exact iff_of_false Bool.false_ne_true (not_not_intro same)
  · next distinct => exact iff_of_true rfl distinct

end Frame

namespace Sprite

/-- The numbers of the cells that a sprite covers. -/
def covered (sprite : Sprite) : Finset (Fin 2048) :=
  (sprite.pixels.map Pixel.index).toFinset

/-- A row covers as many columns as it has bits. -/
theorem length_columns (row : UInt8) : (columns row).length = bitCount row := by
  -- Columns are counted from the left and bits from the right.
  have reversed : List.range 8 = ((List.range 8).map fun column => 7 - column).reverse := rfl
  rw [bitCount, reversed, List.countP_reverse, List.countP_map, columns,
    ← List.countP_eq_length_filter]
  rfl

variable {sprite : Sprite} (small : sprite.rows.length ≤ 32)

include small

/-- A sprite covers as many cells as it has pixels. -/
theorem card_covered : sprite.covered.card = sprite.pixels.length := by
  rw [covered, List.toFinset_card_of_nodup, List.length_map]
  exact (nodup_pixels small).map fun _ _ => Pixel.index_injective

/-- A draw flips the cells that it covers and no others. -/
theorem get_cells_drawOn (frame : Frame) (number : Fin 2048) :
    (sprite.drawOn frame).cells.get number =
      if number ∈ sprite.covered then frame.cells.get number ^^^ 1 else frame.cells.get number := by
  obtain ⟨pixel, rfl⟩ := Pixel.exists_index_eq number
  have same : pixel.index ∈ sprite.covered ↔ pixel ∈ sprite.pixels := by
    rw [covered, List.mem_toFinset, List.mem_map_of_injective fun _ _ => Pixel.index_injective]
  simp only [same]
  exact cell_drawOn small frame pixel

/-- A draw changes exactly the cells that its sprite covers. -/
theorem length_changes_drawOn (frame : Frame) :
    (frame.changes (sprite.drawOn frame)).length = sprite.covered.card := by
  rw [Frame.length_changes]
  refine congrArg Finset.card (Finset.ext fun number => ?_)
  have flips : frame.cells.get number ≠ frame.cells.get number ^^^ 1 := by
    intro same
    have none : (0 : UInt8) = 1 := (UInt8.xor_right_inj (frame.cells.get number)).mp
      (UInt8.xor_zero.trans same)
    exact absurd none (by decide)
  rw [Finset.mem_filter_univ, get_cells_drawOn small]
  split
  · next member => exact iff_of_true flips member
  · next outside => exact iff_of_false (not_not_intro rfl) outside

/-- A sprite collides with a frame exactly if it erases one of its cells. -/
theorem collides_iff_erasedCount_pos (frame : Frame) :
    sprite.collides frame = true ↔ 0 < frame.erasedCount (sprite.drawOn frame) := by
  rw [collides, List.any_eq_true, Frame.erasedCount_pos_iff]
  refine exists_congr fun pixel => ?_
  rw [Frame.isLit, beq_iff_eq, cell_drawOn small, and_comm]
  refine and_congr_right fun on => ?_
  rw [on]
  by_cases covered : pixel ∈ sprite.pixels
  · rw [if_pos covered]
    exact iff_of_true covered rfl
  · rw [if_neg covered]
    exact iff_of_false covered (by decide)

/-- Where cells hold nothing but zero and one, the covered cells that are not erased are lit. -/
theorem litCount_drawOn {frame : Frame} (binary : frame.IsBinary) :
    (sprite.drawOn frame).litCount + 2 * frame.erasedCount (sprite.drawOn frame) =
      frame.litCount + sprite.covered.card := by
  have covered : sprite.covered.card =
      (Finset.univ.filter fun number => number ∈ sprite.covered).card := by
    rw [Finset.filter_univ_mem]
  rw [covered]
  simp only [Frame.litCount_eq_card, Frame.erasedCount, Finset.card_filter, Finset.mul_sum,
    ← Finset.sum_add_distrib]
  refine Finset.sum_congr rfl fun number _ => ?_
  rw [get_cells_drawOn small]
  -- Each cell is one of four kinds, and for each kind both sides count the same.
  rcases binary (frame.cells.get number) (Vector.getElem_mem number.isLt) with off | on
  · rw [off]
    split <;> rfl
  · rw [on]
    split <;> rfl

end Sprite

namespace State

/-- A sprite covers as many cells as it has bits inside the memory. -/
theorem card_covered_sprite (state : State) (left top : Register) {height : Nat}
    (small : height ≤ 32) :
    (state.sprite left top height).covered.card = state.spriteBits height := by
  rw [Sprite.card_covered (state.length_rows_sprite_le left top small),
    Sprite.pixels_eq_flatMap_range, List.length_flatMap, length_rows_sprite, spriteBits]
  refine congrArg List.sum (List.map_congr_left fun row member => ?_)
  rw [List.length_map, Sprite.length_columns, state.row_sprite left top (List.mem_range.mp member)]
  cases state.memory.byte? (state.index.toNat + row) <;> rfl

end State

namespace Instruction

/-- **A draw conserves lit cells.** On a frame of zeros and ones, a draw changes exactly as many
cells as its sprite has bits inside the memory. Those that held one are erased, and the others are
lit, so the lit cells after the draw and twice the erased ones are as many as the lit cells before
and the bits together. The flag register tells whether a cell was erased, which it was unless the
lit cells have grown by all of the bits. -/
theorem draw_conserves_lit_cells (state : State) (op : Opcode) (draws : op.family.val = 0xD)
    (binary : state.frame.IsBinary) :
    ∃ instruction, decode? op = some instruction ∧
      let after := instruction.execute state
      let bits := state.spriteBits op.n.val
      let erased := state.frame.erasedCount after.frame
      after.frame.litCount + 2 * erased = state.frame.litCount + bits ∧
      (state.frame.changes after.frame).length = bits ∧
      after.FlagTells (0 < erased) ∧
      (after.register State.flagRegister = 0 ↔
        after.frame.litCount = state.frame.litCount + bits) := by
  have small := op.n_le
  let sprite := state.sprite op.x op.y op.n.val
  have rows : sprite.rows.length ≤ 32 := state.length_rows_sprite_le op.x op.y small
  have covered := state.card_covered_sprite op.x op.y small
  refine ⟨_, decode?_of_draw draws, ?_⟩
  intro after bits erased
  have conserved : after.frame.litCount + 2 * erased = state.frame.litCount + bits := by
    have drawn := Sprite.litCount_drawOn rows binary
    rw [covered] at drawn
    exact drawn
  have flag : after.FlagTells (0 < erased) := by
    have tells := state.flagTells_draw sprite
    rw [Sprite.collides_iff_erasedCount_pos rows] at tells
    exact tells
  refine ⟨conserved, (Sprite.length_changes_drawOn rows state.frame).trans covered, flag, ?_⟩
  rw [flag.clear]
  omega

/-- The digit zero, of fourteen bits, drawn around the lower right corner over a single lit cell,
which it covers. -/
theorem draw_conserves_lit_cells_around_the_corner :
    let state : State :=
      { (State.powerOn.setRegister 1 62).setRegister 2 30 with
        frame := Frame.blank.toggle ⟨62, 31⟩ }
    state.frame.IsBinary ∧ state.spriteBits 5 = 14 ∧
    ∃ instruction, decode? ⟨0xD125⟩ = some instruction ∧
      let after := instruction.execute state
      let erased := state.frame.erasedCount after.frame
      after.frame.litCount + 2 * erased = state.frame.litCount + 14 ∧
      (state.frame.changes after.frame).length = 14 ∧
      after.register State.flagRegister = 1 ∧
      after.frame.litCount ≠ state.frame.litCount + 14 := by
  intro state
  have binary : state.frame.IsBinary := Frame.isBinary_blank.toggle _
  have bits : state.spriteBits 5 = 14 := by decide
  obtain ⟨instruction, decoded, conserved, changed, flag, unset⟩ :=
    draw_conserves_lit_cells state ⟨0xD125⟩ rfl binary
  obtain rfl : .draw 1 2 5 = instruction := Option.some.inj decoded
  have lit : state.frame.cell ⟨62, 31⟩ = 1 := by
    rw [Frame.cell_toggle, if_pos rfl, Frame.cell_blank]
    rfl
  have unlit : (state.draw (state.sprite 1 2 5)).frame.cell ⟨62, 31⟩ = 0 := by
    rw [state.cell_draw 1 2 (by decide), if_pos (by decide), lit]
    rfl
  have set := flag.set.mpr (Frame.erasedCount_pos_iff.mpr ⟨_, lit, unlit⟩)
  refine ⟨binary, bits, _, decoded, bits ▸ conserved, bits ▸ changed, set, fun grown => ?_⟩
  rw [unset.mpr (bits ▸ grown)] at set
  cases set

end Instruction

end ChipEight
