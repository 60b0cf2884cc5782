import ChipEight.Picture
import Mathlib.Algebra.GroupWithZero.Nat
import Mathlib.Data.List.FinRange
import Mathlib.Data.List.OfFn

/-! # The marks of a picture

The cells of a frame are its rows one after the other (`Frame.toList_cells`), and a picture has a
mark for each of them that is lit (`Frame.count_picture`).
-/

namespace ChipEight

namespace Frame

variable (frame : Frame)

/-- The cells are those of the rows from the top, each from the left. -/
theorem toList_cells :
    frame.cells.toList =
      (List.finRange 32).flatMap fun row =>
        (List.finRange 64).map fun column => frame.cell ⟨column, row⟩ := by
  have listed : frame.cells.toList =
      List.ofFn fun index : Fin (32 * 64) => frame.cells[index.val] := by
    apply List.ext_getElem
    · simp only [Vector.length_toList, List.length_ofFn]
    · intro index _ _
      simp only [Vector.getElem_toList, List.getElem_ofFn]
  rw [listed, List.ofFn_mul, List.ofFn_eq_map, List.flatMap_def]
  congr 2
  funext row
  rw [List.ofFn_eq_map]
  congr 1
  funext column
  simp only [cell, Pixel.index, Fin.getElem_fin, Nat.mul_comm, Nat.add_comm]

/-- A pixel is shown by a hash exactly if it is lit. -/
theorem mark_eq_iff (pixel : Pixel) : frame.mark pixel = '#' ↔ frame.cell pixel = 1 := by
  unfold mark isLit
  split
  · next lit => exact ⟨fun _ => eq_of_beq lit, fun _ => rfl⟩
  · next unlit =>
      refine ⟨fun dot => absurd dot (by decide), fun one => ?_⟩
      exact absurd (beq_iff_eq.mpr one) unlit

/-- A line has as many marks as the row has cells that hold one. -/
theorem count_line (row : Fin 32) :
    (frame.line row).toList.count '#' =
      ((List.finRange 64).map fun column => frame.cell ⟨column, row⟩).count 1 := by
  rw [line, String.toList_ofList, List.count_eq_countP, List.count_eq_countP, List.countP_map,
    List.countP_map]
  apply List.countP_congr
  intro column _
  simp only [Function.comp_apply, beq_iff_eq, mark_eq_iff]

/-- A character that does not separate the parts of a text is found in the parts. -/
theorem count_intercalate {character : Char} {separator : String}
    (other : character ∉ separator.toList) (parts : List String) :
    (separator.intercalate parts).toList.count character =
      (parts.map fun part => part.toList.count character).sum := by
  induction parts with
  | nil => rfl
  | cons part rest ih =>
      cases rest with
      | nil =>
          simp only [String.intercalate_singleton, List.map_cons, List.map_nil, List.sum_cons,
            List.sum_nil, Nat.add_zero]
      | cons next rest =>
          rw [String.intercalate_cons_cons, String.toList_append, String.toList_append,
            List.count_append, List.count_append, List.count_eq_zero_of_not_mem other, ih,
            Nat.add_zero]
          simp only [List.map_cons, List.sum_cons]

/-- The picture of a frame has as many marks as pixels are lit. -/
theorem count_picture : frame.picture.toList.count '#' = frame.litCount := by
  calc frame.picture.toList.count '#'
      = ((List.finRange 32).map fun row => (frame.line row).toList.count '#').sum := by
        rw [picture, count_intercalate (by decide), List.map_map, Function.comp_def]
    _ = ((List.finRange 32).map fun row =>
          ((List.finRange 64).map fun column => frame.cell ⟨column, row⟩).count 1).sum := by
        simp only [count_line]
    _ = frame.litCount := by
        rw [litCount, toList_cells, List.count_flatMap, Function.comp_def]

end Frame

end ChipEight
