import ChipEight.Proofs.Drawing
import ChipEight.Proofs.Reachability

/-! # Drawing twice

A draw writes no register but the flag, which counts as zero in a coordinate, so a second draw
finds the same sprite in the same place (`State.sprite_draw`). It flips back what the first one
has flipped, whatever the cells hold (`Sprite.drawOn_drawOn`), and the two flags tell what the
covered cells held before both: the first one whether one of them held one, the second one
whether one of them held zero (`Instruction.drawing_twice_restores`).
-/

namespace ChipEight

namespace Sprite

variable {sprite : Sprite} (small : sprite.rows.length ≤ 32) (frame : Frame)

include small

/-- Drawing a sprite where it was drawn before takes it away again. -/
theorem drawOn_drawOn : sprite.drawOn (sprite.drawOn frame) = frame := by
  apply Frame.eq_of_cell_eq
  intro pixel
  rw [cell_drawOn small, cell_drawOn small]
  by_cases covered : pixel ∈ sprite.pixels
  · rw [if_pos covered, if_pos covered, UInt8.xor_assoc, UInt8.xor_self, UInt8.xor_zero]
  · rw [if_neg covered, if_neg covered]

/-- A sprite collides with its own drawing exactly where a cell held zero before: a cell that held
neither zero nor one does not come to hold one. -/
theorem collides_drawOn_iff :
    sprite.collides (sprite.drawOn frame) = true ↔
      ∃ pixel ∈ sprite.pixels, frame.cell pixel = 0 := by
  rw [collides, List.any_eq_true]
  refine exists_congr fun pixel => and_congr_right fun covered => ?_
  have flips : frame.cell pixel ^^^ 1 = 0 ^^^ 1 ↔ frame.cell pixel = 0 := UInt8.xor_left_inj 1
  rw [Frame.isLit, beq_iff_eq, cell_drawOn small, if_pos covered]
  exact flips

end Sprite

/-- A byte that is not zero has a bit in one of eight columns. -/
theorem Sprite.exists_mem_columns {row : UInt8} (visible : row ≠ 0) :
    ∃ column, column ∈ columns row := by
  have nonzero : row.toNat ≠ 0 := fun zero => visible (UInt8.toNat_inj.mp zero)
  obtain ⟨place, bit⟩ := Nat.exists_testBit_of_ne_zero nonzero
  have narrow : place < 8 := by
    apply Nat.lt_of_not_le
    intro wide
    have small : row.toNat < 2 ^ place :=
      Nat.lt_of_lt_of_le row.toNat_lt (Nat.pow_le_pow_right Nat.two_pos wide)
    rw [Nat.testBit_lt_two_pow small] at bit
    cases bit
  refine ⟨7 - place, mem_columns_iff.mpr ⟨by omega, ?_⟩⟩
  rwa [Nat.sub_sub_self (Nat.le_of_lt_succ narrow)]

namespace State

/-- Whether the sprite at the index register has a set bit in one of its rows inside the
memory. -/
def PointsAtBits (state : State) (height : Nat) : Prop :=
  ∃ row < height, ∃ byte, state.memory.byte? (state.index.toNat + row) = some byte ∧ byte ≠ 0

/-- A draw hits something, wherever it is placed, if its sprite has a set bit. -/
theorem PointsAtBits.exists_hits {state : State} {height : Nat}
    (points : state.PointsAtBits height) (small : height ≤ 32) (left top : Register) :
    ∃ pixel, state.Hits left top height pixel := by
  obtain ⟨row, below, byte, read, visible⟩ := points
  obtain ⟨inside, rfl⟩ := Memory.byte?_eq_some_iff.mp read
  obtain ⟨column, member⟩ := Sprite.exists_mem_columns visible
  obtain ⟨narrow, bit⟩ := Sprite.mem_columns_iff.mp member
  have wide : column < 64 := by omega
  have low : row < 32 := by omega
  refine ⟨.wrap ((state.coordinate left).toNat + column) ((state.coordinate top).toNat + row), ?_⟩
  unfold Hits
  simp only [Pixel.rowFrom_wrap wide low, Pixel.columnFrom_wrap wide low]
  exact ⟨below, narrow, inside, bit⟩

/-- The flag register tells whether something is the case: it holds one if so, and zero if
not. -/
structure FlagTells (state : State) (event : Prop) : Prop where
  set : state.register flagRegister = 1 ↔ event
  clear : state.register flagRegister = 0 ↔ ¬event

/-- After a draw the flag tells whether it collided. -/
theorem flagTells_draw (state : State) (sprite : Sprite) :
    (state.draw sprite).FlagTells (sprite.collides state.frame = true) := by
  have flag := state.flag_draw sprite
  have distinct : (1 : UInt8) ≠ 0 := by decide
  by_cases collides : sprite.collides state.frame = true
  · rw [if_pos collides] at flag
    exact ⟨iff_of_true flag collides, iff_of_false (flag ▸ distinct) (not_not_intro collides)⟩
  · rw [if_neg collides] at flag
    exact ⟨iff_of_false (flag ▸ distinct.symm) collides, iff_of_true flag collides⟩

/-- A draw finds the same sprite in the same place before another one and after it. -/
theorem sprite_draw (state : State) (other : Sprite) (left top : Register) (height : Nat) :
    (state.draw other).sprite left top height = state.sprite left top height := by
  simp only [sprite, register_resetFlag, coordinate_draw]
  rfl

/-- Two draws of a sprite leave everything but the flag register and the flag of the pending
frame. -/
theorem draw_draw (state : State) {sprite : Sprite} (small : sprite.rows.length ≤ 32) :
    let twice := (state.draw sprite).draw sprite
    twice = { state.setRegister flagRegister (twice.register flagRegister) with
      framePending := true } := by
  intro twice
  apply State.ext
  case registers =>
    apply registers_eq_of_register_eq
    intro register
    change twice.register register = (state.setRegister flagRegister _).register register
    rw [register_setRegister]
    split
    · next flag => rw [flag]
    · next other => rw [register_draw _ _ (Ne.symm other), register_draw _ _ (Ne.symm other)]
  case frame => exact Sprite.drawOn_drawOn small state.frame
  all_goals rfl

end State

namespace Instruction

/-- **Drawing twice restores the frame.** Carried out twice in a row, a draw leaves the state that
it found, but for the flag register and the flag of the pending frame, whatever the cells hold and
whichever registers give the coordinates. After the first draw the flag register tells whether a
cell that is hit held one, and after the second whether one held zero, both before the first draw.
So if the sprite has a bit inside the memory, one of the two draws sets the flag register where all
cells hold zero or one, and only the second one does where all of them hold zero. -/
theorem drawing_twice_restores (state : State) (op : Opcode) (draws : op.family.val = 0xD) :
    ∃ instruction, decode? op = some instruction ∧
      let once := instruction.execute state
      let twice := instruction.execute once
      twice = { state.setRegister State.flagRegister (twice.register State.flagRegister) with
        framePending := true } ∧
      once.FlagTells
        (∃ pixel, state.Hits op.x op.y op.n.val pixel ∧ state.frame.cell pixel = 1) ∧
      twice.FlagTells
        (∃ pixel, state.Hits op.x op.y op.n.val pixel ∧ state.frame.cell pixel = 0) ∧
      (state.PointsAtBits op.n.val → state.frame.IsBinary →
        once.register State.flagRegister = 1 ∨ twice.register State.flagRegister = 1) ∧
      (state.PointsAtBits op.n.val → (∀ pixel, state.frame.cell pixel = 0) →
        once.register State.flagRegister = 0 ∧ twice.register State.flagRegister = 1) := by
  have small := op.n_le
  let sprite := state.sprite op.x op.y op.n.val
  have rows : sprite.rows.length ≤ 32 := state.length_rows_sprite_le op.x op.y small
  refine ⟨_, decode?_of_draw draws, ?_⟩
  intro once twice
  have again : twice = (state.draw sprite).draw sprite :=
    congrArg once.draw (state.sprite_draw sprite op.x op.y op.n.val)
  have first : once.FlagTells
      (∃ pixel, state.Hits op.x op.y op.n.val pixel ∧ state.frame.cell pixel = 1) := by
    rw [← state.collides_sprite_iff op.x op.y small]
    exact state.flagTells_draw sprite
  have second : twice.FlagTells
      (∃ pixel, state.Hits op.x op.y op.n.val pixel ∧ state.frame.cell pixel = 0) := by
    simp only [← state.mem_pixels_sprite_iff op.x op.y small]
    rw [again, ← Sprite.collides_drawOn_iff rows]
    exact (state.draw sprite).flagTells_draw sprite
  refine ⟨?restored, first, second, ?binary, ?blank⟩
  case restored =>
    rw [again]
    exact state.draw_draw rows
  case binary =>
    intro points binary
    obtain ⟨pixel, hits⟩ := points.exists_hits small op.x op.y
    rcases binary.cell pixel with off | on
    · exact .inr (second.set.mpr ⟨pixel, hits, off⟩)
    · exact .inl (first.set.mpr ⟨pixel, hits, on⟩)
  case blank =>
    intro points blank
    obtain ⟨pixel, hits⟩ := points.exists_hits small op.x op.y
    refine ⟨first.clear.mpr ?_, second.set.mpr ⟨pixel, hits, blank pixel⟩⟩
    rintro ⟨other, _, on⟩
    rw [blank other] at on
    exact absurd on (by decide)

/-- A sprite that the flag register places around the lower edge, drawn over cells that hold one,
three and zero; and the digit zero, drawn on a blank frame. -/
theorem drawing_twice_restores_around_the_edge :
    let memory : Memory :=
      ⟨fun address => if address.val = 0xFFE then 0xFF else if address.val = 0xFFF then 0x81 else 0⟩
    let frame : Frame :=
      ⟨Vector.ofFn fun number => if number = 1984 then 1 else if number = 7 then 3 else 0⟩
    let state : State :=
      { ((State.starting memory).setRegister 2 31).setRegister State.flagRegister 200 with
        index := 0xFFE
        frame := frame }
    (∃ instruction, decode? ⟨0xDF26⟩ = some instruction ∧
      let once := instruction.execute state
      let twice := instruction.execute once
      state.register State.flagRegister = 200 ∧ once.register State.flagRegister = 1 ∧
        twice.register State.flagRegister = 1 ∧ twice.frame = frame) ∧
    ∃ instruction, decode? ⟨0xD005⟩ = some instruction ∧
      let once := instruction.execute .powerOn
      once.register State.flagRegister = 0 ∧
        (instruction.execute once).register State.flagRegister = 1 := by
  intro memory frame state
  constructor
  · obtain ⟨instruction, decoded, restored, first, second, _⟩ :=
      drawing_twice_restores state ⟨0xDF26⟩ rfl
    have cell (pixel : Pixel) : state.frame.cell pixel =
        if pixel.index = 1984 then 1 else if pixel.index = 7 then 3 else 0 := by
      simp only [state, frame, Frame.cell, Fin.getElem_fin, Vector.getElem_ofFn]
    have lit : state.frame.cell ⟨0, 31⟩ = 1 := cell _
    have unlit : state.frame.cell ⟨0, 0⟩ = 0 := cell _
    refine ⟨instruction, decoded, rfl, first.set.mpr ⟨⟨0, 31⟩, by decide, lit⟩,
      second.set.mpr ⟨⟨0, 0⟩, by decide, unlit⟩, ?_⟩
    rw [restored]
    rfl
  · obtain ⟨instruction, decoded, _, _, _, _, blank⟩ :=
      drawing_twice_restores .powerOn ⟨0xD005⟩ rfl
    have points : State.powerOn.PointsAtBits 5 := by
      refine ⟨0, by decide, 0xF0, ?_, by decide⟩
      decide
    have unlit (pixel : Pixel) : State.powerOn.frame.cell pixel = 0 := Frame.cell_blank pixel
    exact ⟨instruction, decoded, blank points unlit⟩

end Instruction

end ChipEight
