import ChipEight.Proofs.Manual

/-! # What a draw leaves

Drawing a sprite flips the cells that it hits, around both edges of the display, and no others;
the flag register tells whether one of these cells held one before, and but for the flag of the
pending frame nothing else changes (`State.IsDrawnTo`). This describes the state that is left in
every part, and it is the one that the loops over rows and bits arrive at
(`Instruction.draw_is_toroidal_xor`).
-/

namespace ChipEight

namespace State

/-- The state that a draw leaves, part by part. -/
structure IsDrawnTo (before : State) (op : Opcode) (after : State) : Prop where
  hit : ∀ pixel, before.Hits op.x op.y op.n.val pixel →
    after.frame.cell pixel = before.frame.cell pixel ^^^ 1
  missed : ∀ pixel, ¬before.Hits op.x op.y op.n.val pixel →
    after.frame.cell pixel = before.frame.cell pixel
  /-- A cell that is hit held exactly one. -/
  collision : (∃ pixel, before.Hits op.x op.y op.n.val pixel ∧ before.frame.cell pixel = 1) →
    after.register flagRegister = 1
  noCollision : (¬∃ pixel, before.Hits op.x op.y op.n.val pixel ∧ before.frame.cell pixel = 1) →
    after.register flagRegister = 0
  framePending : after.framePending = true
  registers : ∀ register, register ≠ flagRegister →
    after.register register = before.register register
  index : after.index = before.index
  pc : after.pc = before.pc
  delayTimer : after.delayTimer = before.delayTimer
  soundTimer : after.soundTimer = before.soundTimer
  memory : after.memory = before.memory
  keypad : after.keypad = before.keypad

/-- Whether a draw hits a pixel in terms of remainders and masks. -/
theorem hits_iff_mask (state : State) (left top : Register) (height : Nat) (pixel : Pixel) :
    state.Hits left top height pixel ↔
      ∃ row column : Nat,
        (row : Int) = ((pixel.row.val : Int) - (state.coordinate top).toNat) % 32 ∧
        (column : Int) = ((pixel.column.val : Int) - (state.coordinate left).toNat) % 64 ∧
        row < height ∧ column < 8 ∧
        ∃ byte, state.memory.byte? (state.index.toNat + row) = some byte ∧
          byte &&& (0x80 >>> UInt8.ofNat column) ≠ 0 := by
  constructor
  · rintro ⟨below, narrow, inside, bit⟩
    exact ⟨_, _, Int.toNat_of_nonneg (Int.emod_nonneg _ (by decide)),
      Int.toNat_of_nonneg (Int.emod_nonneg _ (by decide)), below, narrow, _, dif_pos inside,
      (Manual.and_shifted_ne_zero_iff _ narrow).mpr bit⟩
  · rintro ⟨row, column, rows, columns, below, narrow, byte, read, bit⟩
    have sameRow : pixel.rowFrom (state.coordinate top) = row := by
      rw [Pixel.rowFrom, ← rows, Int.toNat_natCast]
    have sameColumn : pixel.columnFrom (state.coordinate left) = column := by
      rw [Pixel.columnFrom, ← columns, Int.toNat_natCast]
    have inside : state.index.toNat + row < Memory.size := by
      apply Nat.lt_of_not_le
      intro outside
      rw [(state.memory.byte?_eq_none_iff _).mpr outside] at read
      cases read
    rw [Memory.byte?, dif_pos inside, Option.some.injEq] at read
    unfold Hits
    simp only [sameRow, sameColumn, read]
    exact ⟨below, narrow, inside, (Manual.and_shifted_ne_zero_iff byte narrow).mp bit⟩

/-- A sprite collides exactly if one of the pixels that it hits is lit. -/
theorem collides_sprite_iff (state : State) (left top : Register) {height : Nat}
    (small : height ≤ 32) :
    (state.sprite left top height).collides state.frame = true ↔
      ∃ pixel, state.Hits left top height pixel ∧ state.frame.cell pixel = 1 := by
  simp only [Sprite.collides, List.any_eq_true, state.mem_pixels_sprite_iff left top small,
    Frame.isLit, beq_iff_eq]

/-- A draw leaves what it is said to leave. -/
theorem isDrawnTo_draw (state : State) (op : Opcode) :
    state.IsDrawnTo op (state.draw (state.sprite op.x op.y op.n.val)) := by
  have collides := state.collides_sprite_iff op.x op.y op.n_le
  constructor
  case hit =>
    intro pixel hits
    rw [state.cell_draw op.x op.y op.n_le, if_pos hits]
  case missed =>
    intro pixel misses
    rw [state.cell_draw op.x op.y op.n_le, if_neg misses]
  case collision =>
    intro lit
    rw [flag_draw, if_pos (collides.mpr lit)]
  case noCollision =>
    intro unlit
    rw [flag_draw, if_neg (mt collides.mp unlit)]
  case registers =>
    intro register other
    exact state.register_draw _ other
  all_goals rfl

/-- There is only one state that a draw leaves. -/
theorem IsDrawnTo.unique {before first second : State} {op : Opcode}
    (drawn : before.IsDrawnTo op first) (drawnToo : before.IsDrawnTo op second) :
    first = second := by
  apply State.ext
  case registers =>
    apply registers_eq_of_register_eq
    intro register
    by_cases flag : register = flagRegister
    · rw [flag]
      by_cases lit : ∃ pixel, before.Hits op.x op.y op.n.val pixel ∧ before.frame.cell pixel = 1
      · rw [drawn.collision lit, drawnToo.collision lit]
      · rw [drawn.noCollision lit, drawnToo.noCollision lit]
    · rw [drawn.registers register flag, drawnToo.registers register flag]
  case frame =>
    apply Frame.eq_of_cell_eq
    intro pixel
    by_cases hits : before.Hits op.x op.y op.n.val pixel
    · rw [drawn.hit pixel hits, drawnToo.hit pixel hits]
    · rw [drawn.missed pixel hits, drawnToo.missed pixel hits]
  case index => exact drawn.index.trans drawnToo.index.symm
  case pc => exact drawn.pc.trans drawnToo.pc.symm
  case delayTimer => exact drawn.delayTimer.trans drawnToo.delayTimer.symm
  case soundTimer => exact drawn.soundTimer.trans drawnToo.soundTimer.symm
  case memory => exact drawn.memory.trans drawnToo.memory.symm
  case framePending => exact drawn.framePending.trans drawnToo.framePending.symm
  case keypad => exact drawn.keypad.trans drawnToo.keypad.symm

end State

namespace Instruction

/-- **A draw is an exclusive or on a torus.** In every state, whatever its parts hold, a draw
leaves the one state that is described part by part: the cells that it hits are flipped in their
lowest bit and no others change, and the flag register tells whether one of them held exactly one
before. A cell is hit if, going back from it to the corner around the edges, one comes to a row
below the height and to one of eight columns, the row's byte lies inside the memory and the
column's bit is set in it. The flag register counts as zero where it gives a coordinate. Testing
and flipping one cell after the other leaves the same state, since no cell is visited twice. -/
theorem draw_is_toroidal_xor (state : State) (op : Opcode) (draws : op.family.val = 0xD) :
    (∀ pixel : Pixel, state.Hits op.x op.y op.n.val pixel ↔
      ∃ row column : Nat,
        (row : Int) = ((pixel.row.val : Int) - (state.coordinate op.y).toNat) % 32 ∧
        (column : Int) = ((pixel.column.val : Int) - (state.coordinate op.x).toNat) % 64 ∧
        row < op.n.val ∧ column < 8 ∧
        ∃ byte, state.memory.byte? (state.index.toNat + row) = some byte ∧
          byte &&& (0x80 >>> UInt8.ofNat column) ≠ 0) ∧
    ∃ instruction, decode? op = some instruction ∧
      state.IsDrawnTo op (instruction.execute state) ∧
      (∀ after, state.IsDrawnTo op after → after = instruction.execute state) ∧
      Manual.draw op.word state = instruction.execute state := by
  have family : op.family = 0xD := Fin.ext draws
  have decoded : decode? op = some (.draw op.x op.y op.n) := by
    rw [decode?, family]
    rfl
  have drawn := state.isDrawnTo_draw op
  exact ⟨state.hits_iff_mask op.x op.y op.n.val, _, decoded, drawn,
    fun after drawnToo => drawnToo.unique drawn, Manual.draw_eq op.word state⟩

/-- A sprite at the corner of the display, of whose rows all but two lie past the end of the
memory. It hits a cell that holds one and another that holds three. -/
theorem draw_is_toroidal_xor_in_the_corner :
    let memory : Memory :=
      ⟨fun address => if address.val = 0xFFE then 0xFF else if address.val = 0xFFF then 0x81 else 0⟩
    let frame : Frame :=
      ⟨Vector.ofFn fun number => if number = 2047 then 1 else if number = 3 then 3 else 0⟩
    let state : State :=
      { State.starting memory with
        registers := ((Vector.replicate 16 0).set 1 60).set 2 31
        index := 0xFFE
        frame := frame }
    ∃ instruction, decode? ⟨0xD126⟩ = some instruction ∧
      let after := instruction.execute state
      Manual.draw 0xD126 state = after ∧ after.register State.flagRegister = 1 ∧
        after.frame.cell ⟨63, 31⟩ = 0 ∧ after.frame.cell ⟨3, 0⟩ = 2 ∧
        after.frame.cell ⟨2, 0⟩ = 0 ∧ after.frame.cell ⟨60, 1⟩ = 0 := by
  intro memory frame state
  obtain ⟨_, instruction, decoded, drawn, _, looped⟩ :=
    draw_is_toroidal_xor state ⟨0xD126⟩ (by decide)
  have cell (pixel : Pixel) : state.frame.cell pixel =
      if pixel.index = 2047 then 1 else if pixel.index = 3 then 3 else 0 := by
    simp only [state, frame, Frame.cell, Fin.getElem_fin, Vector.getElem_ofFn]
  have corner : state.frame.cell ⟨63, 31⟩ = 1 := cell _
  have collides := drawn.collision ⟨⟨63, 31⟩, by decide, corner⟩
  refine ⟨instruction, decoded, looped, collides, ?_, ?_, ?_, ?_⟩
  · rw [drawn.hit _ (by decide), cell]
    rfl
  · rw [drawn.hit _ (by decide), cell]
    rfl
  · rw [drawn.missed _ (by decide), cell]
    rfl
  · rw [drawn.missed _ (by decide), cell]
    rfl

end Instruction

end ChipEight
