import ChipEight.Proofs.Covering
import ChipEight.Proofs.Stepping
import Mathlib.Data.Nat.Bitwise

/-! # The written instruction set

The instruction set as a manual has it, in terms of words, masks and loops: an opcode is
one word, its operands are cut out of it with masks and shifts, and a sprite is drawn bit
by bit, each set bit testing and flipping one cell (`Manual.draw`). The machine's step is
the manual's step in every state (`Machine.step_eq_manual`).
-/

namespace ChipEight

namespace Manual

/-- The number that the second nibble of a word holds. -/
def x (word : UInt16) : Register :=
  ⟨(word >>> 8 &&& 0xF).toNat, by
    rw [UInt16.toNat_and]
    exact Nat.lt_succ_of_le Nat.and_le_right⟩

/-- The number that the third nibble of a word holds. -/
def y (word : UInt16) : Register :=
  ⟨(word >>> 4 &&& 0xF).toNat, by
    rw [UInt16.toNat_and]
    exact Nat.lt_succ_of_le Nat.and_le_right⟩

/-- The number of rows of a sprite. -/
def height (word : UInt16) : Nat :=
  (word &&& 0xF).toNat

/-- The byte that an opcode carries. -/
def value (word : UInt16) : UInt8 :=
  (word &&& 0xFF).toUInt8

/-- The address in the last three nibbles. -/
def address (word : UInt16) : UInt16 :=
  word &&& 0x0FFF

/-- The number of the cell at a column and a row, both going round. -/
def cellNumber (column row : Nat) : Fin 2048 :=
  ⟨column % 64 + row % 32 * 64, by omega⟩

/-- Plots one set bit of a sprite: the flag register becomes one if the cell holds one, and
the cell is flipped. -/
def plot (cell : Fin 2048) (state : State) : State :=
  let current := state.frame.cells.get cell
  { if current = 1 then state.setRegister State.flagRegister 1 else state with
    frame := ⟨state.frame.cells.setIfInBounds cell.val (current ^^^ 1)⟩ }

/-- Draws one row of a sprite, plotting its set bits from the highest one down. -/
def drawRow (left top : Nat) (byte : UInt8) (state : State) : State :=
  (List.range 8).foldl
    (fun current column =>
      if byte &&& (0x80 >>> UInt8.ofNat column) ≠ 0 then
        plot (cellNumber (left + column) top) current
      else current)
    state

/-- Draws the sprite at the index register, row by row. The flag register becomes zero
before the coordinates are read, and rows past the end of the memory are blank. -/
def draw (word : UInt16) (state : State) : State :=
  let cleared := state.setRegister State.flagRegister 0
  let left := (cleared.register (x word)).toNat
  let top := (cleared.register (y word)).toNat
  let drawn := (List.range (height word)).foldl
    (fun current row =>
      drawRow left (top + row) ((state.memory.byte? (state.index.toNat + row)).getD 0) current)
    cleared
  { drawn with framePending := true }

/-- The effect of a word on a state whose program counter is already past it, or nothing
if the word is not implemented. -/
def effect? (word : UInt16) (state : State) : Option State :=
  if word &&& 0xF000 = 0x0000 then
    if word = 0x00E0 then
      some { state with frame := ⟨Vector.replicate 2048 0⟩, framePending := true }
    else none
  else if word &&& 0xF000 = 0x1000 then some { state with pc := address word }
  else if word &&& 0xF000 = 0x6000 then
    some { state with registers := state.registers.set (x word) (value word) }
  else if word &&& 0xF000 = 0x7000 then
    some { state with
      registers := state.registers.set (x word)
        (UInt8.ofNat ((state.registers[x word].toNat + (value word).toNat) % 256)) }
  else if word &&& 0xF000 = 0xA000 then some { state with index := address word }
  else if word &&& 0xF000 = 0xD000 then some (draw word state)
  else none

/-- Both timers one lower, unless they are zero. -/
def countDown (state : State) : State :=
  { state with
    delayTimer := UInt8.ofNat (state.delayTimer.toNat - 1)
    soundTimer := UInt8.ofNat (state.soundTimer.toNat - 1) }

/-- The machine after a word was fetched: the program counter moves past it, the word takes
effect or is counted as skipped, and the timers count down. -/
def complete (word : UInt16) (machine : Machine) : Machine :=
  let advanced := { machine.state with pc := UInt16.ofNat (machine.state.pc.toNat + 2) }
  match effect? word advanced with
  | some next => { machine with state := countDown next }
  | none =>
    { state := countDown advanced
      skipped := machine.skipped + 1
      lastSkipped := some ⟨word⟩ }

/-- One step: the word at the program counter is fetched if both of its bytes lie inside
the memory, and completed. -/
def step (machine : Machine) : Except Fault Machine :=
  let pc := machine.state.pc.toNat
  if inside : pc + 1 < 4096 then
    let high := machine.state.memory.byteAt ⟨pc, Nat.lt_of_succ_lt inside⟩
    let low := machine.state.memory.byteAt ⟨pc + 1, inside⟩
    .ok (complete (UInt16.ofNat (high.toNat * 256 + low.toNat)) machine)
  else .error (.outOfBounds (if pc < 4096 then pc + 1 else pc))

/-! ## Masks and shifts -/

section Masks

variable (word : UInt16)

/-- The first register of an opcode, by a mask and by division. -/
theorem x_eq : x word = Opcode.x ⟨word⟩ := by
  apply Fin.ext
  have mask : (0xF : UInt16).toNat = 2 ^ 4 - 1 := rfl
  have shift : (8 : UInt16).toNat % 16 = 8 := rfl
  simp only [x, Opcode.x, Opcode.toNat, UInt16.toNat_and, UInt16.toNat_shiftRight, mask, shift,
    Nat.and_two_pow_sub_one_eq_mod, Nat.shiftRight_eq_div_pow]

/-- The second register, likewise. -/
theorem y_eq : y word = Opcode.y ⟨word⟩ := by
  apply Fin.ext
  have mask : (0xF : UInt16).toNat = 2 ^ 4 - 1 := rfl
  have shift : (4 : UInt16).toNat % 16 = 4 := rfl
  simp only [y, Opcode.y, Opcode.toNat, UInt16.toNat_and, UInt16.toNat_shiftRight, mask, shift,
    Nat.and_two_pow_sub_one_eq_mod, Nat.shiftRight_eq_div_pow]

/-- The height, likewise. -/
theorem height_eq : height word = (Opcode.n ⟨word⟩).val := by
  have mask : (0xF : UInt16).toNat = 2 ^ 4 - 1 := rfl
  simp only [height, Opcode.n, Opcode.toNat, UInt16.toNat_and, mask,
    Nat.and_two_pow_sub_one_eq_mod]

/-- The byte, likewise. -/
theorem value_eq : value word = Opcode.kk ⟨word⟩ := by
  have mask : (0xFF : UInt16).toNat = 2 ^ 8 - 1 := rfl
  apply UInt8.toNat_inj.mp
  simp only [value, Opcode.kk, Opcode.toNat, UInt16.toNat_toUInt8, UInt16.toNat_and, mask,
    Nat.and_two_pow_sub_one_eq_mod, Nat.mod_mod, UInt8.toNat_ofNat']

/-- The address, likewise. -/
theorem address_eq : address word = UInt16.ofNat (Opcode.address ⟨word⟩).val := by
  have mask : (0x0FFF : UInt16).toNat = 2 ^ 12 - 1 := rfl
  apply UInt16.toNat_inj.mp
  simp only [address, Opcode.address, Opcode.toNat, UInt16.toNat_and, mask,
    Nat.and_two_pow_sub_one_eq_mod, UInt16.toNat_ofNat']
  omega

/-- The mask `F000` keeps the family and clears the other nibbles. -/
theorem toNat_and_F000 : (word &&& 0xF000).toNat = (Opcode.family ⟨word⟩).val * 4096 := by
  have mask : (0xF000 : UInt16).toNat = (2 ^ 4 - 1) * 2 ^ 12 := rfl
  have high : (word.toNat &&& (2 ^ 4 - 1) * 2 ^ 12) / 2 ^ 12 = word.toNat / 2 ^ 12 % 2 ^ 4 := by
    rw [Nat.and_div_two_pow, Nat.mul_div_cancel _ (Nat.two_pow_pos 12),
      Nat.and_two_pow_sub_one_eq_mod]
  have low : (word.toNat &&& (2 ^ 4 - 1) * 2 ^ 12) % 2 ^ 12 = 0 := by
    rw [Nat.and_mod_two_pow, Nat.mul_mod_left, Nat.and_zero]
  have bound := word.toNat_lt
  simp only [Opcode.family, Opcode.toNat, UInt16.toNat_and, mask]
  omega

/-- Asking for a masked word is asking for the family. -/
theorem and_F000_eq_iff (family : Fin 16) :
    word &&& 0xF000 = UInt16.ofNat (family.val * 4096) ↔ Opcode.family ⟨word⟩ = family := by
  have value : (UInt16.ofNat (family.val * 4096)).toNat = family.val * 4096 :=
    UInt16.toNat_ofNat_of_lt' (by have := family.isLt; simp only [UInt16.size]; omega)
  rw [← UInt16.toNat_inj, toNat_and_F000, value, Fin.ext_iff]
  omega

end Masks

/-- The mask that the column shifts out of `80` asks for the column's bit. -/
theorem and_shifted_ne_zero_iff (byte : UInt8) {column : Nat} (narrow : column < 8) :
    byte &&& (0x80 >>> UInt8.ofNat column) ≠ 0 ↔ byte.toNat.testBit (7 - column) := by
  have masks : ∀ column : Fin 8,
      ((0x80 : UInt8) >>> UInt8.ofNat column.val).toNat = 2 ^ (7 - column.val) := by decide
  have zero : (0 : UInt8).toNat = 0 := rfl
  rw [ne_eq, ← UInt8.toNat_inj, UInt8.toNat_and, masks ⟨column, narrow⟩, zero, Nat.and_two_pow]
  cases byte.toNat.testBit (7 - column) with
  | false => simp only [Bool.toNat_false, Nat.zero_mul, not_true_eq_false, Bool.false_eq_true]
  | true => simp only [Bool.toNat_true, Nat.one_mul, Nat.pow_eq_zero, OfNat.ofNat_ne_zero,
      false_and, not_false_eq_true]

/-! ## Drawing -/

/-- The cell at a column and a row, around the edges. -/
theorem cellNumber_eq (column row : Nat) :
    cellNumber column row = (Pixel.wrap column row).index := by
  apply Fin.ext
  simp only [cellNumber, Pixel.wrap, Pixel.index, Fin.val_ofNat]
  omega

theorem setIfInBounds_eq_set {α : Type} {size number : Nat} (inside : number < size)
    (values : Vector α size) (value : α) :
    values.setIfInBounds number value = values.set number value inside :=
  Vector.ext fun other within => by rw [Vector.getElem_setIfInBounds, Vector.getElem_set]

/-- To plot a bit is to flip its pixel, and to set the flag if it was lit. -/
theorem plot_eq (pixel : Pixel) (state : State) :
    plot pixel.index state =
      { if state.frame.isLit pixel then state.setRegister State.flagRegister 1 else state with
        frame := state.frame.toggle pixel } := by
  simp only [plot, Frame.isLit, beq_iff_eq, setIfInBounds_eq_set pixel.index.isLt]
  rfl

/-- Plotting distinct pixels one after the other tests every one of them against the frame
as it was before: none of the earlier ones has flipped it. -/
theorem foldl_plot (state : State) {pixels : List Pixel} (distinct : pixels.Nodup) :
    pixels.foldl (fun current pixel => plot pixel.index current) state =
      { if pixels.any state.frame.isLit then state.setRegister State.flagRegister 1 else state with
        frame := state.frame.toggleAll pixels } := by
  induction pixels generalizing state with
  | nil => rfl
  | cons pixel rest ih =>
      obtain ⟨fresh, distinct⟩ := List.nodup_cons.mp distinct
      have untouched : rest.any (state.frame.toggle pixel).isLit = rest.any state.frame.isLit := by
        rw [Bool.eq_iff_iff, List.any_eq_true, List.any_eq_true]
        apply exists_congr
        intro other
        apply and_congr_right
        intro member
        have different : pixel ≠ other := fun same => fresh (same ▸ member)
        simp only [Frame.isLit, Frame.cell_toggle, different, ↓reduceIte]
      rw [List.foldl_cons, ih _ distinct, plot_eq, List.any_cons]
      simp only [untouched, Frame.toggleAll_cons]
      cases state.frame.isLit pixel with
      | false =>
          simp only [Bool.false_or, Bool.false_eq_true, ↓reduceIte]
          split <;> rfl
      | true => simp only [Bool.true_or, ↓reduceIte, State.setRegister, Vector.set_set, ite_self]

/-- To draw a byte is to plot its columns one after the other. -/
theorem drawRow_eq (left top : Nat) (byte : UInt8) (state : State) :
    drawRow left top byte state =
      (Sprite.columns byte).foldl
        (fun current column => plot (Pixel.wrap (left + column) top).index current) state := by
  unfold drawRow Sprite.columns
  rw [List.foldl_filter]
  apply List.foldl_ext
  intro current column member
  simp only [and_shifted_ne_zero_iff byte (List.mem_range.mp member), cellNumber_eq]

/-- The loops over rows and bits draw the sprite. -/
theorem draw_eq (word : UInt16) (state : State) :
    draw word state = state.draw
      (state.sprite (Opcode.x ⟨word⟩) (Opcode.y ⟨word⟩) (Opcode.n ⟨word⟩).val) := by
  let cleared := state.setRegister State.flagRegister 0
  let sprite := state.sprite (Opcode.x ⟨word⟩) (Opcode.y ⟨word⟩) (Opcode.n ⟨word⟩).val
  have rows : sprite.rows.length = (Opcode.n ⟨word⟩).val := State.length_rows_sprite ..
  have small : sprite.rows.length ≤ 32 := by
    have := (Opcode.n ⟨word⟩).isLt
    omega
  have looped : (List.range (Opcode.n ⟨word⟩).val).foldl
      (fun current row => drawRow sprite.left.toNat (sprite.top.toNat + row)
        ((state.memory.byte? (state.index.toNat + row)).getD 0) current) cleared =
      sprite.pixels.foldl (fun current pixel => plot pixel.index current) cleared := by
    rw [sprite.pixels_eq_flatMap_range, List.foldl_flatMap, rows]
    apply List.foldl_ext
    intro current row member
    rw [drawRow_eq, List.foldl_map, state.row_sprite _ _ (List.mem_range.mp member)]
  -- The flag register is zero before the loops, so it becomes one exactly on a collision.
  have flag : (if sprite.pixels.any cleared.frame.isLit then
      cleared.setRegister State.flagRegister 1 else cleared) =
      state.setRegister State.flagRegister (if sprite.collides state.frame then 1 else 0) := by
    change (if sprite.collides state.frame then _ else _) = _
    split
    · exact congrArg (fun registers => { state with registers := registers }) (Vector.set_set ..)
    · rfl
  rw [foldl_plot cleared (Sprite.nodup_pixels small), flag] at looped
  simp only [draw, x_eq, y_eq, height_eq]
  exact congrArg (fun drawn : State => { drawn with framePending := true }) looped

/-! ## Steps -/

/-- Bytes are added modulo 256. -/
theorem add_eq (first second : UInt8) :
    UInt8.ofNat ((first.toNat + second.toNat) % 256) = first + second := by
  apply UInt8.toNat_inj.mp
  rw [UInt8.toNat_ofNat', UInt8.toNat_add, Nat.mod_mod]

/-- What a word does is what its opcode decodes to. -/
theorem effect?_eq (word : UInt16) (state : State) :
    effect? word state =
      (Instruction.decode? ⟨word⟩).map fun instruction => instruction.execute state := by
  have clears : word &&& 0xF000 = 0x0000 ↔ _ := and_F000_eq_iff word 0x0
  have jumps : word &&& 0xF000 = 0x1000 ↔ _ := and_F000_eq_iff word 0x1
  have loads : word &&& 0xF000 = 0x6000 ↔ _ := and_F000_eq_iff word 0x6
  have adds : word &&& 0xF000 = 0x7000 ↔ _ := and_F000_eq_iff word 0x7
  have points : word &&& 0xF000 = 0xA000 ↔ _ := and_F000_eq_iff word 0xA
  have draws : word &&& 0xF000 = 0xD000 ↔ _ := and_F000_eq_iff word 0xD
  simp only [effect?, clears, jumps, loads, adds, points, draws, Instruction.decode?_eq, x_eq,
    value_eq, address_eq, draw_eq]
  by_cases leading : Opcode.family ⟨word⟩ = 0x0
  · simp only [leading, Fin.reduceEq, ↓reduceIte]
    split
    · rfl
    · rfl
  · have other := Instruction.word_ne_of_family_ne ⟨word⟩ leading
    simp only [leading, other, ↓reduceIte]
    split_ifs
    · rfl
    · rfl
    · simp only [add_eq]
      rfl
    · rfl
    · rfl
    · rfl

/-- The timers are counted down together. -/
theorem countDown_eq (state : State) : countDown state = state.tick := by
  have timer (value : UInt8) : UInt8.ofNat (value.toNat - 1) = State.countDown value := by
    rw [← State.toNat_countDown, UInt8.ofNat_toNat]
  simp only [countDown, State.tick, timer]

/-- What the manual says of an opcode is what the machine does. -/
theorem complete_eq (word : UInt16) (machine : Machine) :
    complete word machine = machine.complete ⟨word⟩ := by
  have advanced : { machine.state with pc := UInt16.ofNat (machine.state.pc.toNat + 2) } =
      machine.state.passOpcode := by
    rw [State.passOpcode, UInt16.ofNat_add, UInt16.ofNat_toNat]
    rfl
  simp only [complete, advanced, effect?_eq, countDown_eq, Machine.complete]
  cases Instruction.decode? ⟨word⟩ with
  | none => rfl
  | some instruction => rfl

end Manual

namespace Machine

/-- In every state a step is the one of the manual. -/
theorem step_eq_step_of_manual (machine : Machine) : machine.step = Manual.step machine := by
  unfold Manual.step
  by_cases inside : machine.state.pc.toNat + 1 < 4096
  · have fetched := State.fetch_eq_ok_iff.mpr (machine.state.memory.opcode?_of_lt inside)
    rw [step_eq_ok_iff.mpr ⟨_, fetched, rfl⟩]
    simp only [inside, ↓reduceDIte, Manual.complete_eq, Opcode.ofBytes]
  · have outside : Memory.size ≤ machine.state.pc.toNat + 1 := Nat.not_lt.mp inside
    have first : max machine.state.pc.toNat Memory.size =
        if machine.state.pc.toNat < 4096 then machine.state.pc.toNat + 1
        else machine.state.pc.toNat := by
      rw [Memory.size] at outside ⊢
      split <;> omega
    rw [step_eq_error_iff.mpr (State.fetch_eq_error_iff.mpr ⟨outside, rfl⟩)]
    simp only [inside, ↓reduceDIte, first]

/-- **The machine follows the manual.** In every state, whatever its program counter, a
step is the manual's step: it fails in the same states with the same fault, and otherwise
leaves the same machine in every part. The fault names the first of the two addresses that
lies outside the memory. -/
theorem step_eq_manual (machine : Machine) :
    machine.step = Manual.step machine ∧
      ∀ fault, machine.step = .error fault ↔
        0xFFF ≤ machine.state.pc.toNat ∧ fault = .outOfBounds (max machine.state.pc.toNat 4096) := by
  refine ⟨machine.step_eq_step_of_manual, fun fault => ?_⟩
  rw [step_eq_error_iff, State.fetch_eq_error_iff, Memory.size]
  exact and_congr_left fun _ => by omega

end Machine

end ChipEight
