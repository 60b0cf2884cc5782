import ChipEight.Proofs.Manual

/-! # Checked operations

The instructions once more, piece by piece, with everything checked that is not defined for all
operands: a sum that has to stay below a bound, a place that an array has to have, a slice that has
to lie inside. What needs something that is not met crashes (`Stop.crashed`), which is something
else than being refused. In every state all that an instruction needs is met, whatever the word
(`Checked.exists_eq_ok_of_mem`), and it does what the machine's does (`Checked.select?_eq`).
-/

namespace ChipEight

/-- What something that is not defined for all operands needs. -/
inductive Demand
  /-- The sum of two numbers has to stay below a bound. -/
  | sum (left right bound : Nat)
  /-- The product of two numbers has to stay below a bound. -/
  | product (left right bound : Nat)
  /-- A divisor must not be zero. -/
  | divisor (number : Nat)
  /-- A place has to be one of those that an array has. -/
  | place (number size : Nat)
  /-- Bits can be shifted only by less than their number. -/
  | shift (amount bits : Nat)
  /-- A slice must not end before it begins, nor after what it is cut out of. -/
  | slice (first last size : Nat)
  /-- A copy has to fill exactly the room that there is for it. -/
  | copy (room size : Nat)

namespace Demand

/-- When an operation does what it should and does not crash. -/
def IsMet : Demand → Prop
  | sum left right bound => left + right < bound
  | product left right bound => left * right < bound
  | divisor number => number ≠ 0
  | place number size => number < size
  | shift amount bits => amount < bits
  | slice first last size => first ≤ last ∧ last ≤ size
  | copy room size => room = size

instance : (needed : Demand) → Decidable needed.IsMet
  | sum left right bound => inferInstanceAs (Decidable (left + right < bound))
  | product left right bound => inferInstanceAs (Decidable (left * right < bound))
  | divisor number => inferInstanceAs (Decidable (number ≠ 0))
  | place number size => inferInstanceAs (Decidable (number < size))
  | shift amount bits => inferInstanceAs (Decidable (amount < bits))
  | slice first last size => inferInstanceAs (Decidable (first ≤ last ∧ last ≤ size))
  | copy room size => inferInstanceAs (Decidable (room = size))

end Demand

/-- Why a checked operation has no outcome. -/
inductive Stop
  | refused (fault : Fault)
  | crashed (unmet : Demand)

/-- The outcome of a checked operation. -/
abbrev Checked := Except Stop

namespace Checked

variable {α : Type} {size : Nat}

/-- A value, if what it needs is met. -/
def ensure (needed : Demand) (value : α) : Checked α :=
  if needed.IsMet then .ok value else .error (.crashed needed)

/-- What may be refused, but does not crash. -/
def attempt (outcome : Except Fault α) : Checked α :=
  outcome.mapError .refused

/-- A sum that has to stay below a bound. -/
def sum (bound left right : Nat) : Checked Nat :=
  ensure (.sum left right bound) (left + right)

/-- A product that has to stay below a bound. -/
def product (bound left right : Nat) : Checked Nat :=
  ensure (.product left right bound) (left * right)

/-- A remainder, whose divisor must not be zero. -/
def remainder (number divisor : Nat) : Checked Nat :=
  ensure (.divisor divisor) (number % divisor)

/-- A byte shifted by less than its width. -/
def shiftRight (byte : UInt8) (amount : Nat) : Checked UInt8 :=
  ensure (.shift amount 8) (byte >>> UInt8.ofNat amount)

/-- The value at a place that has to be there. -/
def get (values : Vector α size) (number : Nat) : Checked α :=
  match values[number]? with
  | some value => .ok value
  | none => .error (.crashed (.place number size))

/-- The values with another one at a place that has to be there. -/
def set (values : Vector α size) (number : Nat) (value : α) : Checked (Vector α size) :=
  ensure (.place number size) (values.setIfInBounds number value)

/-- Copies bytes into the slice of a memory from one address up to another. -/
def copy (memory : Memory) (first last : Nat) (bytes : Array UInt8) : Checked Memory := do
  ensure (.slice first last Memory.size) ()
  ensure (.copy (last - first) bytes.size) (memory.write first bytes)

theorem ok_bind {β : Type} (value : α) (next : α → Checked β) : (.ok value >>= next) = next value :=
  rfl

theorem ensure_map {β : Type} (needed : Demand) (value : α) (next : α → β) :
    (do return next (← ensure needed value)) = ensure needed (next value) := by
  unfold ensure
  split
  · rfl
  · rfl

section Ensuring

variable {bound left right : Nat}

theorem sum_of_lt (small : left + right < bound) : sum bound left right = .ok (left + right) :=
  if_pos small

theorem product_of_lt (small : left * right < bound) :
    product bound left right = .ok (left * right) :=
  if_pos small

theorem remainder_of_ne_zero {divisor : Nat} (nonzero : divisor ≠ 0) (number : Nat) :
    remainder number divisor = .ok (number % divisor) :=
  if_pos nonzero

theorem shiftRight_of_lt {amount : Nat} (narrow : amount < 8) (byte : UInt8) :
    shiftRight byte amount = .ok (byte >>> UInt8.ofNat amount) :=
  if_pos narrow

theorem get_of_lt {number : Nat} (inside : number < size) (values : Vector α size) :
    get values number = .ok (values.get ⟨number, inside⟩) := by
  rw [get, Vector.getElem?_eq_getElem inside]
  rfl

theorem set_of_lt {number : Nat} (inside : number < size) (values : Vector α size) (value : α) :
    set values number value = .ok (values.set number value inside) := by
  rw [← Manual.setIfInBounds_eq_set inside]
  exact if_pos inside

/-- Bytes are copied to where they fit exactly. -/
theorem copy_of_le {memory : Memory} {first last : Nat} {bytes : Array UInt8}
    (room : first + bytes.size = last) (inside : last ≤ Memory.size) :
    copy memory first last bytes = .ok (memory.write first bytes) := by
  have slice : Demand.IsMet (.slice first last Memory.size) := ⟨by omega, inside⟩
  have fills : Demand.IsMet (.copy (last - first) bytes.size) := Nat.sub_eq_of_eq_add' room.symm
  rw [copy, ensure, if_pos slice, ok_bind, ensure, if_pos fills]

/-- What is at most the sum of two numbers of sixteen bits is within sixty-four. -/
theorem lt_size_of_lt {number : Nat} (small : number < 2 * 65536) : number < UInt64.size :=
  Nat.lt_trans small (by decide)

end Ensuring

/-- A loop whose body always succeeds does so as well. -/
theorem foldlM_eq_ok {β : Type} {body : β → α → Checked β} {next : β → α → β} {items : List α}
    (succeeds : ∀ current, ∀ item ∈ items, body current item = .ok (next current item))
    (current : β) : items.foldlM body current = .ok (items.foldl next current) := by
  induction items generalizing current with
  | nil => rfl
  | cons item rest ih =>
      rw [List.foldlM_cons, List.foldl_cons, succeeds current item List.mem_cons_self, ok_bind]
      exact ih (fun current other member => succeeds current other (List.mem_cons_of_mem item member))
        _

/-! ## Instructions -/

/-- The number of the register in the second nibble of a word. -/
def x (word : UInt16) : Nat :=
  ((word &&& 0x0F00) >>> 8).toUInt8.toNat

/-- The number of the register in the third nibble of a word. -/
def y (word : UInt16) : Nat :=
  ((word &&& 0x00F0) >>> 4).toUInt8.toNat

/-- Flips the cell of a number. The flag register becomes one if the cell holds one. -/
def plot (cell : Nat) (state : State) : Checked State := do
  let current ← get state.frame.cells cell
  let registers ← if current = 1 then set state.registers 0xF 1 else pure state.registers
  let cells ← set state.frame.cells cell (current ^^^ 1)
  return { state with registers := registers, frame := ⟨cells⟩ }

/-- Draws one bit of a row of a sprite. -/
def drawBit (left row : Nat) (byte : UInt8) (bit : Nat) (state : State) : Checked State := do
  let mask ← shiftRight 0x80 bit
  if byte &&& mask = 0 then
    return state
  else
    let column ← remainder (← sum UInt64.size left bit) 64
    let cell ← sum UInt64.size column (← product UInt64.size row 64)
    plot cell state

/-- Draws the eight bits of a byte into one row, around its end. -/
def drawRow (left top down : Nat) (byte : UInt8) (state : State) : Checked State := do
  let row ← remainder (← sum UInt64.size top down) 32
  (List.range 8).foldlM (fun current bit => drawBit left row byte bit current) state

/-- Turns all pixels off. -/
def clear (_ : UInt16) (state : State) : Checked State :=
  return { state with frame := ⟨Vector.replicate 2048 0⟩, framePending := true }

/-- Moves the program counter to an address. -/
def jump (word : UInt16) (state : State) : Checked State :=
  return { state with pc := Manual.address word }

/-- Stores a byte in a register. -/
def load (word : UInt16) (state : State) : Checked State := do
  let registers ← set state.registers (x word) (Manual.value word)
  return { state with registers := registers }

/-- Adds to a register. The sum goes round, so that it needs nothing. -/
def add (word : UInt16) (state : State) : Checked State := do
  let value ← get state.registers (x word)
  let registers ← set state.registers (x word) (value + Manual.value word)
  return { state with registers := registers }

/-- Stores an address in the index register. -/
def setIndex (word : UInt16) (state : State) : Checked State :=
  return { state with index := Manual.address word }

/-- Draws the bytes from the index register on, row by row. -/
def draw (word : UInt16) (state : State) : Checked State := do
  let start := state.index.toNat
  let stop ← sum UInt64.size start (Manual.height word)
  let registers ← set state.registers 0xF 0
  let left ← get registers (x word)
  let top ← get registers (y word)
  let drawn ← (List.range (stop - start)).foldlM
    (fun current down =>
      drawRow left.toNat top.toNat down ((state.memory.byte? (start + down)).getD 0) current)
    { state with registers := registers }
  return { drawn with framePending := true }

/-- The instructions in the order in which they are looked up. -/
def instructions : List (UInt16 → State → Checked State) :=
  [clear, jump, load, add, setIndex, draw]

/-- The instruction that a word selects, if it is implemented. -/
def select? (word : UInt16) : Option (UInt16 → State → Checked State) :=
  if word &&& 0xF000 = 0x0000 then if word = 0x00E0 then some clear else none
  else if word &&& 0xF000 = 0x1000 then some jump
  else if word &&& 0xF000 = 0x6000 then some load
  else if word &&& 0xF000 = 0x7000 then some add
  else if word &&& 0xF000 = 0xA000 then some setIndex
  else if word &&& 0xF000 = 0xD000 then some draw
  else none

section Instructions

variable (word : UInt16) (state : State)

/-- A nibble that is cut out of a word with a mask and then shifted to the right. -/
theorem toNat_nibble {mask amount : UInt16} {shift : Nat}
    (cuts : mask.toNat = (2 ^ 4 - 1) * 2 ^ shift) (shifts : amount.toNat % 16 = shift) :
    ((word &&& mask) >>> amount).toUInt8.toNat = word.toNat / 2 ^ shift % 16 := by
  rw [UInt16.toNat_toUInt8, UInt16.toNat_shiftRight, UInt16.toNat_and, cuts, shifts,
    Nat.shiftRight_eq_div_pow, Nat.and_div_two_pow, Nat.mul_div_cancel _ (Nat.two_pow_pos shift),
    Nat.and_two_pow_sub_one_eq_mod]
  omega

/-- The first register of an opcode, by masks and by division. -/
theorem x_eq : x word = (Opcode.x ⟨word⟩).val :=
  have mask : (0x0F00 : UInt16).toNat = (2 ^ 4 - 1) * 2 ^ 8 := rfl
  toNat_nibble word mask rfl

theorem y_eq : y word = (Opcode.y ⟨word⟩).val :=
  have mask : (0x00F0 : UInt16).toNat = (2 ^ 4 - 1) * 2 ^ 4 := rfl
  toNat_nibble word mask rfl

theorem x_lt : x word < 16 :=
  x_eq word ▸ (Opcode.x ⟨word⟩).isLt

theorem y_lt : y word < 16 :=
  y_eq word ▸ (Opcode.y ⟨word⟩).isLt

/-- A checked load never crashes. -/
theorem load_eq :
    load word state = .ok (state.setRegister (Manual.x word) (Manual.value word)) := by
  rw [load, set_of_lt (x_lt word), ok_bind]
  simp only [x_eq, Manual.x_eq]
  rfl

theorem add_eq :
    add word state =
      .ok (state.setRegister (Manual.x word)
        (state.register (Manual.x word) + Manual.value word)) := by
  rw [add, get_of_lt (x_lt word), ok_bind, set_of_lt (x_lt word), ok_bind]
  simp only [x_eq, Manual.x_eq]
  rfl

/-- A bit is plotted without a crash in every cell that there is. -/
theorem plot_eq (cell : Fin 2048) : plot cell.val state = .ok (Manual.plot cell state) := by
  rw [plot, get_of_lt cell.isLt, ok_bind, set_of_lt cell.isLt, Manual.plot,
    Manual.setIfInBounds_eq_set cell.isLt]
  split
  · rw [set_of_lt (by decide)]
    rfl
  · rfl

variable {left top bit down : Nat} (byte : UInt8)

/-- The coordinates of a cell go round, each on its own, before the number of the cell is made of
them. -/
theorem drawBit_eq (near : left < 256) (narrow : bit < 8) :
    drawBit left (down % 32) byte bit state =
      .ok (if byte &&& (0x80 >>> UInt8.ofNat bit) ≠ 0 then
        Manual.plot (Manual.cellNumber (left + bit) down) state
      else state) := by
  have row : down % 32 < 32 := Nat.mod_lt _ (by decide)
  have inside : (left + bit) % 64 + down % 32 * 64 < 2048 :=
    (Manual.cellNumber (left + bit) down).isLt
  rw [drawBit, shiftRight_of_lt narrow, ok_bind]
  by_cases unset : byte &&& (0x80 >>> UInt8.ofNat bit) = 0
  · rw [if_pos unset, if_neg (not_not_intro unset)]
    rfl
  · -- What is needed before the cell is plotted, in the order in which it is asked for.
    rw [if_neg unset, if_pos unset, sum_of_lt (lt_size_of_lt (by omega)), ok_bind,
      remainder_of_ne_zero (by decide), ok_bind, product_of_lt (lt_size_of_lt (by omega)), ok_bind,
      sum_of_lt (lt_size_of_lt (by omega)), ok_bind]
    exact plot_eq state (Manual.cellNumber (left + bit) down)

/-- A row is drawn without a crash wherever a draw can put it. -/
theorem drawRow_eq (near : left < 256) (high : top < 256) (low : down < 16) :
    drawRow left top down byte state = .ok (Manual.drawRow left (top + down) byte state) := by
  rw [drawRow, sum_of_lt (lt_size_of_lt (by omega)), ok_bind, remainder_of_ne_zero (by decide),
    ok_bind]
  apply foldlM_eq_ok
  intro current bit member
  exact drawBit_eq current byte near (List.mem_range.mp member)

/-- A checked draw never crashes, by induction over its rows and their bits. -/
theorem draw_eq : draw word state = .ok (Manual.draw word state) := by
  have small : Manual.height word < 16 := Manual.height_eq word ▸ (Opcode.n ⟨word⟩).isLt
  have start := state.index.toNat_lt
  rw [draw, sum_of_lt (lt_size_of_lt (by omega)), ok_bind, set_of_lt (by decide), ok_bind,
    get_of_lt (x_lt word), ok_bind, get_of_lt (y_lt word), ok_bind, Nat.add_sub_cancel_left,
    foldlM_eq_ok fun current down member => drawRow_eq current _ (UInt8.toNat_lt _)
      (UInt8.toNat_lt _) (Nat.lt_trans (List.mem_range.mp member) small), ok_bind]
  simp only [x_eq, y_eq, Manual.draw, Manual.x_eq, Manual.y_eq]
  rfl

/-- A word selects an instruction if it is implemented, and this has the effect of the word. -/
theorem select?_eq :
    ((select? word).map fun instruction => instruction word state) =
      (Instruction.decode? ⟨word⟩).map fun instruction => .ok (instruction.execute state) := by
  have effects : ((select? word).map fun instruction => instruction word state) =
      (Manual.effect? word state).map .ok := by
    unfold select? Manual.effect?
    split_ifs
    · rfl
    · rfl
    · rfl
    · exact congrArg some (load_eq word state)
    · rw [Option.map_some, Option.map_some, add_eq, Manual.add_eq]
      rfl
    · rfl
    · exact congrArg some (draw_eq word state)
    · rfl
  rw [effects, Manual.effect?_eq, Option.map_map]
  rfl

/-- Whatever the word and the state, an instruction neither is refused nor crashes. -/
theorem exists_eq_ok_of_mem {instruction : UInt16 → State → Checked State}
    (member : instruction ∈ instructions) : ∃ next, instruction word state = .ok next := by
  simp only [instructions, List.mem_cons, List.not_mem_nil, or_false] at member
  rcases member with rfl | rfl | rfl | rfl | rfl | rfl
  · exact ⟨_, rfl⟩
  · exact ⟨_, rfl⟩
  · exact ⟨_, load_eq word state⟩
  · exact ⟨_, add_eq word state⟩
  · exact ⟨_, rfl⟩
  · exact ⟨_, draw_eq word state⟩

end Instructions

end Checked

end ChipEight
