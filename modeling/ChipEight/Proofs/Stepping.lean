import ChipEight.Machine
import Mathlib.Tactic.SplitIfs

/-! # What a step does

A step either fetches an opcode and completes it or fails where no opcode can be
fetched (`Machine.step_eq_ok_iff`, `Machine.step_eq_error_iff`). Completing an opcode
is described one part of the state at a time, in terms of the opcode alone.
-/

namespace ChipEight

namespace Instruction

/-- Decoding as one choice after the other. The word `00E0` is the only implemented
one of its family, so it can be asked for first. -/
theorem decode?_eq (op : Opcode) :
    decode? op =
      if op.word = 0x00E0 then some .clear
      else if op.family = 0x1 then some (.jump op.address)
      else if op.family = 0x6 then some (.load op.x op.kk)
      else if op.family = 0x7 then some (.add op.x op.kk)
      else if op.family = 0xA then some (.setIndex op.address)
      else if op.family = 0xD then some (.draw op.x op.y op.n)
      else none := by
  by_cases clears : op.word = 0x00E0
  · have leading : op.family = 0x0 := by
      simp only [Opcode.family, Opcode.toNat, clears]
      rfl
    simp only [decode?, leading, clears, ↓reduceIte]
  · simp only [decode?, clears, ↓reduceIte]
    split <;> simp_all

/-- The word `00E0` belongs to no family but its own. -/
theorem word_ne_of_family_ne (op : Opcode) (other : op.family ≠ 0x0) : op.word ≠ 0x00E0 := by
  intro clears
  apply other
  simp only [Opcode.family, Opcode.toNat, clears]
  rfl

/-- Every opcode of the last family draws. -/
theorem decode?_of_draw {op : Opcode} (draws : op.family.val = 0xD) :
    decode? op = some (.draw op.x op.y op.n) := by
  have family : op.family = 0xD := Fin.ext draws
  rw [decode?, family]
  rfl

end Instruction

namespace Opcode

/-- Whether an opcode writes the frame: it clears it or draws on it. -/
def Paints (op : Opcode) : Prop :=
  op.word = 0x00E0 ∨ op.family.val = 0xD

instance (op : Opcode) : Decidable op.Paints :=
  inferInstanceAs (Decidable (_ ∨ _))

/-- Whether an opcode is one that the machine knows: the clearing one, or one of a family
that is implemented as a whole. -/
def IsKnown (op : Opcode) : Prop :=
  op.word = 0x00E0 ∨ op.family.val ∈ [0x1, 0x6, 0x7, 0xA, 0xD]

instance (op : Opcode) : Decidable op.IsKnown :=
  inferInstanceAs (Decidable (_ ∨ _))

/-- The opcodes that paint are those that clear or draw. -/
theorem paints_iff (op : Opcode) : op.Paints ↔ op.word = 0x00E0 ∨ op.family = 0xD := by
  have draws : op.family = 0xD ↔ op.family.val = 0xD := Fin.ext_iff
  rw [Paints, draws]

/-- The opcodes that are implemented are those that the machine knows. -/
theorem isImplemented_iff (op : Opcode) : op.isImplemented = true ↔ op.IsKnown := by
  have families : op.family.val ∈ [0x1, 0x6, 0x7, 0xA, 0xD] ↔
      op.family = 0x1 ∨ op.family = 0x6 ∨ op.family = 0x7 ∨ op.family = 0xA ∨ op.family = 0xD := by
    simp only [List.mem_cons, List.not_mem_nil, or_false, Fin.ext_iff]
    rfl
  rw [IsKnown, families, isImplemented, Instruction.decode?_eq]
  split_ifs <;> simp_all

/-- An opcode that paints is implemented. -/
theorem isImplemented_of_paints {op : Opcode} (paints : op.Paints) : op.isImplemented = true := by
  rw [isImplemented_iff]
  rcases paints with clears | draws
  · exact .inl clears
  · exact .inr (by rw [draws]; decide)

/-- Opcodes that are not implemented paint nothing. -/
theorem not_paints_of_unknown {op : Opcode} (unknown : op.isImplemented = false) : ¬op.Paints := by
  intro paints
  rw [isImplemented_of_paints paints] at unknown
  cases unknown

end Opcode

namespace State

/-- The opcode that is fetched stands at the program counter. -/
theorem fetch_eq_ok_iff {state : State} {op : Opcode} :
    state.fetch = .ok op ↔ state.memory.opcode? state.pc.toNat = some op := by
  unfold fetch
  cases state.memory.opcode? state.pc.toNat with
  | some found => simp only [Except.ok.injEq, Option.some.injEq]
  | none => simp only [reduceCtorEq]

/-- No opcode is fetched exactly where its second byte lies outside the memory, and the
fault names the first byte that does. -/
theorem fetch_eq_error_iff {state : State} {fault : Fault} :
    state.fetch = .error fault ↔
      Memory.size ≤ state.pc.toNat + 1 ∧ fault = .outOfBounds (max state.pc.toNat Memory.size) := by
  unfold fetch
  cases found : state.memory.opcode? state.pc.toNat with
  | some op =>
      have inside : ¬Memory.size ≤ state.pc.toNat + 1 := fun outside => by
        rw [(state.memory.opcode?_eq_none_iff _).mpr outside] at found
        cases found
      simp only [reduceCtorEq, inside, false_and]
  | none =>
      have outside := (state.memory.opcode?_eq_none_iff _).mp found
      simp only [Except.error.injEq, outside, true_and, eq_comm]

/-- Past an opcode the program counter has gone on by two, without wrapping around. -/
theorem toNat_pc_passOpcode {state : State} {op : Opcode} (fetched : state.fetch = .ok op) :
    state.passOpcode.pc.toNat = state.pc.toNat + 2 := by
  have inside : ¬Memory.size ≤ state.pc.toNat + 1 := by
    intro outside
    rw [fetch_eq_error_iff.mpr ⟨outside, rfl⟩] at fetched
    cases fetched
  have two : (2 : UInt16).toNat = 2 := rfl
  simp only [passOpcode, UInt16.toNat_add, two]
  simp only [Memory.size] at inside
  omega

end State

namespace Machine

variable {machine : Machine}

/-- A step succeeds exactly if an opcode is fetched, which it then completes. -/
theorem step_eq_ok_iff {next : Machine} :
    machine.step = .ok next ↔ ∃ op, machine.state.fetch = .ok op ∧ machine.complete op = next := by
  unfold step
  cases machine.state.fetch with
  | ok op => simp only [Except.map, Except.ok.injEq, exists_eq_left']
  | error fault => simp only [Except.map, reduceCtorEq, false_and, exists_false]

/-- A step fails exactly if no opcode is fetched. -/
theorem step_eq_error_iff {fault : Fault} :
    machine.step = .error fault ↔ machine.state.fetch = .error fault := by
  unfold step
  cases machine.state.fetch with
  | ok op => simp only [Except.map, reduceCtorEq]
  | error cause => simp only [Except.map, Except.error.injEq]

/-! ## Completing an opcode -/

variable (machine) (op : Opcode)

/-- No opcode writes the memory or the keypad, and every one lets both timers count
down. -/
theorem complete_keeps :
    (machine.complete op).state.memory = machine.state.memory ∧
      (machine.complete op).state.keypad = machine.state.keypad ∧
      (machine.complete op).state.delayTimer = State.countDown machine.state.delayTimer ∧
      (machine.complete op).state.soundTimer = State.countDown machine.state.soundTimer := by
  unfold complete
  cases Instruction.decode? op with
  | none => exact ⟨rfl, rfl, rfl, rfl⟩
  | some instruction => cases instruction <;> exact ⟨rfl, rfl, rfl, rfl⟩

@[simp] theorem memory_complete : (machine.complete op).state.memory = machine.state.memory :=
  (machine.complete_keeps op).1

@[simp] theorem keypad_complete : (machine.complete op).state.keypad = machine.state.keypad :=
  (machine.complete_keeps op).2.1

@[simp] theorem delayTimer_complete :
    (machine.complete op).state.delayTimer = State.countDown machine.state.delayTimer :=
  (machine.complete_keeps op).2.2.1

@[simp] theorem soundTimer_complete :
    (machine.complete op).state.soundTimer = State.countDown machine.state.soundTimer :=
  (machine.complete_keeps op).2.2.2

/-- Only a jump goes elsewhere than past the opcode. -/
theorem pc_complete :
    (machine.complete op).state.pc =
      if op.family = 0x1 then UInt16.ofNat op.address.val else machine.state.pc + 2 := by
  unfold complete
  rw [Instruction.decode?_eq]
  by_cases jumps : op.family = 0x1
  · have other := Instruction.word_ne_of_family_ne op (by rw [jumps]; decide)
    simp only [other, jumps, ↓reduceIte]
    rfl
  · split_ifs <;> rfl

/-- Only an opcode of family A sets the index register. -/
theorem index_complete :
    (machine.complete op).state.index =
      if op.family = 0xA then UInt16.ofNat op.address.val else machine.state.index := by
  unfold complete
  rw [Instruction.decode?_eq]
  by_cases sets : op.family = 0xA
  · have other := Instruction.word_ne_of_family_ne op (by rw [sets]; decide)
    simp only [other, sets, Fin.reduceEq, ↓reduceIte]
    rfl
  · split_ifs <;> rfl

/-- Only the clearing opcode and draws write the frame. -/
theorem frame_complete :
    (machine.complete op).state.frame =
      if op.word = 0x00E0 then Frame.blank
      else if op.family = 0xD then
        (machine.state.sprite op.x op.y op.n.val).drawOn machine.state.frame
      else machine.state.frame := by
  unfold complete
  rw [Instruction.decode?_eq]
  by_cases clears : op.word = 0x00E0
  · simp only [clears, ↓reduceIte]
    rfl
  · by_cases draws : op.family = 0xD
    · simp only [clears, draws, Fin.reduceEq, ↓reduceIte]
      rfl
    · simp only [clears, draws, ↓reduceIte]
      split_ifs <;> rfl

/-- A frame that is not painted stays what it was. -/
theorem frame_complete_of_not_paints (other : ¬op.Paints) :
    (machine.complete op).state.frame = machine.state.frame := by
  rw [op.paints_iff, not_or] at other
  rw [frame_complete, if_neg other.1, if_neg other.2]

/-- Once it is painted, the frame is pending. -/
theorem framePending_complete :
    (machine.complete op).state.framePending =
      if op.Paints then true else machine.state.framePending := by
  unfold complete
  simp only [Instruction.decode?_eq, op.paints_iff]
  by_cases clears : op.word = 0x00E0
  · simp only [clears, true_or, ↓reduceIte]
    rfl
  · by_cases draws : op.family = 0xD
    · simp only [clears, draws, or_true, Fin.reduceEq, ↓reduceIte]
      rfl
    · simp only [clears, draws, or_self, ↓reduceIte]
      split_ifs <;> rfl

/-- An opcode of family 6 loads a register, one of family 7 adds to it, and a draw tells in
the flag register whether it covered a lit pixel. No other register is written. -/
theorem register_complete (register : Register) :
    (machine.complete op).state.register register =
      if op.family = 0x6 ∧ op.x = register then op.kk
      else if op.family = 0x7 ∧ op.x = register then machine.state.register register + op.kk
      else if op.family = 0xD ∧ State.flagRegister = register then
        if (machine.state.sprite op.x op.y op.n.val).collides machine.state.frame then 1 else 0
      else machine.state.register register := by
  unfold complete
  rw [Instruction.decode?_eq]
  by_cases loads : op.family = 0x6
  · have other := Instruction.word_ne_of_family_ne op (by rw [loads]; decide)
    simp only [other, loads, Fin.reduceEq, true_and, false_and, ↓reduceIte]
    exact State.register_setRegister _ _ _ _
  by_cases adds : op.family = 0x7
  · have other := Instruction.word_ne_of_family_ne op (by rw [adds]; decide)
    simp only [other, adds, Fin.reduceEq, true_and, false_and, ↓reduceIte]
    refine (State.register_setRegister _ _ _ _).trans ?_
    split
    · next same => rw [same]; rfl
    · rfl
  by_cases draws : op.family = 0xD
  · have other := Instruction.word_ne_of_family_ne op (by rw [draws]; decide)
    simp only [other, draws, Fin.reduceEq, true_and, false_and, ↓reduceIte]
    exact State.register_setRegister _ _ _ _
  · simp only [loads, adds, draws, false_and, ↓reduceIte]
    split_ifs <;> rfl

/-- Exactly the opcodes that are not implemented are counted as skipped. -/
theorem skipped_complete :
    (machine.complete op).skipped =
      if op.isImplemented then machine.skipped else machine.skipped + 1 := by
  unfold complete Opcode.isImplemented
  cases Instruction.decode? op <;> rfl

/-- An opcode that is not implemented is kept as the last one skipped. -/
theorem lastSkipped_complete :
    (machine.complete op).lastSkipped =
      if op.isImplemented then machine.lastSkipped else some op := by
  unfold complete Opcode.isImplemented
  cases Instruction.decode? op <;> rfl

end Machine

end ChipEight
