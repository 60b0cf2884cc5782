import ChipEight.Proofs.History
import ChipEight.Proofs.Stepping

/-! # Reachable machines

Whatever is asked of a machine that starts at power-on, its memory holds the font and
the program that was loaded last and nothing else, its index register is an address,
its program counter is one or stands at the end of the memory, its cells hold zeros and
ones, and its timers have run out (`Machine.Settled`). Hence the only steps that fail are
those at the last two program counters.
-/

namespace ChipEight

namespace Memory

/-- At the bottom of the memory stands the font, and zeros behind it. -/
theorem byteAt_powerOn (address : Address) :
    powerOn.byteAt address = Font.bytes[address.val]?.getD 0 := by
  simp only [powerOn, byteAt_write, blank, Nat.zero_le, ↓reduceIte, Nat.sub_zero]

/-- A program loaded over the power-on memory leaves the font below it, and zeros
between the two and behind. -/
theorem byteAt_write_powerOn (program : Array UInt8) (address : Address) :
    (powerOn.write programStart program).byteAt address =
      if address.val < 0x50 then Font.bytes[address.val]?.getD 0
      else if address.val < 0x200 then 0
      else program[address.val - 0x200]?.getD 0 := by
  have pastFont (outside : ¬address.val < 0x50) : Font.bytes[address.val]? = none :=
    Array.getElem?_eq_none (Font.size_bytes ▸ Nat.not_lt.mp outside)
  rw [byteAt_write, byteAt_powerOn, programStart]
  by_cases font : address.val < 0x50
  · have below : ¬0x200 ≤ address.val := by omega
    simp only [font, below, ↓reduceIte]
  · rw [pastFont font]
    by_cases below : address.val < 0x200
    · simp only [font, below, Nat.not_le.mpr below, ↓reduceIte, Option.getD_none]
    · simp only [font, below, Nat.not_lt.mp below, ↓reduceIte, Option.getD_none]

/-- To write nothing changes nothing. -/
theorem write_empty (memory : Memory) (start : Nat) : memory.write start #[] = memory := by
  apply Memory.ext
  funext address
  rw [byteAt_write]
  split <;> rfl

end Memory

/-- From the start of programs on, memory holds a program and zeros behind it. -/
theorem Rom.byte?_memory (rom : Rom) {offset : Nat} (inside : offset < 3584) :
    rom.memory.byte? (0x200 + offset) = some (rom.bytes[offset]?.getD 0) := by
  have within : 0x200 + offset < Memory.size := by
    rw [Memory.size]
    omega
  have pastFont : ¬0x200 + offset < 0x50 := by omega
  rw [Memory.byte?_eq_some_iff]
  refine ⟨within, (Memory.byteAt_write_powerOn rom.bytes _).trans ?_⟩
  rw [if_neg pastFont, if_neg (Nat.not_lt.mpr (Nat.le_add_right _ _)), Nat.add_sub_cancel_left]

namespace Frame

/-- Whether every cell holds zero or one. -/
def IsBinary (frame : Frame) : Prop :=
  ∀ cell ∈ frame.cells, cell = 0 ∨ cell = 1

/-- A blank frame is on or off everywhere. -/
theorem isBinary_blank : blank.IsBinary := by
  intro cell member
  exact .inl (Vector.eq_of_mem_replicate member)

/-- A pixel is on or off. -/
theorem IsBinary.cell {frame : Frame} (binary : frame.IsBinary) (pixel : Pixel) :
    frame.cell pixel = 0 ∨ frame.cell pixel = 1 :=
  binary _ (Vector.getElem_mem pixel.index.isLt)

/-- A flip leaves pixels that are on or off. -/
theorem IsBinary.toggle {frame : Frame} (binary : frame.IsBinary) (pixel : Pixel) :
    (frame.toggle pixel).IsBinary := by
  intro cell member
  rcases @Vector.mem_or_eq_of_mem_set _ _ _ _ _ _ pixel.index.isLt member with old | new
  · exact binary cell old
  · rw [new]
    rcases binary.cell pixel with off | on
    · exact .inr (congrArg (· ^^^ 1) off)
    · exact .inl (congrArg (· ^^^ 1) on)

/-- So do several flips, by induction over them. -/
theorem IsBinary.toggleAll {frame : Frame} (binary : frame.IsBinary) (pixels : List Pixel) :
    (frame.toggleAll pixels).IsBinary := by
  induction pixels generalizing frame with
  | nil => exact binary
  | cons pixel rest ih => exact ih (binary.toggle pixel)

end Frame

namespace Machine

/-- What holds of every machine that has a program loaded, if nothing but operations
was ever done to it. -/
structure Settled (program : Array UInt8) (machine : Machine) : Prop where
  fits : program.size ≤ Rom.maxSize
  memory : machine.state.memory = Memory.powerOn.write Memory.programStart program
  index : machine.state.index.toNat ≤ 0xFFF
  pc : machine.state.pc.toNat ≤ 0x1000
  frame : machine.state.frame.IsBinary
  delayTimer : machine.state.delayTimer = 0
  soundTimer : machine.state.soundTimer = 0

namespace Settled

variable {program : Array UInt8} {machine : Machine}

/-- A machine settles when its program is loaded. -/
theorem loaded (rom : Rom) : Settled rom.bytes (loaded rom) where
  fits := rom.fits
  memory := rfl
  index := (by decide : (0 : UInt16).toNat ≤ 0xFFF)
  pc := (by decide : (UInt16.ofNat Memory.programStart).toNat ≤ 0x1000)
  frame := Frame.isBinary_blank
  delayTimer := rfl
  soundTimer := rfl

/-- A machine that is switched on has settled without a program. -/
theorem powerOn : Settled #[] powerOn := by
  have empty := loaded ⟨#[], Nat.zero_le _⟩
  rw [Machine.loaded, Rom.memory, Memory.write_empty] at empty
  exact empty

/-- An address has twelve bits and fits into the program counter. -/
theorem toNat_address (op : Opcode) : (UInt16.ofNat op.address.val).toNat = op.address.val :=
  UInt16.toNat_ofNat_of_lt' (Nat.lt_trans op.address.isLt (by decide))

/-- Completing a fetched opcode keeps a machine settled. The fetch is what keeps the
program counter from going on past the end of the memory. -/
theorem complete (settled : Settled program machine) {op : Opcode}
    (fetched : machine.state.fetch = .ok op) : Settled program (machine.complete op) where
  fits := settled.fits
  memory := (machine.memory_complete op).trans settled.memory
  index := by
    rw [index_complete]
    split
    · rw [toNat_address]
      have := op.address.isLt
      omega
    · exact settled.index
  pc := by
    rw [pc_complete]
    split
    · rw [toNat_address]
      have := op.address.isLt
      omega
    · have inside : ¬Memory.size ≤ machine.state.pc.toNat + 1 := fun outside => by
        rw [State.fetch_eq_error_iff.mpr ⟨outside, rfl⟩] at fetched
        cases fetched
      rw [Memory.size] at inside
      have two : (2 : UInt16).toNat = 2 := rfl
      rw [UInt16.toNat_add, two]
      omega
  frame := by
    rw [frame_complete]
    split_ifs
    · exact Frame.isBinary_blank
    · exact settled.frame.toggleAll _
    · exact settled.frame
  delayTimer := by
    rw [delayTimer_complete, settled.delayTimer]
    rfl
  soundTimer := by
    rw [soundTimer_complete, settled.soundTimer]
    rfl

/-- Keys do not unsettle a machine. -/
theorem setKeypad (settled : Settled program machine) (keypad : Keypad) :
    Settled program (machine.setKeypad keypad) :=
  { settled with }

/-- Nor does a frame that is taken. -/
theorem takeFrame (settled : Settled program machine) :
    Settled program machine.takeFrame.2 := by
  unfold Machine.takeFrame
  split
  · exact { settled with }
  · exact settled

/-- Nor does a request for a key. -/
theorem putKey (settled : Settled program machine) (key : UInt8) (held : Bool) :
    Settled program (machine.answer (machine.putKey key held)).2 := by
  unfold Machine.putKey
  cases Key.ofByte key with
  | ok key => exact settled.setKeypad _
  | error fault => exact settled

/-- Every call keeps a machine settled with the program that the call installs. -/
theorem perform (call : Call) (settled : Settled program call.machine) :
    Settled (call.install program) call.next := by
  obtain ⟨machine, operation⟩ := call
  cases operation with
  | restart => exact powerOn
  | reset => exact powerOn
  | load bytes =>
      by_cases fits : bytes.size ≤ Rom.maxSize
      · have accepted := Rom.ofBytes_of_le fits
        simp only [Call.install, Call.reply, Call.next, Operation.perform, accepted, Except.map,
          Machine.answer]
        exact loaded ⟨bytes, fits⟩
      · have refused := Rom.ofBytes_of_lt (Nat.not_le.mp fits)
        simp only [Call.install, Call.reply, Call.next, Operation.perform, refused, Except.map,
          Machine.answer]
        exact settled
  | step =>
      cases outcome : machine.step with
      | ok next =>
          obtain ⟨op, fetched, rfl⟩ := step_eq_ok_iff.mp outcome
          simp only [Call.install, Call.next, Operation.perform, outcome, Machine.answer]
          exact settled.complete fetched
      | error fault =>
          simp only [Call.install, Call.next, Operation.perform, outcome, Machine.answer]
          exact settled
  | takeFrame => exact settled.takeFrame
  | viewFrame => exact settled
  | press key => exact settled.putKey key true
  | release key => exact settled.putKey key false
  | setKeys keypad => exact settled.setKeypad keypad

/-- A settled machine cannot fetch at the last two program counters and nowhere else,
and the byte it misses is the first one past the memory. -/
theorem step_eq_error_iff (settled : Settled program machine) (fault : Fault) :
    machine.step = .error fault ↔
      (machine.state.pc = 0xFFF ∨ machine.state.pc = 0x1000) ∧ fault = .outOfBounds 0x1000 := by
  have bound := settled.pc
  have last : machine.state.pc = 0xFFF ↔ machine.state.pc.toNat = 0xFFF := UInt16.toNat_inj.symm
  have past : machine.state.pc = 0x1000 ↔ machine.state.pc.toNat = 0x1000 := UInt16.toNat_inj.symm
  have address : max machine.state.pc.toNat Memory.size = 0x1000 := Nat.max_eq_right bound
  rw [Machine.step_eq_error_iff, State.fetch_eq_error_iff, last, past, address, Memory.size]
  apply and_congr_left
  intro _
  omega

end Settled

/-- **Reachable machines.** After any operations on a machine at power-on, the memory
holds the font, zeros up to the start of programs, and from there the program loaded last
since the machine was new or reset, followed by zeros; the index register and the program
counter are bounded, every cell holds zero or one, and both timers are zero. A step then
fails exactly at the last two program counters, and always with the same fault. -/
theorem reachable_invariant (operations : List Operation) :
    let machine := Operation.performAll operations .powerOn
    let program := (Operation.calls operations .powerOn).foldl Call.install #[]
    program.size ≤ 3584 ∧
      (∀ address : Address, machine.state.memory.byteAt address =
        if address.val < 0x50 then Font.bytes[address.val]?.getD 0
        else if address.val < 0x200 then 0
        else program[address.val - 0x200]?.getD 0) ∧
      machine.state.index.toNat ≤ 0xFFF ∧
      machine.state.pc.toNat ≤ 0x1000 ∧
      (∀ cell ∈ machine.state.frame.cells, cell = 0 ∨ cell = 1) ∧
      machine.state.delayTimer = 0 ∧
      machine.state.soundTimer = 0 ∧
      ∀ fault, machine.step = .error fault ↔
        (machine.state.pc = 0xFFF ∨ machine.state.pc = 0x1000) ∧
          fault = .outOfBounds 0x1000 := by
  intro machine program
  have settled : Settled program machine :=
    Operation.performAll_keeps Call.install Settled (fun _ call => Settled.perform call) operations
      Settled.powerOn
  refine ⟨settled.fits, fun address => ?_, settled.index, settled.pc, settled.frame,
    settled.delayTimer, settled.soundTimer, settled.step_eq_error_iff⟩
  rw [settled.memory]
  exact Memory.byteAt_write_powerOn program address

end Machine

end ChipEight
