import ChipEight.Opcode

/-! # Memory

The machine has 4096 bytes of memory. Bytes outside it cannot be fetched; a
sprite that reaches past the end reads zeros there.
-/

namespace ChipEight

/-- The bytes of the machine's memory. -/
@[ext]
structure Memory where
  byteAt : Address → UInt8

namespace Memory

/-- The number of bytes. -/
def size : Nat := 4096

/-- The address at which programs are loaded and start. -/
def programStart : Nat := 0x200

/-- The memory that holds zeros only. -/
def blank : Memory :=
  ⟨fun _ => 0⟩

/-- The byte at an address, if the address lies inside the memory. -/
def byte? (memory : Memory) (address : Nat) : Option UInt8 :=
  if inside : address < size then some (memory.byteAt ⟨address, inside⟩) else none

/-- The opcode that starts at an address, if both of its bytes lie inside the
memory. -/
def opcode? (memory : Memory) (address : Nat) : Option Opcode :=
  match memory.byte? address, memory.byte? (address + 1) with
  | some high, some low => some (.ofBytes high low)
  | _, _ => none

/-- The `length` bytes from `start` on, zeros standing for those past the end. -/
def read (memory : Memory) (start length : Nat) : List UInt8 :=
  (List.range length).map fun offset => (memory.byte? (start + offset)).getD 0

/-- The memory with some bytes written from `start` on. Those that would lie past
the end are dropped. -/
def write (memory : Memory) (start : Nat) (bytes : Array UInt8) : Memory :=
  ⟨fun address =>
    if start ≤ address.val then bytes[address.val - start]?.getD (memory.byteAt address)
    else memory.byteAt address⟩

/-- Inside the memory every address holds a byte. -/
theorem byte?_val (memory : Memory) (address : Address) :
    memory.byte? address.val = some (memory.byteAt address) :=
  dif_pos address.isLt

theorem byte?_eq_some_iff {memory : Memory} {address : Nat} {byte : UInt8} :
    memory.byte? address = some byte ↔
      ∃ inside : address < size, memory.byteAt ⟨address, inside⟩ = byte := by
  unfold byte?
  split
  · next inside =>
      exact ⟨fun same => ⟨inside, Option.some.inj same⟩, fun ⟨_, same⟩ => congrArg some same⟩
  · next outside => exact ⟨nofun, fun ⟨inside, _⟩ => absurd inside outside⟩

/-- Exactly the addresses below the size hold a byte. -/
theorem byte?_eq_none_iff (memory : Memory) (address : Nat) :
    memory.byte? address = none ↔ size ≤ address := by
  unfold byte?
  split
  · next inside => exact ⟨nofun, fun outside => absurd inside (Nat.not_lt.mpr outside)⟩
  · next outside => exact ⟨fun _ => Nat.not_lt.mp outside, fun _ => rfl⟩

/-- An opcode can be fetched exactly where its second byte lies inside the memory. -/
theorem opcode?_eq_none_iff (memory : Memory) (address : Nat) :
    memory.opcode? address = none ↔ size ≤ address + 1 := by
  have first := memory.byte?_eq_none_iff address
  have second := memory.byte?_eq_none_iff (address + 1)
  unfold opcode?
  cases high : memory.byte? address with
  | none =>
      have outside := first.mp high
      exact ⟨fun _ => by omega, fun _ => rfl⟩
  | some _ =>
      cases low : memory.byte? (address + 1) with
      | none => exact ⟨fun _ => second.mp low, fun _ => rfl⟩
      | some _ =>
          refine ⟨nofun, fun outside => ?_⟩
          rw [second.mpr outside] at low
          cases low

/-- Inside the memory the opcode at an address is made of the two bytes there. -/
theorem opcode?_of_lt (memory : Memory) {address : Nat} (inside : address + 1 < size) :
    memory.opcode? address =
      some (.ofBytes (memory.byteAt ⟨address, Nat.lt_of_succ_lt inside⟩)
        (memory.byteAt ⟨address + 1, inside⟩)) := by
  simp only [opcode?, byte?, inside, Nat.lt_of_succ_lt inside, ↓reduceDIte]

/-- Writing sets the bytes it covers and leaves the others. -/
theorem byteAt_write (memory : Memory) (start : Nat) (bytes : Array UInt8) (address : Address) :
    (memory.write start bytes).byteAt address =
      if start ≤ address.val then bytes[address.val - start]?.getD (memory.byteAt address)
      else memory.byteAt address := rfl

/-- Reading gives as many bytes as were asked for. -/
@[simp] theorem length_read (memory : Memory) (start length : Nat) :
    (memory.read start length).length = length := by
  simp only [read, List.length_map, List.length_range]

end Memory

end ChipEight
