import ChipEight.Proofs.Covering
import ChipEight.Proofs.Reachability
import ChipEight.Proofs.Refusal

/-! # Loading and resetting

A machine in which a program was loaded is new in all its parts but the memory
(`Machine.IsNew`), and its memory holds the font, the program, and zeros everywhere else
(`Memory.HoldsProgram`). These two leave nothing open about a machine
(`Machine.IsNew.eq_of_holdsProgram`). So nothing that was done before a program is loaded can
be told from anything that is done afterwards, and likewise for a reset
(`Operation.loading_erases_history`).
-/

namespace ChipEight

/-- What a memory holds in which a program was loaded and that was not written to since. -/
structure Memory.HoldsProgram (memory : Memory) (bytes : Array UInt8) : Prop where
  fits : bytes.size ≤ 3584
  font : ∀ (offset : Nat) (inside : offset < Font.bytes.size),
    memory.byte? offset = some Font.bytes[offset]
  program : ∀ (offset : Nat) (inside : offset < bytes.size),
    memory.byte? (0x200 + offset) = some bytes[offset]
  /-- All bytes between the font and the program are zero, and all behind the program. -/
  blank : ∀ address < 0x1000, Font.bytes.size ≤ address →
    address < 0x200 ∨ 0x200 + bytes.size ≤ address → memory.byte? address = some 0

/-- Whether a machine is as it is before anything was done to it, whatever its memory holds. -/
structure Machine.IsNew (machine : Machine) : Prop where
  registers : ∀ register, machine.state.register register = 0
  index : machine.state.index = 0
  pc : machine.state.pc = 0x200
  delayTimer : machine.state.delayTimer = 0
  soundTimer : machine.state.soundTimer = 0
  frame : ∀ pixel, machine.state.frame.cell pixel = 0
  framePending : machine.state.framePending = false
  keypad : ∀ key, machine.state.keypad.isHeld key = false
  skipped : machine.skipped = 0
  lastSkipped : machine.lastSkipped = none

namespace Memory

/-- A memory is known by the program that it holds. -/
theorem HoldsProgram.unique {first second : Memory} {bytes : Array UInt8}
    (holds : first.HoldsProgram bytes) (holdsToo : second.HoldsProgram bytes) :
    first = second := by
  have same (address : Nat) (inside : address < 0x1000) :
      first.byte? address = second.byte? address := by
    by_cases font : address < Font.bytes.size
    · rw [holds.font address font, holdsToo.font address font]
    · have pastFont := Nat.not_lt.mp font
      by_cases program : 0x200 ≤ address ∧ address < 0x200 + bytes.size
      · obtain ⟨offset, rfl⟩ := Nat.exists_eq_add_of_le program.1
        have within : offset < bytes.size := Nat.lt_of_add_lt_add_left program.2
        rw [holds.program offset within, holdsToo.program offset within]
      · have beside : address < 0x200 ∨ 0x200 + bytes.size ≤ address := by omega
        rw [holds.blank address inside pastFont beside,
          holdsToo.blank address inside pastFont beside]
  apply Memory.ext
  funext address
  have bytesSame := same address.val address.isLt
  rw [byte?_val, byte?_val] at bytesSame
  exact Option.some.inj bytesSame

theorem byte?_of_lt (memory : Memory) {address : Nat} (inside : address < 0x1000) :
    memory.byte? address = some (memory.byteAt ⟨address, inside⟩) :=
  dif_pos inside

end Memory

/-- The memory of a program holds it. -/
theorem Rom.holdsProgram_memory (rom : Rom) : rom.memory.HoldsProgram rom.bytes where
  fits := rom.fits
  font := by
    intro offset inside
    have below : offset < 0x50 := Font.size_bytes ▸ inside
    rw [Memory.byte?_of_lt _ (by omega), memory, Memory.byteAt_write_powerOn, if_pos below,
      Array.getElem?_eq_getElem inside, Option.getD_some]
  program := by
    intro offset inside
    have fits : rom.bytes.size ≤ 3584 := rom.fits
    rw [rom.byte?_memory (by omega), Array.getElem?_eq_getElem inside, Option.getD_some]
  blank := by
    intro address inside pastFont beside
    rw [Font.size_bytes] at pastFont
    by_cases below : address < 0x200
    · rw [Memory.byte?_of_lt _ inside, memory, Memory.byteAt_write_powerOn,
        if_neg (Nat.not_lt.mpr pastFont), if_pos below]
    · obtain ⟨offset, rfl⟩ := Nat.exists_eq_add_of_le (Nat.not_lt.mp below)
      have pastEnd : rom.bytes.size ≤ offset := by omega
      rw [rom.byte?_memory (by omega), Array.getElem?_eq_none pastEnd, Option.getD_none]

namespace Machine

/-- A machine is new when it starts. -/
theorem isNew_starting (memory : Memory) : (starting (State.starting memory)).IsNew where
  registers := fun register => by
    simp only [starting, State.starting, State.register, Fin.getElem_fin, Vector.getElem_replicate]
  index := rfl
  pc := rfl
  delayTimer := rfl
  soundTimer := rfl
  frame := Frame.cell_blank
  framePending := rfl
  keypad := Keypad.isHeld_released
  skipped := rfl
  lastSkipped := rfl

/-- New machines differ at most in their memories. -/
theorem IsNew.eq_starting {machine : Machine} (new : machine.IsNew) :
    machine = starting (State.starting machine.state.memory) := by
  have fresh := isNew_starting machine.state.memory
  apply Machine.ext
  case state =>
    apply State.ext
    case registers =>
      apply State.registers_eq_of_register_eq
      exact fun register => (new.registers register).trans (fresh.registers register).symm
    case index => exact new.index
    case pc => exact new.pc
    case delayTimer => exact new.delayTimer
    case soundTimer => exact new.soundTimer
    case memory => rfl
    case frame =>
      apply Frame.eq_of_cell_eq
      exact fun pixel => (new.frame pixel).trans (fresh.frame pixel).symm
    case framePending => exact new.framePending
    case keypad =>
      apply Keypad.eq_of_isHeld_eq
      exact fun key => (new.keypad key).trans (fresh.keypad key).symm
  case skipped => exact new.skipped
  case lastSkipped => exact new.lastSkipped

/-- There is only one new machine whose memory holds a given program. -/
theorem IsNew.eq_of_holdsProgram {first second : Machine} {bytes : Array UInt8}
    (new : first.IsNew) (newToo : second.IsNew) (holds : first.state.memory.HoldsProgram bytes)
    (holdsToo : second.state.memory.HoldsProgram bytes) : first = second := by
  rw [new.eq_starting, newToo.eq_starting, holds.unique holdsToo]

end Machine

namespace Operation

/-- The replies to a list of operations, each with the machine that it leaves. -/
def outcomes (operations : List Operation) (machine : Machine) : List (Reply × Machine) :=
  (calls operations machine).map fun call => (call.reply, call.next)

/-- A program that fits is loaded into whatever machine there is, and what is left is a new
machine with the program in its memory. -/
theorem perform_load (machine : Machine) {bytes : Array UInt8} (fits : bytes.size ≤ 3584) :
    ∃ next, (load bytes).perform machine = (.done, next) ∧ next.IsNew ∧
      next.state.memory.HoldsProgram bytes := by
  refine ⟨.loaded ⟨bytes, fits⟩, ?_, Machine.isNew_starting _, Rom.holdsProgram_memory _⟩
  have accepted := Rom.ofBytes_of_le fits
  simp only [perform, accepted, Except.map, Machine.answer]

/-- After a program was loaded there is only one machine left, whatever was done before. -/
theorem performAll_concat_load (first second : Machine) (before earlier : List Operation)
    {bytes : Array UInt8} (fits : bytes.size ≤ 3584) :
    performAll (before ++ [load bytes]) first = performAll (earlier ++ [load bytes]) second := by
  obtain ⟨next, loads, new, holds⟩ := perform_load (performAll before first) fits
  obtain ⟨other, loadsToo, newToo, holdsToo⟩ := perform_load (performAll earlier second) fits
  simp only [performAll_append, performAll_cons, performAll_nil, loads, loadsToo]
  exact new.eq_of_holdsProgram newToo holds holdsToo

/-- **Loading erases history.** Into any machine a program that fits can be loaded, and that
leaves a new machine with the program in its memory, also when the load is carried out piece by
piece. There is only one such machine. Hence, whatever was done to two machines before the same
program was loaded into both, whatever is done to both afterwards has the same replies and leaves
the same machines. Loading a program once more directly afterwards changes nothing. A reset
leaves the machine at power-on, new and without a program, and resetting once more changes
nothing. -/
theorem loading_erases_history :
    (∀ (machine : Machine) (bytes : Array UInt8), bytes.size ≤ 3584 →
      ∃ next, (load bytes).perform machine = (.done, next) ∧
        (load bytes).procedure machine = .ok .done next ∧
        next.IsNew ∧ next.state.memory.HoldsProgram bytes) ∧
    (∀ (first second : Machine) (bytes : Array UInt8), first.IsNew → second.IsNew →
      first.state.memory.HoldsProgram bytes → second.state.memory.HoldsProgram bytes →
        first = second) ∧
    (∀ (first second : Machine) (before earlier continuation : List Operation)
      (bytes : Array UInt8), bytes.size ≤ 3584 →
        outcomes continuation (performAll (before ++ [load bytes]) first) =
          outcomes continuation (performAll (earlier ++ [load bytes]) second)) ∧
    (∀ (machine : Machine) (before : List Operation) (bytes : Array UInt8),
      performAll (before ++ [load bytes, load bytes]) machine =
        performAll (before ++ [load bytes]) machine) ∧
    Machine.powerOn.IsNew ∧ Machine.powerOn.state.memory.HoldsProgram #[] ∧
    ∀ (machine : Machine) (before : List Operation),
      performAll (before ++ [reset]) machine = .powerOn ∧
        performAll (before ++ [reset, reset]) machine =
          performAll (before ++ [reset]) machine := by
  refine ⟨?load, ?unique, ?continued, ?twice, Machine.isNew_starting _, ?empty, ?reset⟩
  case load =>
    intro machine bytes fits
    obtain ⟨next, loads, new, holds⟩ := perform_load machine fits
    refine ⟨next, loads, ?_, new, holds⟩
    rw [procedure_eq, loads]
  case unique =>
    intro first second bytes new newToo holds holdsToo
    exact new.eq_of_holdsProgram newToo holds holdsToo
  case continued =>
    intro first second before earlier continuation bytes fits
    rw [performAll_concat_load first second before earlier fits]
  case twice =>
    intro machine before bytes
    by_cases fits : bytes.size ≤ 3584
    · have again := performAll_concat_load machine machine (before ++ [load bytes]) before fits
      rwa [List.append_assoc] at again
    · have refused (machine : Machine) : (load bytes).perform machine = (.refused _, machine) :=
        perform_eq_refused_iff.mpr ⟨if_pos (Nat.lt_of_not_le fits), rfl⟩
      simp only [performAll_append, performAll_cons, performAll_nil, refused]
  case empty =>
    have nothing := Rom.holdsProgram_memory ⟨#[], Nat.zero_le _⟩
    rwa [Rom.memory, Memory.write_empty] at nothing
  case reset =>
    intro machine before
    simp only [performAll_append, performAll_cons, performAll_nil, perform, and_self]

/-- A program of the greatest size, loaded and run with a key held down; a short one loaded in its
place; and the short one in a machine that is reset before. -/
theorem loading_erases_history_of_a_longer_program :
    let long : Array UInt8 := .replicate 3584 0xD7
    let short : Array UInt8 := #[0xD0, 0x05]
    let before : List Operation := [.load long, .press 3, .step, .step]
    let earlier : List Operation := [.reset]
    let continuation : List Operation := [.step, .takeFrame, .load long, .step]
    let worn := performAll before .powerOn
    let now := performAll (before ++ [load short]) .powerOn
    (performAll [.load long] .powerOn).state.memory.byte? 0xFFF = some 0xD7 ∧
      now.state.memory.byte? 0x202 = some 0 ∧
      now = performAll [.load short] .powerOn ∧
      outcomes continuation now =
        outcomes continuation (performAll (earlier ++ [load short]) worn) ∧
      performAll (before ++ [load short, load short]) .powerOn = now := by
  intro long short before earlier continuation worn now
  obtain ⟨load, unique, continued, twice, _, _, _⟩ := loading_erases_history
  have longFits : long.size ≤ 3584 := Array.size_replicate.le
  have shortFits : short.size ≤ 3584 := by decide
  obtain ⟨full, fullLoads, _, _, fullHolds⟩ := load .powerOn long longFits
  obtain ⟨next, loads, _, new, holds⟩ := load worn short shortFits
  obtain ⟨fresh, freshLoads, _, freshNew, freshHolds⟩ := load .powerOn short shortFits
  have reached : now = next := by
    simp only [now, performAll_append, performAll_cons, performAll_nil]
    exact congrArg Prod.snd loads
  refine ⟨?_, ?_, ?_, continued .powerOn worn before earlier continuation short shortFits,
    twice .powerOn before short⟩
  · rw [performAll_cons, fullLoads]
    have last := fullHolds.program 3583 (by rw [Array.size_replicate]; decide)
    rwa [Array.getElem_replicate] at last
  · rw [reached]
    exact holds.blank 0x202 (by decide) (by decide) (.inr (by decide))
  · rw [reached, performAll_cons, freshLoads]
    exact unique next fresh short new freshNew holds freshHolds

end Operation

end ChipEight
