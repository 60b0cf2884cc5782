import ChipEight.Proofs.Accounting
import ChipEight.Proofs.Limits

/-! # Straight-line programs

A program without a jump at its even offsets is executed word by word: after a number of steps its
machine stands at the word of that number (`Machine.StandsAt.repeatUpTo`). Behind the program there
are only zeros, which are skipped, so the machine goes on to the end of the memory, where it halts
(`Machine.straight_line_runs_to_the_end`).
-/

namespace ChipEight

namespace Rom

variable (rom : Rom)

/-- The word of a program with a given number. An odd last byte is completed by a zero, and all
words behind the program are zero. -/
def word (number : Nat) : Opcode :=
  .ofBytes (rom.bytes[2 * number]?.getD 0) (rom.bytes[2 * number + 1]?.getD 0)

/-- Whether no word of a program is a jump. -/
def IsStraightLine : Prop :=
  ∀ number, 2 * number < rom.bytes.size → (rom.word number).family.val ≠ 0x1

instance : Decidable rom.IsStraightLine :=
  decidable_of_iff (∀ number < rom.bytes.size, 2 * number < rom.bytes.size →
      (rom.word number).family.val ≠ 0x1) <| by
    refine ⟨fun straight number inside => straight number (by omega) inside, ?_⟩
    exact fun straight number _ inside => straight number inside

/-- The first words of a program, and the zeros behind it, but for the clearing one and those of a
family that loads, adds, sets the index register, or draws. -/
def unknownWords (count : Nat) : List Opcode :=
  ((List.range count).map rom.word).filter fun op =>
    op.word ≠ 0x00E0 ∧ op.family.val ∉ [0x6, 0x7, 0xA, 0xD]

variable {rom}

/-- Behind the program all words are zero. -/
theorem word_of_le {number : Nat} (behind : rom.bytes.size ≤ 2 * number) :
    rom.word number = ⟨0⟩ := by
  rw [word, Array.getElem?_eq_none behind, Array.getElem?_eq_none (Nat.le_succ_of_le behind)]
  rfl

/-- Behind a program there are no jumps either. -/
theorem IsStraightLine.family_word (straight : rom.IsStraightLine) (number : Nat) :
    (rom.word number).family.val ≠ 0x1 := by
  by_cases inside : 2 * number < rom.bytes.size
  · exact straight number inside
  · rw [word_of_le (Nat.not_lt.mp inside)]
    decide

/-- All words behind a program are unknown. -/
theorem unknownWords_add {count : Nat} (behind : rom.bytes.size ≤ 2 * count) (more : Nat) :
    rom.unknownWords (count + more) = rom.unknownWords count ++ .replicate more ⟨0⟩ := by
  have zeros : ((List.range more).map (count + ·)).map rom.word = .replicate more ⟨0⟩ := by
    rw [List.map_map, List.eq_replicate_iff, List.length_map, List.length_range]
    refine ⟨rfl, fun op member => ?_⟩
    obtain ⟨offset, _, rfl⟩ := List.mem_map.mp member
    have further : 2 * count ≤ 2 * (count + offset) := by omega
    exact word_of_le (behind.trans further)
  rw [unknownWords, List.range_add, List.map_append, zeros, List.filter_append]
  exact congrArg (_ ++ ·) (List.filter_replicate_of_pos (by decide))

variable (rom)

/-- The memory holds the words of a program one behind the other, up to its end. -/
theorem opcode?_memory {number : Nat} (inside : number < 1792) :
    rom.memory.opcode? (0x200 + 2 * number) = some (rom.word number) := by
  have high : rom.memory.byte? (0x200 + 2 * number) = _ := rom.byte?_memory (by omega)
  have low : rom.memory.byte? (0x200 + (2 * number + 1)) = _ := rom.byte?_memory (by omega)
  rw [Memory.opcode?, high, Nat.add_assoc, low]
  rfl

end Rom

namespace Machine

/-- Whether a machine with a program in its memory stands at the word with a given number. -/
structure StandsAt (machine : Machine) (rom : Rom) (number : Nat) : Prop where
  memory : machine.state.memory = rom.memory
  pc : machine.state.pc.toNat = 0x200 + 2 * number

namespace StandsAt

variable {machine : Machine} {rom : Rom} {number : Nat}

/-- A loaded machine stands at the first word. -/
theorem loaded (rom : Rom) : (loaded rom).StandsAt rom 0 :=
  ⟨rfl, rfl⟩

/-- A machine fetches the word that it stands at. -/
theorem fetch (stands : machine.StandsAt rom number) (inside : number < 1792) :
    machine.state.fetch = .ok (rom.word number) := by
  rw [State.fetch_eq_ok_iff, stands.memory, stands.pc]
  exact rom.opcode?_memory inside

/-- Behind the last word the machine has left the memory. -/
theorem step_eq_error (stands : machine.StandsAt rom 1792) :
    machine.step = .error (.outOfBounds 0x1000) := by
  rw [step_eq_error_iff, State.fetch_eq_error_iff, stands.pc]
  decide

/-- Where there is no jump, the next word comes next. -/
theorem complete (stands : machine.StandsAt rom number) (inside : number < 1792)
    (straight : rom.IsStraightLine) :
    (machine.complete (rom.word number)).StandsAt rom (number + 1) where
  memory := (machine.memory_complete _).trans stands.memory
  pc := by
    have other : (rom.word number).family ≠ 0x1 := fun jumps =>
      straight.family_word number (Fin.ext_iff.mp jumps)
    have passed : (machine.state.pc + 2).toNat = machine.state.pc.toNat + 2 :=
      State.toNat_pc_passOpcode (stands.fetch inside)
    rw [pc_complete, if_neg other, passed, stands.pc]
    omega

/-- Inside the memory a step completes the word that the machine stands at. -/
theorem step (stands : machine.StandsAt rom number) (inside : number < 1792) :
    machine.step = .ok (machine.complete (rom.word number)) :=
  step_eq_ok_iff.mpr ⟨_, stands.fetch inside, rfl⟩

/-- From any word on, a run executes one word after the other, up to the end of the memory. -/
theorem repeatUpTo (stands : machine.StandsAt rom number) (straight : rom.IsStraightLine)
    {steps : Nat} (inside : number + steps ≤ 1792) :
    ∃ last, ChipEight.repeatUpTo Machine.step steps machine = (last, none) ∧
      last.StandsAt rom (number + steps) ∧
      machine.opcodes steps = (List.range' number steps).map rom.word := by
  induction steps generalizing machine number with
  | zero => exact ⟨machine, rfl, stands, rfl⟩
  | succ steps ih =>
      have here : number < 1792 := by omega
      obtain ⟨last, successes, standsNow, executed⟩ :=
        ih (stands.complete here straight) (by omega)
      refine ⟨last, ?_, ?_, ?_⟩
      · rwa [repeatUpTo_succ_of_ok (stands.step here)]
      · rwa [Nat.add_right_comm] at standsNow
      · rw [opcodes_succ_of_fetch (stands.fetch here), executed, List.range'_succ, List.map_cons]

end StandsAt

section Loaded

variable {rom : Rom} (straight : rom.IsStraightLine)

include straight

/-- Once it is loaded, a straight-line program is executed from its first word on. -/
theorem exists_standsAt {steps : Nat} (inside : steps ≤ 1792) :
    ∃ last, repeatUpTo step steps (loaded rom) = (last, none) ∧ last.StandsAt rom steps ∧
      (loaded rom).opcodes steps = (List.range steps).map rom.word := by
  have run := (StandsAt.loaded rom).repeatUpTo straight ((Nat.zero_add steps).trans_le inside)
  rwa [Nat.zero_add, ← List.range_eq_range'] at run

/-- Each step executes the word at which the machine stands. -/
theorem step_straight {number : Nat} (inside : number < 1792) :
    let now := (repeatUpTo step number (loaded rom)).1
    now.StandsAt rom number ∧ now.state.fetch = .ok (rom.word number) ∧
      now.step = .ok (repeatUpTo step (number + 1) (loaded rom)).1 := by
  obtain ⟨now, made, stands, _⟩ := exists_standsAt straight (Nat.le_of_lt inside)
  have next := stands.step inside
  rw [repeatUpTo_add made, repeatUpTo_succ_of_ok next, made]
  exact ⟨stands, stands.fetch inside, next⟩

/-- The opcodes that a straight-line program skips are the unknown ones of its words. -/
theorem skips_loaded : (loaded rom).skips 1792 = rom.unknownWords 1792 := by
  obtain ⟨_, _, _, executed⟩ := exists_standsAt straight (Nat.le_refl 1792)
  rw [skips, executed, Rom.unknownWords]
  apply List.filter_congr
  intro op member
  obtain ⟨number, _, rfl⟩ := List.mem_map.mp member
  have other := straight.family_word number
  rw [Opcode.not_isImplemented, decide_eq_decide, Opcode.IsKnown, List.mem_cons]
  simp only [other, false_or, not_or]

end Loaded

/-- The lines at the end of a run of 1792 cycles that was stopped at the end of the memory. -/
theorem closingLines_at_end {machine : Machine} (ended : machine.state.pc = 0x1000)
    {threshold : Option Level} :
    machine.closingLines threshold 1792 (some (.outOfBounds 0x1000)) =
      Level.error.logged threshold ("ERROR halting at pc 1000 after 1792 cycles: " ++
          "memory access out of bounds at address 0x1000") ++
        Level.info.logged threshold "INFO ran 1792 cycles" ++
        if 0 < machine.skipped then
          Level.warn.logged threshold ("WARN skipped " ++ toString machine.skipped ++
            " unimplemented opcodes, the last was " ++
            hexadecimal 4 (machine.lastSkipped.getD ⟨0⟩).toNat)
        else [] := by
  unfold closingLines
  rw [ended]
  rfl

/-- **Straight-line programs run exactly to the end of memory.** Let a program be loaded that has no
jump at its even offsets. Step by step its words are executed one after the other, and then the
zeros behind it, until after 1792 steps the machine stands at the end of the memory. There the next
step fails. The opcodes skipped by then are the unknown ones of those words, and the last of them is
the one remembered. All runs of the program with a limit greater than 1792, and the one without,
give the same report: they are stopped after 1792 cycles, and their last lines say so and how many
opcodes were skipped, if there were any. -/
theorem straight_line_runs_to_the_end (rom : Rom) (straight : rom.IsStraightLine) :
    let machine := loaded rom
    let after := fun steps => (repeatUpTo step steps machine).1
    let unknown := rom.unknownWords 1792
    let fault := Fault.outOfBounds 0x1000
    (∀ number < 1792,
      (after number).state.pc.toNat = 0x200 + 2 * number ∧
        machine.state.memory.opcode? (0x200 + 2 * number) = some (rom.word number) ∧
        (after number).state.fetch = .ok (rom.word number) ∧
        (after number).step = .ok (after (number + 1))) ∧
    repeatUpTo step 1792 machine = (after 1792, none) ∧
    machine.opcodes 1792 = (List.range 1792).map rom.word ∧
    (after 1792).state.pc = 0x1000 ∧
    (after 1792).step = .error fault ∧
    (after 1792).skipped = unknown.length ∧
    (after 1792).lastSkipped = unknown.getLast? ∧
    (∀ (options : Options) (keypad : Keypad) (threshold : Option Level),
      Keypad.holding options.hold = .ok keypad →
        let report? := fun limit =>
          { options with limit := limit }.report? (.ok rom.bytes) threshold
        ∃ report, report? none = some report ∧
          (∀ limit : UInt64, 1792 < limit.toNat → report? (some limit) = some report) ∧
          report.TellsOf options threshold (after 1792) 1792 (some fault) ∧
          report.journal.lines = report.journal.body ++
            (Level.error.logged threshold ("ERROR halting at pc 1000 after 1792 cycles: " ++
                "memory access out of bounds at address 0x1000") ++
              Level.info.logged threshold "INFO ran 1792 cycles" ++
              if 0 < unknown.length then
                Level.warn.logged threshold ("WARN skipped " ++ toString unknown.length ++
                  " unimplemented opcodes, the last was " ++
                  hexadecimal 4 (unknown.getLast?.getD ⟨0⟩).toNat)
              else [])) := by
  intro machine after unknown fault
  obtain ⟨last, successes, stands, executed⟩ := exists_standsAt straight (Nat.le_refl 1792)
  have reached : after 1792 = last := congrArg Prod.fst successes
  have made : repeatUpTo step 1792 machine = (after 1792, none) := reached ▸ successes
  have ended : (after 1792).state.pc = 0x1000 := reached ▸ UInt16.toNat_inj.mp stands.pc
  have failed : (after 1792).step = .error fault := reached ▸ stands.step_eq_error
  have account := machine.hasSkipped_repeatUpTo 1792
  rw [skips_loaded straight] at account
  have count : (after 1792).skipped = unknown.length := account.count.trans (Nat.zero_add _)
  have named : (after 1792).lastSkipped = unknown.getLast? := account.last.trans Option.or_none
  refine ⟨?each, made, executed, ended, failed, count, named, ?runs⟩
  case each =>
    intro number inside
    obtain ⟨standsNow, fetched, next⟩ := step_straight straight inside
    exact ⟨standsNow.pc, rom.opcode?_memory inside, fetched, next⟩
  case runs =>
    intro options keypad threshold accepted report?
    have lives : machine.lifetime = (1792 : Nat) := lifetime_eq_iff.mpr ⟨_, _, made, failed⟩
    obtain ⟨report, endless, limited, tells⟩ :=
      Options.exists_report_of_lifetime accepted lives threshold
    refine ⟨report, endless, limited, tells, tells.lines.trans (congrArg _ ?_)⟩
    have halting : (after 1792).closingLines threshold 1792 (some fault) = _ :=
      closingLines_at_end ended
    rw [halting, count, named]

/-- A program of an odd length that clears the frame, loads a register, holds an opcode that is not
implemented, and draws with its last byte and the zero behind it. -/
theorem straight_line_runs_to_the_end_with_an_odd_byte :
    let rom : Rom := ⟨#[0x00, 0xE0, 0x61, 0x07, 0x81, 0x20, 0xD1], by decide⟩
    let last := (repeatUpTo step 1792 (loaded rom)).1
    let options : Options := { path := "rom" }
    let report? := fun limit =>
      { options with limit := limit }.report? (.ok rom.bytes) (some .info)
    rom.IsStraightLine ∧
      (repeatUpTo step 3 (loaded rom)).1.state.fetch = .ok ⟨0xD100⟩ ∧
      last.state.pc = 0x1000 ∧ last.skipped = 1789 ∧ last.lastSkipped = some ⟨0⟩ ∧
      Keypad.holding options.hold = .ok Keypad.released ∧
      ∃ report, report? none = some report ∧ report? (some 1793) = some report ∧
        report.journal.lines = report.journal.body ++
          ["ERROR halting at pc 1000 after 1792 cycles: memory access out of bounds at address 0x1000",
            "INFO ran 1792 cycles",
            "WARN skipped 1789 unimplemented opcodes, the last was 0000"] := by
  intro rom last options report?
  have straight : rom.IsStraightLine := by decide
  have unknown : rom.unknownWords 1792 = rom.unknownWords 4 ++ .replicate 1788 ⟨0⟩ :=
    Rom.unknownWords_add (by decide) 1788
  have first : rom.unknownWords 4 = [⟨0x8120⟩] := by decide
  have length : (rom.unknownWords 1792).length = 1789 := by
    rw [unknown, first, List.length_append, List.length_replicate, List.length_singleton]
  have final : (rom.unknownWords 1792).getLast? = some ⟨0⟩ := by
    rw [unknown, List.getLast?_append, List.getLast?_replicate, if_neg (by decide), Option.some_or]
  obtain ⟨each, _, _, ended, _, count, named, runs⟩ := straight_line_runs_to_the_end rom straight
  obtain ⟨report, endless, limited, _, lines⟩ := runs options Keypad.released (some .info) rfl
  have drawn : rom.word 3 = ⟨0xD100⟩ := by decide
  refine ⟨straight, drawn ▸ (each 3 (by decide)).2.2.1, ended, count.trans length,
    named.trans final, rfl, report, endless, limited 1793 (by decide), ?_⟩
  rw [length, final] at lines
  exact lines

end Machine

end ChipEight
