import ChipEight.Proofs.Limits
import ChipEight.Proofs.Parity

/-! # What a run reads

All that a run reads of the memory are the two bytes of each opcode that it executes and the
rows of each sprite that it draws, as far as they lie inside the memory (`Machine.reads`). So a
machine whose memory differs elsewhere goes the same way (`Machine.repeatUpTo_withMemory`), and
bytes of a program that a run does not read change nothing about its report but the size that
is told of the program (`Machine.unread_bytes_do_not_matter`).
-/

namespace ChipEight

namespace Memory

/-- Two memories agree on some addresses if they hold the same bytes there, or both none. -/
def AgreeOn (first second : Memory) (addresses : List Nat) : Prop :=
  ∀ address ∈ addresses, first.byte? address = second.byte? address

instance (first second : Memory) (addresses : List Nat) :
    Decidable (first.AgreeOn second addresses) :=
  inferInstanceAs (Decidable (∀ address ∈ addresses, _))

variable {first second : Memory} {addresses more : List Nat}

theorem AgreeOn.of_subset (agree : first.AgreeOn second addresses) (fewer : more ⊆ addresses) :
    first.AgreeOn second more :=
  fun address member => agree address (fewer member)

theorem agreeOn_append :
    first.AgreeOn second (addresses ++ more) ↔
      first.AgreeOn second addresses ∧ first.AgreeOn second more :=
  List.forall_mem_append

end Memory

/-! ## Executions -/

namespace Execution

/-- The addresses of the two bytes of the opcode. -/
def opcodeReads (execution : Execution) : List Nat :=
  [execution.state.pc.toNat, execution.state.pc.toNat + 1]

/-- The addresses of the rows of the sprite, if one is drawn, as far as they lie inside the
memory. -/
def spriteReads (execution : Execution) : List Nat :=
  if execution.op.family.val = 0xD then
    (List.range' execution.state.index.toNat execution.op.n.val).filter (· < Memory.size)
  else []

/-- The addresses that an execution reads. -/
def reads (execution : Execution) : List Nat :=
  execution.opcodeReads ++ execution.spriteReads

end Execution

namespace Machine

/-- The machine with another memory. -/
def withMemory (machine : Machine) (memory : Memory) : Machine :=
  { machine with state := { machine.state with memory := memory } }

/-- The addresses that a number of steps reads. -/
def reads (machine : Machine) (steps : Nat) : List Nat :=
  (machine.executions steps).flatMap Execution.reads

variable {machine : Machine} {op : Opcode} {memory : Memory}

/-- What a run reads is what its first opcode reads, and what the rest of it does. -/
theorem reads_succ_of_fetch (fetched : machine.state.fetch = .ok op) (steps : Nat) :
    machine.reads (steps + 1) =
      Execution.reads ⟨machine.state, op⟩ ++ (machine.complete op).reads steps := by
  simp only [reads, executions, fetched, List.flatMap_cons]

theorem reads_of_fetch_error {fault : Fault} (failed : machine.state.fetch = .error fault)
    (steps : Nat) : machine.reads steps = [] := by
  cases steps with
  | zero => rfl
  | succ steps => simp only [reads, executions, failed, List.flatMap_nil]

/-- More steps read what fewer of them do. -/
theorem reads_subset_of_le (machine : Machine) {fewer steps : Nat} (le : fewer ≤ steps) :
    machine.reads fewer ⊆ machine.reads steps := by
  induction fewer generalizing machine steps with
  | zero => exact List.nil_subset _
  | succ fewer ih =>
      cases steps with
      | zero => exact absurd le (Nat.not_succ_le_zero fewer)
      | succ steps =>
          cases fetched : machine.state.fetch with
          | error fault =>
              rw [reads_of_fetch_error fetched]
              exact List.nil_subset _
          | ok op =>
              have later := ih (machine.complete op) (Nat.le_of_succ_le_succ le)
              rw [reads_succ_of_fetch fetched, reads_succ_of_fetch fetched, List.append_subset]
              exact ⟨List.subset_append_left _ _, List.subset_append_of_subset_right _ later⟩

/-- What the host touches does not decide what is read. -/
theorem reads_of_detached {first second : Machine} (same : first.detached = second.detached)
    (steps : Nat) : first.reads steps = second.reads steps := by
  induction steps generalizing first second with
  | zero => rfl
  | succ steps ih =>
      have fetches := fetch_of_control (control_of_detached same)
      cases fetched : first.state.fetch with
      | error fault =>
          rw [reads_of_fetch_error fetched, reads_of_fetch_error (fetches ▸ fetched)]
      | ok op =>
          have here : Execution.reads ⟨first.state, op⟩ = Execution.reads ⟨second.state, op⟩ :=
            eq_of_detached (fun machine => Execution.reads ⟨machine.state, op⟩) (fun _ => rfl) same
          have later : (first.complete op).detached = (second.complete op).detached := by
            rw [← detached_complete, same, detached_complete]
          rw [reads_succ_of_fetch fetched, reads_succ_of_fetch (fetches ▸ fetched), here, ih later]

/-! ## The same way with another memory -/

/-- The opcode that is fetched depends on its two bytes only. -/
theorem fetch_withMemory (fetched : machine.state.fetch = .ok op)
    (agree : machine.state.memory.AgreeOn memory (Execution.opcodeReads ⟨machine.state, op⟩)) :
    (machine.withMemory memory).state.fetch = .ok op := by
  have high := agree machine.state.pc.toNat List.mem_cons_self
  have low := agree (machine.state.pc.toNat + 1) (List.mem_cons_of_mem _ List.mem_cons_self)
  rw [State.fetch_eq_ok_iff, Memory.opcode?, high, low] at fetched
  exact State.fetch_eq_ok_iff.mpr fetched

/-- Where no opcode lies inside the memory, it does not matter what the memory holds. -/
theorem fetch_withMemory_of_error {fault : Fault} (failed : machine.state.fetch = .error fault)
    (memory : Memory) : (machine.withMemory memory).state.fetch = .error fault := by
  rw [State.fetch_eq_error_iff] at failed ⊢
  exact failed

/-- The rows of a sprite past the end of the memory are blank in every memory, so those inside
are all that matter. -/
theorem sprite_withMemory (draws : op.family = 0xD)
    (agree : machine.state.memory.AgreeOn memory (Execution.spriteReads ⟨machine.state, op⟩)) :
    (machine.withMemory memory).state.sprite op.x op.y op.n.val =
      machine.state.sprite op.x op.y op.n.val := by
  have reads : Execution.spriteReads ⟨machine.state, op⟩ =
      (List.range' machine.state.index.toNat op.n.val).filter (· < Memory.size) :=
    if_pos (congrArg Fin.val draws)
  have rows : memory.read machine.state.index.toNat op.n.val =
      machine.state.memory.read machine.state.index.toNat op.n.val := by
    apply List.map_congr_left
    intro row member
    by_cases inside : machine.state.index.toNat + row < Memory.size
    · have below : machine.state.index.toNat + row <
          machine.state.index.toNat + op.n.val :=
        Nat.add_lt_add_left (List.mem_range.mp member) _
      rw [reads] at agree
      rw [agree _ (List.mem_filter.mpr
        ⟨List.mem_range'_1.mpr ⟨Nat.le_add_right _ _, below⟩, decide_eq_true inside⟩)]
    · have outside := Nat.not_lt.mp inside
      rw [(memory.byte?_eq_none_iff _).mpr outside,
        (machine.state.memory.byte?_eq_none_iff _).mpr outside]
  exact congrArg (Sprite.mk _ _) rows

/-- What an opcode does depends on the bytes of its sprite only. -/
theorem complete_withMemory
    (agree : machine.state.memory.AgreeOn memory (Execution.spriteReads ⟨machine.state, op⟩)) :
    (machine.withMemory memory).complete op = (machine.complete op).withMemory memory := by
  by_cases draws : op.family = 0xD
  · rw [complete_of_draw _ draws, complete_of_draw _ draws, sprite_withMemory draws agree]
    rfl
  · unfold complete
    simp only [Instruction.decode?_eq, draws, ↓reduceIte]
    split_ifs <;> rfl

/-- An execution that reads the same bytes does the same. -/
theorem execution_withMemory (fetched : machine.state.fetch = .ok op)
    (agree : machine.state.memory.AgreeOn memory (Execution.reads ⟨machine.state, op⟩)) :
    (machine.withMemory memory).state.fetch = .ok op ∧
      (machine.withMemory memory).complete op = (machine.complete op).withMemory memory :=
  have ⟨opcodeAgree, spriteAgree⟩ := Memory.agreeOn_append.mp agree
  ⟨fetch_withMemory fetched opcodeAgree, complete_withMemory spriteAgree⟩

/-- Steps go the same way, and are stopped by the same fault, with every memory that agrees on
what they read. -/
theorem repeatUpTo_withMemory {steps : Nat}
    (agree : machine.state.memory.AgreeOn memory (machine.reads steps)) :
    repeatUpTo step steps (machine.withMemory memory) =
      ((repeatUpTo step steps machine).1.withMemory memory, (repeatUpTo step steps machine).2) := by
  induction steps generalizing machine with
  | zero => rfl
  | succ steps ih =>
      cases fetched : machine.state.fetch with
      | error fault =>
          have failed := fetch_withMemory_of_error fetched memory
          rw [repeatUpTo_succ_of_error (step_eq_error_iff.mpr fetched),
            repeatUpTo_succ_of_error (step_eq_error_iff.mpr failed)]
      | ok op =>
          rw [reads_succ_of_fetch fetched, Memory.agreeOn_append] at agree
          obtain ⟨here, later⟩ := agree
          obtain ⟨fetchedToo, completed⟩ := execution_withMemory fetched here
          rw [← machine.memory_complete op] at later
          rw [repeatUpTo_succ_of_ok (step_eq_ok_iff.mpr ⟨op, fetched, rfl⟩),
            repeatUpTo_succ_of_ok (step_eq_ok_iff.mpr ⟨op, fetchedToo, completed⟩), ih later]

end Machine

/-! ## Reports -/

/-- The event as it is told of a program of another size. -/
def Event.resized (size : Nat) : Event → Event
  | .romLoaded _ => .romLoaded size
  | .fileLoaded _ path => .fileLoaded size path
  | event => event

namespace Journal

/-- The journal as it is told of a program of another size. -/
def resized (size : Nat) (journal : Journal) : Journal :=
  { journal with events := journal.events.map (Event.resized size) }

@[simp] theorem resized_empty (size : Nat) (threshold : Option Level) :
    (empty threshold).resized size = empty threshold := by
  rw [resized, empty, Array.map_empty]

/-- The sizes that are told do not decide what is recorded. -/
theorem record_resized (size : Nat) (journal : Journal) (event : Event) :
    (journal.resized size).record (event.resized size) = (journal.record event).resized size := by
  have level : (event.resized size).level = event.level := by cases event <;> rfl
  have admitted : admits journal.threshold (event.resized size) =
      admits journal.threshold event := by
    unfold admits
    rw [level]
  unfold record resized
  rw [admitted]
  split
  · rw [Array.map_push]
  · rfl

theorem recordAll_resized (size : Nat) (journal : Journal) (events : List Event) :
    (journal.resized size).recordAll (events.map (Event.resized size)) =
      (journal.recordAll events).resized size := by
  induction events generalizing journal with
  | nil => rfl
  | cons event rest ih => rw [List.map_cons, recordAll_cons, recordAll_cons, record_resized, ih]

end Journal

namespace Machine

/-! The size of the program is told only when it is loaded. -/

section Events

variable (machine : Machine) (size : Nat)

theorem resized_stepEvents : machine.stepEvents.map (Event.resized size) = machine.stepEvents := by
  unfold stepEvents
  cases machine.state.fetch with
  | error fault => rfl
  | ok op =>
      simp only [List.map_cons]
      split <;> rfl

theorem resized_frameEvents (cycles : Nat) :
    (machine.frameEvents cycles).map (Event.resized size) = machine.frameEvents cycles := by
  unfold frameEvents
  split <;> rfl

theorem resized_closing (cycles : Nat) (fault : Option Fault) :
    (machine.closing cycles fault).map (Event.resized size) = machine.closing cycles fault := by
  unfold closing
  cases fault <;> split <;> rfl

end Events

theorem takeFrame_withMemory (machine : Machine) (memory : Memory) :
    (machine.withMemory memory).takeFrame.2 = machine.takeFrame.2.withMemory memory := by
  unfold takeFrame
  cases pending : machine.state.framePending <;>
    simp only [withMemory, pending, Bool.false_eq_true, ↓reduceIte]

end Machine

namespace Session

/-- The session with another memory, told of a program of another size. -/
def reloaded (session : Session) (memory : Memory) (size : Nat) : Session :=
  { session with
    machine := session.machine.withMemory memory
    journal := session.journal.resized size }

variable {session : Session} {op : Opcode} {memory : Memory}

/-- A cycle as one record: its machine, what it tells and its number. -/
theorem cycle_of_fetch (fetched : session.machine.state.fetch = .ok op) :
    session.cycle = .ok
      { machine := (session.machine.complete op).takeFrame.2
        journal := session.journal.recordAll (session.machine.stepEvents ++
          (session.machine.complete op).frameEvents (session.steps + 1))
        steps := session.steps + 1 } := by
  have stepped := Machine.step_eq_ok_iff.mpr ⟨op, fetched, rfl⟩
  cases attempt : session.cycle with
  | error fault =>
      rw [cycle_eq_error_iff, stepped] at attempt
      cases attempt
  | ok next =>
      obtain ⟨machine, steppedSo, rfl⟩ := exists_step_of_cycle attempt
      cases stepped.symm.trans steppedSo
      rfl

/-- A cycle is the same with another memory that agrees on what it reads. -/
theorem cycle_reloaded (size : Nat) (fetched : session.machine.state.fetch = .ok op)
    (agree : session.machine.state.memory.AgreeOn memory
      (Execution.reads ⟨session.machine.state, op⟩)) :
    (session.reloaded memory size).cycle =
      session.cycle.map fun next => next.reloaded memory size := by
  obtain ⟨fetchedToo, completed⟩ := Machine.execution_withMemory fetched agree
  have told : (session.machine.withMemory memory).stepEvents = session.machine.stepEvents := by
    unfold Machine.stepEvents
    rw [fetched, fetchedToo]
    rfl
  have taken (machine : Machine) :
      (machine.withMemory memory).frameEvents (session.steps + 1) =
        machine.frameEvents (session.steps + 1) := rfl
  have recorded := Journal.recordAll_resized size session.journal
    (session.machine.stepEvents ++ (session.machine.complete op).frameEvents (session.steps + 1))
  rw [List.map_append, Machine.resized_stepEvents, Machine.resized_frameEvents] at recorded
  have cycled : (session.reloaded memory size).cycle = _ := cycle_of_fetch fetchedToo
  rw [cycled, cycle_of_fetch fetched]
  simp only [reloaded, completed, told, taken, recorded, Machine.takeFrame_withMemory, Except.map]

/-- Cycles go the same way with every memory that agrees on what their steps read. -/
theorem runFor_reloaded (size : Nat) {cycles : Nat}
    (agree : session.machine.state.memory.AgreeOn memory (session.machine.reads cycles)) :
    (session.reloaded memory size).runFor cycles =
      ((session.runFor cycles).1.reloaded memory size, (session.runFor cycles).2) := by
  unfold runFor
  induction cycles generalizing session with
  | zero => rfl
  | succ cycles ih =>
      cases fetched : session.machine.state.fetch with
      | error fault =>
          have failed : (session.reloaded memory size).machine.state.fetch = .error fault :=
            Machine.fetch_withMemory_of_error fetched memory
          rw [repeatUpTo_succ_of_error
              (cycle_eq_error_iff.mpr (Machine.step_eq_error_iff.mpr fetched)),
            repeatUpTo_succ_of_error
              (cycle_eq_error_iff.mpr (Machine.step_eq_error_iff.mpr failed))]
      | ok op =>
          rw [Machine.reads_succ_of_fetch fetched, Memory.agreeOn_append] at agree
          obtain ⟨here, later⟩ := agree
          have success := cycle_of_fetch fetched
          have successToo := cycle_reloaded size fetched here
          rw [success] at successToo
          rw [repeatUpTo_succ_of_ok success, repeatUpTo_succ_of_ok successToo]
          -- Taking the frame changes neither the memory nor what is read from here on.
          have taken := (session.machine.complete op).detached_takeFrame
          have kept := Machine.eq_of_detached (fun machine => machine.state.memory)
            (fun _ => rfl) taken
          rw [← Machine.reads_of_detached taken, ← Machine.memory_complete _ op, ← kept] at later
          exact ih later

end Session

namespace Report

/-- The report as it is told of a program of another size. -/
def resized (size : Nat) (report : Report) : Report :=
  { report with journal := report.journal.resized size }

end Report

namespace Rom

/-- Programs agree on some addresses in the memory if they have the same bytes there, where a
byte past the end of a program counts as zero. -/
theorem agreeOn_memory {first second : Rom} {addresses : List Nat}
    (agree : ∀ address ∈ addresses, Memory.programStart ≤ address →
      first.bytes[address - Memory.programStart]?.getD 0 =
        second.bytes[address - Memory.programStart]?.getD 0) :
    first.memory.AgreeOn second.memory addresses := by
  intro address member
  unfold Memory.byte?
  by_cases inside : address < Memory.size
  · simp only [inside, ↓reduceDIte, memory, Memory.byteAt_write_powerOn, Option.some.injEq]
    by_cases below : address < 0x200
    · simp only [below, ↓reduceIte]
    · have same : first.bytes[address - 0x200]?.getD 0 = second.bytes[address - 0x200]?.getD 0 :=
        agree address member (Nat.not_lt.mp below)
      rw [if_neg below, if_neg below, same]
  · simp only [inside, ↓reduceDIte]

end Rom

namespace Options

/-- With another memory a report differs in the sizes that it tells at most. -/
theorem reportOf_reloaded (options : Options) (last : Session) (memory : Memory) (size : Nat)
    (fault : Option Fault) :
    options.reportOf (last.reloaded memory size) fault =
      (options.reportOf last fault).resized size := by
  have recorded := Journal.recordAll_resized size last.journal
    (last.machine.closing last.steps fault)
  rw [Machine.resized_closing] at recorded
  exact congrArg (Report.mk _ _ _) recorded

variable {options : Options} {threshold : Option Level} {first second : Rom}

/-- A run gives the same report of a program that has the same bytes where they are read, but
for its size. -/
theorem report?_of_agree {keypad : Keypad} (accepted : Keypad.holding options.hold = .ok keypad)
    {limit : UInt64}
    (agree : first.memory.AgreeOn second.memory ((Machine.loaded first).reads limit.toNat)) :
    ∃ report,
      { options with limit := some limit }.report? (.ok first.bytes) threshold = some report ∧
        { options with limit := some limit }.report? (.ok second.bytes) threshold =
          some (report.resized second.bytes.size) := by
  have ran : options.runLoaded second threshold limit.toNat =
      ((options.runLoaded first threshold limit.toNat).1.reloaded second.memory second.bytes.size,
        (options.runLoaded first threshold limit.toNat).2) := by
    have told := Journal.recordAll_resized second.bytes.size (.empty threshold)
      [.resetting, .romLoaded first.bytes.size, .fileLoaded first.bytes.size options.path]
    rw [Journal.resized_empty] at told
    have loaded : Session.loaded options.path second threshold =
        (Session.loaded options.path first threshold).reloaded second.memory second.bytes.size :=
      congrArg (Session.mk (Machine.loaded second) · 0) told
    unfold runLoaded
    rw [loaded]
    exact Session.runFor_reloaded second.bytes.size agree
  refine ⟨_, report?_of_limit accepted limit, ?_⟩
  rw [report?_of_limit accepted limit, ran, reportOf_reloaded]

end Options

namespace Machine

/-- **Bytes that are not read do not matter.** Let any machine attempt a number of steps. With
another memory in its place that agrees with its own on what these steps read, it makes the same
steps: after each of them the machines differ in nothing but the memory, and a step that fails
does so for the same reason. Hence a run up to a limit gives the same report of two programs
that have the same bytes where it reads them, but for the size that is told of the program; and
bytes that are appended to a program past what is read change nothing else either. -/
theorem unread_bytes_do_not_matter :
    (∀ (machine : Machine) (memory : Memory) (steps : Nat),
      machine.state.memory.AgreeOn memory (machine.reads steps) →
        ∀ made ≤ steps,
          repeatUpTo step made (machine.withMemory memory) =
            ((repeatUpTo step made machine).1.withMemory memory,
              (repeatUpTo step made machine).2)) ∧
    (∀ (options : Options) (keypad : Keypad) (first second : Rom) (limit : UInt64)
      (threshold : Option Level),
      Keypad.holding options.hold = .ok keypad →
      (∀ address ∈ (loaded first).reads limit.toNat, Memory.programStart ≤ address →
        first.bytes[address - Memory.programStart]?.getD 0 =
          second.bytes[address - Memory.programStart]?.getD 0) →
        ∃ report,
          { options with limit := some limit }.report? (.ok first.bytes) threshold = some report ∧
            { options with limit := some limit }.report? (.ok second.bytes) threshold =
              some (report.resized second.bytes.size)) ∧
    ∀ (options : Options) (keypad : Keypad) (rom : Rom) (more : Array UInt8) (limit : UInt64)
      (threshold : Option Level),
      Keypad.holding options.hold = .ok keypad →
      (rom.bytes ++ more).size ≤ Rom.maxSize →
      (∀ address ∈ (loaded rom).reads limit.toNat,
        address < Memory.programStart + rom.bytes.size) →
        ∃ report,
          { options with limit := some limit }.report? (.ok rom.bytes) threshold = some report ∧
            { options with limit := some limit }.report? (.ok (rom.bytes ++ more)) threshold =
              some (report.resized (rom.bytes ++ more).size) := by
  refine ⟨?machines, ?programs, ?appended⟩
  case machines =>
    intro machine memory steps agree made le
    exact repeatUpTo_withMemory (agree.of_subset (machine.reads_subset_of_le le))
  case programs =>
    intro options keypad first second limit threshold accepted agree
    exact Options.report?_of_agree accepted (Rom.agreeOn_memory agree)
  case appended =>
    intro options keypad rom more limit threshold accepted fits within
    let longer : Rom := ⟨rom.bytes ++ more, fits⟩
    have agree : rom.memory.AgreeOn longer.memory ((loaded rom).reads limit.toNat) := by
      refine Rom.agreeOn_memory fun address member past => ?_
      have inside : address - Memory.programStart < rom.bytes.size :=
        Nat.sub_lt_left_of_lt_add past (within address member)
      rw [Array.getElem?_append_left inside]
    exact Options.report?_of_agree accepted agree

/-- A program that draws three rows, two of them past its end, and then jumps to itself; with
other bytes where it does not read, and with more of them behind. -/
theorem unread_bytes_do_not_matter_beside_a_sprite :
    let first : Rom :=
      ⟨#[0xA2, 0x08, 0xD0, 0x13, 0x12, 0x04, 0xFF, 0xFF, 0x80], by decide⟩
    let second : Rom :=
      ⟨#[0xA2, 0x08, 0xD0, 0x13, 0x12, 0x04, 0x00, 0x11, 0x80, 0x00, 0x00, 0x3C], by decide⟩
    let rom : Rom := ⟨#[0xA2, 0x05, 0xD0, 0x11, 0x12, 0x04], by decide⟩
    let options : Options := { path := "rom", dump := true }
    let report? := fun bytes =>
      { options with limit := some 5 }.report? (.ok bytes) (some .trace)
    (loaded first).reads 3 =
        [0x200, 0x201, 0x202, 0x203, 0x208, 0x209, 0x20A, 0x204, 0x205] ∧
      first.memory.AgreeOn second.memory ((loaded first).reads 5) ∧
      repeatUpTo step 4 ((loaded first).withMemory second.memory) =
        ((repeatUpTo step 4 (loaded first)).1.withMemory second.memory,
          (repeatUpTo step 4 (loaded first)).2) ∧
      (∃ report, report? first.bytes = some report ∧
        report? second.bytes = some (report.resized 12)) ∧
      ∃ report, report? rom.bytes = some report ∧
        report? (rom.bytes ++ #[0x01, 0x02]) = some (report.resized 8) := by
  intro first second rom options report?
  obtain ⟨machines, programs, appended⟩ := unread_bytes_do_not_matter
  have agree : first.memory.AgreeOn second.memory ((loaded first).reads 5) := by decide
  have accepted : Keypad.holding options.hold = .ok Keypad.released := rfl
  exact ⟨by decide, agree, machines (loaded first) second.memory 5 agree 4 (by decide),
    programs options _ first second 5 (some .trace) accepted (by decide),
    appended options _ rom #[0x01, 0x02] 5 (some .trace) accepted (by decide) (by decide)⟩

end Machine

end ChipEight
