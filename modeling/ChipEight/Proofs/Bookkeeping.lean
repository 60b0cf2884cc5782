import ChipEight.Proofs.Limits
import ChipEight.Proofs.Pictures
import ChipEight.Proofs.Polling
import ChipEight.Proofs.Story

/-! # What a run tells adds up

A run that is told in full detail tells a story (`Session.Tells`), and at its end how it went.
So the numbers in its report agree: cycles, opcodes, skipped opcodes, frames and the marks of the
picture are counted independently of each other, by the run and by the machine, and come to the
same (`Options.journal_adds_up`).
-/

namespace ChipEight

namespace Event

/-- After how many cycles the machine is told to halt. -/
def halted? : Event → Option Nat
  | .halting _ cycles _ => some cycles
  | _ => none

/-- After how many cycles the run is told to be over. -/
def ran? : Event → Option Nat
  | .ran cycles => some cycles
  | _ => none

/-- Events that close a run tell of no opcode and of no frame. -/
theorem quiet_of_closes {event : Event} (closes : event.closes = true) :
    event.fetched? = none ∧ event.skipped? = none ∧ event.frame? = none := by
  cases event with
  | halting => exact ⟨rfl, rfl, rfl⟩
  | ran => exact ⟨rfl, rfl, rfl⟩
  | skippedInRun => exact ⟨rfl, rfl, rfl⟩
  | _ => cases closes

theorem quiet_of_not_closes {event : Event} (unclosed : event.closes = false) :
    event.halted? = none ∧ event.ran? = none ∧ event.level ≠ .warn := by
  cases event with
  | halting => cases unclosed
  | ran => cases unclosed
  | skippedInRun => cases unclosed
  | _ => exact ⟨rfl, rfl, nofun⟩

end Event

/-- The most detailed threshold lets every event into a journal. -/
theorem Journal.admits_trace (event : Event) : admits (some .trace) event = true := by
  cases event <;> rfl

section Parts

variable {told closing : List Event}

/-- The events that close a run tell of no opcode and of no frame. -/
theorem told_append_closing (closes : ∀ event ∈ closing, event.closes = true) :
    traced (told ++ closing) = traced told ∧
      toldSkips (told ++ closing) = toldSkips told ∧
      toldFrames (told ++ closing) = toldFrames told := by
  have quiet := fun event member => Event.quiet_of_closes (closes event member)
  have fetched : traced closing = [] :=
    List.filterMap_eq_nil_iff.mpr fun event member => (quiet event member).1
  have skipped : toldSkips closing = [] :=
    List.filterMap_eq_nil_iff.mpr fun event member => (quiet event member).2.1
  have taken : toldFrames closing = [] :=
    List.filterMap_eq_nil_iff.mpr fun event member => (quiet event member).2.2
  refine ⟨?_, ?_, toldFrames_append_of_eq_nil told taken⟩
  · rw [traced_append, fetched, List.append_nil]
  · rw [toldSkips_append, skipped, List.append_nil]

/-- The other events tell neither how a run has ended nor a warning. -/
theorem closing_of_append (unclosed : ∀ event ∈ told, event.closes = false) :
    (told ++ closing).filterMap Event.halted? = closing.filterMap Event.halted? ∧
      (told ++ closing).filterMap Event.ran? = closing.filterMap Event.ran? ∧
      (told ++ closing).filter (fun event => event.level = .warn) =
        closing.filter fun event => event.level = .warn := by
  have quiet := fun event member => Event.quiet_of_not_closes (unclosed event member)
  have halted : told.filterMap Event.halted? = [] :=
    List.filterMap_eq_nil_iff.mpr fun event member => (quiet event member).1
  have ran : told.filterMap Event.ran? = [] :=
    List.filterMap_eq_nil_iff.mpr fun event member => (quiet event member).2.1
  have warned : told.filter (fun event => event.level = .warn) = [] :=
    List.filter_eq_nil_iff.mpr fun event member warns =>
      (quiet event member).2.2 (of_decide_eq_true warns)
  rw [List.filterMap_append, List.filterMap_append, List.filter_append, halted, ran, warned]
  exact ⟨rfl, rfl, rfl⟩

/-- What does not close a run is told before the events that do. -/
theorem prefix_of_not_closes {earlier : List Event} {event : Event}
    (closes : ∀ last ∈ closing, last.closes = true) (unclosed : event.closes = false)
    (reached : earlier ++ [event] <+: told ++ closing) : earlier ++ [event] <+: told := by
  rcases List.prefix_or_prefix_of_prefix reached (List.prefix_append told closing) with
    within | ⟨part, reaches⟩
  · exact within
  · rcases List.eq_nil_or_concat' part with rfl | ⟨rest, last, rfl⟩
    · rw [← reaches, List.append_nil]
    · rw [← List.append_assoc, List.append_singleton_inj] at reaches
      obtain ⟨rfl, rfl⟩ := reaches
      rw [List.append_assoc, List.prefix_append_right_inj] at reached
      have member := reached.subset (List.mem_append_right rest (List.mem_singleton_self last))
      rw [closes last member] at unclosed
      cases unclosed

end Parts

namespace Machine

variable {machine : Machine} {op : Opcode}

/-- What a step tells of an opcode: its line of the trace, and that it is skipped if it is. -/
theorem stepEvents_of_fetch (fetched : machine.state.fetch = .ok op) :
    machine.stepEvents =
      machine.fetching op ::
        if op.isImplemented then [] else [.skipping op machine.state.pc] := by
  unfold stepEvents
  rw [fetched]
  rfl

/-- What a step tells does not depend on the keys or on a pending frame. -/
theorem stepEvents_of_detached {first second : Machine} (same : first.detached = second.detached) :
    first.stepEvents = second.stepEvents :=
  eq_of_detached stepEvents (fun _ => rfl) same

/-- If the last frame was taken, a frame is pending after an opcode that paints. -/
theorem frameEvents_complete (taken : machine.state.framePending = false) (op : Opcode)
    (cycles : Nat) :
    (machine.complete op).frameEvents cycles =
      if op.Paints then [.frameTaken cycles (machine.complete op).state.frame.litCount]
      else [] := by
  rw [frameEvents, framePending_complete, taken]
  by_cases paints : op.Paints <;> simp only [paints, ↓reduceIte, Bool.false_eq_true]

section Closing

variable (machine : Machine) (cycles : Nat) (fault : Option Fault)

theorem halted_closing :
    (machine.closing cycles fault).filterMap Event.halted? =
      (fault.map fun _ => cycles).toList := by
  unfold closing
  cases fault <;> split <;> rfl

theorem ran_closing : (machine.closing cycles fault).filterMap Event.ran? = [cycles] := by
  unfold closing
  cases fault <;> split <;> rfl

/-- The one warning of a run counts the opcodes that were skipped, if there are any. -/
theorem warnings_closing :
    (machine.closing cycles fault).filter (fun event => event.level = .warn) =
      if 0 < machine.skipped then
        [.skippedInRun machine.skipped (machine.lastSkipped.getD ⟨0⟩)]
      else [] := by
  unfold closing
  cases fault <;> split <;> rfl

end Closing

/-- What a machine has skipped since it was loaded is what it is warned of. -/
theorem HasSkipped.warning {rom : Rom} {skips : List Opcode}
    (account : machine.HasSkipped (loaded rom) skips) :
    (if 0 < machine.skipped then
        [Event.skippedInRun machine.skipped (machine.lastSkipped.getD ⟨0⟩)]
      else []) =
      (skips.getLast?.map fun last => Event.skippedInRun skips.length last).toList := by
  have count : machine.skipped = 0 + skips.length := account.count
  have last : machine.lastSkipped = skips.getLast?.or none := account.last
  rw [count, last, Nat.zero_add, Option.or_none]
  rcases List.eq_nil_or_concat' skips with rfl | ⟨rest, op, rfl⟩
  · rfl
  · rw [List.getLast?_concat, List.length_append, List.length_singleton,
      if_pos (Nat.succ_pos rest.length)]
    rfl

end Machine

/-- A cycle goes on with a story. -/
theorem Story.cycle {start : Machine} {cycles : Nat} {told : List Event} {op : Opcode}
    (story : Story start cycles told) (fetched : (start.after cycles).state.fetch = .ok op) :
    Story start (cycles + 1)
      (told ++ ((start.after cycles).stepEvents ++
        if op.Paints then [.frameTaken (cycles + 1) (start.litAfter (cycles + 1))] else [])) := by
  rw [Machine.stepEvents_of_fetch fetched]
  by_cases paints : op.Paints
  · rw [Opcode.isImplemented_of_paints paints, if_pos paints]
    exact story.paints fetched paints
  · rw [if_neg paints]
    cases known : op.isImplemented with
    | true => exact story.executes fetched known paints
    | false => exact story.skips fetched known

/-- A session tells of a machine's run in full detail: no frame is left to be taken, and its
machine is where as many steps lead. -/
structure Session.Tells (session : Session) (start : Machine) : Prop where
  threshold : session.journal.threshold = some .trace
  taken : session.machine.state.framePending = false
  reached : session.machine.detached = (start.after session.steps).detached
  story : Story start session.steps session.journal.events.toList

namespace Session

theorem tells_loaded (path : String) (rom : Rom) :
    (loaded path rom (some .trace)).Tells (Machine.loaded rom) where
  threshold := rfl
  taken := rfl
  reached := rfl
  story := .opening rom.bytes.size path

/-- A session stays in step with its story for one more cycle. -/
theorem Tells.cycle {start : Machine} {session next : Session} (tells : session.Tells start)
    (success : session.cycle = .ok next) : next.Tells start := by
  obtain ⟨machine, stepped, rfl⟩ := exists_step_of_cycle success
  obtain ⟨op, fetched, rfl⟩ := Machine.step_eq_ok_iff.mp stepped
  -- What the host touches decides neither the opcode nor the frame, so both are those of the steps.
  have fetchedThere : (start.after session.steps).state.fetch = .ok op :=
    (Machine.fetch_of_control (Machine.control_of_detached tells.reached)).symm.trans fetched
  have reached :
      (session.machine.complete op).detached = (start.after (session.steps + 1)).detached := by
    rw [Machine.after_succ fetchedThere, ← Machine.detached_complete, tells.reached,
      Machine.detached_complete]
  have lit : (session.machine.complete op).state.frame.litCount =
      start.litAfter (session.steps + 1) :=
    congrArg (fun machine => machine.state.frame.litCount) reached
  constructor
  case threshold => exact (Journal.threshold_recordAll _ _).trans tells.threshold
  case taken => rw [Machine.snd_takeFrame]
  case reached => rw [Machine.detached_takeFrame, reached]
  case story =>
    rw [Journal.events_recordAll, tells.threshold,
      List.filter_eq_self.mpr fun event _ => Journal.admits_trace event,
      Machine.frameEvents_complete tells.taken, lit, Machine.stepEvents_of_detached tells.reached]
    exact tells.story.cycle fetchedThere

/-- A session stays in step with its story, by induction over its cycles. -/
theorem tells_runFor {start : Machine} {session : Session} (tells : session.Tells start)
    (cycles : Nat) : (session.runFor cycles).1.Tells start := by
  have keeps (current next : Session) (tells : current.Tells start)
      (success : current.cycle = .ok next) : next.Tells start := tells.cycle success
  exact repeatUpTo_keeps keeps tells cycles

end Session

namespace Report

/-- What a report tells: the events that are read off its lines. -/
def told (report : Report) : List Event :=
  report.journal.told

/-- The lines of a report on a machine's run, and the picture printed after them, agree with
each other and with the machine. -/
structure AddsUp (report : Report) (options : Options) (machine : Machine) : Prop where
  /-- Each line tells an event, and nothing else. -/
  legible : report.journal.lines = report.told.map Event.line
  /-- There is a line of the trace for each cycle. -/
  traces : report.told.countP (fun event => event.level = .trace) = report.cycles
  /-- One line tells how many cycles were made. -/
  ran : report.told.filterMap Event.ran? = [report.cycles]
  /-- A line tells so too if the machine has halted, and only then. -/
  halted : report.told.filterMap Event.halted? =
    match report.result with
    | .error _ => [report.cycles]
    | .ok _ => []
  /-- An opcode is told to be skipped right after its line of the trace, at an address two below
  the program counter given there. -/
  skipping : ∀ earlier op address, earlier ++ [.skipping op address] <+: report.told →
    ∃ pc, EndsFetching earlier op pc ∧ pc.toNat = address.toNat + 2
  /-- There is a warning exactly if something was skipped, with how much it was and what it was
  last. -/
  warning : report.told.filter (fun event => event.level = .warn) =
    ((toldSkips report.told).getLast?.map fun last =>
      Event.skippedInRun (toldSkips report.told).length last).toList
  /-- Frames are told of after exactly those cycles whose opcode paints, in their order, and with
  the number of pixels that are lit then. -/
  frames : toldFrames report.told = machine.paintings (traced report.told)
  /-- A frame is told of right after the line of its cycle, and nothing is lit in it if it was
  cleared. -/
  frame : ∀ earlier cycles lit, earlier ++ [.frameTaken cycles lit] <+: report.told →
    ∃ op pc, EndsFetching earlier op pc ∧ op.Paints ∧ cycles = (traced earlier).length ∧
      lit = machine.litAfter cycles ∧ (op.word = 0x00E0 → lit = 0)
  /-- The picture has as many marks as pixels were lit in the last frame. -/
  dump : options.dump = true →
    report.output.toList.count '#' = lastLit (toldFrames report.told)

end Report

namespace Options

section Reports

variable (options : Options) {rom : Rom} {last : Session}
  (tells : last.Tells (Machine.loaded rom)) (fault : Option Fault)

include tells

/-- What a report tells is what was told during the run, and its end. -/
theorem told_reportOf :
    (options.reportOf last fault).told =
      last.journal.events.toList ++ last.machine.closing last.steps fault := by
  have events : (options.reportOf last fault).told = _ ++ List.filter _ _ :=
    (Journal.told_eq _).trans
      (Journal.events_recordAll last.journal (last.machine.closing last.steps fault))
  rw [tells.threshold, List.filter_eq_self.mpr fun event _ => Journal.admits_trace event] at events
  exact events

variable (unclosed : ∀ event ∈ last.journal.events.toList, event.closes = false)

include unclosed

/-- A report adds up if its session is in step with its story. -/
theorem addsUp_reportOf :
    (options.reportOf last fault).AddsUp options (Machine.loaded rom) := by
  let body := last.journal.events.toList
  let closing := last.machine.closing last.steps fault
  have told : (options.reportOf last fault).told = body ++ closing :=
    options.told_reportOf tells fault
  have closes : ∀ event ∈ closing, event.closes = true :=
    fun event => Machine.closes_of_mem_closing
  -- The lines that close the run tell of nothing that the others tell of, and the other way round.
  obtain ⟨fetched, skipped, taken⟩ : traced (body ++ closing) = traced body ∧ _ ∧ _ :=
    told_append_closing closes
  obtain ⟨halted, ran, warned⟩ : _ = closing.filterMap Event.halted? ∧ _ ∧ _ :=
    closing_of_append unclosed
  have account := tells.story.hasSkipped.of_detached tells.reached
  have lit : last.machine.state.frame.litCount = (Machine.loaded rom).litAfter last.steps :=
    congrArg (fun machine => machine.state.frame.litCount) tells.reached
  constructor
  case legible =>
    rw [Report.told, Journal.told_eq]
    rfl
  case traces =>
    rw [told, countP_trace, fetched, tells.story.length_traced]
    rfl
  case ran =>
    rw [told, ran, Machine.ran_closing]
    rfl
  case halted =>
    rw [told, halted, Machine.halted_closing]
    cases fault <;> rfl
  case skipping =>
    intro earlier op address reached
    rw [told] at reached
    exact tells.story.supports (prefix_of_not_closes closes rfl reached)
  case warning => rw [told, warned, skipped, Machine.warnings_closing, account.warning]
  case frames => rw [told, taken, fetched, tells.story.frames]
  case frame =>
    intro earlier cycles lit reached
    rw [told] at reached
    exact tells.story.supports (prefix_of_not_closes closes rfl reached)
  case dump =>
    intro dump
    have output : (options.reportOf last fault).output =
        if options.dump then last.machine.state.frame.picture ++ "\n" else "" := rfl
    rw [output, if_pos dump, String.toList_append, List.count_append, Frame.count_picture, lit,
      tells.story.litAfter_eq Frame.litCount_blank, told, taken]
    rfl

end Reports

/-- **What a run tells adds up.** Whenever a program is loaded and run, and the run ends, the
report of everything that is told adds up. All that it tells is read off its lines: there is one
line of the trace for each cycle, and the lines that tell of the end give that number; opcodes are
told to be skipped right after their lines, and the warning counts them and names the last; frames
are told of after exactly those cycles that paint, right after their lines and with the pixels lit
then; and the picture shows the last of them. -/
theorem journal_adds_up (options : Options) (keypad : Keypad) (rom : Rom) (report : Report)
    (accepted : Keypad.holding options.hold = .ok keypad)
    (ended : options.report? (.ok rom.bytes) (some .trace) = some report) :
    report.AddsUp options (Machine.loaded rom) := by
  rw [options.report?_of_fits accepted rom.fits, Option.map_eq_some_iff] at ended
  obtain ⟨⟨last, fault⟩, ran, rfl⟩ := ended
  obtain ⟨cycles, reaches⟩ := Session.exists_runFor_of_run? ran
  have tells := Session.tells_runFor (Session.tells_loaded options.path rom) cycles
  have goesOn := options.goesOn_runLoaded rom (some .trace) cycles
  rw [runLoaded, reaches] at goesOn
  rw [reaches] at tells
  exact options.addsUp_reportOf tells fault (Session.closes_of_goesOn_opening goesOn).2

/-- A program that draws a line of four pixels, skips an opcode, clears the frame, and jumps to
the last opcode of the memory, which is skipped too. -/
theorem journal_adds_up_after_a_draw :
    let rom : Rom := ⟨#[0xD0, 0x01, 0x80, 0x10, 0x00, 0xE0, 0x1F, 0xFE], by decide⟩
    let options : Options := { path := "rom", limit := some 6, dump := true }
    ∃ report, options.report? (.ok rom.bytes) (some .trace) = some report ∧
      report.cycles = 5 ∧
      report.result = .error (.stopped "rom" (.outOfBounds 0x1000)) ∧
      "DEBUG frame 1 has 4 pixels lit" ∈ report.journal.lines ∧
      "DEBUG skipping unimplemented opcode 8010 at 0202" ∈ report.journal.lines ∧
      "ERROR halting at pc 1000 after 5 cycles: memory access out of bounds at address 0x1000" ∈
        report.journal.lines ∧
      report.journal.lines.getLast? =
        some "WARN skipped 2 unimplemented opcodes, the last was 0000" ∧
      report.AddsUp options (Machine.loaded rom) := by
  intro rom options
  let outcome := options.runLoaded rom (some .trace) 6
  have accepted : Keypad.holding options.hold = .ok Keypad.released := rfl
  have ended : options.report? (.ok rom.bytes) (some .trace) =
      some (options.reportOf outcome.1 outcome.2) :=
    options.report?_of_fits accepted rom.fits (some .trace)
  have stopped : outcome.2 = some (.outOfBounds 0x1000) := by decide +kernel
  refine ⟨options.reportOf outcome.1 outcome.2, ended, ?_, ?_, ?_, ?_, ?_, ?_, ?_⟩
  · decide +kernel
  · simp only [reportOf, stopped, options]
  · decide +kernel
  · decide +kernel
  · decide +kernel
  · decide +kernel
  · exact journal_adds_up options Keypad.released rom _ accepted ended

end Options

end ChipEight
