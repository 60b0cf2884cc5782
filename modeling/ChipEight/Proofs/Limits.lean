import ChipEight.Proofs.Holding
import ChipEight.Proofs.Hosting
import ChipEight.Proofs.Lines
import ChipEight.Proofs.Reachability
import Mathlib.Data.ENat.Lattice

/-! # Limits of a run

The cycles of a run are the steps of the machine, with frames taken in between
(`Session.repeatUpTo_cycle`), and a journal only grows along them
(`Session.goesOn_runFor_of_le`). So a run makes as many cycles as its limit allows, unless the
machine halts before: then it gives the same report whatever the limit, and without one too
(`Options.limits_agree`).
-/

namespace ChipEight

namespace Event

/-- Whether an event tells how a run has ended. -/
def closes : Event → Bool
  | .halting .. => true
  | .ran _ => true
  | .skippedInRun .. => true
  | _ => false

end Event

namespace Level

/-- Whether a level is severe enough to be logged. -/
def passes (level : Level) (threshold : Option Level) : Bool :=
  threshold.any fun least => level.rank ≤ least.rank

/-- A line of a level, if that is logged. -/
def logged (level : Level) (threshold : Option Level) (line : String) : List String :=
  if level.passes threshold then [line] else []

end Level

namespace Journal

theorem admits_eq (threshold : Option Level) (event : Event) :
    admits threshold event = event.level.passes threshold := by
  cases threshold <;> rfl

/-- A single event is told if its level is logged. -/
theorem map_line_singleton (threshold : Option Level) (event : Event) :
    ([event].filter (admits threshold)).map Event.line =
      event.level.logged threshold event.line := by
  rw [List.filter_singleton, admits_eq, Level.logged]
  cases event.level.passes threshold <;> rfl

/-- The lines of a journal but for those that tell how a run has ended. -/
def body (journal : Journal) : List String :=
  journal.lines.filter fun line => !(Event.ofLine? line).any Event.closes

/-- The lines of a journal go on with those of the events that are recorded. -/
theorem lines_recordAll (journal : Journal) (events : List Event) :
    (journal.recordAll events).lines =
      journal.lines ++ (events.filter (admits journal.threshold)).map Event.line := by
  rw [lines, events_recordAll, List.map_append]
  rfl

/-- The lines of the events that do not tell how a run has ended. -/
theorem body_eq (journal : Journal) :
    journal.body = (journal.events.toList.filter fun event => !event.closes).map Event.line := by
  rw [body, lines, List.filter_map]
  congr 2
  funext event
  simp only [Function.comp_apply, Event.ofLine?_line, Option.any_some]

end Journal

namespace Machine

/-! ## Lifetimes -/

/-- How many steps succeed before the first one that fails; infinitely many if none does. -/
noncomputable def lifetime (machine : Machine) : ℕ∞ :=
  ⨅ (steps : Nat) (_ : FailsAfter step machine steps), (steps : ℕ∞)

/-- A machine lives for some steps exactly if none of them fails. -/
theorem le_lifetime_iff {machine : Machine} {steps : Nat} :
    (steps : ℕ∞) ≤ machine.lifetime ↔ (repeatUpTo step steps machine).2 = none := by
  simp only [lifetime, le_iInf_iff, Nat.cast_le]
  constructor
  · intro bound
    cases outcome : repeatUpTo step steps machine with
    | mk last fault? =>
        cases fault? with
        | none => rfl
        | some fault =>
            obtain ⟨successes, fewer, made, failed⟩ := repeatUpTo_eq_fault_iff.mp outcome
            exact absurd (bound successes ⟨last, fault, made, failed⟩) (Nat.not_le.mpr fewer)
  · rintro succeeds successes ⟨last, fault, made, failed⟩
    apply Nat.le_of_not_lt
    intro fewer
    rw [repeatUpTo_eq_fault_iff.mpr ⟨successes, fewer, made, failed⟩] at succeeds
    cases succeeds

/-- A machine lives up to its first step that fails. -/
theorem lifetime_eq_iff {machine : Machine} {steps : Nat} :
    machine.lifetime = steps ↔ FailsAfter step machine steps := by
  constructor
  · intro lives
    have made : repeatUpTo step steps machine = ((repeatUpTo step steps machine).1, none) :=
      Prod.ext rfl (le_lifetime_iff.mp lives.ge)
    cases attempt : (repeatUpTo step steps machine).1.step with
    | error fault => exact ⟨_, fault, made, attempt⟩
    | ok next =>
        have longer : ((steps + 1 : Nat) : ℕ∞) ≤ machine.lifetime := by
          rw [le_lifetime_iff, repeatUpTo_add made, repeatUpTo_succ_of_ok attempt, repeatUpTo_zero]
        rw [lives, Nat.cast_le] at longer
        exact absurd longer (Nat.not_succ_le_self steps)
  · intro fails
    apply le_antisymm (iInf₂_le steps fails)
    obtain ⟨last, _, made, _⟩ := fails
    exact le_lifetime_iff.mpr (congrArg Prod.snd made)

/-- A settled machine halts at the end of the memory. -/
theorem Settled.fault_of_fails {program : Array UInt8} {machine : Machine}
    (settled : Settled program machine) {steps : Nat} {fault : Fault}
    (failed : (repeatUpTo step steps machine).1.step = .error fault) :
    fault = .outOfBounds 0x1000 := by
  have settledNow : Settled program (repeatUpTo step steps machine).1 := by
    refine repeatUpTo_keeps ?_ settled steps
    intro current next settled success
    obtain ⟨op, fetched, rfl⟩ := step_eq_ok_iff.mp success
    exact settled.complete fetched
  exact ((settledNow.step_eq_error_iff fault).mp failed).2

/-- What is told of the frame that is pending after a number of cycles. -/
def frameEvents (machine : Machine) (cycles : Nat) : List Event :=
  if machine.state.framePending then [.frameTaken cycles machine.state.frame.litCount] else []

/-- What is told of a machine at the end of a run: the fault that stopped it, if one did, how
many cycles it made, and the opcodes it has skipped, if there are any. -/
def closing (machine : Machine) (cycles : Nat) (fault : Option Fault) : List Event :=
  (fault.map fun fault => Event.halting machine.state.pc cycles fault).toList ++ [.ran cycles] ++
    if 0 < machine.skipped then
      [.skippedInRun machine.skipped (machine.lastSkipped.getD ⟨0⟩)]
    else []

/-- The lines at the end of a run, as far as their levels are logged. -/
def closingLines (machine : Machine) (threshold : Option Level) (cycles : Nat)
    (fault : Option Fault) : List String :=
  (match fault with
    | some fault =>
      Level.error.logged threshold ("ERROR halting at pc " ++
        hexadecimal 4 machine.state.pc.toNat ++ " after " ++ toString cycles ++ " cycles: " ++
        fault.message)
    | none => []) ++
  Level.info.logged threshold ("INFO ran " ++ toString cycles ++ " cycles") ++
  if 0 < machine.skipped then
    Level.warn.logged threshold ("WARN skipped " ++ toString machine.skipped ++
      " unimplemented opcodes, the last was " ++
      hexadecimal 4 (machine.lastSkipped.getD ⟨0⟩).toNat)
  else []

/-- The closing lines tell the events at the end of a run. -/
theorem map_line_closing (machine : Machine) (threshold : Option Level) (cycles : Nat)
    (fault : Option Fault) :
    ((machine.closing cycles fault).filter (Journal.admits threshold)).map Event.line =
      machine.closingLines threshold cycles fault := by
  have halting (fault : Fault) := Event.line_halting cycles machine.state.pc fault
  have ran := Event.line_ran cycles
  have skips := Event.line_skippedInRun machine.skipped (machine.lastSkipped.getD ⟨0⟩)
  simp only [← String.append_assoc] at halting ran skips
  unfold closing closingLines
  rw [List.filter_append, List.filter_append, List.map_append, List.map_append,
    Journal.map_line_singleton, ran]
  congr 1
  · congr 1
    cases fault with
    | none => rfl
    | some fault =>
        rw [Option.map_some, Option.toList_some, Journal.map_line_singleton, halting]
        rfl
  · split
    · rw [Journal.map_line_singleton, skips]
      rfl
    · rfl

/-- What a step tells is not about the end of a run. -/
theorem closes_of_mem_stepEvents (machine : Machine) {event : Event}
    (member : event ∈ machine.stepEvents) : event.closes = false := by
  unfold stepEvents at member
  cases fetched : machine.state.fetch with
  | error fault =>
      rw [fetched] at member
      cases member
  | ok op =>
      rw [fetched] at member
      rcases List.mem_cons.mp member with rfl | skipped
      · rfl
      · split at skipped
        · cases skipped
        · cases List.mem_singleton.mp skipped
          rfl

theorem closes_of_mem_frameEvents (machine : Machine) {cycles : Nat} {event : Event}
    (member : event ∈ machine.frameEvents cycles) : event.closes = false := by
  unfold frameEvents at member
  split at member
  · cases List.mem_singleton.mp member
    rfl
  · cases member

theorem closes_of_mem_closing {machine : Machine} {cycles : Nat} {fault : Option Fault}
    {event : Event} (member : event ∈ machine.closing cycles fault) : event.closes = true := by
  unfold closing at member
  rcases List.mem_append.mp member with member | skips
  · rcases List.mem_append.mp member with halting | ran
    · obtain ⟨fault, _, rfl⟩ := Option.mem_map.mp (Option.mem_toList.mp halting)
      rfl
    · cases List.mem_singleton.mp ran
      rfl
  · split at skips
    · cases List.mem_singleton.mp skips
      rfl
    · cases skips

/-- What is told at the end does not depend on the keys or on a pending frame. -/
theorem closingLines_of_detached {first second : Machine} (same : first.detached = second.detached)
    (threshold : Option Level) (cycles : Nat) (fault : Option Fault) :
    first.closingLines threshold cycles fault = second.closingLines threshold cycles fault :=
  eq_of_detached (fun machine => machine.closingLines threshold cycles fault) (fun _ => rfl) same

end Machine

namespace Session

/-! ## Cycles as steps -/

/-- A cycle does to its machine what a step does, but for the pending frame. -/
theorem map_detached_cycle (session : Session) :
    session.cycle.map (fun next => next.machine.detached) =
      session.machine.detached.stepDetached := by
  rw [← Machine.map_detached_step]
  unfold cycle step
  cases session.machine.step with
  | ok machine =>
      simp only [Except.map, machine_collectFrame, Machine.detached_takeFrame]
  | error fault => rfl

/-- Cycles take a session where as many steps take its machine, but for what its host touches,
and are ended by the same fault. -/
theorem repeatUpTo_cycle {session : Session} {machine : Machine}
    (same : session.machine.detached = machine.detached) (cycles : Nat) :
    (session.runFor cycles).1.machine.detached =
        (repeatUpTo Machine.step cycles machine).1.detached ∧
      (session.runFor cycles).2 = (repeatUpTo Machine.step cycles machine).2 :=
  Machine.repeatUpTo_detached Session.machine map_detached_cycle same cycles

/-- A cycle that succeeds is a step that does, after which the frame is taken if it is
pending. -/
theorem exists_step_of_cycle {session next : Session} (success : session.cycle = .ok next) :
    ∃ machine, session.machine.step = .ok machine ∧
      next =
        { machine := machine.takeFrame.2
          journal := session.journal.recordAll
            (session.machine.stepEvents ++ machine.frameEvents (session.steps + 1))
          steps := session.steps + 1 } := by
  unfold cycle step at success
  cases attempt : session.machine.step with
  | error fault =>
      rw [attempt] at success
      cases success
  | ok machine =>
      rw [attempt] at success
      cases success
      refine ⟨machine, rfl, ?_⟩
      rw [Journal.recordAll_append]
      unfold collectFrame Machine.takeFrame Machine.frameEvents
      cases machine.state.framePending <;> rfl

theorem steps_of_cycle {session next : Session} (success : session.cycle = .ok next) :
    next.steps = session.steps + 1 := by
  obtain ⟨machine, _, rfl⟩ := exists_step_of_cycle success
  rfl

/-- A cycle fails where a step does. -/
theorem cycle_eq_error_iff {session : Session} {fault : Fault} :
    session.cycle = .error fault ↔ session.machine.step = .error fault := by
  unfold cycle step
  cases session.machine.step with
  | ok machine => simp only [Except.map, reduceCtorEq]
  | error cause => simp only [Except.map, Except.error.injEq]

/-- A session goes on from an earlier one if its journal has gone on with events that do not
close the run. -/
def GoesOn (earlier session : Session) : Prop :=
  ∃ told, (∀ event ∈ told, event.closes = false) ∧
    session.journal = earlier.journal.recordAll told

theorem goesOn_refl (session : Session) : session.GoesOn session :=
  ⟨[], nofun, rfl⟩

theorem GoesOn.trans {first second third : Session} (start : first.GoesOn second)
    (rest : second.GoesOn third) : first.GoesOn third := by
  obtain ⟨told, early, journal⟩ := start
  obtain ⟨later, late, ended⟩ := rest
  refine ⟨told ++ later, ?_, ?_⟩
  · intro event member
    exact (List.mem_append.mp member).elim (early event) (late event)
  · rw [ended, journal, Journal.recordAll_append]

theorem goesOn_of_cycle {session next : Session} (success : session.cycle = .ok next) :
    session.GoesOn next := by
  obtain ⟨machine, _, rfl⟩ := exists_step_of_cycle success
  refine ⟨_, ?_, rfl⟩
  intro event member
  rcases List.mem_append.mp member with stepped | taken
  · exact session.machine.closes_of_mem_stepEvents stepped
  · exact machine.closes_of_mem_frameEvents taken

/-- Any number of cycles goes on with a run, by induction over them. -/
theorem goesOn_runFor (session : Session) (cycles : Nat) :
    session.GoesOn (session.runFor cycles).1 :=
  repeatUpTo_keeps (fun _ _ goesOn success => goesOn.trans (goesOn_of_cycle success))
    session.goesOn_refl cycles

theorem goesOn_runFor_of_le (session : Session) {first second : Nat} (le : first ≤ second) :
    (session.runFor first).1.GoesOn (session.runFor second).1 := by
  obtain ⟨rest, rfl⟩ := Nat.exists_eq_add_of_le le
  rw [runFor, runFor, fst_repeatUpTo_add]
  exact goesOn_runFor _ rest

theorem steps_runFor {session last : Session} {cycles : Nat}
    (successes : session.runFor cycles = (last, none)) : last.steps = session.steps + cycles := by
  unfold runFor at successes
  induction cycles generalizing session with
  | zero =>
      cases successes
      rfl
  | succ cycles ih =>
      cases attempt : session.cycle with
      | error fault =>
          rw [repeatUpTo_succ_of_error attempt] at successes
          cases successes
      | ok next =>
          rw [repeatUpTo_succ_of_ok attempt] at successes
          rw [ih successes, steps_of_cycle attempt, Nat.add_assoc, Nat.add_comm 1]

/-- A run makes no more steps than cycles were asked for. -/
theorem steps_runFor_le (session : Session) (cycles : Nat) :
    (session.runFor cycles).1.steps ≤ session.steps + cycles := by
  unfold runFor
  induction cycles generalizing session with
  | zero => exact Nat.le_refl _
  | succ cycles ih =>
      cases attempt : session.cycle with
      | ok next =>
          have later := ih next
          rw [steps_of_cycle attempt] at later
          rw [repeatUpTo_succ_of_ok attempt]
          omega
      | error fault =>
          rw [repeatUpTo_succ_of_error attempt]
          exact Nat.le_add_right _ _

/-! ## What a run leaves -/

theorem goesOn_loaded (machine : Machine) (path : String) (rom : Rom) (threshold : Option Level) :
    (opening machine threshold).GoesOn (loaded path rom threshold) := by
  refine ⟨[.resetting, .romLoaded rom.bytes.size, .fileLoaded rom.bytes.size path], ?_, rfl⟩
  simp only [List.forall_mem_cons, Event.closes, List.not_mem_nil, false_implies, implies_true,
    and_self]

/-- What a session has told in the course of a run does not close it. -/
theorem closes_of_goesOn_opening {machine : Machine} {threshold : Option Level} {session : Session}
    (goesOn : (opening machine threshold).GoesOn session) :
    session.journal.threshold = threshold ∧
      ∀ event ∈ session.journal.events.toList, event.closes = false := by
  obtain ⟨told, unclosed, journal⟩ := goesOn
  rw [journal]
  refine ⟨Journal.threshold_recordAll _ _, fun event member => ?_⟩
  rw [Journal.events_recordAll] at member
  exact unclosed event (List.mem_filter.mp member).1

end Session

/-- A report tells of a run of a machine: how it has ended, its number of cycles, its last frame
if that is asked for, and at the end of the journal the lines that close it. -/
structure Report.TellsOf (report : Report) (options : Options) (threshold : Option Level)
    (machine : Machine) (made : Nat) (fault : Option Fault) : Prop where
  result : report.result =
    match fault with
    | some fault => .error (.stopped options.path fault)
    | none => .ok ()
  output : report.output =
    if options.dump then machine.state.frame.picture ++ "\n" else ""
  cycles : report.cycles = made
  lines : report.journal.lines = report.journal.body ++ machine.closingLines threshold made fault

namespace Options

section Reports

variable (options : Options) {machine start : Machine} {threshold : Option Level} {last : Session}
  (goesOn : (Session.opening start threshold).GoesOn last) (fault : Option Fault)

include goesOn

/-- A report records what was recorded during the run, and its end. -/
theorem events_reportOf :
    (options.reportOf last fault).journal.events.toList =
      last.journal.events.toList ++
        (last.machine.closing last.steps fault).filter (Journal.admits threshold) := by
  rw [← (Session.closes_of_goesOn_opening goesOn).1]
  exact Journal.events_recordAll _ _

/-- The lines of a report are those that were told before the run ended, and the closing ones. -/
theorem lines_reportOf :
    (options.reportOf last fault).journal.lines =
      last.journal.lines ++ last.machine.closingLines threshold last.steps fault := by
  rw [Journal.lines, options.events_reportOf goesOn, List.map_append, Machine.map_line_closing]
  rfl

/-- The body of a report's journal is what was told before the run ended. -/
theorem body_reportOf : (options.reportOf last fault).journal.body = last.journal.lines := by
  have unclosed := (Session.closes_of_goesOn_opening goesOn).2
  rw [Journal.body_eq, options.events_reportOf goesOn, List.filter_append,
    List.filter_eq_self.mpr, List.filter_eq_nil_iff.mpr, List.append_nil]
  · rfl
  · intro event member
    have closed := Machine.closes_of_mem_closing (List.mem_filter.mp member).1
    rw [closed]
    decide
  · intro event member
    rw [unclosed event member]
    rfl

/-- A report tells of its machine, whatever was hidden in it. -/
theorem tellsOf_reportOf (same : last.machine.detached = machine.detached) :
    (options.reportOf last fault).TellsOf options threshold machine last.steps fault where
  result := by cases fault <;> rfl
  output := by
    have frame : last.machine.state.frame = machine.state.frame :=
      congrArg (fun machine => machine.state.frame) same
    rw [← frame]
    rfl
  cycles := rfl
  lines := by
    rw [options.body_reportOf goesOn, options.lines_reportOf goesOn,
      Machine.closingLines_of_detached same]

end Reports

section Runs

variable (options : Options) (rom : Rom) (threshold : Option Level)

/-- The session of a run after some cycles, and the fault that has stopped it meanwhile. -/
def runLoaded (cycles : Nat) : Session × Option Fault :=
  (Session.loaded options.path rom threshold).runFor cycles

theorem goesOn_runLoaded (cycles : Nat) :
    (Session.opening Machine.powerOn threshold).GoesOn
      (options.runLoaded rom threshold cycles).1 :=
  (Session.goesOn_loaded Machine.powerOn options.path rom threshold).trans
    (Session.goesOn_runFor _ cycles)

/-- A run does to the machine what its steps do, and ends with the same fault. -/
theorem runLoaded_detached (cycles : Nat) :
    (options.runLoaded rom threshold cycles).1.machine.detached =
        (repeatUpTo Machine.step cycles (Machine.loaded rom)).1.detached ∧
      (options.runLoaded rom threshold cycles).2 =
        (repeatUpTo Machine.step cycles (Machine.loaded rom)).2 :=
  Session.repeatUpTo_cycle rfl cycles

variable {options rom threshold}

/-- A run within the lifetime of the machine is not stopped and makes all of its cycles. -/
theorem runLoaded_of_le {cycles : Nat} (lives : (cycles : ℕ∞) ≤ (Machine.loaded rom).lifetime) :
    (options.runLoaded rom threshold cycles).2 = none ∧
      (options.runLoaded rom threshold cycles).1.steps = cycles := by
  have unstopped : (options.runLoaded rom threshold cycles).2 = none :=
    (options.runLoaded_detached rom threshold cycles).2.trans (Machine.le_lifetime_iff.mp lives)
  refine ⟨unstopped, (Session.steps_runFor (Prod.ext rfl unstopped)).trans (Nat.zero_add cycles)⟩

/-- A longer run is stopped at the end of that lifetime. -/
theorem runLoaded_of_lt {steps cycles : Nat} (lives : (Machine.loaded rom).lifetime = steps)
    (more : steps < cycles) :
    options.runLoaded rom threshold cycles =
      ((options.runLoaded rom threshold steps).1, some (.outOfBounds 0x1000)) := by
  obtain ⟨last, fault, made, failed⟩ := Machine.lifetime_eq_iff.mp lives
  have reached : (repeatUpTo Machine.step steps (Machine.loaded rom)).1 = last :=
    congrArg Prod.fst made
  have address := (Machine.Settled.loaded rom).fault_of_fails (reached ▸ failed)
  have same := Machine.control_of_detached (options.runLoaded_detached rom threshold steps).1
  rw [reached] at same
  refine repeatUpTo_eq_fault_iff.mpr
    ⟨steps, more, Prod.ext rfl (runLoaded_of_le lives.ge).1, Session.cycle_eq_error_iff.mpr ?_⟩
  rw [Machine.step_eq_error_of_control same, failed, address]

/-- A run with a limit is reported after as many cycles, or when it is stopped. -/
theorem report?_of_limit {keypad : Keypad} (accepted : Keypad.holding options.hold = .ok keypad)
    (limit : UInt64) :
    { options with limit := some limit }.report? (.ok rom.bytes) threshold =
      some (options.reportOf (options.runLoaded rom threshold limit.toNat).1
        (options.runLoaded rom threshold limit.toNat).2) :=
  report?_of_fits { options with limit := some limit } accepted rom.fits threshold

/-- Without a limit a run is stopped as it is by every limit that it does not keep. -/
theorem report?_of_lifetime {keypad : Keypad}
    (accepted : Keypad.holding options.hold = .ok keypad) {steps : Nat}
    (lives : (Machine.loaded rom).lifetime = steps) :
    { options with limit := none }.report? (.ok rom.bytes) threshold =
      some (options.reportOf (options.runLoaded rom threshold steps).1
        (some (.outOfBounds 0x1000))) := by
  have ended : (Session.loaded options.path rom threshold).runToFault? =
      some ((options.runLoaded rom threshold steps).1, .outOfBounds 0x1000) :=
    Session.runToFault?_eq_some_iff_exists.mpr
      ⟨steps + 1, runLoaded_of_lt lives (Nat.lt_succ_self steps)⟩
  rw [report?_of_fits { options with limit := none } accepted rom.fits threshold]
  simp only [Session.run?, ended, Option.map_some]
  rfl

/-- If the machine halts, all runs that last longer than it lives give the same report. -/
theorem exists_report_of_lifetime {keypad : Keypad}
    (accepted : Keypad.holding options.hold = .ok keypad) {steps : Nat}
    (lives : (Machine.loaded rom).lifetime = steps) (threshold : Option Level) :
    ∃ report, { options with limit := none }.report? (.ok rom.bytes) threshold = some report ∧
      (∀ limit : UInt64, steps < limit.toNat →
        { options with limit := some limit }.report? (.ok rom.bytes) threshold = some report) ∧
      report.TellsOf options threshold (repeatUpTo Machine.step steps (Machine.loaded rom)).1 steps
        (some (.outOfBounds 0x1000)) := by
  have tells := options.tellsOf_reportOf (options.goesOn_runLoaded rom threshold steps)
    (some (.outOfBounds 0x1000)) (options.runLoaded_detached rom threshold steps).1
  rw [(runLoaded_of_le lives.ge).2] at tells
  refine ⟨_, report?_of_lifetime accepted lives, fun limit more => ?_, tells⟩
  rw [report?_of_limit accepted limit, runLoaded_of_lt lives more]

end Runs

/-- **Limits of a run agree.** Let a program be loaded, and let the machine live for a number
of steps, or for ever. A run whose limit is not more than that is completed: it makes as many
cycles as its limit says and shows the frame after as many steps. If the machine halts, all
runs with a greater limit, and the one without, give the same report: they are stopped at the
end of the memory after as many cycles as there are steps, and show the frame after them. The
lines at the end say how many cycles were made. Of two runs with a limit, the lines of the
shorter one, but for those that close it, are the first ones of the longer one. -/
theorem limits_agree (options : Options) (keypad : Keypad) (rom : Rom) (threshold : Option Level)
    (accepted : Keypad.holding options.hold = .ok keypad) :
    let report? := fun limit =>
      { options with limit := limit }.report? (.ok rom.bytes) threshold
    let machine := Machine.loaded rom
    let after := fun steps => (repeatUpTo Machine.step steps machine).1
    (∀ limit : UInt64, (limit.toNat : ℕ∞) ≤ machine.lifetime →
      ∃ report, report? (some limit) = some report ∧
        report.TellsOf options threshold (after limit.toNat) limit.toNat none) ∧
    (∀ steps : Nat, machine.lifetime = steps →
      ∃ report, report? none = some report ∧
        (∀ limit : UInt64, steps < limit.toNat → report? (some limit) = some report) ∧
        report.TellsOf options threshold (after steps) steps (some (.outOfBounds 0x1000))) ∧
    ∀ limit greater : UInt64, limit ≤ greater →
      ∃ shorter longer, report? (some limit) = some shorter ∧
        report? (some greater) = some longer ∧
        shorter.journal.body <+: longer.journal.lines := by
  intro report? machine after
  refine ⟨?completed, ?stopped, ?growing⟩
  case completed =>
    intro limit lives
    obtain ⟨unstopped, steps⟩ := runLoaded_of_le lives
    refine ⟨_, report?_of_limit accepted limit, ?_⟩
    have tells := options.tellsOf_reportOf (options.goesOn_runLoaded rom threshold limit.toNat) none
      (options.runLoaded_detached rom threshold limit.toNat).1
    rw [steps] at tells
    rw [unstopped]
    exact tells
  case stopped =>
    intro steps lives
    refine ⟨_, report?_of_lifetime accepted lives, fun limit more => ?_, ?_⟩
    · have limited : report? (some limit) = _ := report?_of_limit accepted limit
      rw [runLoaded_of_lt lives more] at limited
      exact limited
    · have tells := options.tellsOf_reportOf (options.goesOn_runLoaded rom threshold steps)
        (some (.outOfBounds 0x1000)) (options.runLoaded_detached rom threshold steps).1
      rw [(runLoaded_of_le lives.ge).2] at tells
      exact tells
  case growing =>
    intro limit greater le
    refine ⟨_, _, report?_of_limit accepted limit, report?_of_limit accepted greater, ?_⟩
    obtain ⟨told, _, journal⟩ := (Session.loaded options.path rom threshold).goesOn_runFor_of_le
      (UInt64.le_iff_toNat_le.mp le)
    have grown : (options.runLoaded rom threshold greater.toNat).1.journal.lines =
        (options.runLoaded rom threshold limit.toNat).1.journal.lines ++ _ :=
      (congrArg Journal.lines journal).trans (Journal.lines_recordAll _ told)
    rw [options.body_reportOf (options.goesOn_runLoaded rom threshold _),
      options.lines_reportOf (options.goesOn_runLoaded rom threshold _), grown, List.append_assoc]
    exact List.prefix_append _ _

/-- A program that jumps to the last opcode of the memory, run as long as it lives, longer, and
without a limit. -/
theorem limits_agree_at_the_last_opcode :
    let rom : Rom := ⟨#[0x1F, 0xFE], by decide⟩
    let options : Options := { path := "rom", dump := true }
    let report? := fun limit =>
      { options with limit := limit }.report? (.ok rom.bytes) (some .trace)
    Keypad.holding options.hold = .ok Keypad.released ∧
      (Machine.loaded rom).lifetime = (2 : Nat) ∧
      (∃ report, report? (some 2) = some report ∧ report.result = .ok () ∧
        report.journal.lines = report.journal.body ++
          ["INFO ran 2 cycles", "WARN skipped 1 unimplemented opcodes, the last was 0000"]) ∧
      (∃ report, report? none = some report ∧ report? (some 3) = some report ∧
        report.result = .error (.stopped "rom" (.outOfBounds 0x1000)) ∧
        report.journal.lines = report.journal.body ++
          ["ERROR halting at pc 1000 after 2 cycles: memory access out of bounds at address 0x1000",
            "INFO ran 2 cycles", "WARN skipped 1 unimplemented opcodes, the last was 0000"]) := by
  intro rom options report?
  have made : repeatUpTo Machine.step 2 (Machine.loaded rom) =
      ((repeatUpTo Machine.step 2 (Machine.loaded rom)).1, none) := Prod.ext rfl (by decide)
  have stopped : (repeatUpTo Machine.step 2 (Machine.loaded rom)).1.step =
      .error (.outOfBounds 0x1000) :=
    Machine.step_eq_error_iff.mpr (State.fetch_eq_error_iff.mpr (by decide))
  have lives : (Machine.loaded rom).lifetime = (2 : Nat) :=
    Machine.lifetime_eq_iff.mpr ⟨_, _, made, stopped⟩
  obtain ⟨completed, halted, _⟩ := limits_agree options Keypad.released rom (some .trace) rfl
  obtain ⟨short, reported, tells⟩ := completed 2 lives.ge
  obtain ⟨long, endless, limited, ends⟩ := halted 2 lives
  have count : (repeatUpTo Machine.step 2 (Machine.loaded rom)).1.skipped = 1 := by decide
  have skipped : (repeatUpTo Machine.step 2 (Machine.loaded rom)).1.lastSkipped = some ⟨0⟩ := by
    decide
  have address : (repeatUpTo Machine.step 2 (Machine.loaded rom)).1.state.pc = 0x1000 := by decide
  refine ⟨rfl, lives, ⟨short, reported, tells.result, tells.lines.trans (congrArg _ ?_)⟩,
    long, endless, limited 3 (by decide), ends.result, ends.lines.trans (congrArg _ ?_)⟩
  · unfold Machine.closingLines
    simp only [show (2 : UInt64).toNat = 2 from rfl, count, skipped]
    rfl
  · simp only [Machine.closingLines, count, skipped, address]
    rfl

end Options

end ChipEight
