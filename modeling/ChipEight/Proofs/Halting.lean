import ChipEight.Proofs.Control

/-! # Runs that end

A machine runs off the memory within 4095 steps or never. Cycles without a limit therefore
come to an end exactly if 4096 of them are stopped by a fault, and in the same way
(`Session.run?_none_eq_some_iff`); so does the report of a program that is run without a
limit (`Machine.halts_within_or_never`). A session starts from the one in which its program
was loaded, with the keys held down (`Session.start_of_le`).
-/

namespace ChipEight

namespace Session

/-- Cycles without a limit come to an end exactly if 4096 cycles are stopped by a fault, which
is then one of the memory, and they leave the same session. -/
theorem run?_none_eq_some_iff {session : Session} {outcome : Session × Option Fault} :
    session.run? none = some outcome ↔
      session.run? (some 4096) = some outcome ∧
        ∃ address, outcome.2 = some (.outOfBounds address) := by
  have horizon : (4096 : UInt64).toNat = 4096 := rfl
  obtain ⟨last, fault?⟩ := outcome
  simp only [run?, Option.map_eq_some_iff, Prod.exists, Prod.mk.injEq, Option.some.injEq, horizon,
    runToFault?_eq_some_iff]
  constructor
  · rintro ⟨_, fault, ended, rfl, rfl⟩
    obtain ⟨address, rfl⟩ := exists_address_of_runFor ended
    exact ⟨ended, address, rfl⟩
  · rintro ⟨ended, address, rfl⟩
    exact ⟨last, _, ended, rfl, rfl⟩

/-- The session with other keys held down. -/
def holding (session : Session) (keypad : Keypad) : Session :=
  { session with machine := session.machine.setKeypad keypad }

/-- The session in which a program was loaded from a file, and nothing else happened. -/
def loaded (path : String) (rom : Rom) (threshold : Option Level) : Session where
  machine := Machine.loaded rom
  journal := (Journal.empty threshold).recordAll
    [.resetting, .romLoaded rom.bytes.size, .fileLoaded rom.bytes.size path]
  steps := 0

/-- A program that fits is started with the keys held down. -/
theorem start_of_le (path : String) {bytes : Array UInt8} (fits : bytes.size ≤ Rom.maxSize)
    (keypad : Keypad) (threshold : Option Level) :
    start path bytes keypad threshold =
      .ok ((loaded path ⟨bytes, fits⟩ threshold).holding keypad) := by
  have accepted := Rom.ofBytes_of_le fits
  simp only [start, perform, opening, Operation.perform, accepted, Except.map, Machine.answer,
    Operation.events, fits, ↓reduceIte]
  rfl

/-- A program that does not fit is not started. -/
theorem start_of_lt (path : String) {bytes : Array UInt8} (large : Rom.maxSize < bytes.size)
    (keypad : Keypad) (threshold : Option Level) :
    start path bytes keypad threshold = .error (.romTooLarge bytes.size Rom.maxSize) := by
  have refused := Rom.ofBytes_of_lt large
  simp only [start, perform, opening, Operation.perform, refused, Except.map, Machine.answer]

end Session

namespace Options

variable {options : Options} {file : FileContents} {threshold : Option Level}

/-- How a run starts does not depend on its limit. -/
theorem start_withLimit (limit : Option UInt64) :
    { options with limit := limit }.start file threshold = options.start file threshold := rfl

/-- Where the keys are mapped and the program fits, the run starts with both. -/
theorem start_of_fits {keypad : Keypad} (accepted : Keypad.holding options.hold = .ok keypad)
    {bytes : Array UInt8} (fits : bytes.size ≤ Rom.maxSize) :
    options.start (.ok bytes) threshold =
      .ok ((Session.loaded options.path ⟨bytes, fits⟩ threshold).holding keypad) := by
  rw [start, accepted]
  simp only [Session.start_of_le options.path fits, Except.mapError]

/-- Where the keys are mapped and the program does not fit, the run does not start. -/
theorem start_of_large {keypad : Keypad} (accepted : Keypad.holding options.hold = .ok keypad)
    {bytes : Array UInt8} (large : Rom.maxSize < bytes.size) :
    options.start (.ok bytes) threshold =
      .error (.unloadable options.path (.romTooLarge bytes.size Rom.maxSize)) := by
  rw [start, accepted]
  simp only [Session.start_of_lt options.path large, Except.mapError]

/-- The report of a run that starts is that of its cycles, whatever the limit. -/
theorem report?_of_start {session : Session} (started : options.start file threshold = .ok session)
    (limit : Option UInt64) :
    { options with limit := limit }.report? file threshold =
      (session.run? limit).map fun (last, fault) => options.reportOf last fault := by
  rw [report?, start_withLimit, started]
  rfl

/-- A program that starts without a limit gives a report exactly if it is stopped within 4096
cycles by a fault of the memory. -/
theorem isSome_report?_iff (options : Options) {keypad : Keypad} {bytes : Array UInt8}
    (threshold : Option Level) (accepted : Keypad.holding options.hold = .ok keypad)
    (fits : bytes.size ≤ Rom.maxSize) :
    ({ options with limit := none }.report? (.ok bytes) threshold).isSome ↔
      ∃ report address,
        { options with limit := some 4096 }.report? (.ok bytes) threshold = some report ∧
          report.result = .error (.stopped options.path (.outOfBounds address)) := by
  simp only [report?_of_start (start_of_fits accepted fits), Option.isSome_map, Option.isSome_iff_exists,
    Option.map_eq_some_iff]
  constructor
  · rintro ⟨outcome, ended⟩
    obtain ⟨limited, address, stopped⟩ := Session.run?_none_eq_some_iff.mp ended
    refine ⟨_, address, ⟨outcome, limited, rfl⟩, ?_⟩
    simp only [reportOf, stopped]
  · rintro ⟨_, address, ⟨⟨last, fault?⟩, limited, rfl⟩, stopped⟩
    refine ⟨(last, fault?), Session.run?_none_eq_some_iff.mpr ⟨limited, address, ?_⟩⟩
    cases fault? with
    | none => cases stopped
    | some fault =>
        simp only [reportOf, Except.error.injEq, Failure.stopped.injEq, true_and] at stopped
        rw [stopped]

/-- What is reported without a limit is reported with a limit of 4096 cycles. -/
theorem report?_of_none {report : Report}
    (reported : { options with limit := none }.report? file threshold = some report) :
    { options with limit := some 4096 }.report? file threshold = some report := by
  cases started : options.start file threshold with
  | error failure =>
      rw [report?, start_withLimit, started] at reported ⊢
      exact reported
  | ok session =>
      rw [report?_of_start started, Option.map_eq_some_iff] at reported ⊢
      obtain ⟨outcome, ended, rfl⟩ := reported
      exact ⟨outcome, (Session.run?_none_eq_some_iff.mp ended).1, rfl⟩

end Options

namespace Machine

/-- **Runs end within 4095 steps or never.** If a number of steps succeed on any machine and
the next one fails, it is at most 4095; if 4096 steps succeed, any number does. Cycles without
a limit end exactly if 4096 of them are stopped by a fault of the memory, and then in the
same way, whatever the session; so a program that is started without a limit gives a report
exactly if it is stopped so within 4096 cycles. Whatever is reported without a limit, be it
that the run could not start, is reported with that limit too. -/
theorem halts_within_or_never :
    (∀ (machine last : Machine) (steps : Nat) (fault : Fault),
      repeatUpTo step steps machine = (last, none) → last.step = .error fault → steps ≤ 4095) ∧
    (∀ machine last : Machine, repeatUpTo step 4096 machine = (last, none) →
      ∀ steps, ∃ next, repeatUpTo step steps machine = (next, none)) ∧
    (∀ (session : Session) (outcome : Session × Option Fault),
      session.run? none = some outcome ↔
        session.run? (some 4096) = some outcome ∧
          ∃ address, outcome.2 = some (.outOfBounds address)) ∧
    (∀ (options : Options) (keypad : Keypad) (bytes : Array UInt8) (threshold : Option Level),
      Keypad.holding options.hold = .ok keypad → bytes.size ≤ Rom.maxSize →
        (({ options with limit := none }.report? (.ok bytes) threshold).isSome ↔
          ∃ report address,
            { options with limit := some 4096 }.report? (.ok bytes) threshold = some report ∧
              report.result = .error (.stopped options.path (.outOfBounds address)))) ∧
    ∀ (options : Options) (file : FileContents) (threshold : Option Level) (report : Report),
      { options with limit := none }.report? file threshold = some report →
        { options with limit := some 4096 }.report? file threshold = some report := by
  refine ⟨?steps, ?endless, ?cycles, ?starts, ?reports⟩
  case steps =>
    intro machine last steps fault made failed
    exact Control.successes_le map_control_step ⟨last, fault, made, failed⟩
  case endless =>
    intro machine last successes steps
    exact Control.exists_repeatUpTo_of_successes map_control_step successes steps
  case cycles =>
    intro session outcome
    exact Session.run?_none_eq_some_iff
  case starts =>
    intro options keypad bytes threshold accepted fits
    exact options.isSome_report?_iff threshold accepted fits
  case reports =>
    intro options file threshold report reported
    exact Options.report?_of_none reported

/-- A program that jumps to itself does not end, and one that jumps to the last opcode of the
memory is stopped after it. -/
theorem halts_within_or_never_jumps :
    let looping := loaded ⟨#[0x12, 0x00], by decide⟩
    let leaving := loaded ⟨#[0x1F, 0xFE], by decide⟩
    let options : Options := { path := "rom" }
    let report? := fun limit => { options with limit := limit }.report? (.ok #[0x1F, 0xFE]) none
    (∃ last fault, repeatUpTo step 2 leaving = (last, none) ∧ last.step = .error fault ∧ 2 ≤ 4095) ∧
      (∀ steps, ∃ next, repeatUpTo step steps looping = (next, none)) ∧
      ∃ report, report? none = some report ∧ report? (some 4096) = some report := by
  intro looping leaving options report?
  refine ⟨?_, ?_, ?_⟩
  · have made : repeatUpTo step 2 leaving = ((repeatUpTo step 2 leaving).1, none) :=
      Prod.ext rfl (by decide)
    have stopped : (repeatUpTo step 2 leaving).1.step = .error (.outOfBounds 0x1000) :=
      step_eq_error_iff.mpr (State.fetch_eq_error_iff.mpr (by decide))
    exact ⟨_, _, made, stopped, halts_within_or_never.1 leaving _ 2 _ made stopped⟩
  · have fixed : looping.step = .ok looping :=
      step_eq_ok_iff.mpr ⟨⟨0x1200⟩, State.fetch_eq_ok_iff.mpr (by decide), rfl⟩
    have successes : ∀ steps, repeatUpTo step steps looping = (looping, none) := by
      intro steps
      induction steps with
      | zero => rfl
      | succ steps ih => rw [repeatUpTo_succ_of_ok fixed, ih]
    exact halts_within_or_never.2.1 looping looping (successes 4096)
  · have accepted : Keypad.holding options.hold = .ok Keypad.released := rfl
    let session := ((((Session.opening .powerOn none).perform (.load #[0x1F, 0xFE])).2.record
      (.fileLoaded 2 options.path)).perform (.setKeys Keypad.released)).2
    have started : options.start (.ok #[0x1F, 0xFE]) none = .ok session := rfl
    have stopped : (session.runFor 4096).2 = some (.outOfBounds 0x1000) := by decide
    have limited : ∃ report address, report? (some 4096) = some report ∧
        report.result = .error (.stopped options.path (.outOfBounds address)) := by
      refine ⟨_, 0x1000, Options.report?_of_start started (some 4096), ?_⟩
      simp only [Options.reportOf, show (4096 : UInt64).toNat = 4096 from rfl, stopped]
    obtain ⟨report, reported⟩ := Option.isSome_iff_exists.mp
      ((halts_within_or_never.2.2.2.1 options _ #[0x1F, 0xFE] none accepted (by decide)).mpr limited)
    exact ⟨report, reported, halts_within_or_never.2.2.2.2 options _ none report reported⟩

end Machine

end ChipEight
