import ChipEight.Proofs.Keyboard
import ChipEight.Proofs.Limits
import ChipEight.Reader

/-! # Stages of the program

The program looks at the keys to hold, reads the file, checks its size and lets the machine run,
in this order. The first of these stages that fails decides how it ends (`Options.EndsWith`), and
the last frame is printed as soon as the machine was run, even if it was stopped
(`Surroundings.first_failing_stage_decides`). What is logged stands on standard error in front of
the account of the failure.
-/

namespace ChipEight

/-- An error is accounted for as documented: the outermost context first, then its cause. A cause
of several lines would be indented line by line, so only causes of one line are spoken of. -/
structure Surroundings.AccountsForErrors (surroundings : Surroundings) : Prop where
  alone : ∀ headline, surroundings.account [headline] = "Error: " ++ headline ++ "\n"
  caused : ∀ headline cause, '\n' ∉ cause.toList →
    surroundings.account [headline, cause] =
      "Error: " ++ headline ++ "\n\nCaused by:\n    " ++ cause ++ "\n"

/-- What a run prints of its last frame: the picture, if it is asked for. -/
def Options.printed (options : Options) (frame : Frame) : String :=
  if options.dump then frame.picture ++ "\n" else ""

/-- How a run ends, by the stage that decides it, given what is read of the file: what is logged of
errors, and what is printed besides that. -/
inductive Options.EndsWith (options : Options) (file : FileContents) :
    List (Level × String) → Exit → Prop
  /-- A character of the keys to hold is not mapped, whatever the file. -/
  | unmapped {character : Char} (first : Keypad.FirstUnmapped options.hold character) :
      EndsWith options file []
        ⟨1, "", "Error: '" ++ String.singleton character ++
          "' is not mapped to a key on the keypad\n"⟩
  | unreadable {cause : ReadFault} (maps : Keypad.Maps options.hold)
      (failed : file = .error cause) :
      EndsWith options file []
        ⟨1, "", "Error: unable to read ROM " ++ options.path ++
          "\n\nCaused by:\n    " ++ cause.message ++ "\n"⟩
  | unloadable {bytes : Array UInt8} (maps : Keypad.Maps options.hold) (read : file = .ok bytes)
      (large : 3584 < bytes.size) :
      EndsWith options file []
        ⟨1, "", "Error: unable to load ROM " ++ options.path ++
          "\n\nCaused by:\n    ROM is too large (" ++ toString bytes.size ++
          " bytes), max size is 3584 bytes\n"⟩
  /-- A step fails, and before the limit is used up, if there is one. -/
  | stopped {rom : Rom} {steps : Nat} (maps : Keypad.Maps options.hold)
      (read : file = .ok rom.bytes) (fails : FailsAfter Machine.step (.loaded rom) steps)
      (within : ∀ limit, options.limit = some limit → steps < limit.toNat) :
      EndsWith options file
        [(.error, "halting at pc " ++
          hexadecimal 4 (repeatUpTo Machine.step steps (.loaded rom)).1.state.pc.toNat ++
          " after " ++ toString steps ++
          " cycles: memory access out of bounds at address 0x1000")]
        ⟨1, options.printed (repeatUpTo Machine.step steps (.loaded rom)).1.state.frame,
          "Error: " ++ options.path ++ " stopped running\n\nCaused by:\n" ++
          "    memory access out of bounds at address 0x1000\n"⟩
  /-- The limit is used up and no step has failed. -/
  | completed {rom : Rom} {limit : UInt64} (maps : Keypad.Maps options.hold)
      (read : file = .ok rom.bytes) (limited : options.limit = some limit)
      (succeeds : (repeatUpTo Machine.step limit.toNat (.loaded rom)).2 = none) :
      EndsWith options file []
        ⟨0, options.printed (repeatUpTo Machine.step limit.toNat (.loaded rom)).1.state.frame, ""⟩

/-- An exit with something written on standard error before everything else. -/
def Exit.behind (exit : Exit) (written : String) : Exit :=
  { exit with stderr := written ++ exit.stderr }

/-! ## Accounts of failures

The pieces of an account are read off first, and then joined. -/

section Accounts

variable {surroundings : Surroundings} (accounts : surroundings.AccountsForErrors)

include accounts

/-- The account of a character without a key. -/
theorem account_unmappedKey (character : Char) :
    surroundings.account (Failure.unmappedKey character).chain =
      "Error: '" ++ String.singleton character ++ "' is not mapped to a key on the keypad\n" := by
  have told : surroundings.account (Failure.unmappedKey character).chain = _ :=
    accounts.alone ("'" ++ String.singleton character ++ "' is not mapped to a key on the keypad")
  rw [told]
  simp only [String.append_assoc, String.reduceAppend]
  simp only [← String.append_assoc, String.reduceAppend]

/-- The account of a file that cannot be read, with what the system says of it. -/
theorem account_unreadable (path : String) {cause : ReadFault}
    (single : '\n' ∉ cause.message.toList) :
    surroundings.account (Failure.unreadable path cause).chain =
      "Error: unable to read ROM " ++ path ++ "\n\nCaused by:\n    " ++ cause.message ++ "\n" := by
  have told : surroundings.account (Failure.unreadable path cause).chain = _ :=
    accounts.caused ("unable to read ROM " ++ path) cause.message single
  rw [told]
  simp only [← String.append_assoc, String.reduceAppend]

/-- The account of a file that is too large, with its size. -/
theorem account_unloadable (path : String) (size : Nat) :
    surroundings.account (Failure.unloadable path (.romTooLarge size Rom.maxSize)).chain =
      "Error: unable to load ROM " ++ path ++ "\n\nCaused by:\n    ROM is too large (" ++
        toString size ++ " bytes), max size is 3584 bytes\n" := by
  have told : surroundings.account (Failure.unloadable path _).chain = _ :=
    accounts.caused ("unable to load ROM " ++ path) _
      (Fault.newline_not_mem_message (.romTooLarge size Rom.maxSize))
  have message : (Fault.romTooLarge size Rom.maxSize).message =
      "ROM is too large (" ++ toString size ++ " bytes), max size is " ++ "3584" ++ " bytes" := rfl
  rw [told, message]
  simp only [String.append_assoc, String.reduceAppend]
  simp only [← String.append_assoc, String.reduceAppend]

/-- The account of a run that was stopped. -/
theorem account_stopped (path : String) :
    surroundings.account (Failure.stopped path (.outOfBounds 0x1000)).chain =
      "Error: " ++ path ++ " stopped running\n\nCaused by:\n" ++
        "    memory access out of bounds at address 0x1000\n" := by
  have told : surroundings.account (Failure.stopped path _).chain = _ :=
    accounts.caused (path ++ " stopped running") _
      (Fault.newline_not_mem_message (.outOfBounds 0x1000))
  have message : (Fault.outOfBounds 0x1000).message =
      "memory access out of bounds at address 0x1000" := rfl
  rw [told, message]
  simp only [String.append_assoc, String.reduceAppend]

end Accounts

namespace Options

variable {options : Options} {file : FileContents} {rom : Rom}

/-- Something is printed exactly if the last frame is asked for. -/
theorem printed_ne_empty_iff {frame : Frame} :
    options.printed frame ≠ "" ↔ options.dump = true := by
  unfold printed
  split
  case isTrue dump =>
    refine iff_of_true (fun empty => ?_) dump
    exact absurd (String.append_eq_empty_iff.mp empty).2 (by decide)
  case isFalse dump => exact iff_of_false (not_not_intro rfl) dump

/-! ## How a run ends -/

section Reports

variable {keypad : Keypad} (accepted : Keypad.holding options.hold = .ok keypad)
  (threshold : Option Level)

include accepted

/-- A run that is stopped ends as soon as it is, with a limit that is not used up yet and without
one. -/
theorem report?_of_stopped {steps : Nat} (fails : FailsAfter Machine.step (.loaded rom) steps)
    (within : ∀ limit, options.limit = some limit → steps < limit.toNat) :
    options.report? (.ok rom.bytes) threshold =
      some (options.reportOf (options.runLoaded rom threshold steps).1
        (some (.outOfBounds 0x1000))) := by
  have lives := Machine.lifetime_eq_iff.mpr fails
  cases limited : options.limit with
  | none =>
      have reported : { options with limit := none }.report? (.ok rom.bytes) threshold = _ :=
        report?_of_lifetime accepted lives
      rwa [← limited] at reported
  | some limit =>
      have reported : { options with limit := some limit }.report? (.ok rom.bytes) threshold = _ :=
        report?_of_limit accepted limit
      rwa [runLoaded_of_lt lives (within limit limited), ← limited] at reported

/-- A run that is not stopped ends when its limit is used up. -/
theorem report?_of_completed {limit : UInt64} (limited : options.limit = some limit)
    (succeeds : (repeatUpTo Machine.step limit.toNat (.loaded rom)).2 = none) :
    options.report? (.ok rom.bytes) threshold =
      some (options.reportOf (options.runLoaded rom threshold limit.toNat).1 none) := by
  have unstopped := (options.runLoaded_detached rom threshold limit.toNat).2.trans succeeds
  have reported : { options with limit := some limit }.report? (.ok rom.bytes) threshold = _ :=
    report?_of_limit accepted limit
  rwa [unstopped, ← limited] at reported

end Reports

/-- What is printed of a run is the frame after as many steps as it has cycles. -/
theorem printed_runLoaded (options : Options) (rom : Rom) (threshold : Option Level)
    (cycles : Nat) :
    options.printed (options.runLoaded rom threshold cycles).1.machine.state.frame =
      options.printed (repeatUpTo Machine.step cycles (.loaded rom)).1.state.frame :=
  Machine.eq_of_detached (fun machine => options.printed machine.state.frame) (fun _ => rfl)
    (options.runLoaded_detached rom threshold cycles).1

/-- Before a run is closed nothing is logged that is as severe as an error. -/
theorem events_eq_nil_of_goesOn {start : Machine} {threshold : Option Level} {last : Session}
    (goesOn : (Session.opening start threshold).GoesOn last)
    (quiet : threshold = none ∨ threshold = some .error) : last.journal.events.toList = [] := by
  obtain ⟨told, unclosed, journal⟩ := goesOn
  have events : last.journal.events.toList = told.filter (Journal.admits threshold) := by
    rw [journal]
    exact Journal.events_recordAll _ told
  rw [events, List.filter_eq_nil_iff]
  intro event member
  rcases quiet with rfl | rfl
  · exact Bool.false_ne_true
  · have unclosedEvent := unclosed event member
    cases event with
    | halting => cases unclosedEvent
    | _ => exact Bool.false_ne_true

/-- The report of a run goes with a stage: the program ends as the stage says, but for what is
logged. That is nothing if logging is off, and what the stage says at the level of errors. -/
structure GoesWith (surroundings : Surroundings) (report : Report)
    (errors : List (Level × String)) (stage : Exit) : Prop where
  exit : surroundings.exitOf report = stage.behind (surroundings.write report.journal.records)
  off : surroundings.threshold = none → report.journal.records = []
  severe : surroundings.threshold = some .error → report.journal.records = errors

section Cycles

variable {start : Machine} {threshold : Option Level} {last : Session}
  (goesOn : (Session.opening start threshold).GoesOn last) (fault : Option Fault)

include goesOn

/-- Nothing is logged if logging is off. -/
theorem records_of_none (off : threshold = none) :
    (options.reportOf last fault).journal.records = [] := by
  have unlogged : (last.machine.closing last.steps fault).filter (Journal.admits none) = [] :=
    List.filter_eq_nil_iff.mpr fun _ _ => Bool.false_ne_true
  rw [Journal.records, options.events_reportOf goesOn, events_eq_nil_of_goesOn goesOn (.inl off),
    off, unlogged]
  rfl

/-- If errors are logged, it is logged that the machine has halted, and nothing else. -/
theorem records_of_error (severe : threshold = some .error) :
    (options.reportOf last fault).journal.records =
      (fault.map fun fault =>
        (.error, (Event.halting last.machine.state.pc last.steps fault).message)).toList := by
  rw [Journal.records, options.events_reportOf goesOn, events_eq_nil_of_goesOn goesOn (.inr severe),
    severe]
  unfold Machine.closing
  cases fault <;> split <;> rfl

end Cycles

/-- What is logged when a machine halts at the end of its memory. -/
theorem message_halting_at_end (pc : UInt16) (cycles : Nat) :
    (Event.halting pc cycles (.outOfBounds 0x1000)).message =
      "halting at pc " ++ hexadecimal 4 pc.toNat ++ " after " ++ toString cycles ++
        " cycles: memory access out of bounds at address 0x1000" := by
  have message : (Event.halting pc cycles (.outOfBounds 0x1000)).message =
      "halting at pc " ++ hexadecimal 4 pc.toNat ++ " after " ++ toString cycles ++
        " cycles: " ++ "memory access out of bounds at address 0x1000" := rfl
  rw [message, String.append_assoc]
  rfl

/-- Each stage has a report that goes with it. -/
theorem EndsWith.exists_report {surroundings : Surroundings}
    (accounts : surroundings.AccountsForErrors) {errors : List (Level × String)} {stage : Exit}
    (single : ∀ cause, file = .error cause → '\n' ∉ cause.message.toList)
    (ends : options.EndsWith file errors stage) :
    ∃ report, options.report? file surroundings.threshold = some report ∧
      GoesWith surroundings report errors stage := by
  have unstarted (failure : Failure) (stage : Exit)
      (told : ⟨1, "", surroundings.account failure.chain⟩ = stage) :
      GoesWith surroundings (.unstarted failure surroundings.threshold) [] stage :=
    ⟨by rw [← told]; rfl, fun _ => rfl, fun _ => rfl⟩
  cases ends with
  | @unmapped character first =>
      refine ⟨.unstarted (.unmappedKey character) _, ?_, unstarted _ _ ?_⟩
      · simp only [report?, start, Keypad.holding_eq_error_iff.mpr first]
      · rw [account_unmappedKey accounts]
  | @unreadable cause maps failed =>
      obtain ⟨keypad, accepted⟩ := Keypad.exists_holding_eq_ok_iff.mpr maps
      refine ⟨.unstarted (.unreadable options.path cause) _, ?_, unstarted _ _ ?_⟩
      · simp only [report?, start, accepted, failed]
      · rw [account_unreadable accounts options.path (single cause failed)]
  | @unloadable bytes maps read large =>
      obtain ⟨keypad, accepted⟩ := Keypad.exists_holding_eq_ok_iff.mpr maps
      refine ⟨.unstarted (.unloadable options.path (.romTooLarge bytes.size Rom.maxSize)) _, ?_,
        unstarted _ _ ?_⟩
      · rw [report?, read, start_of_large accepted large]
      · rw [account_unloadable accounts]
  | @stopped rom steps maps read fails within =>
      obtain ⟨keypad, accepted⟩ := Keypad.exists_holding_eq_ok_iff.mpr maps
      have goesOn := options.goesOn_runLoaded rom surroundings.threshold steps
      -- The run holds keys down and takes frames, but shows what the steps alone lead to.
      refine ⟨_, read ▸ report?_of_stopped accepted _ fails within, ?_, ?_, ?_⟩
      · rw [← printed_runLoaded options rom surroundings.threshold,
          ← account_stopped accounts options.path]
        rfl
      · exact records_of_none goesOn _
      · intro severe
        have lives := Machine.lifetime_eq_iff.mpr fails
        have address : (options.runLoaded rom surroundings.threshold steps).1.machine.state.pc =
            (repeatUpTo Machine.step steps (.loaded rom)).1.state.pc := congrArg Control.pc
          (Machine.control_of_detached (options.runLoaded_detached rom surroundings.threshold steps).1)
        rw [records_of_error goesOn _ severe, Option.map_some, Option.toList_some,
          message_halting_at_end, (runLoaded_of_le lives.ge).2, address]
  | @completed rom limit maps read limited succeeds =>
      obtain ⟨keypad, accepted⟩ := Keypad.exists_holding_eq_ok_iff.mpr maps
      have goesOn := options.goesOn_runLoaded rom surroundings.threshold limit.toNat
      refine ⟨_, read ▸ report?_of_completed accepted _ limited succeeds, ?_, ?_, ?_⟩
      · rw [← printed_runLoaded options rom surroundings.threshold, Exit.behind,
          String.append_empty]
        rfl
      · exact records_of_none goesOn _
      · exact records_of_error goesOn _

/-- Where steps are ended by a fault, and no smaller limit is used up before, the run is
stopped. -/
theorem exists_endsWith_of_fault (maps : Keypad.Maps options.hold) (read : file = .ok rom.bytes)
    {cycles : Nat} (within : ∀ limit, options.limit = some limit → cycles ≤ limit.toNat)
    {fault : Fault} (stopped : (repeatUpTo Machine.step cycles (.loaded rom)).2 = some fault) :
    ∃ errors stage, options.EndsWith file errors stage := by
  have ended : repeatUpTo Machine.step cycles (.loaded rom) = (_, some fault) :=
    Prod.ext rfl stopped
  obtain ⟨steps, fewer, made, failed⟩ := repeatUpTo_eq_fault_iff.mp ended
  exact ⟨_, _, .stopped maps read ⟨_, fault, made, failed⟩
    fun limit limited => fewer.trans_le (within limit limited)⟩

/-- Where the cycles of a run come to an end, either a fault or the limit has ended them. -/
theorem exists_endsWith_of_run? (maps : Keypad.Maps options.hold) (read : file = .ok rom.bytes)
    {threshold : Option Level} {outcome : Session × Option Fault}
    (ended : (Session.loaded options.path rom threshold).run? options.limit = some outcome) :
    ∃ errors stage, options.EndsWith file errors stage := by
  cases limited : options.limit with
  | some limit =>
      cases faulty : (repeatUpTo Machine.step limit.toNat (.loaded rom)).2 with
      | none => exact ⟨_, _, .completed maps read limited faulty⟩
      | some fault =>
          refine exists_endsWith_of_fault maps read (fun other same => ?_) faulty
          cases limited.symm.trans same
          exact le_rfl
  | none =>
      rw [limited] at ended
      -- Without a limit only a fault ends the cycles, and then some number of them reaches it.
      obtain ⟨⟨last, fault⟩, stopped, _⟩ := Option.map_eq_some_iff.mp ended
      obtain ⟨cycles, ran⟩ := Session.runToFault?_eq_some_iff_exists.mp stopped
      have faulty := (options.runLoaded_detached rom threshold cycles).2
      refine exists_endsWith_of_fault maps read (fun other same => ?_)
        (faulty.symm.trans (congrArg Prod.snd ran))
      cases limited.symm.trans same

/-- Where a run has a report, some stage decides how it ends. -/
theorem exists_endsWith {report : Report} {threshold : Option Level}
    (reported : options.report? file threshold = some report) :
    ∃ errors stage, options.EndsWith file errors stage := by
  cases accepted : Keypad.holding options.hold with
  | error character => exact ⟨_, _, .unmapped (Keypad.holding_eq_error_iff.mp accepted)⟩
  | ok keypad =>
      have maps := Keypad.exists_holding_eq_ok_iff.mp ⟨keypad, accepted⟩
      cases file with
      | error cause => exact ⟨_, _, .unreadable maps rfl⟩
      | ok bytes =>
          by_cases fits : bytes.size ≤ Rom.maxSize
          · rw [report?_of_fits options accepted fits] at reported
            obtain ⟨outcome, ended, _⟩ := Option.map_eq_some_iff.mp reported
            exact exists_endsWith_of_run? maps rfl ended
          · exact ⟨_, _, .unloadable maps rfl (Nat.lt_of_not_le fits)⟩

namespace EndsWith

variable {errors : List (Level × String)} {stage : Exit}
  (ends : options.EndsWith file errors stage)

include ends

/-- The code is one if there is an account of a failure, and otherwise zero. -/
theorem code_and_stderr :
    stage.code = 0 ∧ stage.stderr = "" ∧ errors = [] ∨ stage.code = 1 ∧ stage.stderr ≠ "" := by
  cases ends with
  | completed => exact .inl ⟨rfl, rfl, rfl⟩
  | _ => exact .inr ⟨rfl, by simp⟩

/-- The code is zero exactly if all stages pass. -/
theorem code_eq_zero_iff :
    stage.code = 0 ↔ Keypad.Maps options.hold ∧ ∃ (rom : Rom) (limit : UInt64),
      file = .ok rom.bytes ∧ options.limit = some limit ∧
        (repeatUpTo Machine.step limit.toNat (.loaded rom)).2 = none := by
  constructor
  · intro zero
    cases ends with
    | completed maps read limited succeeds => exact ⟨maps, _, _, read, limited, succeeds⟩
    | _ => cases zero
  · rintro ⟨maps, rom, limit, read, limited, succeeds⟩
    -- Whatever else could have decided is at odds with one of these.
    cases ends with
    | unmapped first => exact absurd maps first.not_maps
    | unreadable _ failed => cases failed.symm.trans read
    | unloadable _ found large =>
        cases found.symm.trans read
        exact absurd rom.fits (Nat.not_le.mpr large)
    | @stopped other steps _ found fails within =>
        obtain rfl : other = rom := by
          obtain ⟨bytes, _⟩ := rom
          cases found.symm.trans read
          rfl
        obtain ⟨last, fault, made, failed⟩ := fails
        rw [repeatUpTo_eq_fault_iff.mpr ⟨steps, within limit limited, made, failed⟩] at succeeds
        cases succeeds
    | completed => rfl

/-- Something is printed exactly if it is asked for and the program was loaded. -/
theorem stdout_ne_empty_iff :
    stage.stdout ≠ "" ↔
      options.dump = true ∧ Keypad.Maps options.hold ∧ ∃ rom : Rom, file = .ok rom.bytes := by
  have silent : ¬("" : String) ≠ "" := not_not_intro rfl
  cases ends with
  | unmapped first => exact iff_of_false silent fun ⟨_, maps, _⟩ => first.not_maps maps
  | unreadable maps failed =>
      refine iff_of_false silent ?_
      rintro ⟨_, _, rom, read⟩
      cases failed.symm.trans read
  | unloadable maps found large =>
      refine iff_of_false silent ?_
      rintro ⟨_, _, rom, read⟩
      cases found.symm.trans read
      exact absurd rom.fits (Nat.not_le.mpr large)
  | stopped maps read =>
      exact printed_ne_empty_iff.trans ⟨fun dump => ⟨dump, maps, _, read⟩, And.left⟩
  | completed maps read =>
      exact printed_ne_empty_iff.trans ⟨fun dump => ⟨dump, maps, _, read⟩, And.left⟩

end EndsWith

end Options

namespace Surroundings

section Ends

variable {surroundings : Surroundings} {arguments : List String} {options : Options}
  {read : String → FileContents} (asked : surroundings.parse arguments = .ok options)
  (accounts : surroundings.AccountsForErrors)
  (single : ∀ cause, read options.path = .error cause → '\n' ∉ cause.message.toList)

include asked accounts single

/-- The program ends as its report does and with the stage that goes with it. -/
theorem exit?_eq_some_iff {exit : Exit} :
    surroundings.exit? arguments read = some exit ↔
      ∃ report errors stage,
        options.report? (read options.path) surroundings.threshold = some report ∧
        options.EndsWith (read options.path) errors stage ∧
        Options.GoesWith surroundings report errors stage ∧
        exit = stage.behind (surroundings.write report.journal.records) := by
  rw [exit?, asked, Option.map_eq_some_iff]
  constructor
  · rintro ⟨report, reported, rfl⟩
    obtain ⟨errors, stage, ends⟩ := Options.exists_endsWith reported
    obtain ⟨other, same, goes⟩ := ends.exists_report accounts single
    cases Option.some.inj (reported.symm.trans same)
    exact ⟨report, errors, stage, reported, ends, goes, goes.exit⟩
  · rintro ⟨report, errors, stage, reported, _, goes, rfl⟩
    exact ⟨report, reported, goes.exit⟩

/-- For each stage that decides there is a report, and the program ends with it. -/
theorem exists_exit {errors : List (Level × String)} {stage : Exit}
    (ends : options.EndsWith (read options.path) errors stage) :
    ∃ report, Options.GoesWith surroundings report errors stage ∧
      surroundings.exit? arguments read =
        some (stage.behind (surroundings.write report.journal.records)) := by
  obtain ⟨report, reported, goes⟩ := ends.exists_report accounts single
  exact ⟨report, goes, (exit?_eq_some_iff asked accounts single).mpr
    ⟨report, errors, stage, reported, ends, goes, rfl⟩⟩

end Ends

/-- **The first failing stage decides.** Let the arguments of the program ask for a run. The program
ends exactly as the first stage says that fails, and if none does, as the last one says; in front of
the account of the failure stands what was logged. That is nothing if logging is off, and if errors
are logged, that the machine has halted. The program exits with code zero exactly if all characters
of the keys to hold are mapped, the file is read and fits, and the limit of the run is used up
without a step that fails; unless more is logged than errors, exactly then standard error is empty.
Otherwise it exits with code one. It prints something exactly if the last frame is asked for and the
program was loaded, whether or not the machine was stopped then.

It is relied on that the logger writes nothing where nothing is logged, that an error is accounted
for as documented, and that the system describes its faults in one line. -/
theorem first_failing_stage_decides (surroundings : Surroundings) (arguments : List String)
    (options : Options) (read : String → FileContents)
    (asked : surroundings.parse arguments = .ok options) (silent : surroundings.write [] = "")
    (accounts : surroundings.AccountsForErrors)
    (single : ∀ cause, read options.path = .error cause → '\n' ∉ cause.message.toList) :
    let file := read options.path
    let exit? := surroundings.exit? arguments read
    (∀ exit, exit? = some exit ↔ ∃ report errors stage,
      options.report? file surroundings.threshold = some report ∧
      options.EndsWith file errors stage ∧
      exit = stage.behind (surroundings.write report.journal.records)) ∧
    (surroundings.threshold = none → ∀ exit, exit? = some exit ↔
      ∃ errors, options.EndsWith file errors exit) ∧
    (surroundings.threshold = some .error → ∀ exit, exit? = some exit ↔
      ∃ errors stage, options.EndsWith file errors stage ∧
        exit = stage.behind (surroundings.write errors)) ∧
    ∀ exit, exit? = some exit →
      (exit.code = 0 ∨ exit.code = 1) ∧
      (surroundings.threshold = none ∨ surroundings.threshold = some .error →
        (exit.stderr = "" ↔ exit.code = 0)) ∧
      (exit.code = 0 ↔ Keypad.Maps options.hold ∧ ∃ (rom : Rom) (limit : UInt64),
        file = .ok rom.bytes ∧ options.limit = some limit ∧
          (repeatUpTo Machine.step limit.toNat (.loaded rom)).2 = none) ∧
      (exit.stdout ≠ "" ↔ options.dump = true ∧ Keypad.Maps options.hold ∧
        ∃ rom : Rom, file = .ok rom.bytes) := by
  intro file exit?
  have ended {exit : Exit} : exit? = some exit ↔ _ := exit?_eq_some_iff asked accounts single
  have exists_exit {errors : List (Level × String)} {stage : Exit}
      (ends : options.EndsWith file errors stage) := exists_exit asked accounts single ends
  have unwritten (stage : Exit) : stage.behind (surroundings.write []) = stage := by
    rw [silent, Exit.behind, String.empty_append]
  refine ⟨fun exit => ?always, fun off exit => ?off, fun severe exit => ?severe, fun exit was => ?_⟩
  case always =>
    rw [ended]
    constructor
    · rintro ⟨report, errors, stage, reported, ends, _, same⟩
      exact ⟨report, errors, stage, reported, ends, same⟩
    · rintro ⟨report, errors, stage, reported, ends, rfl⟩
      obtain ⟨other, same, goes⟩ := ends.exists_report accounts single
      cases Option.some.inj (reported.symm.trans same)
      exact ⟨report, errors, stage, reported, ends, goes, rfl⟩
  case off =>
    constructor
    · intro was
      obtain ⟨report, errors, stage, _, ends, goes, rfl⟩ := ended.mp was
      rw [goes.off off, unwritten]
      exact ⟨errors, ends⟩
    · rintro ⟨errors, ends⟩
      obtain ⟨report, goes, was⟩ := exists_exit ends
      rwa [goes.off off, unwritten] at was
  case severe =>
    constructor
    · intro was
      obtain ⟨report, errors, stage, _, ends, goes, rfl⟩ := ended.mp was
      exact ⟨errors, stage, ends, by rw [goes.severe severe]⟩
    · rintro ⟨errors, stage, ends, rfl⟩
      obtain ⟨report, goes, was⟩ := exists_exit ends
      rwa [goes.severe severe] at was
  · obtain ⟨report, errors, stage, _, ends, goes, rfl⟩ := ended.mp was
    refine ⟨?code, fun quiet => ?stderr, ends.code_eq_zero_iff, ends.stdout_ne_empty_iff⟩
    case code => exact ends.code_and_stderr.imp And.left And.left
    case stderr =>
      rcases ends.code_and_stderr with ⟨zero, empty, unlogged⟩ | ⟨one, told⟩
      · have records : report.journal.records = [] :=
          quiet.elim goes.off fun severe => (goes.severe severe).trans unlogged
        rw [records, unwritten]
        exact iff_of_true empty zero
      · refine iff_of_false (fun empty => told (String.append_eq_empty_iff.mp empty).2) ?_
        exact fun zero => absurd (one.symm.trans zero) (by decide)

/-- In plain surroundings an error is accounted for as documented. -/
theorem accountsForErrors_plain (threshold : Option Level) :
    (plain threshold).AccountsForErrors :=
  ⟨fun _ => rfl, fun _ _ _ => rfl⟩

/-- A program that jumps to the last opcode of the memory and is stopped before its limit is used
up: its last frame is printed all the same, and if errors are logged, it is logged that the machine
has halted. With the same arguments, nothing is printed if the file is missing. -/
theorem first_failing_stage_decides_for_a_stopped_run :
    let arguments := ["-dc3", "rom.ch8", "--hold=qV"]
    let options : Options :=
      { path := "rom.ch8", limit := some 3, hold := "qV", dump := true }
    let rom : Rom := ⟨#[0x1F, 0xFE], by decide⟩
    let last := (repeatUpTo Machine.step 2 (.loaded rom)).1.state.frame
    let account := "Error: rom.ch8 stopped running\n\nCaused by:\n" ++
      "    memory access out of bounds at address 0x1000\n"
    (plain none).parse arguments = .ok options ∧
      (plain none).exit? arguments (fun _ => .ok rom.bytes) =
        some ⟨1, last.picture ++ "\n", account⟩ ∧
      (plain (some .error)).exit? arguments (fun _ => .ok rom.bytes) =
        some ⟨1, last.picture ++ "\n", "ERROR halting at pc 1000 after 2 cycles: " ++
          "memory access out of bounds at address 0x1000\n" ++ account⟩ ∧
      (plain none).exit? arguments (fun _ => .error .notFound) =
        some ⟨1, "", "Error: unable to read ROM rom.ch8\n\nCaused by:\n" ++
          "    No such file or directory (os error 2)\n"⟩ := by
  intro arguments options rom last account
  have asked : Arguments.parse arguments = .ok options := rfl
  have maps : Keypad.Maps "qV" := Keypad.exists_holding_eq_ok_iff.mp ⟨_, rfl⟩
  have made : repeatUpTo Machine.step 2 (.loaded rom) =
      ((repeatUpTo Machine.step 2 (.loaded rom)).1, none) := Prod.ext rfl (by decide)
  have failed : (repeatUpTo Machine.step 2 (.loaded rom)).1.step = .error (.outOfBounds 0x1000) :=
    Machine.step_eq_error_iff.mpr (State.fetch_eq_error_iff.mpr (by decide))
  have address : (repeatUpTo Machine.step 2 (.loaded rom)).1.state.pc = 0x1000 := by decide
  have within (limit : UInt64) (limited : options.limit = some limit) : 2 < limit.toNat := by
    cases limited
    decide
  have stops := Options.EndsWith.stopped maps rfl ⟨_, _, made, failed⟩ within
  have decides (threshold : Option Level) (file : FileContents)
      (single : ∀ cause, file = .error cause → '\n' ∉ cause.message.toList) :=
    first_failing_stage_decides (plain threshold) arguments options (fun _ => file) asked rfl
      (accountsForErrors_plain threshold) single
  refine ⟨asked, ?_, ?_, ?_⟩
  · exact ((decides none (.ok rom.bytes) nofun).2.1 rfl _).mpr ⟨_, stops⟩
  · refine ((decides (some .error) (.ok rom.bytes) nofun).2.2.1 rfl _).mpr ⟨_, _, stops, ?_⟩
    rw [address]
    rfl
  · have single : ∀ cause, (.error .notFound : FileContents) = .error cause →
        '\n' ∉ cause.message.toList := by
      rintro _ ⟨⟩
      decide
    exact ((decides none (.error .notFound) single).2.1 rfl _).mpr ⟨_, .unreadable maps rfl⟩

end Surroundings

end ChipEight
