import ChipEight.File
import ChipEight.Options
import ChipEight.Picture
import ChipEight.Session

/-! # Runs

A run loads a program from a file and lets the machine work, with the same keys
held down throughout, until a limit of cycles is used up or a step fails. Nothing
is shown meanwhile; at the end the last frame can be printed.

A run without a limit may never end, and then it has no outcome.
-/

namespace ChipEight

/-- Why a run was not completed. -/
inductive Failure
  | unmappedKey (character : Char)
  | unreadable (path : String) (cause : ReadFault)
  | unloadable (path : String) (cause : Fault)
  | stopped (path : String) (cause : Fault)

namespace Failure

/-- What has failed. -/
def headline : Failure → String
  | .unmappedKey character =>
    "'" ++ String.singleton character ++ "' is not mapped to a key on the keypad"
  | .unreadable path _ => "unable to read ROM " ++ path
  | .unloadable path _ => "unable to load ROM " ++ path
  | .stopped path _ => path ++ " stopped running"

/-- What has caused a failure, if something else has. -/
def cause? : Failure → Option String
  | .unmappedKey _ => none
  | .unreadable _ cause => some cause.message
  | .unloadable _ cause => some cause.message
  | .stopped _ cause => some cause.message

/-- What has failed, and behind it what has caused that. -/
def chain (failure : Failure) : List String :=
  failure.headline :: failure.cause?.toList

end Failure

/-- The result of a run that has ended. -/
structure Report where
  result : Except Failure Unit
  output : String
  cycles : Nat
  journal : Journal

namespace Report

/-- The report of a run that failed before it started. -/
def unstarted (failure : Failure) (threshold : Option Level) : Report where
  result := .error failure
  output := ""
  cycles := 0
  journal := .empty threshold

end Report

namespace Session

/-- Runs cycles until a limit is used up or a step fails. -/
def runFor (session : Session) (limit : Nat) : Session × Option Fault :=
  repeatUpTo cycle limit session

/-- Runs cycles until a step fails, if one ever does. -/
def runToFault? (session : Session) : Option (Session × Fault) :=
  match session.cycle with
  | .ok next => next |>.runToFault?
  | .error fault => some (session, fault)
partial_fixpoint

/-- Runs cycles up to a limit, or without one; nothing if that never ends. -/
def run? (session : Session) : Option UInt64 → Option (Session × Option Fault)
  | some limit => some (session.runFor limit.toNat)
  | none => session.runToFault?.map fun (last, fault) => (last, some fault)

/-- The session after telling how a run has ended. -/
def close (session : Session) (fault : Option Fault) : Session :=
  let halting := fault.map fun fault => Event.halting session.machine.state.pc session.steps fault
  let skips :=
    if 0 < session.machine.skipped then
      [Event.skippedInRun session.machine.skipped (session.machine.lastSkipped.getD ⟨0⟩)]
    else []
  { session with
    journal := session.journal.recordAll (halting.toList ++ [.ran session.steps] ++ skips) }

/-- The session of a run that is about to start: the program is loaded and the keys
are held down. -/
def start (path : String) (bytes : Array UInt8) (keypad : Keypad) (threshold : Option Level) :
    Except Fault Session :=
  match (opening .powerOn threshold).perform (.load bytes) with
  | (.refused fault, _) => .error fault
  | (_, loaded) => .ok ((loaded.record (.fileLoaded bytes.size path)).perform (.setKeys keypad)).2

/-- Cycles without a limit come to an end exactly if some number of cycles does, and in
the same way. -/
theorem runToFault?_eq_some_iff_exists {session last : Session} {fault : Fault} :
    session.runToFault? = some (last, fault) ↔
      ∃ limit, session.runFor limit = (last, some fault) := by
  constructor
  · intro ended
    -- The outcome of a loop that ends is that of its body, so induct on the approximations.
    refine runToFault?.partial_correctness
      (fun session outcome => ∃ limit, session.runFor limit = (outcome.1, some outcome.2))
      ?_ session _ ended
    intro loop ih session outcome returned
    cases attempt : session.cycle with
    | ok next =>
        simp only [attempt] at returned
        obtain ⟨limit, reached⟩ := ih next outcome returned
        exact ⟨limit + 1, (repeatUpTo_succ_of_ok attempt limit).trans reached⟩
    | error fault =>
        simp only [attempt, Option.some.injEq] at returned
        subst returned
        exact ⟨1, repeatUpTo_succ_of_error attempt 0⟩
  · rintro ⟨limit, ended⟩
    unfold runFor at ended
    induction limit generalizing session with
    | zero => cases ended
    | succ limit ih =>
        rw [runToFault?]
        cases attempt : session.cycle with
        | ok next =>
            rw [repeatUpTo_succ_of_ok attempt] at ended
            exact ih ended
        | error fault =>
            rw [repeatUpTo_succ_of_error attempt] at ended
            cases ended
            rfl

/-- Cycles that come to an end do so after some number of them, whatever the limit. -/
theorem exists_runFor_of_run? {session last : Session} {limit : Option UInt64}
    {fault? : Option Fault} (ended : session.run? limit = some (last, fault?)) :
    ∃ cycles, session.runFor cycles = (last, fault?) := by
  cases limit with
  | some limit => exact ⟨limit.toNat, Option.some.inj ended⟩
  | none =>
      obtain ⟨⟨reached, fault⟩, stopped, same⟩ := Option.map_eq_some_iff.mp ended
      cases same
      exact runToFault?_eq_some_iff_exists.mp stopped

end Session

namespace Options

/-- The report of a run whose cycles are over. -/
def reportOf (options : Options) (last : Session) (fault : Option Fault) : Report where
  result :=
    match fault with
    | some fault => .error (.stopped options.path fault)
    | none => .ok ()
  output := if options.dump then last.machine.state.frame.picture ++ "\n" else ""
  cycles := last.steps
  journal := (last.close fault).journal

/-- The session of a run that is about to start, given the contents of its file. The
keys to hold are looked at first, then the file, then its size. -/
def start (options : Options) (file : FileContents) (threshold : Option Level) :
    Except Failure Session :=
  match Keypad.holding options.hold with
  | .error character => .error (.unmappedKey character)
  | .ok keypad =>
    match file with
    | .error cause => .error (.unreadable options.path cause)
    | .ok bytes =>
      (Session.start options.path bytes keypad threshold).mapError (.unloadable options.path)

/-- The report of a run with given contents of its file, or nothing if the run
never ends. -/
def report? (options : Options) (file : FileContents) (threshold : Option Level) :
    Option Report :=
  match options.start file threshold with
  | .error failure => some (.unstarted failure threshold)
  | .ok session =>
    (session.run? options.limit).map fun (last, fault) => options.reportOf last fault

end Options

end ChipEight
