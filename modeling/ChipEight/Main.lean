import ChipEight.Reader

/-! # The executable

Reads the file, waits after each cycle, and prints.
-/

namespace ChipEight

/-- The fault of a number of the system, which may come with its sign turned. -/
def ReadFault.ofNumber (number : UInt32) (description : String) : ReadFault :=
  match (min number (0 - number)).toNat with
  | 2 => .notFound
  | 20 => .notFolder
  | 21 => .isFolder
  | 36 => .nameTooLong
  | number => .other number description

/-- The fault that an error of the system stands for. -/
def ReadFault.ofError : IO.Error → ReadFault
  | .noFileOrDirectory _ number description => .ofNumber number description
  | .inappropriateType _ number description => .ofNumber number description
  | .permissionDenied _ number description => .ofNumber number description
  | .resourceExhausted _ number description => .ofNumber number description
  | .invalidArgument _ number description => .ofNumber number description
  | .otherError number description => .ofNumber number description
  | error => .other 5 (toString error)

/-- Reads the file at a path. -/
def readFile (path : String) : IO FileContents := do
  try
    return .ok (← IO.FS.readBinFile path).data
  catch error =>
    return .error (.ofError error)

/-- How many nanoseconds a cycle lasts. -/
def Rate.nanoseconds (rate : Rate) : Nat :=
  1000000000 / rate.hertz.toNat

/-- Waits until a cycle has lasted for some time since its start, and gives the time at which
the next one starts. -/
def waitFor (nanoseconds start : Nat) : IO Nat := do
  let elapsed := (← IO.monoNanosNow) - start
  if elapsed < nanoseconds then
    IO.sleep (UInt32.ofNat ((nanoseconds - elapsed) / 1000000))
  IO.monoNanosNow

/-- Runs a session as `Session.run?` does, and waits after each of its cycles. -/
def Session.runPaced (session : Session) (limit : Option UInt64) (wait : Nat → IO Nat) :
    IO (Session × Option Fault) := do
  let mut session := session
  let mut start ← IO.monoNanosNow
  repeat
    if limit.any fun limit => limit.toNat ≤ session.steps then break
    match session.cycle with
    | .ok next => session := next
    | .error fault => return (session, some fault)
    start ← wait start
  return (session, none)

/-- Prints what a program ends with and gives its exit code. -/
def Exit.print (exit : Exit) : IO UInt32 := do
  IO.print exit.stdout
  IO.eprint exit.stderr
  return UInt32.ofNat exit.code

/-- Runs a program as its options say. -/
def Surroundings.execute (surroundings : Surroundings) (options : Options) : IO UInt32 := do
  let threshold := surroundings.threshold
  match options.start (← readFile options.path) threshold with
  | .error failure => (surroundings.exitOf (.unstarted failure threshold)).print
  | .ok session =>
    let cycle := if options.fast then 0 else options.rate.nanoseconds
    let (last, fault) ← session.runPaced options.limit (waitFor cycle)
    (surroundings.exitOf (options.reportOf last fault)).print

end ChipEight

/-- Parses the arguments and runs the program that they name. -/
def main (arguments : List String) : IO UInt32 := do
  let surroundings := ChipEight.Surroundings.plain (some .error)
  match surroundings.parse arguments with
  | .ok options => surroundings.execute options
  | .error exit => exit.print
