import ChipEight.Run

/-! # The program

What the program prints and the code it exits with, given its arguments and the
contents of files. The parser of its arguments, the logger and the account that is
given of an error come from elsewhere, and are its surroundings.
-/

namespace ChipEight

/-- How the program ends. -/
structure Exit where
  code : Nat
  stdout : String
  stderr : String
deriving DecidableEq

/-- What the program takes from elsewhere. -/
structure Surroundings where
  /-- The options that arguments ask for, or how the parser ends the program itself. -/
  parse : List String → Except Exit Options
  /-- The least severe level that is logged; nothing is logged without one. -/
  threshold : Option Level
  /-- What the logger writes on standard error of the messages that it lets through. -/
  write : List (Level × String) → String
  /-- What is written on standard error of an error: of what failed first, and then of
  what caused it. -/
  account : List String → String

namespace Surroundings

variable (surroundings : Surroundings)

/-- How the program ends after a run: with code zero if the run was completed, and
otherwise with code one and an account of the failure behind what was logged. -/
def exitOf (report : Report) : Exit :=
  let logged := surroundings.write report.journal.records
  match report.result with
  | .ok () => ⟨0, report.output, logged⟩
  | .error failure => ⟨1, report.output, logged ++ surroundings.account failure.chain⟩

/-- How the program ends when it is called with some arguments, or nothing if it
never ends. -/
def exit? (arguments : List String) (read : String → FileContents) : Option Exit :=
  match surroundings.parse arguments with
  | .error exit => some exit
  | .ok options =>
    (options.report? (read options.path) surroundings.threshold).map surroundings.exitOf

end Surroundings

end ChipEight
