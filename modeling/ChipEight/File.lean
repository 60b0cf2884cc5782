/-! # Files

What reading a file gives: its contents, or what has gone wrong.
-/

namespace ChipEight

/-- Why a file cannot be read. -/
inductive ReadFault
  | notFound
  /-- The path goes through a file as if it were a folder. -/
  | notFolder
  | isFolder
  | nameTooLong
  /-- Some other fault of the system, by its number. -/
  | other (number : Nat) (description : String)
deriving DecidableEq

namespace ReadFault

/-- The number that the system gives to a fault. -/
def number : ReadFault → Nat
  | .notFound => 2
  | .notFolder => 20
  | .isFolder => 21
  | .nameTooLong => 36
  | .other number _ => number

/-- The words in which the system describes a fault. -/
def description : ReadFault → String
  | .notFound => "No such file or directory"
  | .notFolder => "Not a directory"
  | .isFolder => "Is a directory"
  | .nameTooLong => "File name too long"
  | .other _ description => description

/-- The text of a fault: its description and its number. -/
def message (fault : ReadFault) : String :=
  fault.description ++ " (os error " ++ toString fault.number ++ ")"

end ReadFault

/-- The contents of a file, or why it could not be read. -/
abbrev FileContents := Except ReadFault (Array UInt8)

end ChipEight
