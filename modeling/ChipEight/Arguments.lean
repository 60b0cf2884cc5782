import ChipEight.Options

/-! # Arguments

What the program declares about its arguments: the names of its options, the texts
that are values for them, and what each of them changes. To take a list of arguments
apart is left to a parser.
-/

namespace ChipEight

/-- An option that takes a value. -/
inductive Setting
  | hertz
  | cycles
  | hold
deriving DecidableEq

/-- An option that takes no value. -/
inductive Flag
  | fast
  | dump
deriving DecidableEq

/-- A question about the program itself, which is answered in place of a run. -/
inductive Inquiry
  | help
  | version
deriving DecidableEq

/-- Something that arguments give. -/
inductive Item
  | path (text : String)
  | setting (setting : Setting) (value : String)
  | flag (flag : Flag)
deriving DecidableEq

/-- What an item gives something for. -/
inductive Place
  | path
  | setting (setting : Setting)
  | flag (flag : Flag)
deriving DecidableEq

namespace Setting

/-- The long name of an option. -/
def name : Setting → String
  | .hertz => "hz"
  | .cycles => "cycles"
  | .hold => "hold"

/-- The letter of an option that has one. -/
def letter? : Setting → Option Char
  | .hertz => none
  | .cycles => some 'c'
  | .hold => none

end Setting

namespace Flag

/-- The long name of a flag. -/
def name : Flag → String
  | .fast => "fast"
  | .dump => "dump"

/-- The letter of a flag. -/
def letter : Flag → Char
  | .fast => 'f'
  | .dump => 'd'

end Flag

namespace Inquiry

/-- The long name of the flag that asks a question. -/
def name : Inquiry → String
  | .help => "help"
  | .version => "version"

/-- The letter of the flag that asks a question. -/
def letter : Inquiry → Char
  | .help => 'h'
  | .version => 'V'

end Inquiry

/-- What an item is for. -/
def Item.place : Item → Place
  | .path _ => .path
  | .setting option _ => .setting option
  | .flag option => .flag option

namespace Arguments

/-- The number that a text stands for: decimal digits, at least one, behind an
optional plus sign. -/
def number? (text : List Char) : Option Nat :=
  let digits :=
    match text with
    | '+' :: rest => rest
    | _ => text
  if digits ≠ [] ∧ digits.all Char.isDigit then some (Nat.ofDigitChars 10 digits 0) else none

/-- The rate that a text stands for. -/
def rate? (text : List Char) : Option Rate :=
  (number? text).bind Rate.ofNat?

/-- The limit that a text stands for. -/
def limit? (text : List Char) : Option UInt64 :=
  match number? text with
  | some number => if number < UInt64.size then some (UInt64.ofNat number) else none
  | none => none

end Arguments

/-- What an item changes about the options, if its text is right for what it is given for. -/
def Item.change? : Item → Option (Options → Options)
  | .path text => if text = "" then none else some fun options => { options with path := text }
  | .setting .hertz text =>
    (Arguments.rate? text.toList).map fun rate options => { options with rate := rate }
  | .setting .cycles text =>
    (Arguments.limit? text.toList).map fun limit options => { options with limit := some limit }
  | .setting .hold text => some fun options => { options with hold := text }
  | .flag .fast => some fun options => { options with fast := true }
  | .flag .dump => some fun options => { options with dump := true }

end ChipEight
