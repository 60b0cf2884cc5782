import ChipEight.Arguments
import ChipEight.Program

/-! # A reader of arguments

A parser that can stand where the program takes one from elsewhere. It reads the
arguments from left to right, up to what it does not understand or to the first
question about the program, and then looks at what was given. Whatever it refuses, it
refuses with code two and without a word.
-/

namespace ChipEight

/-- How the reading of arguments comes to its end. -/
inductive Ending
  | complete
  | misuse
  | inquiry (inquiry : Inquiry)
deriving DecidableEq

/-- What comes behind an argument. -/
inductive Onward
  | argument
  /-- The next argument is the value of an option. -/
  | value (setting : Setting)
  | nothing (ending : Ending)

/-- The option with a given long name. -/
def Setting.ofName? (name : List Char) : Option Setting :=
  [hertz, cycles, hold].find? fun setting => setting.name.toList = name

/-- The option with a given letter. -/
def Setting.ofLetter? (letter : Char) : Option Setting :=
  [hertz, cycles, hold].find? fun setting => setting.letter? = some letter

/-- The flag with a given long name. -/
def Flag.ofName? (name : List Char) : Option Flag :=
  [fast, dump].find? fun flag => flag.name.toList = name

/-- The flag with a given letter. -/
def Flag.ofLetter? (letter : Char) : Option Flag :=
  [fast, dump].find? fun flag => flag.letter = letter

/-- The question with a given long name. -/
def Inquiry.ofName? (name : List Char) : Option Inquiry :=
  [help, version].find? fun inquiry => inquiry.name.toList = name

/-- The question with a given letter. -/
def Inquiry.ofLetter? (letter : Char) : Option Inquiry :=
  [help, version].find? fun inquiry => inquiry.letter = letter

namespace Arguments

/-- Reads an argument that starts with two dashes, without them. A value may be
attached behind an equals sign. -/
def readLong (text : List Char) : List Item × Onward :=
  let name := text.takeWhile (· != '=')
  match Setting.ofName? name, text.dropWhile (· != '=') with
  | some setting, [] => ([], .value setting)
  | some setting, _ :: value => ([.setting setting (String.ofList value)], .argument)
  | none, _ :: _ => ([], .nothing .misuse)
  | none, [] =>
    match Flag.ofName? name, Inquiry.ofName? name with
    | some flag, _ => ([.flag flag], .argument)
    | none, some inquiry => ([], .nothing (.inquiry inquiry))
    | none, none => ([], .nothing .misuse)

/-- Reads an argument that starts with one dash, without it: a row of letters. The
letter of an option takes the rest of the argument as its value, with or without an
equals sign in front. -/
def readShort : List Char → List Item × Onward
  | [] => ([], .argument)
  | letter :: rest =>
    match Flag.ofLetter? letter, Setting.ofLetter? letter, Inquiry.ofLetter? letter with
    | some flag, _, _ =>
      let (items, onward) := readShort rest
      (.flag flag :: items, onward)
    | none, some setting, _ =>
      match rest with
      | [] => ([], .value setting)
      | '=' :: value => ([.setting setting (String.ofList value)], .argument)
      | value => ([.setting setting (String.ofList value)], .argument)
    | none, none, some inquiry => ([], .nothing (.inquiry inquiry))
    | none, none, none => ([], .nothing .misuse)

/-- Reads an argument that is neither a value nor the end of the options. A single
dash is a path. -/
def readArgument (argument : String) : List Item × Onward :=
  match argument.toList with
  | '-' :: '-' :: text => readLong text
  | '-' :: letter :: rest => readShort (letter :: rest)
  | _ => ([.path argument], .argument)

/-- Whether an argument can be the value of the option before it. A single dash can;
anything longer that starts with a dash cannot. -/
def isValue (argument : String) : Bool :=
  match argument.toList with
  | '-' :: _ :: _ => false
  | _ => true

/-- Reads arguments behind an option that may still want a value. After two dashes
everything is a path. -/
def readFrom : Option Setting → List String → List Item × Ending
  | none, [] => ([], .complete)
  | some _, [] => ([], .misuse)
  | some setting, argument :: rest =>
    if isValue argument then
      let (items, ending) := readFrom none rest
      (.setting setting argument :: items, ending)
    else ([], .misuse)
  | none, argument :: rest =>
    if argument = "--" then (rest.map .path, .complete)
    else
      match readArgument argument with
      | (given, .argument) =>
        let (items, ending) := readFrom none rest
        (given ++ items, ending)
      | (given, .value setting) =>
        let (items, ending) := readFrom (some setting) rest
        (given ++ items, ending)
      | (given, .nothing ending) => (given, ending)

/-- Reads a list of arguments. -/
def read (arguments : List String) : List Item × Ending :=
  readFrom none arguments

/-- The options with what one more item changes about them, if it is right. -/
def give? (options : Options) (item : Item) : Option Options :=
  item.change?.map fun change => change options

/-- The options that items give, if each of them is right and none is given twice. They
have an empty path if no path is given. -/
def gather? (items : List Item) : Option Options :=
  if (items.map Item.place).Nodup then items.foldlM give? { path := "" } else none

/-- The name of the program and its version. -/
def versionText : String :=
  "chip8 0.1.0\n"

/-- The options that were asked for, or how the program ends in place of a run, given
the items that were read and how the reading ended. -/
def conclude (items : List Item) (ending : Ending) : Except Exit Options :=
  match gather? items, ending with
  | some options, .complete => if options.path = "" then .error ⟨2, "", ""⟩ else .ok options
  | some _, .inquiry .help => .error ⟨0, "", ""⟩
  | some _, .inquiry .version => .error ⟨0, versionText, ""⟩
  | some _, .misuse => .error ⟨2, "", ""⟩
  | none, _ => .error ⟨2, "", ""⟩

/-- Parses a list of arguments. -/
def parse (arguments : List String) : Except Exit Options :=
  let (items, ending) := read arguments
  conclude items ending

end Arguments

namespace Surroundings

/-- Surroundings in which a level is logged line by line, and an error is accounted for
with its cause indented below it. -/
def plain (threshold : Option Level) : Surroundings where
  parse := Arguments.parse
  threshold := threshold
  write records :=
    String.join (records.map fun (level, message) => level.name ++ " " ++ message ++ "\n")
  account
    | [] => ""
    | [headline] => "Error: " ++ headline ++ "\n"
    | headline :: cause :: _ => "Error: " ++ headline ++ "\n\nCaused by:\n    " ++ cause ++ "\n"

end Surroundings

end ChipEight
