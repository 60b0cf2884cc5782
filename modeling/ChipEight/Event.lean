import ChipEight.Operation

/-! # Events

What is worth telling about a machine at work, with the severity and the wording
of each event.
-/

namespace ChipEight

/-- How severe an event is. -/
inductive Level
  | error
  | warn
  | info
  | debug
  | trace
deriving DecidableEq

namespace Level

/-- How far a level is from the most severe one. -/
def rank : Level → Nat
  | .error => 0
  | .warn => 1
  | .info => 2
  | .debug => 3
  | .trace => 4

/-- The name of a level, as a line opens with it. -/
def name : Level → String
  | .error => "ERROR"
  | .warn => "WARN"
  | .info => "INFO"
  | .debug => "DEBUG"
  | .trace => "TRACE"

end Level

/-- Something that happened to a machine or in a run. -/
inductive Event
  | resetting
  | romLoaded (size : Nat)
  /-- An opcode was fetched. The program counter is already past it, and the
  opcode has had no effect yet. -/
  | fetched (op : Opcode) (registers : Vector UInt8 16) (index pc : UInt16)
  | skipping (op : Opcode) (address : UInt16)
  | fileLoaded (size : Nat) (path : String)
  | frameTaken (cycles lit : Nat)
  | halting (pc : UInt16) (cycles : Nat) (fault : Fault)
  | ran (cycles : Nat)
  | skippedInRun (count : Nat) (last : Opcode)

namespace Event

/-- How severe an event is. -/
def level : Event → Level
  | .resetting => .debug
  | .romLoaded _ => .debug
  | .fetched .. => .trace
  | .skipping .. => .debug
  | .fileLoaded .. => .info
  | .frameTaken .. => .debug
  | .halting .. => .error
  | .ran _ => .info
  | .skippedInRun .. => .warn

/-- The values of the registers, each with two hexadecimal digits. -/
def registerList (registers : Vector UInt8 16) : String :=
  ", ".intercalate (registers.toList.map fun value => hexadecimal 2 value.toNat)

/-- The text that tells an event. -/
def message : Event → String
  | .resetting => "resetting"
  | .romLoaded size =>
    "loaded " ++ toString size ++ " byte rom at 0x" ++ hexadecimal 1 Memory.programStart
  | .fetched op registers index pc =>
    hexadecimal 4 op.toNat ++ " v[" ++ registerList registers ++ "] i" ++
      hexadecimal 4 index.toNat ++ " pc" ++ hexadecimal 4 pc.toNat
  | .skipping op address =>
    "skipping unimplemented opcode " ++ hexadecimal 4 op.toNat ++ " at " ++
      hexadecimal 4 address.toNat
  | .fileLoaded size path => "loaded " ++ toString size ++ " byte ROM from " ++ path
  | .frameTaken cycles lit =>
    "frame " ++ toString cycles ++ " has " ++ toString lit ++ " pixels lit"
  | .halting pc cycles fault =>
    "halting at pc " ++ hexadecimal 4 pc.toNat ++ " after " ++ toString cycles ++ " cycles: " ++
      fault.message
  | .ran cycles => "ran " ++ toString cycles ++ " cycles"
  | .skippedInRun count last =>
    "skipped " ++ toString count ++ " unimplemented opcodes, the last was " ++
      hexadecimal 4 last.toNat

/-- The line of a log that tells an event: its level and its text. -/
def line (event : Event) : String :=
  event.level.name ++ " " ++ event.message

end Event

/-- What there is to tell about a machine's next step: the opcode, if one can be
fetched, and then whether it has to be skipped. -/
def Machine.stepEvents (machine : Machine) : List Event :=
  match machine.state.fetch with
  | .ok op =>
    .fetched op machine.state.registers machine.state.index machine.state.passOpcode.pc ::
      if op.isImplemented then [] else [.skipping op machine.state.pc]
  | .error _ => []

/-- What there is to tell about an operation on a machine. -/
def Operation.events : Operation → Machine → List Event
  | .reset, _ => [.resetting]
  | .load bytes, _ =>
    if bytes.size ≤ Rom.maxSize then [.resetting, .romLoaded bytes.size] else []
  | .step, machine => machine.stepEvents
  | _, _ => []

end ChipEight
