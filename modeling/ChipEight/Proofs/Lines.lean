import ChipEight.Journal
import ChipEight.Proofs.Messages

/-! # Lines of a journal

An event can be read back off the line that tells it (`Event.ofLine?_line`), so the lines of a
journal say as much as its events do (`Journal.told_eq`). A line is recognized by its opening, as
no opening is the beginning of another one; what follows is read from the left, numeral by
numeral.
-/

namespace ChipEight

/-! ## Numerals in front of a text -/

section Numerals

/-- The number that the first characters of a text write in hexadecimal, and what stands behind
them. -/
def digits? (width : Nat) (text : List Char) : Option (Nat × List Char) :=
  (hexadecimal? (text.take width)).map (·, text.drop width)

/-- The bytes that a text starts with, each with two hexadecimal digits and with commas in between,
and what stands behind them. -/
def bytes? : Nat → List Char → Option (List UInt8 × List Char)
  | 0, text => some ([], text)
  | 1, text => (digits? 2 text).map fun (byte, text) => ([UInt8.ofNat byte], text)
  | count + 2, text => do
    let (byte, text) ← digits? 2 text
    let text ← behind? ", " text
    let (others, text) ← bytes? (count + 1) text
    return (UInt8.ofNat byte :: others, text)

/-- A value, if nothing is left of a text but what is expected. -/
def ends? {α : Type} (expected : List Char) (value : α) (text : List Char) : Option α :=
  if text = expected then some value else none

theorem ends?_self {α : Type} (expected : List Char) (value : α) :
    ends? expected value expected = some value :=
  if_pos rfl

/-- A number is read in front of any text, if it has no more digits than are read. -/
theorem digits?_append {width number : Nat} (positive : 0 < width) (fits : number < 16 ^ width)
    (text : List Char) :
    digits? width ((hexadecimal width number).toList ++ text) = some (number, text) := by
  have written := isHexadecimal_hexadecimal positive number
  rw [digits?, List.take_left' (written.filled fits), List.drop_left' (written.filled fits),
    written.value]
  rfl

/-- A decimal numeral is read in front of a blank. -/
theorem front?_toString (number : Nat) {text : List Char} (blank : text.head? = some ' ') :
    front? Arguments.number? ((toString number).toList ++ text) = some (number, text) :=
  front?_append (Arguments.number?_toString number) (blank_not_mem_toString number) (.inr blank)

theorem digits?_word (word : UInt16) (text : List Char) :
    digits? 4 ((hexadecimal 4 word.toNat).toList ++ text) = some (word.toNat, text) :=
  digits?_append (by decide) word.toNat_lt text

theorem digits?_opcode (op : Opcode) (text : List Char) :
    digits? 4 ((hexadecimal 4 op.toNat).toList ++ text) = some (op.toNat, text) :=
  digits?_word op.word text

theorem Opcode.ofNat_toNat (op : Opcode) : (⟨UInt16.ofNat op.toNat⟩ : Opcode) = op :=
  congrArg Opcode.mk UInt16.ofNat_toNat

theorem digits?_byte (byte : UInt8) (text : List Char) :
    digits? 2 ((hexadecimal 2 byte.toNat).toList ++ text) = some (byte.toNat, text) :=
  digits?_append (by decide) byte.toNat_lt text

/-- A list of bytes is read back. -/
theorem bytes?_append (values : List UInt8) (text : List Char) :
    bytes? values.length
      ((", ".intercalate (values.map fun value => hexadecimal 2 value.toNat)).toList ++ text) =
        some (values, text) := by
  induction values with
  | nil => rfl
  | cons value others ih =>
      cases others with
      | nil =>
          simp only [List.map_cons, List.map_nil, String.intercalate_singleton, List.length_cons,
            List.length_nil, bytes?, digits?_byte, Option.map_some, UInt8.ofNat_toNat]
      | cons next others =>
          rw [List.map_cons, List.map_cons, String.intercalate_cons_cons, String.toList_append,
            String.toList_append, List.append_assoc, List.append_assoc]
          rw [List.map_cons, List.length_cons] at ih
          simp only [List.length_cons, bytes?, digits?_byte, behind?_append, Option.bind_eq_bind,
            Option.bind_some, UInt8.ofNat_toNat, ih]
          rfl

end Numerals

/-! ## Openings -/

section Openings

variable {α : Type}

/-- Whether neither of two words is the beginning of the other. -/
def Apart (first second : String) : Prop :=
  ¬first.toList <+: second.toList ∧ ¬second.toList <+: first.toList

instance (first second : String) : Decidable (Apart first second) :=
  inferInstanceAs (Decidable (_ ∧ _))

/-- A text that starts with one opening does not start with another one. -/
theorem behind?_of_apart {opening words : String} (apart : Apart words opening)
    (text : List Char) : behind? words (opening.toList ++ text) = none := by
  rw [behind?, Option.eq_none_iff_forall_ne_some]
  intro rest found
  obtain ⟨start, split, same⟩ := List.dropPrefix?_eq_some_iff.mp found
  have both : words.toList <+: opening.toList ++ text := ⟨rest, eq_of_beq same ▸ split.symm⟩
  exact (List.prefix_or_prefix_of_prefix both (List.prefix_append _ _)).elim apart.1 apart.2

/-- What is read off a text by the one form whose opening the text starts with. -/
def readForm (forms : List (String × (List Char → Option α))) (text : List Char) : Option α :=
  (forms.findSome? fun form => (behind? form.1 text).map form.2).join

/-- Where no opening is the beginning of another one, a text is read by the form that it starts
with. -/
theorem readForm_append {forms : List (String × (List Char → Option α))}
    (apart : forms.Pairwise fun first second => Apart first.1 second.1) {opening : String}
    {read : List Char → Option α} (member : (opening, read) ∈ forms) (text : List Char) :
    readForm forms (opening.toList ++ text) = read text := by
  unfold readForm
  induction apart with
  | nil => cases member
  | cons other _ ih =>
      rcases List.mem_cons.mp member with rfl | later
      · rw [List.findSome?_cons, behind?_append]
        rfl
      · rw [List.findSome?_cons, behind?_of_apart (other _ later)]
        exact ih later

end Openings

namespace Event

/-- Reads the size of a program that was loaded into a machine. -/
def readRomLoaded? (text : List Char) : Option Event := do
  let (size, text) ← front? Arguments.number? text
  ends? " byte rom at 0x200".toList (.romLoaded size) text

/-- Reads the opcode that was fetched, the registers, the index register and the program
counter. -/
def readFetched? (text : List Char) : Option Event := do
  let (op, text) ← digits? 4 text
  let text ← behind? " v[" text
  let (values, text) ← bytes? 16 text
  let text ← behind? "] i" text
  let (index, text) ← digits? 4 text
  let text ← behind? " pc" text
  let (pc, text) ← digits? 4 text
  if size : values.toArray.size = 16 then
    ends? [] (.fetched ⟨UInt16.ofNat op⟩ ⟨values.toArray, size⟩ (UInt16.ofNat index)
      (UInt16.ofNat pc)) text
  else none

/-- Reads the opcode that is skipped and its address. -/
def readSkipping? (text : List Char) : Option Event := do
  let (op, text) ← digits? 4 text
  let text ← behind? " at " text
  let (address, text) ← digits? 4 text
  ends? [] (.skipping ⟨UInt16.ofNat op⟩ (UInt16.ofNat address)) text

/-- Reads the size of a file and its path. -/
def readFileLoaded? (text : List Char) : Option Event := do
  let (size, text) ← front? Arguments.number? text
  let path ← behind? " byte ROM from " text
  return .fileLoaded size (String.ofList path)

/-- Reads after how many cycles a frame was taken and how many of its pixels were lit. -/
def readFrameTaken? (text : List Char) : Option Event := do
  let (cycles, text) ← front? Arguments.number? text
  let text ← behind? " has " text
  let (lit, text) ← front? Arguments.number? text
  ends? " pixels lit".toList (.frameTaken cycles lit) text

/-- Reads where a machine has halted, after how many cycles and why. -/
def readHalting? (text : List Char) : Option Event := do
  let (pc, text) ← digits? 4 text
  let text ← behind? " after " text
  let (cycles, text) ← front? Arguments.number? text
  let text ← behind? " cycles: " text
  let fault ← Fault.ofMessage? (String.ofList text)
  return .halting (UInt16.ofNat pc) cycles fault

/-- Reads how many cycles a run has made. -/
def readRan? (text : List Char) : Option Event := do
  let (cycles, text) ← front? Arguments.number? text
  ends? " cycles".toList (.ran cycles) text

/-- Reads how many opcodes were skipped and which one was the last. -/
def readSkippedInRun? (text : List Char) : Option Event := do
  let (count, text) ← front? Arguments.number? text
  let text ← behind? " unimplemented opcodes, the last was " text
  let (last, text) ← digits? 4 text
  ends? [] (.skippedInRun count ⟨UInt16.ofNat last⟩) text

/-- How the lines open, and how the rest of each of them is read. -/
def forms : List (String × (List Char → Option Event)) :=
  [("DEBUG resetting", ends? [] .resetting),
    ("DEBUG loaded ", readRomLoaded?),
    ("TRACE ", readFetched?),
    ("DEBUG skipping unimplemented opcode ", readSkipping?),
    ("INFO loaded ", readFileLoaded?),
    ("DEBUG frame ", readFrameTaken?),
    ("ERROR halting at pc ", readHalting?),
    ("INFO ran ", readRan?),
    ("WARN skipped ", readSkippedInRun?)]

/-- Reads an event off the line that tells it. -/
def ofLine? (line : String) : Option Event :=
  readForm forms line.toList

/-- No opening of a line is the beginning of another one. -/
theorem forms_apart : forms.Pairwise fun first second => Apart first.1 second.1 := by
  decide

/-! ## Lines -/

/-- A line is read by the form of its opening. -/
theorem ofLine?_append {opening : String} {read : List Char → Option Event}
    (member : (opening, read) ∈ forms) (text : String) :
    ofLine? (opening ++ text) = read text.toList := by
  rw [ofLine?, String.toList_append]
  exact readForm_append forms_apart member text.toList

section Reading

variable (size cycles lit count : Nat) (path : String) (op last : Opcode)
  (registers : Vector UInt8 16) (index pc address : UInt16) (fault : Fault)

theorem line_romLoaded :
    (romLoaded size).line = "DEBUG loaded " ++ (toString size ++ " byte rom at 0x200") := by
  have line : (romLoaded size).line =
      "DEBUG" ++ " " ++ ("loaded " ++ toString size ++ " byte rom at 0x" ++ "200") := rfl
  rw [line]
  simp only [String.append_assoc, String.reduceAppend]
  simp only [← String.append_assoc, String.reduceAppend]

/-- The line about a program in the machine is read back. -/
theorem ofLine?_romLoaded : ofLine? (romLoaded size).line = some (romLoaded size) := by
  have member : ("DEBUG loaded ", readRomLoaded?) ∈ forms := by simp [forms]
  have sized : front? Arguments.number?
      ((toString size).toList ++ " byte rom at 0x200".toList) = _ := front?_toString size rfl
  rw [line_romLoaded, ofLine?_append member]
  simp only [readRomLoaded?, String.toList_append, sized, Option.bind_eq_bind, Option.bind_some,
    ends?_self]

theorem line_fetched :
    (fetched op registers index pc).line =
      "TRACE " ++ (hexadecimal 4 op.toNat ++ (" v[" ++ (registerList registers ++ ("] i" ++
        (hexadecimal 4 index.toNat ++ (" pc" ++ hexadecimal 4 pc.toNat)))))) := by
  have line : (fetched op registers index pc).line =
      "TRACE" ++ " " ++ (hexadecimal 4 op.toNat ++ " v[" ++ registerList registers ++ "] i" ++
        hexadecimal 4 index.toNat ++ " pc" ++ hexadecimal 4 pc.toNat) := rfl
  have opening : "TRACE" ++ " " = "TRACE " := rfl
  rw [line, opening]
  simp only [String.append_assoc]

/-- The registers are read back. -/
theorem bytes?_registerList (text : List Char) :
    bytes? 16 ((registerList registers).toList ++ text) = some (registers.toList, text) := by
  have read := bytes?_append registers.toList text
  rwa [Vector.length_toList] at read

theorem digits?_last (word : UInt16) :
    digits? 4 (hexadecimal 4 word.toNat).toList = some (word.toNat, []) := by
  have read := digits?_word word []
  rwa [List.append_nil] at read

/-- The line of a trace is read back with all registers. -/
theorem ofLine?_fetched :
    ofLine? (fetched op registers index pc).line = some (fetched op registers index pc) := by
  have member : ("TRACE ", readFetched?) ∈ forms := by simp [forms]
  rw [line_fetched, ofLine?_append member]
  simp only [readFetched?, String.toList_append, digits?_opcode, behind?_append,
    bytes?_registerList, digits?_word, digits?_last, Option.bind_eq_bind, Option.bind_some,
    ends?_self, UInt16.ofNat_toNat, Opcode.ofNat_toNat, Vector.toList, Array.toArray_toList,
    Vector.size_toArray, ↓reduceDIte, Vector.mk_toArray]

theorem line_skipping :
    (skipping op address).line =
      "DEBUG skipping unimplemented opcode " ++
        (hexadecimal 4 op.toNat ++ (" at " ++ hexadecimal 4 address.toNat)) := by
  have line : (skipping op address).line =
      "DEBUG" ++ " " ++ ("skipping unimplemented opcode " ++ hexadecimal 4 op.toNat ++ " at " ++
        hexadecimal 4 address.toNat) := rfl
  rw [line]
  simp only [← String.append_assoc, String.reduceAppend]

/-- The line about a skipped opcode is read back with its address. -/
theorem ofLine?_skipping : ofLine? (skipping op address).line = some (skipping op address) := by
  have member : ("DEBUG skipping unimplemented opcode ", readSkipping?) ∈ forms := by simp [forms]
  rw [line_skipping, ofLine?_append member]
  simp only [readSkipping?, String.toList_append, digits?_opcode, behind?_append, digits?_last,
    Option.bind_eq_bind, Option.bind_some, ends?_self, UInt16.ofNat_toNat, Opcode.ofNat_toNat]

theorem line_fileLoaded :
    (fileLoaded size path).line =
      "INFO loaded " ++ (toString size ++ (" byte ROM from " ++ path)) := by
  have line : (fileLoaded size path).line =
      "INFO" ++ " " ++ ("loaded " ++ toString size ++ " byte ROM from " ++ path) := rfl
  rw [line]
  simp only [← String.append_assoc, String.reduceAppend]

/-- The line about a file is read back, whatever its path. -/
theorem ofLine?_fileLoaded :
    ofLine? (fileLoaded size path).line = some (fileLoaded size path) := by
  have member : ("INFO loaded ", readFileLoaded?) ∈ forms := by simp [forms]
  have sized : front? Arguments.number?
      ((toString size).toList ++ (" byte ROM from ".toList ++ path.toList)) = _ :=
    front?_toString size rfl
  rw [line_fileLoaded, ofLine?_append member]
  simp only [readFileLoaded?, String.toList_append, sized, behind?_append, Option.bind_eq_bind,
    Option.bind_some, String.ofList_toList]
  rfl

theorem line_frameTaken :
    (frameTaken cycles lit).line =
      "DEBUG frame " ++ (toString cycles ++ (" has " ++ (toString lit ++ " pixels lit"))) := by
  have line : (frameTaken cycles lit).line =
      "DEBUG" ++ " " ++ ("frame " ++ toString cycles ++ " has " ++ toString lit ++ " pixels lit") :=
    rfl
  rw [line]
  simp only [← String.append_assoc, String.reduceAppend]

/-- The line about a frame is read back with both of its numbers. -/
theorem ofLine?_frameTaken :
    ofLine? (frameTaken cycles lit).line = some (frameTaken cycles lit) := by
  have member : ("DEBUG frame ", readFrameTaken?) ∈ forms := by simp [forms]
  have made : front? Arguments.number? ((toString cycles).toList ++ (" has ".toList ++ _)) =
      some (cycles, " has ".toList ++ ((toString lit).toList ++ " pixels lit".toList)) :=
    front?_toString cycles rfl
  have shown : front? Arguments.number? ((toString lit).toList ++ " pixels lit".toList) = _ :=
    front?_toString lit rfl
  rw [line_frameTaken, ofLine?_append member]
  simp only [readFrameTaken?, String.toList_append, made, shown, behind?_append,
    Option.bind_eq_bind, Option.bind_some, ends?_self]

theorem line_halting :
    (halting pc cycles fault).line =
      "ERROR halting at pc " ++ (hexadecimal 4 pc.toNat ++ (" after " ++ (toString cycles ++
        (" cycles: " ++ fault.message)))) := by
  generalize told : fault.message = message
  have line : (halting pc cycles fault).line =
      "ERROR" ++ " " ++ ("halting at pc " ++ hexadecimal 4 pc.toNat ++ " after " ++
        toString cycles ++ " cycles: " ++ message) := told ▸ rfl
  rw [line]
  simp only [← String.append_assoc, String.reduceAppend]

/-- The line about a machine that halts is read back with its fault. -/
theorem ofLine?_halting :
    ofLine? (halting pc cycles fault).line = some (halting pc cycles fault) := by
  have member : ("ERROR halting at pc ", readHalting?) ∈ forms := by simp [forms]
  have read := fault.ofMessage?_message
  rw [line_halting, ofLine?_append member]
  generalize fault.message = message at read ⊢
  have made : front? Arguments.number?
      ((toString cycles).toList ++ (" cycles: ".toList ++ message.toList)) = _ :=
    front?_toString cycles rfl
  simp only [readHalting?, String.toList_append, digits?_word, made, behind?_append,
    String.ofList_toList, read, Option.bind_eq_bind, Option.bind_some, UInt16.ofNat_toNat]
  rfl

theorem line_ran : (ran cycles).line = "INFO ran " ++ (toString cycles ++ " cycles") := by
  have line : (ran cycles).line = "INFO" ++ " " ++ ("ran " ++ toString cycles ++ " cycles") := rfl
  rw [line]
  simp only [← String.append_assoc, String.reduceAppend]

/-- The line about the cycles of a run is read back. -/
theorem ofLine?_ran : ofLine? (ran cycles).line = some (ran cycles) := by
  have member : ("INFO ran ", readRan?) ∈ forms := by simp [forms]
  have made : front? Arguments.number? ((toString cycles).toList ++ " cycles".toList) = _ :=
    front?_toString cycles rfl
  rw [line_ran, ofLine?_append member]
  simp only [readRan?, String.toList_append, made, Option.bind_eq_bind, Option.bind_some,
    ends?_self]

theorem line_skippedInRun :
    (skippedInRun count last).line =
      "WARN skipped " ++ (toString count ++ (" unimplemented opcodes, the last was " ++
        hexadecimal 4 last.toNat)) := by
  have line : (skippedInRun count last).line =
      "WARN" ++ " " ++ ("skipped " ++ toString count ++ " unimplemented opcodes, the last was " ++
        hexadecimal 4 last.toNat) := rfl
  rw [line]
  simp only [← String.append_assoc, String.reduceAppend]

/-- The warning is read back with its count and the last opcode. -/
theorem ofLine?_skippedInRun :
    ofLine? (skippedInRun count last).line = some (skippedInRun count last) := by
  have member : ("WARN skipped ", readSkippedInRun?) ∈ forms := by simp [forms]
  have counted : front? Arguments.number? ((toString count).toList ++
      (" unimplemented opcodes, the last was ".toList ++ (hexadecimal 4 last.toNat).toList)) = _ :=
    front?_toString count rfl
  have named : digits? 4 (hexadecimal 4 last.toNat).toList = some (last.toNat, []) :=
    digits?_last last.word
  rw [line_skippedInRun, ofLine?_append member]
  simp only [readSkippedInRun?, String.toList_append, counted, behind?_append, named,
    Option.bind_eq_bind, Option.bind_some, ends?_self, Opcode.ofNat_toNat]

end Reading

/-- What an event was is read back off its line. -/
theorem ofLine?_line (event : Event) : ofLine? event.line = some event := by
  cases event with
  | resetting => rfl
  | romLoaded size => exact ofLine?_romLoaded size
  | fetched op registers index pc => exact ofLine?_fetched op registers index pc
  | skipping op address => exact ofLine?_skipping op address
  | fileLoaded size path => exact ofLine?_fileLoaded size path
  | frameTaken cycles lit => exact ofLine?_frameTaken cycles lit
  | halting pc cycles fault => exact ofLine?_halting cycles pc fault
  | ran cycles => exact ofLine?_ran cycles
  | skippedInRun count last => exact ofLine?_skippedInRun count last

end Event

namespace Journal

/-- The events that the lines of a journal tell. -/
def told (journal : Journal) : List Event :=
  journal.lines.filterMap Event.ofLine?

/-- The lines of a journal tell its events. -/
theorem told_eq (journal : Journal) : journal.told = journal.events.toList := by
  have legible : Event.ofLine? ∘ Event.line = some := funext Event.ofLine?_line
  rw [told, lines, List.filterMap_map, legible, List.filterMap_some]

end Journal

end ChipEight
