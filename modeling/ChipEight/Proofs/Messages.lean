import ChipEight.Fault
import ChipEight.Proofs.Numerals
import Mathlib.Algebra.GroupWithZero.Nat
import Mathlib.Data.List.Basic

/-! # Messages of faults

A fault can be read back off its message (`Fault.ofMessage?`), so that two faults have the same
message only if they are the same. What has to be shown for this is that hexadecimal numerals are
read as the numbers that they were written for, whatever width they were filled up to
(`isHexadecimal_hexadecimal`).
-/

namespace ChipEight

/-! ## Hexadecimal numerals -/

/-- The sixteen digits in their order, with letters in upper case. -/
def hexAlphabet : List Char :=
  "0123456789ABCDEF".toList

/-- The number with one more digit at its end. -/
def appendHex? (number : Nat) (digit : Char) : Option Nat :=
  (hexAlphabet.idxOf? digit).map (16 * number + ·)

/-- The number that upper-case hexadecimal digits stand for, at least one. -/
def hexadecimal? (digits : List Char) : Option Nat :=
  if digits = [] then none else digits.foldlM appendHex? 0

/-- Digits write a number in hexadecimal, with `width` of them if it has no more, and else without
a zero in front. -/
structure IsHexadecimal (width number : Nat) (digits : List Char) : Prop where
  upper : ∀ digit ∈ digits, digit ∈ hexAlphabet
  value : hexadecimal? digits = some number
  filled : number < 16 ^ width → digits.length = width
  unfilled : 16 ^ width ≤ number → digits.head? ≠ some '0'

section Hexadecimal

variable {width number digit : Nat}

/-- A digit is found at its own place in the alphabet. -/
theorem idxOf?_hexAlphabet (low : digit < 16) :
    hexAlphabet.idxOf? digit.digitChar.toUpper = some digit := by
  decide +revert

theorem hexDigits_of_lt (low : digit < 16) : hexDigits digit = [digit.digitChar.toUpper] := by
  rw [hexDigits, Nat.toDigits_of_lt_base low, List.map_singleton]

/-- The lowest digit comes last. -/
theorem hexDigits_append (positive : 0 < number) (low : digit < 16) :
    hexDigits (16 * number + digit) = hexDigits number ++ [digit.digitChar.toUpper] := by
  rw [← hexDigits_of_lt low]
  simp only [hexDigits, ← Nat.toDigits_append_toDigits (b := 16) (by decide) positive low,
    List.map_append]

theorem hexDigits_ne_nil (number : Nat) : hexDigits number ≠ [] :=
  mt List.map_eq_nil_iff.mp Nat.toDigits_ne_nil

/-- A number has few digits exactly if it is small. -/
theorem length_hexDigits_le_iff (positive : 0 < width) :
    (hexDigits number).length ≤ width ↔ number < 16 ^ width := by
  rw [hexDigits, List.length_map, Nat.length_toDigits_le_iff (by decide) positive]

theorem mem_hexAlphabet {letter : Char} (own : letter ∈ hexDigits number) :
    letter ∈ hexAlphabet := by
  have known {digit : Nat} (low : digit < 16) : digit.digitChar.toUpper ∈ hexAlphabet := by
    decide +revert
  induction number using Nat.base_induction 16 (by decide) with
  | single digit low =>
      rw [hexDigits_of_lt low, List.mem_singleton] at own
      exact own ▸ known low
  | digit number digit low positive ih =>
      rw [hexDigits_append positive low, List.mem_append, List.mem_singleton] at own
      rcases own with earlier | rfl
      · exact ih earlier
      · exact known low

/-- The digits of a number are read as this number. -/
theorem foldlM_hexDigits (number : Nat) : (hexDigits number).foldlM appendHex? 0 = some number := by
  induction number using Nat.base_induction 16 (by decide) with
  | single digit low =>
      simp [hexDigits_of_lt low, appendHex?, idxOf?_hexAlphabet low]
  | digit number digit low positive ih =>
      simp [hexDigits_append positive low, ih, appendHex?, idxOf?_hexAlphabet low]

theorem foldlM_replicate_zero (zeros : Nat) :
    (List.replicate zeros '0').foldlM appendHex? 0 = some 0 := by
  induction zeros with
  | zero => rfl
  | succ zeros ih => exact ih

/-- The digits of a number that is not zero have no zero in front. -/
theorem head?_hexDigits (positive : 0 < number) : (hexDigits number).head? ≠ some '0' := by
  induction number using Nat.base_induction 16 (by decide) with
  | single digit low =>
      rw [hexDigits_of_lt low, List.head?_cons]
      decide +revert
  | digit number digit low large ih =>
      rw [hexDigits_append large low, List.head?_append_of_ne_nil _ (hexDigits_ne_nil number)]
      exact ih large

/-- A hexadecimal numeral writes its number. -/
theorem isHexadecimal_hexadecimal (positive : 0 < width) (number : Nat) :
    IsHexadecimal width number (hexadecimal width number).toList := by
  rw [toList_hexadecimal]
  refine ⟨?upper, ?value, ?filled, ?unfilled⟩
  case upper =>
    intro digit member
    rcases List.mem_append.mp member with fill | own
    · rw [List.eq_of_mem_replicate fill]
      decide
    · exact mem_hexAlphabet own
  case value =>
    have some := List.append_ne_nil_of_right_ne_nil
      (List.replicate (width - (hexDigits number).length) '0') (hexDigits_ne_nil number)
    rw [hexadecimal?, if_neg some, List.foldlM_append, foldlM_replicate_zero]
    exact foldlM_hexDigits number
  case filled =>
    intro fits
    have short := (length_hexDigits_le_iff positive).mpr fits
    rw [List.length_append, List.length_replicate]
    omega
  case unfilled =>
    intro large
    have long := mt (length_hexDigits_le_iff positive).mp (Nat.not_lt.mpr large)
    have none : width - (hexDigits number).length = 0 := by omega
    rw [none, List.replicate_zero, List.nil_append]
    exact head?_hexDigits (Nat.lt_of_lt_of_le (Nat.pow_pos (by decide)) large)

end Hexadecimal

/-! ## Numbers between words -/

section Reading

variable {kind : List Char → Option Nat} {before after : String} {number : Nat}

/-- What stands behind some words, if a text starts with them. -/
def behind? (words : String) (text : List Char) : Option (List Char) :=
  text.dropPrefix? words.toList

/-- The number in front of a text, up to a blank, and what stands behind it. -/
def front? (kind : List Char → Option Nat) (text : List Char) : Option (Nat × List Char) :=
  (kind (text.takeWhile (· ≠ ' '))).map (·, text.dropWhile (· ≠ ' '))

/-- The number between some words that a text starts with and some that it ends with. -/
def between? (kind : List Char → Option Nat) (before after : String) (text : List Char) :
    Option Nat := do
  let text ← behind? before text
  let (number, text) ← front? kind text
  if text = after.toList then some number else none

/-- Words are found in front of any text. -/
theorem behind?_append (words : String) (text : List Char) :
    behind? words (words.toList ++ text) = some text :=
  List.dropPrefix?_append_of_beq text BEq.rfl

/-- Words that differ in their first characters are told apart by these. -/
theorem behind?_append_of_ne {words others : String} (first second : Char)
    (starts : words.toList.head? = some first) (other : others.toList.head? = some second)
    (unequal : second ≠ first) (text : List Char) :
    behind? words (others.toList ++ text) = none := by
  obtain ⟨_, starts⟩ := List.head?_eq_some_iff.mp starts
  obtain ⟨_, other⟩ := List.head?_eq_some_iff.mp other
  rw [behind?, starts, other, List.cons_append, List.dropPrefix?, if_neg]
  simpa using unequal

/-- A number is read up to the blank behind it. -/
theorem front?_append {digits text : List Char} (value : kind digits = some number)
    (unbroken : ' ' ∉ digits) (apart : text = [] ∨ text.head? = some ' ') :
    front? kind (digits ++ text) = some (number, text) := by
  have whole : ∀ digit ∈ digits, decide (digit ≠ ' ') = true := by
    intro digit member
    exact decide_eq_true (ne_of_mem_of_not_mem member unbroken)
  rw [front?, List.takeWhile_append_of_pos whole, List.dropWhile_append_of_pos whole]
  rcases apart with rfl | blank
  · rw [List.takeWhile_nil, List.dropWhile_nil, List.append_nil, value]
    rfl
  · obtain ⟨rest, rfl⟩ := List.head?_eq_some_iff.mp blank
    rw [List.takeWhile_cons_of_neg (by decide), List.dropWhile_cons_of_neg (by decide),
      List.append_nil, value]
    rfl

/-- A number is read between the words around it. -/
theorem between?_append {digits : List Char} (value : kind digits = some number)
    (unbroken : ' ' ∉ digits) (apart : after.toList = [] ∨ after.toList.head? = some ' ') :
    between? kind before after (before.toList ++ (digits ++ after.toList)) = some number := by
  simp only [between?, behind?_append, front?_append value unbroken apart,
    Option.bind_eq_bind, Option.bind_some, if_true]

theorem between?_eq_none {text : List Char} (other : behind? before text = none) :
    between? kind before after text = none := by
  rw [between?, other]
  rfl

end Reading

theorem isDigit_of_mem_toString {number : Nat} {digit : Char}
    (member : digit ∈ (toString number).toList) : digit.isDigit = true := by
  rw [Nat.toString_eq_repr, Nat.toList_repr] at member
  exact Nat.isDigit_of_mem_toDigits (by decide) (by decide) member

/-- There is no blank in a decimal numeral. -/
theorem blank_not_mem_toString (number : Nat) : ' ' ∉ (toString number).toList :=
  fun member => absurd (isDigit_of_mem_toString member) (by decide)

namespace Fault

/-! ## Reading messages -/

/-- The size and the limit that are named in a text. -/
def sizes? (before middle after : String) (text : List Char) : Option (Nat × Nat) := do
  let text ← behind? before text
  let (size, text) ← front? Arguments.number? text
  let limit ← between? Arguments.number? middle after text
  return (size, limit)

/-- Reads a fault off its message. -/
def ofMessage? (message : String) : Option Fault :=
  (sizes? "ROM is too large (" " bytes), max size is " " bytes" message.toList).map
      (fun (size, limit) => romTooLarge size limit) <|>
    (between? hexadecimal? "memory access out of bounds at address 0x" "" message.toList).map
      outOfBounds <|>
    (between? hexadecimal? "key 0x" " is not on the keypad (expected 0x0..0xF)"
      message.toList).bind fun key =>
        if key < UInt8.size then some (invalidKey (UInt8.ofNat key)) else none

theorem sizes?_append {before middle after : String} (size limit : Nat)
    (apart : middle.toList.head? = some ' ') (closing : after.toList.head? = some ' ') :
    sizes? before middle after (before.toList ++ ((toString size).toList ++
        (middle.toList ++ ((toString limit).toList ++ after.toList)))) = some (size, limit) := by
  have opens : (middle.toList ++ ((toString limit).toList ++ after.toList)).head? = some ' ' := by
    rw [List.head?_append, apart]
    rfl
  have first := front?_append (Arguments.number?_toString size) (blank_not_mem_toString size)
    (.inr opens)
  have second : between? Arguments.number? middle after _ = some limit :=
    between?_append (Arguments.number?_toString limit) (blank_not_mem_toString limit)
      (.inr closing)
  simp only [sizes?, behind?_append, Option.bind_eq_bind, Option.bind_some, first, second]
  rfl

theorem sizes?_eq_none {before middle after : String} {text : List Char}
    (other : behind? before text = none) : sizes? before middle after text = none := by
  rw [sizes?, other]
  rfl

/-- A hexadecimal number is read between the words around it. -/
theorem between?_hexadecimal {before after : String} {width : Nat} (positive : 0 < width)
    (number : Nat) (apart : after.toList = [] ∨ after.toList.head? = some ' ') :
    between? hexadecimal? before after
      (before.toList ++ ((hexadecimal width number).toList ++ after.toList)) = some number := by
  have written := isHexadecimal_hexadecimal positive number
  have unbroken : ' ' ∉ (hexadecimal width number).toList := fun member =>
    absurd (written.upper ' ' member) (by decide)
  exact between?_append written.value unbroken apart

/-- The message about a program that is too large is read back. -/
theorem ofMessage?_romTooLarge (size limit : Nat) :
    ofMessage? (romTooLarge size limit).message = some (romTooLarge size limit) := by
  have join (first second third fourth fifth : String) :
      (first ++ second ++ third ++ fourth ++ fifth).toList = first.toList ++
        (second.toList ++ (third.toList ++ (fourth.toList ++ fifth.toList))) := by
    simp only [String.toList_append, List.append_assoc]
  have text : (romTooLarge size limit).message.toList = _ := join _ _ _ _ _
  have sizes : sizes? "ROM is too large (" " bytes), max size is " " bytes" _ =
      some (size, limit) := sizes?_append size limit (by simp) (by simp)
  rw [ofMessage?, text, sizes]
  rfl

/-- The message about an address out of bounds is read back. -/
theorem ofMessage?_outOfBounds (address : Nat) :
    ofMessage? (outOfBounds address).message = some (outOfBounds address) := by
  have join (first second : String) :
      (first ++ second).toList = first.toList ++ (second.toList ++ "".toList) := by
    simp only [String.toList_append, String.toList_empty, List.append_nil]
  have text : (outOfBounds address).message.toList = _ := join _ _
  have unsized text : sizes? "ROM is too large (" " bytes), max size is " " bytes"
      ("memory access out of bounds at address 0x".toList ++ text) = none :=
    sizes?_eq_none (behind?_append_of_ne 'R' 'm' (by simp) (by simp) (by decide) _)
  have written : between? hexadecimal? "memory access out of bounds at address 0x" "" _ =
      some address := between?_hexadecimal (show 0 < 3 by decide) address (.inl (by simp))
  rw [ofMessage?, text, unsized, written]
  rfl

/-- The message about a key that is not there is read back. -/
theorem ofMessage?_invalidKey (key : UInt8) :
    ofMessage? (invalidKey key).message = some (invalidKey key) := by
  have join (first second third : String) :
      (first ++ second ++ third).toList = first.toList ++ (second.toList ++ third.toList) := by
    simp only [String.toList_append, List.append_assoc]
  have text : (invalidKey key).message.toList = _ := join _ _ _
  have unsized text : sizes? "ROM is too large (" " bytes), max size is " " bytes"
      ("key 0x".toList ++ text) = none :=
    sizes?_eq_none (behind?_append_of_ne 'R' 'k' (by simp) (by simp) (by decide) _)
  have unaddressed text : between? hexadecimal? "memory access out of bounds at address 0x" ""
      ("key 0x".toList ++ text) = none :=
    between?_eq_none (behind?_append_of_ne 'm' 'k' (by simp) (by simp) (by decide) _)
  have written : between? hexadecimal? "key 0x" " is not on the keypad (expected 0x0..0xF)" _ =
      some key.toNat := between?_hexadecimal (show 0 < 2 by decide) key.toNat (.inr (by simp))
  rw [ofMessage?, text, unsized, unaddressed, written, Option.bind_some, if_pos key.toNat_lt,
    UInt8.ofNat_toNat]
  rfl

/-- What a fault was is read back off its message. -/
theorem ofMessage?_message (fault : Fault) : ofMessage? fault.message = some fault := by
  cases fault with
  | romTooLarge size limit => exact ofMessage?_romTooLarge size limit
  | outOfBounds address => exact ofMessage?_outOfBounds address
  | invalidKey key => exact ofMessage?_invalidKey key

/-- A message is one line. -/
theorem newline_not_mem_message (fault : Fault) : '\n' ∉ fault.message.toList := by
  have decimal (number : Nat) : '\n' ∉ (toString number).toList := fun member =>
    absurd (isDigit_of_mem_toString member) (by decide)
  have hexadecimal {width : Nat} (positive : 0 < width) (number : Nat) :
      '\n' ∉ (hexadecimal width number).toList := fun member =>
    absurd ((isHexadecimal_hexadecimal positive number).upper '\n' member) (by decide)
  have join {first second : String} (head : '\n' ∉ first.toList) (tail : '\n' ∉ second.toList) :
      '\n' ∉ (first ++ second).toList := by
    rw [String.toList_append, List.mem_append]
    exact not_or.mpr ⟨head, tail⟩
  cases fault with
  | romTooLarge size limit =>
      exact join (join (join (join (by decide) (decimal size)) (by decide)) (decimal limit))
        (by decide)
  | outOfBounds address => exact join (by decide) (hexadecimal (by decide) address)
  | invalidKey key => exact join (join (by decide) (hexadecimal (by decide) _)) (by decide)

/-- The message of a fault says all about it. The fault can be read back off the message, so that
faults with the same message are the same. The sizes of a program stand there in decimal. The
address stands there in upper-case hexadecimal, with three digits, or with as many as it has if
these are more, and the key with two digits. -/
theorem messages_lose_nothing :
    (∀ fault : Fault, ofMessage? fault.message = some fault) ∧
    (∀ first second : Fault, first.message = second.message ↔ first = second) ∧
    (∀ size limit : Nat, ∃ sizeDigits limitDigits : String,
      (romTooLarge size limit).message =
        "ROM is too large (" ++ sizeDigits ++ " bytes), max size is " ++ limitDigits ++ " bytes" ∧
      (∀ digit ∈ (sizeDigits ++ limitDigits).toList, digit.isDigit = true) ∧
      Arguments.number? sizeDigits.toList = some size ∧
      Arguments.number? limitDigits.toList = some limit) ∧
    (∀ address : Nat, ∃ digits : String,
      (outOfBounds address).message = "memory access out of bounds at address 0x" ++ digits ∧
      IsHexadecimal 3 address digits.toList) ∧
    ∀ key : UInt8, ∃ digits : String,
      (invalidKey key).message =
        "key 0x" ++ digits ++ " is not on the keypad (expected 0x0..0xF)" ∧
      IsHexadecimal 2 key.toNat digits.toList ∧ digits.length = 2 := by
  refine ⟨ofMessage?_message, ?same, ?sizes, ?address, ?key⟩
  case same =>
    intro first second
    constructor
    · intro same
      have read := ofMessage?_message first
      rw [same, ofMessage?_message second] at read
      exact (Option.some.inj read).symm
    · rintro rfl
      rfl
  case sizes =>
    intro size limit
    refine ⟨toString size, toString limit, rfl, ?_, Arguments.number?_toString size,
      Arguments.number?_toString limit⟩
    intro digit member
    rw [String.toList_append, List.mem_append] at member
    exact member.elim isDigit_of_mem_toString isDigit_of_mem_toString
  case address =>
    intro address
    exact ⟨hexadecimal 3 address, rfl, isHexadecimal_hexadecimal (by decide) address⟩
  case key =>
    intro key
    have written : IsHexadecimal 2 key.toNat _ := isHexadecimal_hexadecimal (by decide) key.toNat
    exact ⟨hexadecimal 2 key.toNat, rfl, written, written.filled key.toNat_lt⟩

end Fault

end ChipEight
