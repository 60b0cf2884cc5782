import ChipEight.Fault

/-! # The keypad

The machine has sixteen keys. On a keyboard they are the block of four by four
keys below the digits one to four:

    1 2 3 C      1 2 3 4
    4 5 6 D      q w e r
    7 8 9 E      a s d f
    A 0 B F      z x c v
-/

namespace ChipEight

/-- The number of keys. -/
def Keypad.size : Nat := 16

/-- One of the sixteen keys. -/
abbrev Key := Fin 16

namespace Key

/-- The key of a number, if it is on the keypad. -/
def ofByte (key : UInt8) : Except Fault Key :=
  if bound : key.toNat < Keypad.size then .ok ⟨key.toNat, bound⟩ else .error (.invalidKey key)

/-- The key that a character of the keyboard stands for. ASCII letters stand for
the same key in either case. -/
def ofChar? (character : Char) : Option Key :=
  match character.toLower with
  | '1' => some 0x1
  | '2' => some 0x2
  | '3' => some 0x3
  | '4' => some 0xC
  | 'q' => some 0x4
  | 'w' => some 0x5
  | 'e' => some 0x6
  | 'r' => some 0xD
  | 'a' => some 0x7
  | 's' => some 0x8
  | 'd' => some 0x9
  | 'f' => some 0xE
  | 'z' => some 0xA
  | 'x' => some 0x0
  | 'c' => some 0xB
  | 'v' => some 0xF
  | _ => none

end Key

/-- Which keys are held down. -/
@[ext]
structure Keypad where
  held : Vector Bool 16

namespace Keypad

/-- The keypad with no key held down. -/
def released : Keypad :=
  ⟨Vector.replicate 16 false⟩

/-- Whether a key is held down. -/
def isHeld (keypad : Keypad) (key : Key) : Bool :=
  keypad.held[key]

/-- The keypad with one key put down or let go. -/
def put (keypad : Keypad) (key : Key) (held : Bool) : Keypad :=
  ⟨keypad.held.set key held⟩

/-- The keypad with the keys of some characters held down as well, or the first
character that is not on the keypad. -/
def holdingAll (keypad : Keypad) : List Char → Except Char Keypad
  | [] => .ok keypad
  | character :: rest =>
    match Key.ofChar? character with
    | some key => (keypad.put key true).holdingAll rest
    | none => .error character

/-- The keypad on which exactly the keys of a text's characters are held down, or
the first character that is not on the keypad. -/
def holding (text : String) : Except Char Keypad :=
  released.holdingAll text.toList

@[simp] theorem isHeld_released (key : Key) : released.isHeld key = false := by
  simp only [isHeld, released, Fin.getElem_fin, Vector.getElem_replicate]

/-- A key that is put changes itself and no other one. -/
theorem isHeld_put (keypad : Keypad) (key other : Key) (held : Bool) :
    (keypad.put key held).isHeld other = if key = other then held else keypad.isHeld other := by
  simp only [isHeld, put, Fin.getElem_fin, Vector.getElem_set, Fin.ext_iff]

/-- A keypad is known by the keys that are held down on it. -/
theorem eq_of_isHeld_eq {first second : Keypad}
    (same : ∀ key, first.isHeld key = second.isHeld key) : first = second :=
  Keypad.ext (Vector.ext fun number inside => same ⟨number, inside⟩)

end Keypad

end ChipEight
