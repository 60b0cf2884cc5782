import ChipEight.Proofs.Keyboard
import ChipEight.Run
import Mathlib.Data.List.Basic

/-! # The keys that a text holds down

A text whose characters are all mapped holds down the keys that these stand for, and no others
(`Keypad.holding_eq_ok_iff`). So it does not matter in which order they come, how often, and in
which case; a text made of two holds down the keys of both; and every choice of keys is held down
by some text (`Keypad.texts_hold_their_keys`).
-/

namespace ChipEight

namespace Key

/-- The character of each key on the keyboard, a letter in lower case. -/
def character (key : Key) : Char :=
  Vector.get #v['x', '1', '2', '3', 'q', 'w', 'e', 'a', 's', 'd', 'z', 'c', '4', 'r', 'f', 'v'] key

/-- The characters of the keys are in lower case. -/
theorem toLower_character (key : Key) : key.character.toLower = key.character := by
  revert key
  decide

/-- Every key has a character. -/
theorem ofChar?_character (key : Key) : ofChar? key.character = some key := by
  revert key
  decide

/-- The case of a character does not matter. -/
theorem ofChar?_eq_of_toLower_eq {first second : Char} (same : first.toLower = second.toLower) :
    ofChar? first = ofChar? second := by
  unfold ofChar?
  rw [same]

/-- A character stands for a key if it is the key's own, in either case. -/
theorem ofChar?_eq_some_iff {letter : Char} {key : Key} :
    ofChar? letter = some key ↔ letter.toLower = key.character := by
  constructor
  · intro stands
    unfold ofChar? at stands
    split at stands
    case h_17 => cases stands
    all_goals
      cases stands
      assumption
  · intro same
    have lower := same.trans key.toLower_character.symm
    exact (ofChar?_eq_of_toLower_eq lower).trans key.ofChar?_character

/-- A character is mapped in both cases or in none. -/
theorem IsMapped.of_toLower_eq {first second : Char} (mapped : IsMapped first)
    (same : first.toLower = second.toLower) : IsMapped second := by
  obtain ⟨key, stands⟩ := mapped
  exact ⟨key, (ofChar?_eq_of_toLower_eq same).symm.trans stands⟩

end Key

namespace Keypad

variable {keypad : Keypad} {text first second : String}

/-- Whether a character of a text stands for a key. -/
def Names (text : String) (key : Key) : Prop :=
  ∃ character ∈ text.toList, Key.ofChar? character = some key

/-- A joined text is mapped exactly if both of its parts are. -/
theorem maps_append : Maps (first ++ second) ↔ Maps first ∧ Maps second := by
  simp only [Maps, String.toList_append, List.forall_mem_append]

/-- A joined text names the keys that its parts name. -/
theorem names_append {key : Key} :
    Names (first ++ second) key ↔ Names first key ∨ Names second key := by
  simp only [Names, String.toList_append, List.mem_append, or_and_right, exists_or]

/-- The first character that is not mapped stays the first one. -/
theorem FirstUnmapped.append {character : Char} (unmapped : FirstUnmapped first character)
    (second : String) : FirstUnmapped (first ++ second) character := by
  obtain ⟨earlier, later, split, before, here⟩ := unmapped
  refine ⟨earlier, later ++ second.toList, ?_, before, here⟩
  rw [String.toList_append, split, List.append_assoc, List.cons_append]

/-- Every character of one text is found in another, be it in the other case. -/
def Recurs (first second : String) : Prop :=
  ∀ character ∈ first.toList, ∃ other ∈ second.toList, other.toLower = character.toLower

/-- A text is mapped if all of its characters recur in one that is. -/
theorem Maps.of_recurs (maps : Maps second) (recurs : Recurs first second) : Maps first := by
  intro character member
  obtain ⟨other, found, same⟩ := recurs character member
  exact (maps other found).of_toLower_eq same

/-- What a text names is named by a text in which its characters recur. -/
theorem Names.of_recurs {key : Key} (names : Names first key) (recurs : Recurs first second) :
    Names second key := by
  obtain ⟨character, member, stands⟩ := names
  obtain ⟨other, found, same⟩ := recurs character member
  exact ⟨other, found, (Key.ofChar?_eq_of_toLower_eq same).trans stands⟩

/-- The keys of the characters are held down on top of those that were before. -/
theorem isHeld_holdingAll {held : Keypad} {characters : List Char}
    (accepted : keypad.holdingAll characters = .ok held) (key : Key) :
    held.isHeld key = true ↔
      keypad.isHeld key = true ∨ ∃ character ∈ characters, Key.ofChar? character = some key := by
  induction characters generalizing keypad with
  | nil =>
      cases accepted
      simp only [List.not_mem_nil, false_and, exists_false, or_false]
  | cons character rest ih =>
      cases stands : Key.ofChar? character with
      | none =>
          rw [holdingAll, stands] at accepted
          cases accepted
      | some pressed =>
          rw [holdingAll, stands] at accepted
          rw [ih accepted, isHeld_put, List.exists_mem_cons_iff, stands, Option.some.injEq]
          by_cases same : pressed = key
          · simp only [same, ↓reduceIte, true_or, or_true]
          · simp only [same, ↓reduceIte, false_or]

/-- A text is accepted with a keypad exactly if it is mapped, and the keypad is the one on which
the keys that it names are held down. -/
theorem holding_eq_ok_iff :
    holding text = .ok keypad ↔ Maps text ∧ ∀ key, keypad.isHeld key = true ↔ Names text key := by
  have held {keypad : Keypad} (accepted : holding text = .ok keypad) (key : Key) :
      keypad.isHeld key = true ↔ Names text key := by
    rw [isHeld_holdingAll accepted, isHeld_released, Names]
    simp only [Bool.false_eq_true, false_or]
  constructor
  · intro accepted
    exact ⟨exists_holding_eq_ok_iff.mp ⟨keypad, accepted⟩, held accepted⟩
  · rintro ⟨maps, names⟩
    obtain ⟨other, accepted⟩ := exists_holding_eq_ok_iff.mpr maps
    have same : other = keypad := by
      apply eq_of_isHeld_eq
      intro key
      rw [Bool.eq_iff_iff, held accepted, names]
    rw [accepted, same]

/-- Texts of the same characters, up to their case, hold down the same keys. -/
theorem holding_of_recurs (accepted : holding first = .ok keypad) (there : Recurs first second)
    (back : Recurs second first) : holding second = .ok keypad := by
  obtain ⟨maps, names⟩ := holding_eq_ok_iff.mp accepted
  refine holding_eq_ok_iff.mpr ⟨maps.of_recurs back, fun key => (names key).trans ?_⟩
  exact ⟨fun named => named.of_recurs there, fun named => named.of_recurs back⟩

/-- A joined text holds the keys that its parts hold. -/
theorem exists_holding_append {firstKeypad secondKeypad : Keypad}
    (firstAccepted : holding first = .ok firstKeypad)
    (secondAccepted : holding second = .ok secondKeypad) :
    ∃ keypad, holding (first ++ second) = .ok keypad ∧
      ∀ key, keypad.isHeld key = (firstKeypad.isHeld key || secondKeypad.isHeld key) := by
  obtain ⟨firstMaps, firstNames⟩ := holding_eq_ok_iff.mp firstAccepted
  obtain ⟨secondMaps, secondNames⟩ := holding_eq_ok_iff.mp secondAccepted
  obtain ⟨keypad, accepted⟩ :=
    exists_holding_eq_ok_iff.mpr (maps_append.mpr ⟨firstMaps, secondMaps⟩)
  refine ⟨keypad, accepted, fun key => ?_⟩
  rw [Bool.eq_iff_iff, (holding_eq_ok_iff.mp accepted).2 key, names_append, Bool.or_eq_true,
    firstNames, secondNames]

/-- The characters of the keys that are held down. -/
def characters (keypad : Keypad) : String :=
  String.ofList (((List.finRange 16).filter keypad.isHeld).map Key.character)

/-- The characters of a keypad are those of the keys that are held down. -/
theorem mem_characters_iff {character : Char} :
    character ∈ keypad.characters.toList ↔
      ∃ key, keypad.isHeld key = true ∧ key.character = character := by
  simp only [characters, String.toList_ofList, List.mem_map, List.mem_filter, List.mem_finRange,
    true_and]

/-- Every keypad can be held by a text. -/
theorem holding_characters (keypad : Keypad) : holding keypad.characters = .ok keypad := by
  rw [holding_eq_ok_iff]
  constructor
  · intro character member
    obtain ⟨key, _, rfl⟩ := mem_characters_iff.mp member
    exact ⟨key, key.ofChar?_character⟩
  · intro key
    constructor
    · intro held
      exact ⟨_, mem_characters_iff.mpr ⟨key, held, rfl⟩, key.ofChar?_character⟩
    · rintro ⟨character, member, stands⟩
      obtain ⟨other, held, rfl⟩ := mem_characters_iff.mp member
      rw [other.ofChar?_character, Option.some.injEq] at stands
      rwa [← stands]

/-- **Texts hold the keys that they name.** A character stands for a key if it is the key's own,
in either case of ASCII. A text of such characters is accepted and holds down a key exactly if one
of them stands for it. Any other text is refused, for the first of its characters that stands for
no key and in words that quote it. Hence texts of the same characters, in whatever order, number
and case, hold down the same keys; a text made of two holds down the keys of both; every choice of
keys is held down by some text; and what is refused stays so, for the same character, whatever
comes after it. -/
theorem texts_hold_their_keys :
    (∀ (letter : Char) (key : Key),
      Key.ofChar? letter = some key ↔ letter.toLower = key.character) ∧
    (∀ text, Maps text → ∃ keypad, holding text = .ok keypad ∧
      ∀ key, keypad.isHeld key = true ↔
        ∃ character ∈ text.toList, Key.ofChar? character = some key) ∧
    (∀ text, ¬Maps text → ∃ character, FirstUnmapped text character ∧
      holding text = .error character ∧
      (Failure.unmappedKey character).chain =
        ["'" ++ String.singleton character ++ "' is not mapped to a key on the keypad"]) ∧
    (∀ (first second : String) (keypad : Keypad), holding first = .ok keypad →
      Recurs first second → Recurs second first → holding second = .ok keypad) ∧
    (∀ (first second : String) (firstKeypad secondKeypad : Keypad),
      holding first = .ok firstKeypad → holding second = .ok secondKeypad →
        ∃ keypad, holding (first ++ second) = .ok keypad ∧
          ∀ key, keypad.isHeld key = (firstKeypad.isHeld key || secondKeypad.isHeld key)) ∧
    (∀ keypad, ∃ text, holding text = .ok keypad) ∧
    ∀ (first second : String) (character : Char), holding first = .error character →
      holding (first ++ second) = .error character := by
  refine ⟨?letters, ?accepted, ?refused, ?recurring, ?joined, ?chosen, ?continued⟩
  case letters =>
    intro letter key
    exact Key.ofChar?_eq_some_iff
  case accepted =>
    intro text maps
    obtain ⟨keypad, accepted⟩ := exists_holding_eq_ok_iff.mpr maps
    exact ⟨keypad, accepted, (holding_eq_ok_iff.mp accepted).2⟩
  case refused =>
    intro text unmapped
    cases outcome : holding text with
    | ok keypad => exact absurd (exists_holding_eq_ok_iff.mp ⟨keypad, outcome⟩) unmapped
    | error character => exact ⟨character, holding_eq_error_iff.mp outcome, rfl, rfl⟩
  case recurring =>
    intro first second keypad accepted there back
    exact holding_of_recurs accepted there back
  case joined =>
    intro first second firstKeypad secondKeypad firstAccepted secondAccepted
    exact exists_holding_append firstAccepted secondAccepted
  case chosen =>
    intro keypad
    exact ⟨keypad.characters, keypad.holding_characters⟩
  case continued =>
    intro first second character refused
    exact holding_eq_error_iff.mpr ((holding_eq_error_iff.mp refused).append second)

/-- A text in both cases, the same keys in another order and some of them twice, a text with one
more key, and a text with characters that are not mapped. -/
theorem texts_hold_their_keys_in_both_cases :
    ∃ keypad, holding "1vX" = .ok keypad ∧
      keypad.isHeld 0x0 = true ∧ keypad.isHeld 0xF = true ∧ keypad.isHeld 0x4 = false ∧
      holding "xxV1v" = .ok keypad ∧
      (∃ joined, holding ("1vX" ++ "Qq") = .ok joined ∧ joined.isHeld 0x4 = true) ∧
      holding "qpé" = .error 'p' ∧
      holding ("qpé" ++ "5") = .error 'p' := by
  obtain ⟨_, accepted, refused, recurring, joined, _, continued⟩ := texts_hold_their_keys
  have maps : Maps "1vX" := exists_holding_eq_ok_iff.mp ⟨_, rfl⟩
  obtain ⟨keypad, holds, held⟩ := accepted "1vX" maps
  obtain ⟨both, holdsBoth, heldBoth⟩ := joined "1vX" "Qq" keypad _ holds rfl
  have unmapped : ¬Maps "qpé" := FirstUnmapped.not_maps (holding_eq_error_iff.mp rfl)
  obtain ⟨character, _, fails, _⟩ := refused "qpé" unmapped
  obtain rfl : 'p' = character := Except.error.inj fails
  refine ⟨keypad, holds, (held 0x0).mpr ⟨'X', by simp, rfl⟩, (held 0xF).mpr ⟨'v', by simp, rfl⟩,
    ?_, ?_, ?_, fails, continued "qpé" "5" 'p' fails⟩
  · rw [Bool.eq_false_iff, ne_eq, held]
    rintro ⟨character, member, stands⟩
    rw [Key.ofChar?_eq_some_iff] at stands
    replace member : character = '1' ∨ character = 'v' ∨ character = 'X' := by simpa using member
    rcases member with rfl | rfl | rfl
    all_goals exact absurd stands (by decide)
  · exact recurring "1vX" "xxV1v" keypad holds (by simp [Recurs]) (by simp [Recurs])
  · refine ⟨both, holdsBoth, (heldBoth 0x4).trans ?_⟩
    rw [Bool.or_eq_true]
    exact .inr rfl

end Keypad

end ChipEight
