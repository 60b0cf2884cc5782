import ChipEight.Keypad

/-! # Texts of keys to hold

A text of keys to hold is accepted if every character of it stands for a key
(`Keypad.exists_holding_eq_ok_iff`). Otherwise it is refused for the first character that does
not, whatever comes after it (`Keypad.holding_eq_error_iff`).
-/

namespace ChipEight

namespace Key

/-- A character is mapped if it stands for a key. -/
def IsMapped (character : Char) : Prop :=
  ∃ key, ofChar? character = some key

/-- A character has a key exactly if it is mapped. -/
theorem isSome_ofChar?_iff {character : Char} :
    (ofChar? character).isSome = true ↔ IsMapped character :=
  Option.isSome_iff_exists

end Key

namespace Keypad

/-- A text is mapped if all of its characters are. -/
def Maps (text : String) : Prop :=
  ∀ character ∈ text.toList, Key.IsMapped character

/-- The first character of a text that is not mapped. -/
def FirstUnmapped (text : String) (character : Char) : Prop :=
  ∃ earlier later, text.toList = earlier ++ character :: later ∧
    (∀ other ∈ earlier, Key.IsMapped other) ∧ ¬Key.IsMapped character

/-- A text with a character that is not mapped is not mapped. -/
theorem FirstUnmapped.not_maps {text : String} {character : Char}
    (first : FirstUnmapped text character) : ¬Maps text := by
  obtain ⟨earlier, later, split, _, unmapped⟩ := first
  intro maps
  refine unmapped (maps character ?_)
  rw [split]
  exact List.mem_append_right earlier List.mem_cons_self

section Characters

variable {keypad : Keypad} {characters : List Char}

/-- Keys are held down exactly if all characters have one. -/
theorem exists_holdingAll_eq_ok_iff :
    (∃ held, keypad.holdingAll characters = .ok held) ↔
      ∀ character ∈ characters, Key.IsMapped character := by
  induction characters generalizing keypad with
  | nil => exact iff_of_true ⟨keypad, rfl⟩ nofun
  | cons character rest ih =>
      rw [List.forall_mem_cons]
      cases mapped : Key.ofChar? character with
      | some key =>
          simp only [holdingAll, mapped, ih, Key.IsMapped, Option.some.injEq, exists_eq', true_and]
      | none =>
          simp only [holdingAll, mapped, Key.IsMapped, reduceCtorEq, exists_false, false_and]

/-- The character that is refused is the first one without a key. -/
theorem holdingAll_eq_error_iff {character : Char} :
    keypad.holdingAll characters = .error character ↔
      (characters.find? fun other => !(Key.ofChar? other).isSome) = some character := by
  induction characters generalizing keypad with
  | nil => exact iff_of_false nofun nofun
  | cons head rest ih =>
      cases mapped : Key.ofChar? head with
      | some key =>
          simp only [holdingAll, mapped, List.find?_cons, Option.isSome_some, Bool.not_true, ih]
      | none =>
          simp only [holdingAll, mapped, List.find?_cons, Option.isSome_none, Bool.not_false,
            Except.error.injEq, Option.some.injEq]

end Characters

/-- A text is accepted exactly if it is mapped. -/
theorem exists_holding_eq_ok_iff {text : String} : (∃ held, holding text = .ok held) ↔ Maps text :=
  exists_holdingAll_eq_ok_iff

/-- A text is refused with its first character that is not mapped. -/
theorem holding_eq_error_iff {text : String} {character : Char} :
    holding text = .error character ↔ FirstUnmapped text character := by
  rw [holding, holdingAll_eq_error_iff, List.find?_eq_some_iff_append]
  simp only [Bool.not_not, Bool.not_eq_true', ← Bool.not_eq_true, Key.isSome_ofChar?_iff]
  constructor
  · rintro ⟨unmapped, earlier, later, split, before⟩
    exact ⟨earlier, later, split, before, unmapped⟩
  · rintro ⟨earlier, later, split, before, unmapped⟩
    exact ⟨unmapped, earlier, later, split, before⟩

end Keypad

end ChipEight
