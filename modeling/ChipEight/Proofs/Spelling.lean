import ChipEight.Arguments
import Mathlib.Data.List.Basic
import Mathlib.Data.List.TakeWhile

/-! # Spellings of items

An argument gives items in one of a few forms (`Arguments.Gives`): a path, a long name, a long
name with a value attached to it, or a row of letters. A list of arguments spells the items that
its arguments give, each with the value behind it if it still wants one, and after two dashes only
paths (`Arguments.Spells`). An argument that is of none of these forms asks about the program, or
is malformed (`Arguments.gives_or_asks_or_malformed`).
-/

namespace ChipEight

/-- No flag has a dash for its letter. -/
theorem Flag.letter_ne_dash (flag : Flag) : flag.letter ≠ '-' := by
  cases flag <;> decide

namespace Arguments

/-- A text that is not taken for an option: it does not start with a dash, unless it is nothing
but a dash. -/
def IsPlain (text : String) : Prop :=
  text = "-" ∨ text.toList.head? ≠ some '-'

/-- The letters of some flags behind a dash. -/
def row (flags : List Flag) : String :=
  "-" ++ String.ofList (flags.map Flag.letter)

/-- What one argument gives, and the option whose value is still to follow, if there is one. -/
inductive Gives : String → List Item → Option Setting → Prop
  | path {text : String} (plain : IsPlain text) : Gives text [.path text] none
  | flag (flag : Flag) : Gives ("--" ++ flag.name) [.flag flag] none
  | setting (setting : Setting) : Gives ("--" ++ setting.name) [] (some setting)
  | attached (setting : Setting) (value : String) :
      Gives ("--" ++ setting.name ++ "=" ++ value) [.setting setting value] none
  | row {flags : List Flag} (nonempty : flags ≠ []) : Gives (row flags) (flags.map .flag) none
  /-- The letter of an option that takes a value ends a row. What stands behind it is its value. -/
  | letter (flags : List Flag) {setting : Setting} {letter : Char}
      (lettered : setting.letter? = some letter) :
      Gives (row flags ++ String.singleton letter) (flags.map .flag) (some setting)
  | letterAttached (flags : List Flag) {setting : Setting} {letter : Char}
      (lettered : setting.letter? = some letter) (value : String) :
      Gives (row flags ++ String.singleton letter ++ "=" ++ value)
        (flags.map .flag ++ [.setting setting value]) none
  | letterDirect (flags : List Flag) {setting : Setting} {letter : Char}
      (lettered : setting.letter? = some letter) {value : String} (nonempty : value ≠ "")
      (unequal : value.toList.head? ≠ some '=') :
      Gives (row flags ++ String.singleton letter ++ value)
        (flags.map .flag ++ [.setting setting value]) none

/-- The items that a list of arguments spells, in the order in which they are given. -/
inductive Spells : List Item → List String → Prop
  | none : Spells [] []
  | argument {argument : String} {items others : List Item} {arguments : List String}
      (gives : Gives argument items none) (rest : Spells others arguments) :
      Spells (items ++ others) (argument :: arguments)
  | value {argument value : String} {setting : Setting} {items others : List Item}
      {arguments : List String} (gives : Gives argument items (some setting))
      (plain : IsPlain value) (rest : Spells others arguments) :
      Spells (items ++ .setting setting value :: others) (argument :: value :: arguments)
  /-- Behind two dashes every argument is a path. -/
  | ended (paths : List String) : Spells (paths.map .path) ("--" :: paths)

/-- An argument asks a question about the program, be it in a row of letters. -/
inductive Asks (inquiry : Inquiry) : String → Prop
  | name : Asks inquiry ("--" ++ inquiry.name)
  | letter (flags : List Flag) (rest : String) :
      Asks inquiry (row flags ++ String.singleton inquiry.letter ++ rest)

/-- A question about the program is among the arguments, in front of two dashes if these are
there. -/
def HasInquiry (arguments : List String) : Prop :=
  ∃ argument ∈ arguments.takeWhile (· ≠ "--"), ∃ inquiry, Asks inquiry argument

/-- An argument that starts like an option and is none. -/
inductive Malformed : String → Prop
  /-- A name is not abbreviated: the beginning of one is not declared. -/
  | name {name : String} (nonempty : name ≠ "") (unequal : '=' ∉ name.toList)
      (unset : ∀ setting : Setting, name ≠ setting.name)
      (unflagged : ∀ flag : Flag, name ≠ flag.name)
      (unasked : ∀ inquiry : Inquiry, name ≠ inquiry.name) : Malformed ("--" ++ name)
  /-- A value is attached to a name that is not that of an option with a value. -/
  | attached {name : String} (value : String) (unequal : '=' ∉ name.toList)
      (unset : ∀ setting : Setting, name ≠ setting.name) :
      Malformed ("--" ++ name ++ "=" ++ value)
  /-- A letter is not declared. A dash is none, unless it is the second of two in front. -/
  | letter (flags : List Flag) {letter : Char} (rest : String)
      (unset : ∀ setting : Setting, setting.letter? ≠ some letter)
      (unflagged : ∀ flag : Flag, letter ≠ flag.letter)
      (unasked : ∀ inquiry : Inquiry, letter ≠ inquiry.letter)
      (single : letter ≠ '-' ∨ flags ≠ []) :
      Malformed (row flags ++ String.singleton letter ++ rest)

variable {argument : String} {items : List Item} {wanting : Option Setting}

/-! ## Characters of arguments -/

/-- A text is plain if it has no dash in front of something. -/
theorem isPlain_iff {text : String} :
    IsPlain text ↔ ∀ (letter : Char) (rest : List Char), text.toList ≠ '-' :: letter :: rest := by
  have dash : text = "-" ↔ text.toList = ['-'] := String.toList_inj.symm
  rw [IsPlain, dash]
  cases text.toList with
  | nil => simp
  | cons first rest =>
      cases rest with
      | nil => simp [em]
      | cons second others => simp

/-- An argument with a long name starts with two dashes. -/
theorem toList_long (name : String) : ("--" ++ name).toList = '-' :: '-' :: name.toList :=
  String.toList_append

/-- An attached value stands behind an equals sign. -/
theorem toList_attached (name value : String) :
    ("--" ++ name ++ "=" ++ value).toList =
      '-' :: '-' :: (name.toList ++ '=' :: value.toList) := by
  rw [String.append_assoc, String.append_assoc, toList_long, String.toList_append,
    String.toList_append]
  rfl

/-- A row of letters starts with one dash. -/
theorem toList_row (flags : List Flag) : (row flags).toList = '-' :: flags.map Flag.letter := by
  rw [row, String.toList_append, String.toList_ofList, String.toList_ofList]
  rfl

/-- A row of letters with another letter behind those of flags. -/
theorem toList_letter (flags : List Flag) (letter : Char) (rest : String) :
    (row flags ++ String.singleton letter ++ rest).toList =
      '-' :: (flags.map Flag.letter ++ letter :: rest.toList) := by
  rw [String.append_assoc, String.toList_append, String.toList_append, toList_row,
    String.toList_singleton]
  rfl

theorem row_nil : row [] = "-" :=
  rfl

/-- The first letter of a row stands right behind the dash. -/
theorem row_cons (flag : Flag) (flags : List Flag) :
    row (flag :: flags) =
      "-" ++ String.singleton flag.letter ++ String.ofList (flags.map Flag.letter) := by
  rw [row, List.map_cons, String.ofList_cons, String.append_assoc]

/-- The last letter of a row stands at its end. -/
theorem row_concat (flags : List Flag) (flag : Flag) :
    row (flags ++ [flag]) = row flags ++ String.singleton flag.letter := by
  rw [← String.toList_inj, String.toList_append, toList_row, toList_row, List.map_append,
    String.toList_singleton]
  rfl

/-! ## Kinds of arguments -/

/-- Letters are those of some flags, and of none behind these. -/
theorem exists_flags (letters : List Char) :
    ∃ (flags : List Flag) (rest : List Char), letters = flags.map Flag.letter ++ rest ∧
      ∀ flag : Flag, rest.head? ≠ some flag.letter := by
  induction letters with
  | nil => exact ⟨[], [], rfl, fun flag => (Option.some_ne_none flag.letter).symm⟩
  | cons letter others ih =>
      by_cases flagged : ∃ flag : Flag, letter = flag.letter
      · obtain ⟨flag, rfl⟩ := flagged
        obtain ⟨flags, rest, rfl, unflagged⟩ := ih
        exact ⟨flag :: flags, rest, rfl, unflagged⟩
      · refine ⟨[], letter :: others, rfl, fun flag same => flagged ⟨flag, ?_⟩⟩
        exact Option.some.inj same

/-- An argument is put together again from the letters of flags, another one and the rest. -/
theorem eq_letter {flags : List Flag} {letter : Char} {rest : List Char}
    (shape : argument.toList = '-' :: (flags.map Flag.letter ++ letter :: rest)) :
    argument = row flags ++ String.singleton letter ++ String.ofList rest := by
  rw [← String.toList_inj, shape, toList_letter, String.toList_ofList]

/-- The letter of an option behind those of flags, with anything behind it. -/
theorem exists_gives_letter {flags : List Flag} {letter : Char} {rest : List Char}
    {setting : Setting} (lettered : setting.letter? = some letter)
    (shape : argument.toList = '-' :: (flags.map Flag.letter ++ letter :: rest)) :
    ∃ items wanting, Gives argument items wanting := by
  rw [eq_letter shape]
  cases rest with
  | nil =>
      rw [show String.ofList [] = "" from rfl, String.append_empty]
      exact ⟨_, _, .letter flags lettered⟩
  | cons first value =>
      by_cases equal : first = '='
      · have split : String.ofList (first :: value) = "=" ++ String.ofList value := by
          rw [equal, String.ofList_cons]
          rfl
        rw [split, ← String.append_assoc]
        exact ⟨_, _, .letterAttached flags lettered _⟩
      · refine ⟨_, _, .letterDirect flags lettered ?_ ?_⟩
        · simp
        · simpa using equal

/-- An argument that starts with one dash only, with something behind it. -/
theorem kind_of_short {first : Char} {others : List Char} (single : first ≠ '-')
    (shape : argument.toList = '-' :: first :: others) :
    (∃ items wanting, Gives argument items wanting) ∨ (∃ inquiry, Asks inquiry argument) ∨
      Malformed argument := by
  obtain ⟨flags, rest, letters, unflagged⟩ := exists_flags (first :: others)
  rw [letters] at shape
  cases rest with
  | nil =>
      have whole : argument = row flags := by
        rw [← String.toList_inj, shape, toList_row, List.append_nil]
      have nonempty : flags ≠ [] := by
        rintro rfl
        cases letters
      rw [whole]
      exact .inl ⟨_, _, .row nonempty⟩
  | cons letter rest =>
      by_cases lettered : ∃ setting : Setting, setting.letter? = some letter
      · obtain ⟨setting, lettered⟩ := lettered
        exact .inl (exists_gives_letter lettered shape)
      · refine .inr ?_
        rw [eq_letter shape]
        by_cases asked : ∃ inquiry : Inquiry, letter = inquiry.letter
        · obtain ⟨inquiry, rfl⟩ := asked
          exact .inl ⟨inquiry, .letter flags _⟩
        · refine .inr (.letter flags _ (not_exists.mp lettered) ?_ (not_exists.mp asked) ?_)
          · exact fun flag same => unflagged flag (congrArg some same)
          · by_cases nonempty : flags = []
            · subst nonempty
              cases letters
              exact .inl single
            · exact .inr nonempty

/-- An argument that starts with two dashes, with something behind them. -/
theorem kind_of_long {text : List Char} (nonempty : text ≠ [])
    (shape : argument.toList = '-' :: '-' :: text) :
    (∃ items wanting, Gives argument items wanting) ∨ (∃ inquiry, Asks inquiry argument) ∨
      Malformed argument := by
  -- The name goes up to the first equals sign.
  have split := List.takeWhile_append_dropWhile (p := (· != '=')) (l := text)
  have head := List.head?_dropWhile_not (· != '=') text
  have unequal : '=' ∉ (String.ofList (text.takeWhile (· != '='))).toList := by
    rw [String.toList_ofList]
    exact fun member => absurd (List.mem_takeWhile_imp member) (by decide)
  generalize written : String.ofList (text.takeWhile (· != '=')) = name at unequal
  rw [← String.toList_ofList (l := text.takeWhile (· != '=')), written] at split
  generalize text.dropWhile (· != '=') = rest at split head
  cases rest with
  | nil =>
      have whole : argument = "--" ++ name := by
        rw [← String.toList_inj, shape, toList_long, ← split, List.append_nil]
      have named : name ≠ "" := by
        rintro rfl
        exact nonempty split.symm
      rw [whole]
      by_cases set : ∃ setting : Setting, name = setting.name
      · obtain ⟨setting, rfl⟩ := set
        exact .inl ⟨_, _, .setting setting⟩
      by_cases flagged : ∃ flag : Flag, name = flag.name
      · obtain ⟨flag, rfl⟩ := flagged
        exact .inl ⟨_, _, .flag flag⟩
      by_cases asked : ∃ inquiry : Inquiry, name = inquiry.name
      · obtain ⟨inquiry, rfl⟩ := asked
        exact .inr (.inl ⟨inquiry, .name⟩)
      exact .inr (.inr
        (.name named unequal (not_exists.mp set) (not_exists.mp flagged) (not_exists.mp asked)))
  | cons first value =>
      obtain rfl : first = '=' := by simpa using head
      have whole : argument = "--" ++ name ++ "=" ++ String.ofList value := by
        rw [← String.toList_inj, shape, toList_attached, String.toList_ofList, split]
      rw [whole]
      by_cases set : ∃ setting : Setting, name = setting.name
      · obtain ⟨setting, rfl⟩ := set
        exact .inl ⟨_, _, .attached setting _⟩
      · exact .inr (.inr (.attached _ unequal (not_exists.mp set)))

/-- Every argument but two dashes gives something, asks about the program or is malformed. -/
theorem gives_or_asks_or_malformed (undashed : argument ≠ "--") :
    (∃ items wanting, Gives argument items wanting) ∨ (∃ inquiry, Asks inquiry argument) ∨
      Malformed argument := by
  by_cases plain : IsPlain argument
  · exact .inl ⟨_, _, .path plain⟩
  · simp only [isPlain_iff, not_forall, not_not] at plain
    obtain ⟨letter, rest, shape⟩ := plain
    by_cases double : letter = '-'
    · subst double
      refine kind_of_long ?_ shape
      rintro rfl
      exact undashed (String.toList_inj.mp shape)
    · exact kind_of_short double shape

/-! ## Lists of arguments -/

/-- A question is asked by the first argument or by the others. -/
theorem hasInquiry_cons (undashed : argument ≠ "--") {arguments : List String} :
    HasInquiry (argument :: arguments) ↔
      (∃ inquiry, Asks inquiry argument) ∨ HasInquiry arguments := by
  rw [HasInquiry, List.takeWhile_cons_of_pos (by simpa using undashed), List.exists_mem_cons_iff]
  rfl

/-- Two dashes are not plain. -/
theorem IsPlain.ne_dashes (plain : IsPlain argument) : argument ≠ "--" := by
  rintro rfl
  exact isPlain_iff.mp plain '-' [] rfl

/-- Items that can be given one by one can be spelled, with any paths behind them. -/
theorem exists_spells (each : ∀ item ∈ items, ∃ argument, Gives argument [item] none)
    (paths : List String) : ∃ arguments, Spells (items ++ paths.map .path) arguments := by
  induction items with
  | nil => exact ⟨_, .ended paths⟩
  | cons item others ih =>
      obtain ⟨⟨argument, gives⟩, rest⟩ := List.forall_mem_cons.mp each
      obtain ⟨arguments, spells⟩ := ih rest
      have both : Spells ([item] ++ (others ++ paths.map .path)) (argument :: arguments) :=
        .argument gives spells
      exact ⟨_, both⟩

end Arguments

end ChipEight
