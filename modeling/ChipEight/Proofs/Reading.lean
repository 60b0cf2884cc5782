import ChipEight.Reader
import ChipEight.Proofs.Rules
import Mathlib.Data.List.Nodup

/-! # The reader at hand

The reader of arguments that the executable comes with follows the rules that are relied on
(`Arguments.followsRules_parse`). It reads the items that arguments spell, and what it gathers of
them does not depend on their order.
-/

namespace ChipEight

/-! ## What items change -/

namespace Item

/-- The changes that right items make. -/
inductive Changes : Item → (Options → Options) → Prop
  | path {text : String} (some : text ≠ "") :
      Changes (.path text) fun options => { options with path := text }
  | rate (text : String) (rate : Rate) :
      Changes (.setting .hertz text) fun options => { options with rate := rate }
  | limit (text : String) (limit : UInt64) :
      Changes (.setting .cycles text) fun options => { options with limit := some limit }
  | hold (text : String) :
      Changes (.setting .hold text) fun options => { options with hold := text }
  | fast : Changes (.flag .fast) fun options => { options with fast := true }
  | dump : Changes (.flag .dump) fun options => { options with dump := true }

variable {item other : Item} {change another : Options → Options}

/-- A right item makes one of the changes. -/
theorem changes_of_change? (right : item.change? = some change) : Changes item change := by
  cases item with
  | path text =>
      obtain ⟨some, rfl⟩ : text ≠ "" ∧ _ = change := by simpa [change?] using right
      exact .path some
  | setting option text =>
      cases option with
      | hertz =>
          obtain ⟨rate, _, rfl⟩ := Option.map_eq_some_iff.mp right
          exact .rate text rate
      | cycles =>
          obtain ⟨limit, _, rfl⟩ := Option.map_eq_some_iff.mp right
          exact .limit text limit
      | hold =>
          cases right
          exact .hold text
  | flag option =>
      cases option with
      | fast =>
          cases right
          exact .fast
      | dump =>
          cases right
          exact .dump

/-- Changes of different things do not depend on their order. -/
theorem Changes.comm (first : Changes item change) (second : Changes other another)
    (different : item.place ≠ other.place) (options : Options) :
    change (another options) = another (change options) := by
  cases first <;> cases second <;> first | rfl | exact absurd rfl different

/-- Only a path changes the path. -/
theorem Changes.path_eq (changes : Changes item change) (pathless : item.place ≠ .path)
    (options : Options) : (change options).path = options.path := by
  cases changes with
  | path => exact absurd rfl pathless
  | _ => rfl

theorem Changes.path_ne_empty (changes : Changes item change) {options : Options}
    (some : options.path ≠ "") : (change options).path ≠ "" := by
  cases changes <;> assumption

end Item

namespace Arguments

/-! ## What is gathered -/

variable {items others : List Item} {item : Item} {options result : Options}

theorem give?_eq_some_iff :
    give? options item = some result ↔
      ∃ change, item.change? = some change ∧ change options = result :=
  Option.map_eq_some_iff

/-- Items for different things can be given in either order. -/
theorem give?_comm {other : Item} (different : item.place ≠ other.place) (options : Options) :
    ((give? options item).bind fun next => give? next other) =
      (give? options other).bind fun next => give? next item := by
  unfold give?
  cases right : item.change? with
  | none => cases other.change? <;> rfl
  | some change =>
      cases correct : other.change? with
      | none => rfl
      | some another =>
          have first := Item.changes_of_change? right
          have second := Item.changes_of_change? correct
          exact congrArg some (second.comm first different.symm options)

theorem foldlM_give?_perm (same : items.Perm others) (distinct : (items.map Item.place).Nodup)
    (options : Options) : items.foldlM give? options = others.foldlM give? options := by
  induction same generalizing options with
  | nil => rfl
  | cons item _ ih =>
      rw [List.map_cons, List.nodup_cons] at distinct
      simp only [List.foldlM_cons, ih distinct.2]
  | swap first second others =>
      have different : second.place ≠ first.place := by
        rw [List.map_cons, List.map_cons, List.nodup_cons] at distinct
        exact fun same => distinct.1 (same ▸ List.mem_cons_self)
      have swapped := give?_comm different options
      simp only [List.foldlM_cons, Option.bind_eq_bind, ← Option.bind_assoc, swapped]
  | trans same _ ih₁ ih₂ =>
      rw [ih₁ distinct, ih₂ ((same.map Item.place).nodup_iff.mp distinct)]

/-- What is gathered of items does not depend on their order. -/
theorem gather?_perm (same : items.Perm others) : gather? items = gather? others := by
  have places := (same.map Item.place).nodup_iff
  unfold gather?
  by_cases distinct : (items.map Item.place).Nodup
  · rw [if_pos distinct, if_pos (places.mp distinct), foldlM_give?_perm same distinct]
  · rw [if_neg distinct, if_neg (mt places.mpr distinct)]

/-- One more item changes what it is for. -/
theorem gather?_cons (fresh : item.place ∉ items.map Item.place) :
    gather? (item :: items) = (gather? items).bind fun options => give? options item := by
  rw [gather?_perm (List.perm_append_singleton item items).symm, gather?, gather?, List.map_append,
    List.foldlM_append]
  have places : (items.map Item.place ++ [item].map Item.place).Nodup ↔
      (items.map Item.place).Nodup := by
    rw [List.nodup_append_comm, List.map_singleton, List.singleton_append, List.nodup_cons]
    exact and_iff_right fresh
  simp only [places]
  split <;> simp

/-- Nothing is gathered of items if one of them is wrong. -/
theorem gather?_of_wrong (member : item ∈ items) (wrong : item.change? = none) :
    gather? items = none := by
  obtain ⟨before, after, rfl⟩ := List.append_of_mem member
  rw [gather?_perm List.perm_middle, gather?, List.foldlM_cons, give?, wrong]
  exact ite_self none

/-- Without a path among the items the path stays as it is. -/
theorem path_of_foldlM_give? (pathless : .path ∉ items.map Item.place)
    (gathered : items.foldlM give? options = some result) : result.path = options.path := by
  induction items generalizing options with
  | nil =>
      cases gathered
      rfl
  | cons item others ih =>
      rw [List.map_cons, List.mem_cons, not_or] at pathless
      rw [List.foldlM_cons] at gathered
      obtain ⟨next, gives, gathered⟩ := Option.bind_eq_some_iff.mp gathered
      obtain ⟨change, right, rfl⟩ := give?_eq_some_iff.mp gives
      rw [ih pathless.2 gathered]
      exact (Item.changes_of_change? right).path_eq (Ne.symm pathless.1) options

/-! ## How arguments are read -/

variable {argument : String} {wanting : Option Setting} {setting : Setting}
  {rest arguments : List String} {paths : List String}

/-- What is read behind an argument. -/
def readOn : Onward → List String → List Item × Ending
  | .argument, arguments => read arguments
  | .value setting, arguments => readFrom (some setting) arguments
  | .nothing ending, _ => ([], ending)

/-- An argument is read first, and then what comes behind it. -/
theorem read_cons (undashed : argument ≠ "--") :
    read (argument :: arguments) =
      ((readArgument argument).1 ++ (readOn (readArgument argument).2 arguments).1,
        (readOn (readArgument argument).2 arguments).2) := by
  rw [read, readFrom, if_neg undashed]
  split
  all_goals
    next same =>
      rw [same]
      simp [readOn, read]

theorem read_dashes : read ("--" :: paths) = (paths.map .path, .complete) := by
  rw [read, readFrom, if_pos rfl]

/-- A text can be a value if it is plain. -/
theorem isValue_eq_true_iff {text : String} : isValue text = true ↔ IsPlain text := by
  rw [isPlain_iff, isValue]
  split
  next letter rest shape => simp [shape]
  next other => simpa using other

theorem readArgument_long {text : List Char} (shape : argument.toList = '-' :: '-' :: text) :
    readArgument argument = readLong text := by
  rw [readArgument, shape]
  rfl

theorem readArgument_short {letter : Char} {letters : List Char} (undashed : letter ≠ '-')
    (shape : argument.toList = '-' :: letter :: letters) :
    readArgument argument = readShort (letter :: letters) := by
  unfold readArgument
  split
  next text other =>
    cases shape.symm.trans other
    exact absurd rfl undashed
  next other =>
    cases shape.symm.trans other
    rfl
  next other => exact absurd shape (other _ _)

theorem readArgument_plain (plain : IsPlain argument) :
    readArgument argument = ([.path argument], .argument) := by
  rw [isPlain_iff] at plain
  unfold readArgument
  split
  next text shape => exact absurd shape (plain _ _)
  next letter rest _ shape => exact absurd shape (plain _ _)
  next => rfl

theorem readLong_attached (setting : Setting) (value : List Char) :
    readLong (setting.name.toList ++ '=' :: value) =
      ([.setting setting (String.ofList value)], .argument) := by
  cases setting <;> rfl

theorem readLong_flag (flag : Flag) : readLong flag.name.toList = ([.flag flag], .argument) := by
  cases flag <;> rfl

theorem readLong_setting (setting : Setting) :
    readLong setting.name.toList = ([], .value setting) := by
  cases setting <;> rfl

/-- The letters of flags are read one by one, and then the rest of the row. -/
theorem readShort_flags (flags : List Flag) (letters : List Char) :
    readShort (flags.map Flag.letter ++ letters) =
      (flags.map .flag ++ (readShort letters).1, (readShort letters).2) := by
  induction flags with
  | nil => rfl
  | cons flag others ih =>
      have first : readShort (flag.letter :: (others.map Flag.letter ++ letters)) =
          (.flag flag :: (readShort (others.map Flag.letter ++ letters)).1,
            (readShort (others.map Flag.letter ++ letters)).2) := by
        cases flag <;> rfl
      rw [List.map_cons, List.cons_append, first, ih]
      rfl

/-- The letter of an option with a value is not that of a flag. -/
theorem ofLetter?_setting {letter : Char} (lettered : setting.letter? = some letter) :
    Flag.ofLetter? letter = none ∧ Setting.ofLetter? letter = some setting := by
  cases setting <;> cases lettered
  exact ⟨rfl, rfl⟩

theorem readShort_letter {letter : Char} (lettered : setting.letter? = some letter) :
    readShort [letter] = ([], .value setting) := by
  simp only [readShort, ofLetter?_setting lettered]

theorem readShort_letterAttached {letter : Char} (lettered : setting.letter? = some letter)
    (value : List Char) :
    readShort (letter :: '=' :: value) =
      ([.setting setting (String.ofList value)], .argument) := by
  simp only [readShort, ofLetter?_setting lettered]

theorem readShort_letterDirect {letter : Char} (lettered : setting.letter? = some letter)
    {value : List Char} (nonempty : value ≠ []) (unequal : value.head? ≠ some '=') :
    readShort (letter :: value) = ([.setting setting (String.ofList value)], .argument) := by
  obtain ⟨first, others, rfl⟩ := List.exists_cons_of_ne_nil nonempty
  have other : first ≠ '=' := fun same => unequal (congrArg some same)
  simp only [readShort, ofLetter?_setting lettered]
  split
  next same => cases same
  next same => exact absurd (List.cons.inj same).1 other
  next => rfl

/-- A row of letters that starts with those of flags. -/
theorem readArgument_flags {flags : List Flag} {letter : Char} {letters : List Char}
    (undashed : letter ≠ '-' ∨ flags ≠ [])
    (shape : argument.toList = '-' :: (flags.map Flag.letter ++ letter :: letters)) :
    readArgument argument =
      (flags.map .flag ++ (readShort (letter :: letters)).1,
        (readShort (letter :: letters)).2) := by
  rw [← readShort_flags]
  cases flags with
  | nil => exact readArgument_short (undashed.resolve_right (not_not_intro rfl)) shape
  | cons flag others => exact readArgument_short flag.letter_ne_dash shape

/-- What an argument gives is read, and so is whether it wants a value. -/
theorem Gives.readArgument_eq (gives : Gives argument items wanting) :
    readArgument argument = (items, wanting.elim .argument .value) := by
  cases gives with
  | path plain => exact readArgument_plain plain
  | flag flag => rw [readArgument_long (toList_long _), readLong_flag]; rfl
  | setting setting => rw [readArgument_long (toList_long _), readLong_setting]; rfl
  | attached setting value =>
      rw [readArgument_long (toList_attached _ _), readLong_attached, String.ofList_toList]
      rfl
  | @row flags nonempty =>
      obtain ⟨flag, others, rfl⟩ := List.exists_cons_of_ne_nil nonempty
      have reads := readShort_flags (flag :: others) []
      rw [List.append_nil] at reads
      rw [readArgument_short flag.letter_ne_dash (toList_row _)]
      simpa [readShort] using reads
  | @letter flags _ letter lettered =>
      have shape := toList_letter flags letter ""
      rw [String.append_empty] at shape
      rw [readArgument_flags (.inl (Setting.letter_ne_dash lettered)) shape, String.toList_empty,
        readShort_letter lettered, List.append_nil]
      rfl
  | @letterAttached flags _ letter lettered value =>
      have shape := toList_letter flags letter ("=" ++ value)
      have behind : ("=" ++ value).toList = '=' :: value.toList := String.toList_append
      rw [← String.append_assoc, behind] at shape
      rw [readArgument_flags (.inl (Setting.letter_ne_dash lettered)) shape,
        readShort_letterAttached lettered, String.ofList_toList]
      rfl
  | letterDirect flags lettered nonempty unequal =>
      rw [readArgument_flags (.inl (Setting.letter_ne_dash lettered)) (toList_letter _ _ _),
        readShort_letterDirect lettered (mt String.toList_eq_nil_iff.mp nonempty) unequal,
        String.ofList_toList]
      rfl

/-- A name in which there is no equals sign ends in front of the first one behind it. -/
theorem takeWhile_name {name : List Char} (unequal : '=' ∉ name) (text : List Char) :
    (name ++ '=' :: text).takeWhile (· != '=') = name ∧
      (name ++ '=' :: text).dropWhile (· != '=') = '=' :: text ∧
      name.takeWhile (· != '=') = name ∧ name.dropWhile (· != '=') = [] := by
  have other : ∀ letter ∈ name, (letter != '=') = true := fun letter member =>
    bne_iff_ne.mpr fun same => unequal (same ▸ member)
  refine ⟨?_, ?_, List.takeWhile_eq_self_iff.mpr other, List.dropWhile_eq_nil_iff.mpr other⟩
  · rw [List.takeWhile_append_of_pos other]
    simp
  · rw [List.dropWhile_append_of_pos other]
    simp

/-- At an argument that is malformed nothing is read any further. -/
theorem Malformed.readArgument_eq (malformed : Malformed argument) :
    (readArgument argument).2 = .nothing .misuse := by
  cases malformed with
  | @name name nonempty unequal unset unflagged unasked =>
      obtain ⟨_, _, written, behind⟩ := takeWhile_name unequal []
      have setting : Setting.ofName? name.toList = none :=
        List.find?_eq_none.mpr fun option _ => by
          simpa [String.toList_inj] using (unset option).symm
      have flag : Flag.ofName? name.toList = none :=
        List.find?_eq_none.mpr fun option _ => by
          simpa [String.toList_inj] using (unflagged option).symm
      have inquiry : Inquiry.ofName? name.toList = none :=
        List.find?_eq_none.mpr fun option _ => by
          simpa [String.toList_inj] using (unasked option).symm
      rw [readArgument_long (toList_long _)]
      simp only [readLong, written, behind, setting, flag, inquiry]
  | @attached name value unequal unset =>
      obtain ⟨written, behind, _, _⟩ := takeWhile_name unequal value.toList
      have setting : Setting.ofName? name.toList = none :=
        List.find?_eq_none.mpr fun option _ => by
          simpa [String.toList_inj] using (unset option).symm
      rw [readArgument_long (toList_attached _ _)]
      simp only [readLong, written, behind, setting]
  | @letter flags letter rest unset unflagged unasked single =>
      have setting : Setting.ofLetter? letter = none :=
        List.find?_eq_none.mpr fun option _ => by simpa using unset option
      have flag : Flag.ofLetter? letter = none :=
        List.find?_eq_none.mpr fun option _ => by simpa using (unflagged option).symm
      have inquiry : Inquiry.ofLetter? letter = none :=
        List.find?_eq_none.mpr fun option _ => by simpa using (unasked option).symm
      rw [readArgument_flags single (toList_letter _ _ _)]
      simp only [readShort, setting, flag, inquiry]

/-- A question is read as such, be it behind the letters of flags. -/
theorem Asks.readArgument_eq {inquiry : Inquiry} (asks : Asks inquiry argument) :
    (readArgument argument).2 = .nothing (.inquiry inquiry) := by
  cases asks with
  | name =>
      rw [readArgument_long (toList_long _)]
      cases inquiry <;> rfl
  | letter flags rest =>
      have undashed : inquiry.letter ≠ '-' := by cases inquiry <;> exact nofun
      rw [readArgument_flags (.inl undashed) (toList_letter _ _ _)]
      cases inquiry <;> rfl

example : (readArgument "--help").2 = .nothing (.inquiry .help) := rfl

example : (readArgument "--version").2 = .nothing (.inquiry .version) := rfl

example : (readArgument "-fVh").2 = .nothing (.inquiry .version) := rfl

/-! ## How lists of arguments are read -/

/-- Two dashes give nothing themselves. -/
theorem Gives.ne_dashes (gives : Gives argument items wanting) : argument ≠ "--" := by
  rintro rfl
  have reads : readArgument "--" = ([], .nothing .misuse) := rfl
  have same := congrArg Prod.snd (reads.symm.trans gives.readArgument_eq)
  cases wanting <;> cases same

/-- What an argument gives is read in front of the rest. -/
theorem read_of_gives (gives : Gives argument items none) :
    read (argument :: rest) = (items ++ (read rest).1, (read rest).2) := by
  rw [read_cons gives.ne_dashes, gives.readArgument_eq]
  rfl

/-- An argument that wants a value is read with the next one. -/
theorem read_of_value {value : String} (gives : Gives argument items (some setting))
    (plain : IsPlain value) :
    read (argument :: value :: rest) =
      (items ++ .setting setting value :: (read rest).1, (read rest).2) := by
  rw [read_cons gives.ne_dashes, gives.readArgument_eq]
  simp only [Option.elim_some, readOn, readFrom, isValue_eq_true_iff.mpr plain, if_true, read]

/-- What arguments spell is read. -/
theorem Spells.read_eq (spells : Spells items arguments) : read arguments = (items, .complete) := by
  induction spells with
  | none => rfl
  | argument gives rest ih => rw [read_of_gives gives, ih]
  | value gives plain rest ih => rw [read_of_value gives plain, ih]
  | ended paths => exact read_dashes

/-- An option without a value ends the reading. -/
theorem read_of_valueless (gives : Gives argument items (some setting))
    (valueless : ∀ value ∈ rest.head?, ¬IsPlain value) : (read (argument :: rest)).2 = .misuse := by
  rw [read_cons gives.ne_dashes, gives.readArgument_eq]
  simp only [Option.elim_some, readOn]
  cases rest with
  | nil => rfl
  | cons value others =>
      have other : ¬isValue value = true := mt isValue_eq_true_iff.mp (valueless value rfl)
      rw [readFrom, if_neg other]

theorem Malformed.ne_dashes (malformed : Malformed argument) : argument ≠ "--" := by
  intro same
  replace same := congrArg String.toList same
  cases malformed with
  | name nonempty =>
      rw [toList_long] at same
      exact nonempty (String.toList_eq_nil_iff.mp (List.cons.inj (List.cons.inj same).2).2)
  | attached value =>
      rw [toList_attached] at same
      simp at same
  | @letter flags letter rest _ _ _ single =>
      rw [toList_letter] at same
      have first := (List.cons.inj same).2
      cases flags with
      | nil => exact single.elim (· (List.cons.inj first).1) (· rfl)
      | cons flag others => exact flag.letter_ne_dash (List.cons.inj first).1

theorem read_of_malformed (malformed : Malformed argument) :
    (read (argument :: rest)).2 = .misuse := by
  rw [read_cons malformed.ne_dashes, malformed.readArgument_eq]
  rfl

/-- An item in full gives just this item. -/
theorem gives_argument {item : Item} (plain : ArePlain [item]) :
    Gives item.argument [item] none := by
  cases item with
  | path text => exact .path (plain text List.mem_cons_self)
  | setting option value => exact .attached option value
  | flag option => exact .flag option

/-- Items that are written out in full are read in front of the rest. -/
theorem read_inFull (plain : ArePlain items) :
    read (inFull items ++ rest) = (items ++ (read rest).1, (read rest).2) := by
  induction items with
  | nil => rfl
  | cons item others ih =>
      obtain ⟨first, later⟩ := arePlain_append.mp (show ArePlain ([item] ++ others) from plain)
      have reads : read (item.argument :: (inFull others ++ rest)) = _ :=
        read_of_gives (gives_argument first)
      rw [ih later] at reads
      exact reads

/-- All that a form gives is read. -/
theorem read_form (plain : ArePlain items) :
    read (form items paths) = (given items paths, .complete) := by
  rw [form, read_inFull plain, read_dashes, given]

/-- A row of letters is read as its first flag and the row of the others. -/
theorem read_row (flag : Flag) {more : String} (nonempty : more ≠ "")
    (undashed : more.toList.head? ≠ some '-') :
    read (("-" ++ String.singleton flag.letter ++ more) :: rest) =
      read ((Item.flag flag).argument :: ("-" ++ more) :: rest) := by
  obtain ⟨first, others, letters⟩ :=
    List.exists_cons_of_ne_nil (mt String.toList_eq_nil_iff.mp nonempty)
  rw [letters] at undashed
  have single : first ≠ '-' := fun same => undashed (congrArg some same)
  have inner : ("-" ++ more).toList = '-' :: first :: others := by
    rw [String.toList_append, letters]
    rfl
  have outer : ("-" ++ String.singleton flag.letter ++ more).toList =
      '-' :: ([flag].map Flag.letter ++ first :: others) := by
    rw [String.toList_append, String.toList_append, letters, String.toList_singleton]
    rfl
  have row : "-" ++ String.singleton flag.letter ++ more ≠ "--" := fun same => by
    rw [same] at outer
    exact flag.letter_ne_dash (List.cons.inj (List.cons.inj outer).2).1.symm
  have remaining : "-" ++ more ≠ "--" := fun same => by
    rw [same] at inner
    exact single (List.cons.inj (List.cons.inj inner).2).1.symm
  have named : read ((Item.flag flag).argument :: ("-" ++ more) :: rest) = _ :=
    read_of_gives (.flag flag)
  rw [named, read_cons row, readArgument_flags (.inr (List.cons_ne_nil _ _)) outer,
    read_cons remaining, readArgument_short single inner, List.append_assoc]
  rfl

/-- A spelling is read as what it stands for. -/
theorem StandsFor.read_eq {short long : List String} (stands : StandsFor short long) :
    read (short ++ rest) = read (long ++ rest) := by
  have attached (setting : Setting) (value : String) :
      read ([(Item.setting setting value).argument] ++ rest) =
        ([.setting setting value] ++ (read rest).1, (read rest).2) :=
    read_of_gives (.attached setting value)
  cases stands with
  | value setting plain =>
      rw [attached]
      exact read_of_value (.setting setting) plain
  | flagLetter flag =>
      have named : read ([(Item.flag flag).argument] ++ rest) = _ := read_of_gives (.flag flag)
      have lettered : Gives (Arguments.row ([] ++ [flag])) [.flag flag] none :=
        .row (List.cons_ne_nil _ _)
      rw [row_concat] at lettered
      rw [named]
      exact read_of_gives lettered
  | letterValue lettered plain =>
      rw [attached]
      exact read_of_value (.letter [] lettered) plain
  | letterAttached lettered value =>
      rw [attached]
      exact read_of_gives (.letterAttached [] lettered value)
  | letterDirect lettered nonempty unequal =>
      rw [attached]
      exact read_of_gives (.letterDirect [] lettered nonempty unequal)
  | row flag nonempty undashed => exact read_row flag nonempty undashed

/-! ## What is concluded -/

theorem conclude_misuse (items : List Item) : conclude items .misuse = misuse := by
  unfold conclude
  cases gather? items <;> rfl

/-- What is concluded does not depend on the order of the items. -/
theorem conclude_perm (same : items.Perm others) (ending : Ending) :
    conclude items ending = conclude others ending := by
  unfold conclude
  rw [gather?_perm same]

/-- A run is asked for if the items are gathered and a path is among them. -/
theorem conclude_complete_eq_ok_iff :
    conclude items .complete = .ok options ↔ gather? items = some options ∧ options.path ≠ "" := by
  unfold conclude
  cases gather? items with
  | none => exact iff_of_false nofun nofun
  | some other =>
      by_cases pathless : other.path = ""
      · simp only [if_pos pathless]
        refine iff_of_false nofun ?_
        rintro ⟨⟨⟩, some⟩
        exact some pathless
      · simp only [if_neg pathless]
        constructor
        · rintro ⟨⟩
          exact ⟨rfl, pathless⟩
        · rintro ⟨⟨⟩, _⟩
          rfl

/-- Without a path the items are refused, even if they are gathered. -/
theorem conclude_complete_eq_misuse
    (pathless : ∀ options, gather? items = some options → options.path = "") :
    conclude items .complete = misuse := by
  unfold conclude
  cases gathered : gather? items with
  | none => rfl
  | some options => exact if_pos (pathless options gathered)

theorem conclude_of_none (refused : gather? items = none) : conclude items .complete = misuse :=
  conclude_complete_eq_misuse fun _ gathered => nomatch refused.symm.trans gathered

theorem parse_form (plain : ArePlain items) :
    parse (form items paths) = conclude (given items paths) .complete := by
  rw [parse, read_form plain]

theorem outcome_parse_form (plain : ArePlain items)
    (refused : conclude (given items paths) .complete = misuse) :
    outcome parse (form items paths) = misuse := by
  rw [outcome, parse_form plain, refused]
  rfl

theorem outcome_parse_of_misuse (reads : (read arguments).2 = .misuse) :
    outcome parse arguments = misuse := by
  rw [outcome, parse]
  simp only [reads, conclude_misuse]
  rfl

/-- The reader at hand follows the rules. -/
theorem followsRules_parse : FollowsRules parse where
  spelling {items} short long rest plain stands := by
    unfold outcome parse
    rw [List.append_assoc, List.append_assoc, read_inFull plain, read_inFull plain, stands.read_eq]
  order {items others first second} paths plain := by
    have same : (items ++ first :: second :: others).Perm (items ++ second :: first :: others) :=
      (List.Perm.swap second first others).append_left items
    have whole : (given _ paths).Perm (given _ paths) := same.append_right _
    rw [outcome, outcome, parse_form plain, parse_form (plain.perm same), conclude_perm whole]
  positional {items text} paths plain path := by
    have both : ArePlain (items ++ [.path text]) :=
      arePlain_append.mpr ⟨plain, (Gives.path path).arePlain⟩
    rw [outcome, outcome, parse_form both, parse_form plain, given, List.append_assoc]
    rfl
  dashes {items} plain := by
    have reads : read (inFull items ++ []) = (items ++ [], .complete) := read_inFull plain
    rw [List.append_nil] at reads
    rw [outcome, outcome, parse_form plain, parse, reads]
    rfl
  path {text} nonempty := by
    have right : (Item.path text).change? = some _ := if_neg nonempty
    have reads : read ["--", text] = ([.path text], .complete) := read_dashes
    rw [parse, reads]
    refine conclude_complete_eq_ok_iff.mpr ⟨?_, nonempty⟩
    rw [gather?_cons List.not_mem_nil]
    exact congrArg (Option.map fun change => change { path := "" }) right
  option {items item paths options change} plain fresh right asked := by
    obtain ⟨_, later⟩ := arePlain_append.mp (show ArePlain ([item] ++ items) from plain)
    rw [parse_form later] at asked
    obtain ⟨gathered, some⟩ := conclude_complete_eq_ok_iff.mp asked
    rw [parse_form plain]
    refine conclude_complete_eq_ok_iff.mpr ⟨?_, (Item.changes_of_change? right).path_ne_empty some⟩
    have whole := gather?_cons fresh
    rw [gathered, Option.bind_some, give?, right] at whole
    exact whole
  repeated {items paths} plain twice := by
    have refused : gather? (given items paths) = none := if_neg twice
    exact outcome_parse_form plain (conclude_of_none refused)
  missing {items paths} plain unplaced := by
    refine outcome_parse_form plain (conclude_complete_eq_misuse fun options gathered => ?_)
    obtain ⟨_, gathered⟩ := Option.ite_none_right_eq_some.mp gathered
    exact path_of_foldlM_give? unplaced gathered
  wrong plain member refused :=
    outcome_parse_form plain (conclude_of_none (gather?_of_wrong member refused))
  malformed rest plain malformed := by
    refine outcome_parse_of_misuse ?_
    rw [read_inFull plain]
    exact read_of_malformed malformed
  valueless plain gives valueless _ := by
    refine outcome_parse_of_misuse ?_
    rw [read_inFull plain]
    exact read_of_valueless gives valueless

end Arguments

end ChipEight
