import ChipEight.Program
import ChipEight.Proofs.Spelling
import Mathlib.Data.List.Induction

/-! # Rules of a parser

The parser of the program's arguments comes from elsewhere. It is relied on that it follows the
rules that are documented for the options that the program declares (`Arguments.FollowsRules`).
Each rule is about a single argument, two that are neighbours, or one thing that is wrong. Together
they bring arguments that spell some items into one form, with every option written out in full and
all paths behind two dashes (`Arguments.FollowsRules.exists_form`), and refuse what spells nothing
(`Arguments.FollowsRules.spells_or_refused`).
-/

namespace ChipEight

/-- The argument that gives an item in full: a path as it is, an option by its long name, with its
value attached to it. -/
def Item.argument : Item → String
  | .path text => text
  | .setting option value => "--" ++ option.name ++ "=" ++ value
  | .flag option => "--" ++ option.name

/-- No option has a dash for its letter. -/
theorem Setting.letter_ne_dash {setting : Setting} {letter : Char}
    (lettered : setting.letter? = some letter) : letter ≠ '-' := by
  rintro rfl
  cases setting <;> cases lettered

namespace Arguments

/-- Items written out in full. -/
def inFull (items : List Item) : List String :=
  items.map Item.argument

/-- Items written out in full in front of two dashes, and paths behind them. -/
def form (items : List Item) (paths : List String) : List String :=
  inFull items ++ "--" :: paths

/-- What a form gives altogether. -/
def given (items : List Item) (paths : List String) : List Item :=
  items ++ paths.map .path

/-- All paths among the items can be told from options. -/
def ArePlain (items : List Item) : Prop :=
  ∀ text, .path text ∈ items → IsPlain text

/-- None of the items is a path. -/
def AreOptions (items : List Item) : Prop :=
  ∀ text, .path text ∉ items

/-- A spelling, and what it stands for. -/
inductive StandsFor : List String → List String → Prop
  | value (setting : Setting) {value : String} (plain : IsPlain value) :
      StandsFor ["--" ++ setting.name, value] [(Item.setting setting value).argument]
  | flagLetter (flag : Flag) :
      StandsFor ["-" ++ String.singleton flag.letter] [(Item.flag flag).argument]
  | letterValue {setting : Setting} {letter : Char} (lettered : setting.letter? = some letter)
      {value : String} (plain : IsPlain value) :
      StandsFor ["-" ++ String.singleton letter, value] [(Item.setting setting value).argument]
  | letterAttached {setting : Setting} {letter : Char} (lettered : setting.letter? = some letter)
      (value : String) :
      StandsFor ["-" ++ String.singleton letter ++ "=" ++ value]
        [(Item.setting setting value).argument]
  | letterDirect {setting : Setting} {letter : Char} (lettered : setting.letter? = some letter)
      {value : String} (nonempty : value ≠ "") (unequal : value.toList.head? ≠ some '=') :
      StandsFor ["-" ++ String.singleton letter ++ value] [(Item.setting setting value).argument]
  /-- Behind the letter of a flag the row goes on. -/
  | row (flag : Flag) {more : String} (nonempty : more ≠ "")
      (undashed : more.toList.head? ≠ some '-') :
      StandsFor ["-" ++ String.singleton flag.letter ++ more]
        [(Item.flag flag).argument, "-" ++ more]

/-- What a parser makes of arguments, but for what is written on standard error. -/
def outcome (parse : List String → Except Exit Options) (arguments : List String) :
    Except Exit Options :=
  (parse arguments).mapError fun exit => { exit with stderr := "" }

/-- A misuse ends the program with code two and nothing on standard output. -/
def misuse : Except Exit Options :=
  .error ⟨2, "", ""⟩

/-- A parser follows the rules that are documented for the arguments. -/
structure FollowsRules (parse : List String → Except Exit Options) : Prop where
  /-- Every spelling of an option means the same: its value as the next argument, attached to it or
  right behind its letter, and letters of flags one by one or in a row. -/
  spelling {items : List Item} {short long : List String} (rest : List String)
    (plain : ArePlain items) (stands : StandsFor short long) :
    outcome parse (inFull items ++ short ++ rest) = outcome parse (inFull items ++ long ++ rest)
  /-- Options and paths come in any order. -/
  order {items others : List Item} {first second : Item} (paths : List String)
    (plain : ArePlain (items ++ first :: second :: others)) :
    outcome parse (form (items ++ first :: second :: others) paths) =
      outcome parse (form (items ++ second :: first :: others) paths)
  /-- Behind two dashes every argument is a path, as it would be in front of them if it can be told
  from an option. -/
  positional {items : List Item} {text : String} (paths : List String) (plain : ArePlain items)
    (path : IsPlain text) :
    outcome parse (form (items ++ [.path text]) paths) = outcome parse (form items (text :: paths))
  /-- Two dashes with no argument behind them change nothing. -/
  dashes {items : List Item} (plain : ArePlain items) :
    outcome parse (inFull items) = outcome parse (form items [])
  /-- Nothing but a path has to be given. -/
  path {text : String} (nonempty : text ≠ "") : parse ["--", text] = .ok { path := text }
  /-- An option changes what it is for, and nothing else. -/
  option {items : List Item} {item : Item} {paths : List String} {options : Options}
    {change : Options → Options} (plain : ArePlain (item :: items))
    (fresh : item.place ∉ (given items paths).map Item.place) (right : item.change? = some change)
    (asked : parse (form items paths) = .ok options) :
    parse (form (item :: items) paths) = .ok (change options)
  /-- To give an option, a flag or the path twice is a misuse. -/
  repeated {items : List Item} {paths : List String} (plain : ArePlain items)
    (twice : ¬((given items paths).map Item.place).Nodup) :
    outcome parse (form items paths) = misuse
  /-- To give no path is a misuse. -/
  missing {items : List Item} {paths : List String} (plain : ArePlain items)
    (unplaced : .path ∉ (given items paths).map Item.place) :
    outcome parse (form items paths) = misuse
  /-- An empty path is a misuse, and so is a text that stands for no number in range where a number
  is wanted. -/
  wrong {items : List Item} {item : Item} {paths : List String} (plain : ArePlain items)
    (member : item ∈ given items paths) (refused : item.change? = none) :
    outcome parse (form items paths) = misuse
  /-- An option that is not declared is a misuse, and so is a value attached to a flag. -/
  malformed {items : List Item} {argument : String} (rest : List String) (plain : ArePlain items)
    (malformed : Malformed argument) : outcome parse (inFull items ++ argument :: rest) = misuse
  /-- An option with nothing behind it that can be its value is a misuse. -/
  valueless {items others : List Item} {argument : String} {setting : Setting}
    {rest : List String} (plain : ArePlain items) (gives : Gives argument others (some setting))
    (valueless : ∀ value ∈ rest.head?, ¬IsPlain value) (unasked : ¬HasInquiry rest) :
    outcome parse (inFull items ++ argument :: rest) = misuse

variable {items others : List Item} {paths : List String}

/-! ## Plain paths -/

theorem arePlain_append :
    ArePlain (items ++ others) ↔ ArePlain items ∧ ArePlain others := by
  simp only [ArePlain, List.mem_append, or_imp, forall_and]

theorem ArePlain.perm (plain : ArePlain items) (same : items.Perm others) : ArePlain others :=
  fun text given => plain text (same.mem_iff.mpr given)

theorem arePlain_flags (flags : List Flag) : ArePlain (flags.map .flag) := by
  simp [ArePlain]

theorem arePlain_setting (setting : Setting) (value : String) :
    ArePlain [.setting setting value] := by
  simp [ArePlain]

/-- A path that an argument gives can be told from an option. -/
theorem Gives.arePlain {argument : String} {wanting : Option Setting}
    (gives : Gives argument items wanting) : ArePlain items := by
  intro text given
  cases gives with
  | path plain =>
      cases List.mem_singleton.mp given
      exact plain
  | _ => simp at given

theorem AreOptions.arePlain (pathless : AreOptions items) : ArePlain items :=
  fun text member => absurd member (pathless text)

/-- Items can be sorted: the options first, and the paths behind them. -/
theorem exists_perm (items : List Item) :
    ∃ (options : List Item) (paths : List String), AreOptions options ∧
      items.Perm (given options paths) := by
  induction items with
  | nil => exact ⟨[], [], fun _ => List.not_mem_nil, .nil⟩
  | cons item others ih =>
      obtain ⟨options, paths, pathless, same⟩ := ih
      by_cases path : ∃ text, item = .path text
      · obtain ⟨text, rfl⟩ := path
        exact ⟨options, text :: paths, pathless, (same.cons _).trans List.perm_middle.symm⟩
      · refine ⟨item :: options, paths, fun text member => ?_, same.cons item⟩
        rcases List.mem_cons.mp member with here | later
        · exact path ⟨text, here.symm⟩
        · exact pathless text later

theorem inFull_append (items others : List Item) :
    inFull (items ++ others) = inFull items ++ inFull others :=
  List.map_append

/-- A run that is asked for writes nothing on standard error. -/
theorem outcome_eq_ok_iff {parse : List String → Except Exit Options} {arguments : List String}
    {options : Options} :
    outcome parse arguments = .ok options ↔ parse arguments = .ok options := by
  unfold outcome
  cases parse arguments with
  | error exit => exact iff_of_false nofun nofun
  | ok other => exact Iff.rfl

/-- A misuse may write anything on standard error. -/
theorem outcome_eq_misuse_iff {parse : List String → Except Exit Options}
    {arguments : List String} :
    outcome parse arguments = misuse ↔ ∃ stderr, parse arguments = .error ⟨2, "", stderr⟩ := by
  unfold outcome misuse
  cases parse arguments with
  | error exit =>
      constructor
      · intro same
        obtain ⟨code, stdout, stderr⟩ := exit
        cases same
        exact ⟨stderr, rfl⟩
      · rintro ⟨stderr, ⟨⟩⟩
        rfl
  | ok other => exact iff_of_false nofun nofun

/-- The letter of an option, with anything behind it, starts with something else than a dash. -/
theorem letter_more {setting : Setting} {letter : Char} (lettered : setting.letter? = some letter)
    (more : String) :
    String.singleton letter ++ more ≠ "" ∧
      (String.singleton letter ++ more).toList.head? ≠ some '-' := by
  rw [String.toList_append, String.toList_singleton]
  exact ⟨by simp, fun dash => Setting.letter_ne_dash lettered (Option.some.inj dash)⟩

namespace FollowsRules

variable {parse : List String → Except Exit Options} (rules : FollowsRules parse)
  {argument : String} (rest : List String)

include rules

/-! ## One argument -/

/-- The letters of flags in front of a row are written out one by one. -/
theorem outcome_letters (plain : ArePlain items) (flags : List Flag) {more : String}
    (nonempty : more ≠ "") (undashed : more.toList.head? ≠ some '-') :
    outcome parse (inFull items ++ (row flags ++ more) :: rest) =
      outcome parse (inFull (items ++ flags.map .flag) ++ ("-" ++ more) :: rest) := by
  induction flags generalizing items with
  | nil => rw [List.map_nil, List.append_nil, row_nil]
  | cons flag flags ih =>
      have later : String.ofList (flags.map Flag.letter) ++ more ≠ "" :=
        fun empty => nonempty (String.append_eq_empty_iff.mp empty).2
      have letter : (String.ofList (flags.map Flag.letter) ++ more).toList.head? ≠ some '-' := by
        rw [String.toList_append, String.toList_ofList]
        cases flags with
        | nil => exact undashed
        | cons other others => exact fun dash => other.letter_ne_dash (Option.some.inj dash)
      have both : ArePlain (items ++ [.flag flag]) :=
        arePlain_append.mpr ⟨plain, arePlain_flags [flag]⟩
      calc outcome parse (inFull items ++ (row (flag :: flags) ++ more) :: rest)
        _ = outcome parse (inFull items ++ ["-" ++ String.singleton flag.letter ++
              (String.ofList (flags.map Flag.letter) ++ more)] ++ rest) := by
          rw [row_cons, String.append_assoc, List.append_assoc, List.singleton_append]
        _ = outcome parse (inFull items ++ [(Item.flag flag).argument,
              "-" ++ (String.ofList (flags.map Flag.letter) ++ more)] ++ rest) :=
          rules.spelling rest plain (.row flag later letter)
        _ = outcome parse (inFull (items ++ [.flag flag]) ++ (row flags ++ more) :: rest) := by
          rw [inFull_append, row, String.append_assoc, List.append_assoc, List.append_assoc]
          rfl
        _ = outcome parse (inFull (items ++ [.flag flag] ++ flags.map .flag) ++
              ("-" ++ more) :: rest) := ih both
        _ = outcome parse (inFull (items ++ (flag :: flags).map .flag) ++
              ("-" ++ more) :: rest) := by
          rw [List.append_assoc, List.singleton_append, List.map_cons]

/-- A row of letters of flags gives these flags. -/
theorem outcome_row (plain : ArePlain items) {flags : List Flag} (some : flags ≠ []) :
    outcome parse (inFull items ++ row flags :: rest) =
      outcome parse (inFull (items ++ flags.map .flag) ++ rest) := by
  obtain ⟨others, last, rfl⟩ := flags.eq_nil_or_concat'.resolve_left some
  have nonempty : String.singleton last.letter ≠ "" := by simp
  have undashed : (String.singleton last.letter).toList.head? ≠ .some '-' := by
    rw [String.toList_singleton]
    exact fun dash => last.letter_ne_dash (Option.some.inj dash)
  have both : ArePlain (items ++ others.map .flag) :=
    arePlain_append.mpr ⟨plain, arePlain_flags others⟩
  have lone := rules.spelling rest both (.flagLetter last)
  rw [row_concat, rules.outcome_letters rest plain others nonempty undashed]
  rw [List.append_assoc, List.singleton_append] at lone
  rw [lone, List.map_append, ← List.append_assoc, inFull_append (items ++ _)]
  rfl

/-- A row of letters of flags in front of what stands for an option with its value. -/
theorem outcome_letter (plain : ArePlain items) (flags : List Flag) {more value : String}
    {setting : Setting} {values : List String} (nonempty : more ≠ "")
    (undashed : more.toList.head? ≠ some '-')
    (stands : StandsFor (("-" ++ more) :: values) [(Item.setting setting value).argument]) :
    outcome parse (inFull items ++ (row flags ++ more) :: (values ++ rest)) =
      outcome parse
        (inFull (items ++ (flags.map .flag ++ [.setting setting value])) ++ rest) := by
  have both : ArePlain (items ++ flags.map .flag) :=
    arePlain_append.mpr ⟨plain, arePlain_flags flags⟩
  have single := rules.spelling rest both stands
  rw [List.append_assoc, List.cons_append] at single
  rw [rules.outcome_letters _ plain flags nonempty undashed, single, ← List.append_assoc,
    inFull_append (items ++ _)]
  rfl

/-- An argument that gives some items means the same as these in full. -/
theorem outcome_gives (plain : ArePlain items) (gives : Gives argument others none) :
    outcome parse (inFull items ++ argument :: rest) =
      outcome parse (inFull (items ++ others) ++ rest) := by
  cases gives with
  | path plain => rw [inFull_append, List.append_assoc]; rfl
  | flag flag => rw [inFull_append, List.append_assoc]; rfl
  | attached setting value => rw [inFull_append, List.append_assoc]; rfl
  | row nonempty => exact rules.outcome_row rest plain nonempty
  | letterAttached flags lettered value =>
      have ⟨nonempty, undashed⟩ := letter_more lettered ("=" ++ value)
      have stands := StandsFor.letterAttached lettered value
      rw [String.append_assoc, String.append_assoc] at stands ⊢
      exact rules.outcome_letter rest plain flags nonempty undashed stands
  | @letterDirect flags _ _ lettered value some unequal =>
      have ⟨nonempty, undashed⟩ := letter_more lettered value
      have stands := StandsFor.letterDirect lettered some unequal
      rw [String.append_assoc] at stands ⊢
      exact rules.outcome_letter rest plain flags nonempty undashed stands

/-- An argument that wants a value means the same with it as the option in full. -/
theorem outcome_value (plain : ArePlain items) {setting : Setting} {value : String}
    (gives : Gives argument others (some setting)) (valued : IsPlain value) :
    outcome parse (inFull items ++ argument :: value :: rest) =
      outcome parse (inFull (items ++ (others ++ [.setting setting value])) ++ rest) := by
  cases gives with
  | setting setting =>
      have spelled := rules.spelling rest plain (.value setting valued)
      rw [List.append_assoc, List.append_assoc] at spelled
      rw [inFull_append, List.append_assoc]
      exact spelled
  | letter flags lettered =>
      have ⟨nonempty, undashed⟩ := letter_more lettered ""
      rw [String.append_empty] at nonempty undashed
      exact rules.outcome_letter rest plain flags nonempty undashed (.letterValue lettered valued)

/-! ## Lists of arguments -/

/-- Arguments that spell some items mean the same as these in full, but for the paths behind two
dashes. -/
theorem exists_form {spelled : List Item} {arguments : List String}
    (spells : Spells spelled arguments) (plain : ArePlain items) :
    ∃ (others : List Item) (paths : List String), ArePlain others ∧ spelled = given others paths ∧
      outcome parse (inFull items ++ arguments) = outcome parse (form (items ++ others) paths) := by
  induction spells generalizing items with
  | none =>
      refine ⟨[], [], fun _ => nofun, rfl, ?_⟩
      rw [List.append_nil, List.append_nil]
      exact rules.dashes plain
  | argument gives rest ih =>
      obtain ⟨others, paths, another, rfl, same⟩ :=
        ih (arePlain_append.mpr ⟨plain, gives.arePlain⟩)
      refine ⟨_, paths, arePlain_append.mpr ⟨gives.arePlain, another⟩,
        (List.append_assoc _ _ _).symm, ?_⟩
      rw [rules.outcome_gives _ plain gives, same, List.append_assoc]
  | @value _ value setting first _ _ gives valued rest ih =>
      have front : ArePlain (first ++ [.setting setting value]) :=
        arePlain_append.mpr ⟨gives.arePlain, arePlain_setting setting value⟩
      obtain ⟨others, paths, another, rfl, same⟩ := ih (arePlain_append.mpr ⟨plain, front⟩)
      refine ⟨first ++ [.setting setting value] ++ others, paths,
        arePlain_append.mpr ⟨front, another⟩, ?_, ?_⟩
      · simp only [given, List.append_assoc, List.cons_append, List.nil_append]
      · rw [rules.outcome_value _ plain gives valued, same, List.append_assoc items]
  | ended paths =>
      refine ⟨[], paths, fun _ => nofun, rfl, ?_⟩
      rw [List.append_nil]
      rfl

/-- Items in front of two dashes come in any order. -/
theorem outcome_perm (same : items.Perm others) (front : List Item)
    (plain : ArePlain (front ++ items)) :
    outcome parse (form (front ++ items) paths) = outcome parse (form (front ++ others) paths) := by
  induction same generalizing front with
  | nil => rfl
  | cons item _ ih =>
      rw [List.append_cons] at plain ⊢
      rw [ih _ plain, ← List.append_cons]
  | swap first second others => exact rules.order paths plain
  | trans same _ ih₁ ih₂ =>
      rw [ih₁ front plain, ih₂ front (plain.perm (same.append_left front))]

/-- Paths that come last in front of two dashes may as well come behind these. -/
theorem outcome_paths (front : List String) (plain : ArePlain (items ++ front.map .path)) :
    outcome parse (form (items ++ front.map .path) paths) =
      outcome parse (form items (front ++ paths)) := by
  induction front using List.reverseRecOn generalizing paths with
  | nil => rw [List.map_nil, List.append_nil, List.nil_append]
  | append_singleton others text ih =>
      rw [List.map_append, ← List.append_assoc] at plain ⊢
      obtain ⟨before, last⟩ := arePlain_append.mp plain
      have moved := rules.positional paths before (last text List.mem_cons_self)
      rw [List.map_singleton, moved, ih before, List.append_assoc, List.singleton_append]

/-- Arguments that spell some items mean the same as the options among them in full, and the paths
behind two dashes. -/
theorem exists_sorted {spelled : List Item} {arguments : List String}
    (spells : Spells spelled arguments) :
    ∃ (options : List Item) (paths : List String), AreOptions options ∧
      spelled.Perm (given options paths) ∧
      outcome parse arguments = outcome parse (form options paths) := by
  have none : ArePlain [] := fun _ => nofun
  obtain ⟨items, paths, plain, rfl, same⟩ := rules.exists_form spells none
  obtain ⟨options, front, pathless, sorted⟩ := exists_perm items
  refine ⟨options, front ++ paths, pathless, ?_, ?_⟩
  · rw [given, given, List.map_append, ← List.append_assoc]
    exact sorted.append_right _
  · have whole : outcome parse arguments = outcome parse (form items paths) := same
    rw [whole, ← rules.outcome_paths front (plain.perm sorted)]
    exact rules.outcome_perm sorted [] plain

/-- Arguments that ask no question spell some items, or are refused, whatever stands in front of
them. -/
theorem spells_or_refused : ∀ (arguments : List String), ¬HasInquiry arguments →
    (∃ spelled, Spells spelled arguments) ∨
      ∀ items, ArePlain items → outcome parse (inFull items ++ arguments) = misuse
  | [], _ => .inl ⟨[], .none⟩
  | argument :: rest, unasked => by
      by_cases ended : argument = "--"
      · subst ended
        exact .inl ⟨_, .ended rest⟩
      obtain ⟨unasking, later⟩ := not_or.mp (mt (hasInquiry_cons ended).mpr unasked)
      rcases gives_or_asks_or_malformed ended with ⟨first, wanting, gives⟩ | asks | malformed
      · cases wanting with
        | none =>
            rcases spells_or_refused rest later with ⟨spelled, spells⟩ | refused
            · exact .inl ⟨_, .argument gives spells⟩
            · refine .inr fun items plain => ?_
              rw [rules.outcome_gives rest plain gives]
              exact refused _ (arePlain_append.mpr ⟨plain, gives.arePlain⟩)
        | some setting =>
            by_cases valued : ∃ value ∈ rest.head?, IsPlain value
            · obtain ⟨value, next, valued⟩ := valued
              obtain ⟨others, rfl⟩ := List.head?_eq_some_iff.mp next
              have last := (not_or.mp (mt (hasInquiry_cons valued.ne_dashes).mpr later)).2
              rcases spells_or_refused others last with ⟨spelled, spells⟩ | refused
              · exact .inl ⟨_, .value gives valued spells⟩
              · refine .inr fun items plain => ?_
                rw [rules.outcome_value others plain gives valued]
                exact refused _ (arePlain_append.mpr ⟨plain,
                  arePlain_append.mpr ⟨gives.arePlain, arePlain_setting setting value⟩⟩)
            · simp only [not_exists, not_and] at valued
              exact .inr fun items plain => rules.valueless plain gives valued later
      · exact absurd asks unasking
      · exact .inr fun items plain => rules.malformed rest plain malformed

end FollowsRules

end Arguments

end ChipEight
