import ChipEight.Proofs.Numerals
import ChipEight.Proofs.Reading
import Mathlib.Data.List.Perm.Basic

/-! # Choices

A choice is what can be asked for in a run. Arguments spell it if they give each part of it once,
in any order and in any of the forms that there are (`Choice.IsSpelledBy`), and a parser that
follows the rules then asks for a run with just these options. Everything else, but for questions
about the program, is a misuse (`Surroundings.spelling_does_not_matter`).
-/

namespace ChipEight

/-- What is chosen for a run. What is left out takes its usual value. -/
structure Choice where
  path : String
  path_ne_empty : path ≠ ""
  rate : Option Rate := none
  limit : Option UInt64 := none
  hold : Option String := none
  fast : Bool := false
  dump : Bool := false

namespace Choice

/-- Everything that is chosen but the path, once, with its numbers in the texts that are given for
them. -/
def settings (choice : Choice) (hertz cycles : String) : List Item :=
  (choice.rate.map fun _ => .setting .hertz hertz).toList ++
    (choice.limit.map fun _ => .setting .cycles cycles).toList ++
    (choice.hold.map (.setting .hold)).toList ++
    (if choice.fast then [.flag .fast] else []) ++
    (if choice.dump then [.flag .dump] else [])

/-- Items give a choice: each part of it once, in any order, and with any numerals for its
numbers. -/
def IsGivenBy (choice : Choice) (items : List Item) : Prop :=
  ∃ hertz cycles : String,
    (∀ rate ∈ choice.rate, Arguments.IsNumeral rate.hertz.toNat hertz) ∧
    (∀ limit ∈ choice.limit, Arguments.IsNumeral limit.toNat cycles) ∧
    items.Perm (.path choice.path :: choice.settings hertz cycles)

/-- Arguments spell a choice. -/
def IsSpelledBy (choice : Choice) (arguments : List String) : Prop :=
  ∃ items, Arguments.Spells items arguments ∧ choice.IsGivenBy items

end Choice

/-- Items that no run can be made of: something is given twice, the path is missing or empty, or
the text for a rate or a limit stands for a number out of range or for none. -/
inductive Item.Misgiven (items : List Item) : Prop
  | repeated {place : Place} (twice : 2 ≤ (items.map Item.place).count place)
  | missingPath (missing : .path ∉ items.map Item.place)
  | emptyPath (given : .path "" ∈ items)
  | rate {number : Nat} {text : String} (given : .setting .hertz text ∈ items)
      (numeral : Arguments.IsNumeral number text) (outside : number = 0 ∨ UInt32.size ≤ number)
  | limit {number : Nat} {text : String} (given : .setting .cycles text ∈ items)
      (numeral : Arguments.IsNumeral number text) (outside : UInt64.size ≤ number)
  | unnumbered {setting : Setting} {text : String} (numeric : setting ≠ .hold)
      (given : .setting setting text ∈ items) (other : ∀ number, ¬Arguments.IsNumeral number text)

namespace Item

variable {items : List Item} {item : Item}

/-- What an item makes of the options. A wrong one leaves them as they are. -/
def apply (item : Item) (options : Options) : Options :=
  item.change?.elim options fun change => change options

/-- An item that is not right is an empty path, or a text without a number in range. -/
theorem misgiven_of_wrong (member : item ∈ items) (wrong : item.change? = none) :
    Misgiven items := by
  cases item with
  | path text =>
      obtain rfl : text = "" := by simpa [change?] using wrong
      exact .emptyPath member
  | setting setting text =>
      by_cases numbered : ∃ number, Arguments.IsNumeral number text
      · obtain ⟨number, numeral⟩ := numbered
        cases setting with
        | hertz =>
            have outside := Arguments.rate?_eq_none_iff.mp (Option.map_eq_none_iff.mp wrong)
            exact .rate member numeral (outside number numeral)
        | cycles =>
            have outside := Arguments.limit?_eq_none_iff.mp (Option.map_eq_none_iff.mp wrong)
            exact .limit member numeral (outside number numeral)
        | hold => cases wrong
      · refine .unnumbered ?_ member (not_exists.mp numbered)
        rintro rfl
        cases wrong
  | flag flag => cases flag <;> cases wrong

/-- Items are misgiven if one of them is repeated or wrong, or if there is no path. -/
theorem misgiven_iff :
    Misgiven items ↔ ¬(items.map Item.place).Nodup ∨ .path ∉ items.map Item.place ∨
      ∃ item ∈ items, item.change? = none := by
  constructor
  · intro misgiven
    cases misgiven with
    | @repeated place twice =>
        refine .inl fun distinct => ?_
        have once := List.nodup_iff_count_le_one.mp distinct place
        omega
    | missingPath missing => exact .inr (.inl missing)
    | emptyPath given => exact .inr (.inr ⟨_, given, rfl⟩)
    | rate given numeral outside =>
        refine .inr (.inr ⟨_, given, Option.map_eq_none_iff.mpr ?_⟩)
        exact Arguments.rate?_eq_none_iff.mpr fun _ another => another.unique numeral ▸ outside
    | limit given numeral outside =>
        refine .inr (.inr ⟨_, given, Option.map_eq_none_iff.mpr ?_⟩)
        exact Arguments.limit?_eq_none_iff.mpr fun _ another => another.unique numeral ▸ outside
    | @unnumbered setting text numeric given other =>
        refine .inr (.inr ⟨_, given, ?_⟩)
        cases setting with
        | hertz =>
            exact Option.map_eq_none_iff.mpr
              (Arguments.rate?_eq_none_iff.mpr fun number another => absurd another (other number))
        | cycles =>
            exact Option.map_eq_none_iff.mpr
              (Arguments.limit?_eq_none_iff.mpr fun number another => absurd another (other number))
        | hold => exact absurd rfl numeric
  · rintro (twice | missing | ⟨item, member, wrong⟩)
    · simp only [List.nodup_iff_count_le_one, not_forall, Nat.not_le] at twice
      obtain ⟨place, twice⟩ := twice
      exact .repeated twice
    · exact .missingPath missing
    · exact misgiven_of_wrong member wrong

/-- It does not depend on the order of items whether they are misgiven. -/
theorem Misgiven.perm {others : List Item} (misgiven : Misgiven items)
    (same : items.Perm others) : Misgiven others := by
  have places := same.map Item.place
  rw [misgiven_iff] at misgiven ⊢
  simpa only [places.nodup_iff, places.mem_iff, same.mem_iff] using misgiven

end Item

namespace Arguments

variable {options others : List Item} {paths texts : List String}

theorem AreOptions.place_ne (pathless : AreOptions options) {item : Item}
    (member : item ∈ options) : item.place ≠ .path := by
  cases item with
  | path text => exact absurd member (pathless text)
  | _ => exact nofun

/-- Behind options there is a single path if one is given, and not twice. -/
theorem AreOptions.exists_eq_singleton (pathless : AreOptions options)
    (distinct : ((given options paths).map Item.place).Nodup)
    (placed : .path ∈ (given options paths).map Item.place) : ∃ text, paths = [text] := by
  match paths with
  | [] =>
      obtain ⟨item, member, path⟩ := List.mem_map.mp placed
      rw [given, List.map_nil, List.append_nil] at member
      exact absurd path (pathless.place_ne member)
  | [text] => exact ⟨text, rfl⟩
  | first :: second :: others =>
      rw [given, List.map_append] at distinct
      exact absurd List.mem_cons_self (List.nodup_cons.mp (List.nodup_append.mp distinct).2.1).1

/-- Options and paths are the same up to their order if they are so together. -/
theorem AreOptions.perm (pathless : AreOptions options) (others_pathless : AreOptions others)
    (same : (given options paths).Perm (given others texts)) :
    options.Perm others ∧ paths.Perm texts := by
  have sorted {options : List Item} (pathless : AreOptions options) (paths : List String) :
      (given options paths).filter (·.place ≠ .path) = options ∧
        (given options paths).filter (·.place = .path) = paths.map .path := by
    have kept : options.filter (·.place ≠ .path) = options :=
      List.filter_eq_self.mpr fun item member => by simpa using pathless.place_ne member
    have dropped : options.filter (·.place = .path) = [] :=
      List.filter_eq_nil_iff.mpr fun item member => by simpa using pathless.place_ne member
    have moved : (paths.map Item.path).filter (·.place ≠ .path) = [] := by
      simp [List.filter_eq_nil_iff, Item.place]
    have behind : (paths.map Item.path).filter (·.place = .path) = paths.map .path := by
      simp [List.filter_eq_self, Item.place]
    rw [given, List.filter_append, List.filter_append, kept, dropped, moved, behind]
    exact ⟨List.append_nil _, List.nil_append _⟩
  obtain ⟨kept, behind⟩ := sorted pathless paths
  obtain ⟨other, others_behind⟩ := sorted others_pathless texts
  have texts_same := same.filter (·.place = .path)
  have options_same := same.filter (·.place ≠ .path)
  rw [kept, other] at options_same
  rw [behind, others_behind] at texts_same
  exact ⟨options_same, (List.map_perm_map_iff fun _ _ => Item.path.inj).mp texts_same⟩

end Arguments

namespace Arguments.FollowsRules

variable {parse : List String → Except Exit Options} (rules : FollowsRules parse)
  {items : List Item} {paths : List String}

include rules

/-- Options that are right, and each of them given once, change what they are for, one after the
other. -/
theorem parse_of_right {text : String} (nonempty : text ≠ "") (pathless : AreOptions items)
    (distinct : ((given items [text]).map Item.place).Nodup)
    (right : ∀ item ∈ items, item.change? ≠ none) :
    parse (form items [text]) = .ok (items.foldr Item.apply { path := text }) := by
  induction items with
  | nil => exact rules.path nonempty
  | cons item others ih =>
      obtain ⟨first, later⟩ := List.forall_mem_cons.mp right
      obtain ⟨change, correct⟩ := Option.ne_none_iff_exists'.mp first
      have pathless_later : AreOptions others := fun text member =>
        pathless text (List.mem_cons_of_mem _ member)
      obtain ⟨fresh, distinct⟩ := List.nodup_cons.mp distinct
      have before := ih pathless_later distinct later
      have changed := rules.option pathless.arePlain fresh correct before
      rw [changed, List.foldr_cons, Item.apply, correct]
      rfl

/-- A form is refused if its items are misgiven, and only then. -/
theorem outcome_form_eq_misuse_iff (pathless : AreOptions items) :
    outcome parse (form items paths) = misuse ↔ Item.Misgiven (given items paths) := by
  rw [Item.misgiven_iff]
  constructor
  · intro refused
    by_contra right
    simp only [not_or, not_not, not_exists, not_and] at right
    obtain ⟨distinct, placed, right⟩ := right
    obtain ⟨text, rfl⟩ := pathless.exists_eq_singleton distinct placed
    have nonempty : text ≠ "" := by
      rintro rfl
      exact right (.path "") (List.mem_append_right _ List.mem_cons_self) rfl
    have accepted := rules.parse_of_right nonempty pathless distinct
      fun item member => right item (List.mem_append_left _ member)
    rw [outcome, accepted] at refused
    cases refused
  · rintro (twice | missing | ⟨item, member, wrong⟩)
    · exact rules.repeated pathless.arePlain twice
    · exact rules.missing pathless.arePlain missing
    · exact rules.wrong pathless.arePlain member wrong

/-- Arguments that ask no question are refused exactly if whatever they spell is misgiven. -/
theorem refuses_iff {arguments : List String} (unasked : ¬HasInquiry arguments) :
    outcome parse arguments = misuse ↔
      ∀ items, Spells items arguments → Item.Misgiven items := by
  constructor
  · intro refused items spells
    obtain ⟨options, paths, pathless, sorted, whole⟩ := rules.exists_sorted spells
    have misgiven := (rules.outcome_form_eq_misuse_iff pathless).mp (whole.symm.trans refused)
    exact misgiven.perm sorted.symm
  · intro misgiven
    rcases rules.spells_or_refused arguments unasked with ⟨items, spells⟩ | refused
    · obtain ⟨options, paths, pathless, sorted, whole⟩ := rules.exists_sorted spells
      rw [whole]
      exact (rules.outcome_form_eq_misuse_iff pathless).mpr ((misgiven items spells).perm sorted)
    · exact refused [] fun _ => nofun

end Arguments.FollowsRules

namespace Choice

variable {choice : Choice} {hertz cycles : String}

/-- What can be chosen besides the path, and that each of it is chosen once. -/
theorem places_settings (choice : Choice) (hertz cycles : String) :
    ((choice.settings hertz cycles).map Item.place).Sublist
      [.setting .hertz, .setting .cycles, .setting .hold, .flag .fast, .flag .dump] := by
  have rate : ((choice.rate.map fun _ => Item.setting .hertz hertz).toList.map Item.place).Sublist
      [.setting .hertz] := by
    cases choice.rate <;> simp [Item.place]
  have limit :
      ((choice.limit.map fun _ => Item.setting .cycles cycles).toList.map Item.place).Sublist
        [.setting .cycles] := by
    cases choice.limit <;> simp [Item.place]
  have hold : ((choice.hold.map (Item.setting .hold)).toList.map Item.place).Sublist
      [.setting .hold] := by
    cases choice.hold <;> simp [Item.place]
  have flag (flag : Flag) (set : Bool) :
      ((if set then [Item.flag flag] else []).map Item.place).Sublist [.flag flag] := by
    cases set <;> simp [Item.place]
  simp only [settings, List.map_append]
  exact (((rate.append limit).append hold).append (flag .fast _)).append (flag .dump _)

theorem areOptions_settings (choice : Choice) (hertz cycles : String) :
    Arguments.AreOptions (choice.settings hertz cycles) := by
  intro text member
  have placed := (choice.places_settings hertz cycles).mem (List.mem_map_of_mem member)
  simp [Item.place] at placed

/-- Nothing is given twice by a choice. -/
theorem distinct_settings (choice : Choice) (hertz cycles : String) :
    ((Arguments.given (choice.settings hertz cycles) [choice.path]).map Item.place).Nodup := by
  rw [Arguments.given, List.map_append]
  exact ((choice.places_settings hertz cycles).append_right [.path]).nodup (by decide)

section Texts

variable (rate : ∀ rate ∈ choice.rate, Arguments.IsNumeral rate.hertz.toNat hertz)
  (limit : ∀ limit ∈ choice.limit, Arguments.IsNumeral limit.toNat cycles)

include rate limit

/-- What is chosen is what its items make of the options with the path. -/
theorem foldr_settings :
    (choice.settings hertz cycles).foldr Item.apply { path := choice.path } =
      { path := choice.path
        rate := choice.rate.getD .standard
        limit := choice.limit
        hold := choice.hold.getD ""
        fast := choice.fast
        dump := choice.dump } := by
  have rates (options : Options) :
      (choice.rate.map fun _ => Item.setting .hertz hertz).toList.foldr Item.apply options =
        { options with rate := choice.rate.getD options.rate } := by
    cases chosen : choice.rate with
    | none => rfl
    | some fast => simp [Item.apply, Item.change?, Arguments.rate?_eq_some_iff.mpr (rate _ chosen)]
  have limits (options : Options) :
      (choice.limit.map fun _ => Item.setting .cycles cycles).toList.foldr Item.apply options =
        { options with limit := choice.limit.or options.limit } := by
    cases chosen : choice.limit with
    | none => rfl
    | some last =>
        simp [Item.apply, Item.change?, Arguments.limit?_eq_some_iff.mpr (limit _ chosen)]
  have holds (options : Options) :
      (choice.hold.map (Item.setting .hold)).toList.foldr Item.apply options =
        { options with hold := choice.hold.getD options.hold } := by
    cases choice.hold <;> rfl
  have fast (options : Options) :
      (if choice.fast then [Item.flag .fast] else []).foldr Item.apply options =
        { options with fast := choice.fast || options.fast } := by
    cases choice.fast <;> rfl
  have dump (options : Options) :
      (if choice.dump then [Item.flag .dump] else []).foldr Item.apply options =
        { options with dump := choice.dump || options.dump } := by
    cases choice.dump <;> rfl
  simp only [settings, List.foldr_append, rates, limits, holds, fast, dump, Option.or_none,
    Bool.or_false]

/-- Everything that is chosen is right. -/
theorem change?_settings : ∀ item ∈ choice.settings hertz cycles, item.change? ≠ none := by
  intro item member
  simp only [settings, List.mem_append, Option.mem_toList, Option.map_eq_some_iff,
    List.mem_ite_nil_right, List.mem_singleton] at member
  rcases member with (((⟨_, chosen, rfl⟩ | ⟨_, chosen, rfl⟩) | ⟨_, _, rfl⟩) | ⟨_, rfl⟩) | ⟨_, rfl⟩
  · simp [Item.change?, Arguments.rate?_eq_some_iff.mpr (rate _ chosen)]
  · simp [Item.change?, Arguments.limit?_eq_some_iff.mpr (limit _ chosen)]
  all_goals exact Option.some_ne_none _

end Texts

/-- A parser that follows the rules asks for what is spelled. -/
theorem IsSpelledBy.parse_eq {parse : List String → Except Exit Options}
    (rules : Arguments.FollowsRules parse) {arguments : List String}
    (spelled : choice.IsSpelledBy arguments) :
    parse arguments = .ok
      { path := choice.path
        rate := choice.rate.getD .standard
        limit := choice.limit
        hold := choice.hold.getD ""
        fast := choice.fast
        dump := choice.dump } := by
  obtain ⟨items, spells, hertz, cycles, rate, limit, same⟩ := spelled
  obtain ⟨options, paths, pathless, sorted, whole⟩ := rules.exists_sorted spells
  have settings := choice.areOptions_settings hertz cycles
  have behind : (.path choice.path :: choice.settings hertz cycles).Perm
      (Arguments.given (choice.settings hertz cycles) [choice.path]) :=
    (List.perm_append_singleton _ _).symm
  obtain ⟨reordered, single⟩ :=
    pathless.perm settings (sorted.symm.trans (same.trans behind))
  obtain rfl := List.perm_singleton.mp single
  have accepted := rules.parse_of_right choice.path_ne_empty settings
    (choice.distinct_settings hertz cycles) (change?_settings rate limit)
  rw [foldr_settings rate limit, ← Arguments.outcome_eq_ok_iff] at accepted
  have moved : _ = Arguments.outcome parse (Arguments.form _ [choice.path]) :=
    rules.outcome_perm reordered [] pathless.arePlain
  exact Arguments.outcome_eq_ok_iff.mp (whole.trans (moved.trans accepted))

/-- Every choice can be spelled, with the path behind two dashes. -/
theorem exists_isSpelledBy (choice : Choice) : ∃ arguments, choice.IsSpelledBy arguments := by
  let hertz := toString ((choice.rate.map (·.hertz.toNat)).getD 0)
  let cycles := toString ((choice.limit.map (·.toNat)).getD 0)
  have each item (member : item ∈ choice.settings hertz cycles) :
      ∃ argument, Arguments.Gives argument [item] none :=
    ⟨_, Arguments.gives_argument fun text path =>
      absurd (List.mem_singleton.mp path ▸ member) (choice.areOptions_settings hertz cycles text)⟩
  obtain ⟨arguments, spells⟩ := Arguments.exists_spells each [choice.path]
  refine ⟨arguments, _, spells, hertz, cycles, ?_, ?_, List.perm_append_singleton _ _⟩
  · intro rate chosen
    simp only [hertz, Option.mem_def.mp chosen]
    exact Arguments.isNumeral_toString _
  · intro limit chosen
    simp only [cycles, Option.mem_def.mp chosen]
    exact Arguments.isNumeral_toString _

end Choice

namespace Surroundings

variable {surroundings : Surroundings} {arguments : List String} {read : String → FileContents}

/-- The program ends with code two if the parser refuses its arguments, and only then. -/
theorem exit?_eq_two_iff :
    (∃ stderr, surroundings.exit? arguments read = some ⟨2, "", stderr⟩) ↔
      Arguments.outcome surroundings.parse arguments = Arguments.misuse := by
  rw [Arguments.outcome_eq_misuse_iff, exit?]
  cases surroundings.parse arguments with
  | error exit =>
      simp only [Option.some.injEq, Except.error.injEq]
  | ok options =>
      refine iff_of_false ?_ nofun
      rintro ⟨stderr, ended⟩
      obtain ⟨report, -, same⟩ := Option.map_eq_some_iff.mp ended
      unfold exitOf at same
      split at same
      all_goals cases same

/-- **The spelling and the order of arguments do not matter.** Let the parser of the arguments
follow the rules that are documented. Arguments that spell a choice, in any of the forms that
there are and in any order, are taken for a run with exactly the options of that choice; what is
left out is a rate of 60, no limit and no keys that are held down. Arguments that ask no question
about the program are refused, with code two and nothing on standard output, exactly if whatever
they spell gives something twice, no path or an empty one, or a number out of range or none where
one is wanted. -/
theorem spelling_does_not_matter (surroundings : Surroundings)
    (rules : Arguments.FollowsRules surroundings.parse) :
    (∀ (choice : Choice) (arguments : List String), choice.IsSpelledBy arguments →
      surroundings.parse arguments = .ok
        { path := choice.path
          rate := choice.rate.getD ⟨60, by decide⟩
          limit := choice.limit
          hold := choice.hold.getD ""
          fast := choice.fast
          dump := choice.dump }) ∧
    Keypad.holding "" = .ok .released ∧
    ∀ (arguments : List String) (read : String → FileContents), ¬Arguments.HasInquiry arguments →
      ((∃ stderr, surroundings.exit? arguments read = some ⟨2, "", stderr⟩) ↔
        ∀ items, Arguments.Spells items arguments → Item.Misgiven items) :=
  ⟨fun _ _ spelled => spelled.parse_eq rules, rfl,
    fun _ _ unasked => exit?_eq_two_iff.trans (rules.refuses_iff unasked)⟩

/-- Combined letters with the limit attached, an option with an equals sign in its value, the
greatest rate and a path that starts with a dash; a limit and a flag by their names around the path;
and a flag that is given by its letter and by its name. -/
theorem spelling_does_not_matter_of_combined_letters :
    (plain none).parse ["-dfc+007", "--hold=a=b", "--hz", "4294967295", "--", "-rom"] =
      .ok
        { path := "-rom"
          rate := ⟨4294967295, by decide⟩
          limit := some 7
          hold := "a=b"
          fast := true
          dump := true } ∧
    (plain none).parse ["--cycles", "5", "rom", "--dump"] =
      .ok { path := "rom", rate := ⟨60, by decide⟩, limit := some 5, dump := true } ∧
    ∀ read, ∃ stderr,
      (plain none).exit? ["rom", "-f", "--fast"] read = some ⟨2, "", stderr⟩ := by
  obtain ⟨accepts, -, refuses⟩ :=
    spelling_does_not_matter (plain none) Arguments.followsRules_parse
  refine ⟨?combined, ?named, fun read => ?twice⟩
  case combined =>
    have letters : Arguments.Gives "-dfc+007"
        [.flag .dump, .flag .fast, .setting .cycles "+007"] none :=
      @Arguments.Gives.letterDirect [.dump, .fast] .cycles 'c' rfl "+007" (by decide) (by decide)
    have hold : Arguments.Gives "--hold=a=b" [.setting .hold "a=b"] none :=
      .attached .hold "a=b"
    have rate : Arguments.Spells [.setting .hertz "4294967295", .path "-rom"]
        ["--hz", "4294967295", "--", "-rom"] :=
      .value (.setting .hertz) (.inr (by decide)) (.ended ["-rom"])
    refine accepts
      { path := "-rom"
        path_ne_empty := by decide
        rate := some ⟨4294967295, by decide⟩
        limit := some 7
        hold := some "a=b"
        fast := true
        dump := true } _
      ⟨_, .argument letters (.argument hold rate), "4294967295", "+007", ?_, ?_, ?_⟩
    · rintro _ ⟨⟩
      exact ⟨"", 0, .inl rfl, rfl⟩
    · rintro _ ⟨⟩
      exact ⟨"+", 2, .inr rfl, rfl⟩
    · decide
  case named =>
    have flag : Arguments.Spells [.flag .dump] ["--dump"] := .argument (.flag .dump) .none
    have path : Arguments.Spells [.path "rom", .flag .dump] ["rom", "--dump"] :=
      .argument (.path (.inr (by decide))) flag
    have limit : Arguments.Spells [.setting .cycles "5", .path "rom", .flag .dump]
        ["--cycles", "5", "rom", "--dump"] :=
      .value (.setting .cycles) (.inr (by decide)) path
    refine accepts
      { path := "rom"
        path_ne_empty := by decide
        limit := some 5
        dump := true } _
      ⟨_, limit, "", "5", fun _ => nofun, ?_, .swap _ _ _⟩
    rintro _ ⟨⟩
    exact Arguments.isNumeral_toString 5
  case twice =>
    have unasked : ¬Arguments.HasInquiry ["rom", "-f", "--fast"] := by
      rintro ⟨argument, member, inquiry, asks⟩
      have asked := asks.readArgument_eq
      have listed : argument ∈ ["rom", "-f", "--fast"] := member
      simp only [List.mem_cons, List.not_mem_nil, or_false] at listed
      rcases listed with rfl | rfl | rfl <;> cases asked
    refine (refuses _ read unasked).mpr fun items spells => ?_
    have reads : Arguments.read ["rom", "-f", "--fast"] =
        ([.path "rom", .flag .fast, .flag .fast], .complete) := rfl
    obtain rfl := congrArg Prod.fst (reads.symm.trans spells.read_eq)
    exact @Item.Misgiven.repeated _ (.flag .fast) (by decide)

end Surroundings

end ChipEight
