import ChipEight.Arguments

/-! # Numerals among the arguments

The texts that are read as a number are its decimal digits, behind any number of zeros and behind
a plus sign if there is one (`Arguments.number?_eq_some_iff`). So the text of a rate or of a limit
is accepted exactly if it is such a numeral of a number in range (`Arguments.rate?_eq_some_iff`,
`Arguments.limit?_eq_some_iff`).
-/

namespace ChipEight

namespace Arguments

/-- A text stands for a number: its decimal digits, behind zeros and a plus sign if there are
any. -/
def IsNumeral (number : Nat) (text : String) : Prop :=
  ∃ (sign : String) (zeros : Nat), (sign = "" ∨ sign = "+") ∧
    text = sign ++ String.ofList (List.replicate zeros '0') ++ toString number

/-! ## Digits -/

section Digits

variable {digit : Char} {digits : List Char}

theorem isDigit_iff : digit.isDigit = true ↔ 48 ≤ digit.toNat ∧ digit.toNat ≤ 57 :=
  Char.isDigit_iff_toNat

theorem digitChar_of_isDigit (decimal : digit.isDigit = true) :
    (digit.toNat - 48).digitChar = digit := by
  rw [isDigit_iff] at decimal
  apply Char.toNat_inj.mp
  rw [Nat.toNat_digitChar_of_lt_ten (by omega)]
  omega

/-- Digits that follow those of a positive number continue them. -/
theorem toDigits_append (decimal : ∀ digit ∈ digits, digit.isDigit = true) {number : Nat}
    (positive : 0 < number) :
    Nat.toDigits 10 number ++ digits = Nat.toDigits 10 (Nat.ofDigitChars 10 digits number) := by
  induction digits generalizing number with
  | nil => rw [List.append_nil, Nat.ofDigitChars_nil]
  | cons digit rest ih =>
      obtain ⟨first, others⟩ := List.forall_mem_cons.mp decimal
      have low : digit.toNat - 48 < 10 := by
        rw [isDigit_iff] at first
        omega
      have joined := Nat.toDigits_append_toDigits (b := 10) (by decide) positive low
      rw [Nat.toDigits_of_lt_base low, digitChar_of_isDigit first] at joined
      rw [Nat.ofDigitChars_cons, show '0'.toNat = 48 from rfl, ← ih others (by omega), ← joined,
        List.append_assoc, List.singleton_append]

/-- Digits without a zero in front are those of the number that they make. -/
theorem eq_toDigits (decimal : ∀ other ∈ digit :: digits, other.isDigit = true)
    (leading : digit ≠ '0') :
    digit :: digits = Nat.toDigits 10 (Nat.ofDigitChars 10 (digit :: digits) 0) := by
  obtain ⟨first, others⟩ := List.forall_mem_cons.mp decimal
  have positive : 0 < digit.toNat - 48 := by
    have bounds := isDigit_iff.mp first
    have other : digit.toNat ≠ 48 := fun same => leading (Char.toNat_inj.mp same)
    omega
  have low : digit.toNat - 48 < 10 := by
    rw [isDigit_iff] at first
    omega
  have continued := toDigits_append others positive
  rw [Nat.toDigits_of_lt_base low, digitChar_of_isDigit first] at continued
  rw [Nat.ofDigitChars_cons, Nat.mul_zero, Nat.zero_add]
  exact continued

/-- Some digits are those of the number that they make, behind zeros. -/
theorem exists_zeros (decimal : ∀ digit ∈ digits, digit.isDigit = true) (some : digits ≠ []) :
    ∃ zeros, digits =
      List.replicate zeros '0' ++ Nat.toDigits 10 (Nat.ofDigitChars 10 digits 0) := by
  induction digits with
  | nil => exact absurd rfl some
  | cons digit rest ih =>
      by_cases zero : digit = '0'
      · subst zero
        cases rest with
        | nil => exact ⟨0, rfl⟩
        | cons next others =>
            obtain ⟨zeros, split⟩ := ih (List.forall_mem_cons.mp decimal).2 (List.cons_ne_nil _ _)
            refine ⟨zeros + 1, ?_⟩
            rw [Nat.ofDigitChars_cons, List.replicate_succ, List.cons_append]
            exact congrArg _ split
      · exact ⟨0, eq_toDigits decimal zero⟩

/-- Digits stand for a number: its own, behind zeros if there are any. -/
def IsDecimal (number : Nat) (digits : List Char) : Prop :=
  ∃ zeros, digits = List.replicate zeros '0' ++ Nat.toDigits 10 number

theorem IsDecimal.isDigit {number : Nat} (decimal : IsDecimal number digits) :
    ∀ digit ∈ digits, digit.isDigit = true := by
  obtain ⟨zeros, rfl⟩ := decimal
  intro digit member
  rcases List.mem_append.mp member with filled | own
  · rw [List.eq_of_mem_replicate filled]
    rfl
  · exact Nat.isDigit_of_mem_toDigits (by decide) (by decide) own

theorem IsDecimal.ne_nil {number : Nat} (decimal : IsDecimal number digits) : digits ≠ [] := by
  obtain ⟨zeros, rfl⟩ := decimal
  exact List.append_ne_nil_of_right_ne_nil _ Nat.toDigits_ne_nil

theorem IsDecimal.ofDigitChars_eq {number : Nat} (decimal : IsDecimal number digits) :
    Nat.ofDigitChars 10 digits 0 = number := by
  obtain ⟨zeros, rfl⟩ := decimal
  rw [Nat.ofDigitChars_append, Nat.ofDigitChars_replicate_zero, Nat.mul_zero,
    Nat.ofDigitChars_ten_toDigits]

/-- Some digits stand for the number that they make, and for no other one. -/
theorem isDecimal_iff {number : Nat} :
    IsDecimal number digits ↔
      (digits ≠ [] ∧ digits.all Char.isDigit = true) ∧ Nat.ofDigitChars 10 digits 0 = number := by
  rw [List.all_eq_true]
  constructor
  · intro decimal
    exact ⟨⟨decimal.ne_nil, decimal.isDigit⟩, decimal.ofDigitChars_eq⟩
  · rintro ⟨⟨some, decimal⟩, rfl⟩
    exact exists_zeros decimal some

end Digits

/-! ## Numbers -/

variable {number : Nat} {text : String}

/-- A numeral, with its sign looked at first. -/
theorem isNumeral_iff :
    IsNumeral number text ↔
      IsDecimal number text.toList ∨
        ∃ digits, text.toList = '+' :: digits ∧ IsDecimal number digits := by
  have toList (sign : String) (zeros : Nat) :
      text = sign ++ String.ofList (List.replicate zeros '0') ++ toString number ↔
        text.toList = sign.toList ++ (List.replicate zeros '0' ++ Nat.toDigits 10 number) := by
    rw [← String.toList_inj, String.toList_append, String.toList_append, String.toList_ofList,
      Nat.toString_eq_repr, Nat.toList_repr, List.append_assoc]
  constructor
  · rintro ⟨sign, zeros, rfl | rfl, spelled⟩
    · exact .inl ⟨zeros, (toList "" zeros).mp spelled⟩
    · exact .inr ⟨_, (toList "+" zeros).mp spelled, zeros, rfl⟩
  · rintro (⟨zeros, spelled⟩ | ⟨_, signed, zeros, rfl⟩)
    · exact ⟨"", zeros, .inl rfl, (toList "" zeros).mpr spelled⟩
    · exact ⟨"+", zeros, .inr rfl, (toList "+" zeros).mpr signed⟩

/-- The digits of a number are one of its numerals. -/
theorem isNumeral_toString (number : Nat) : IsNumeral number (toString number) :=
  ⟨"", 0, .inl rfl, (String.empty_append).symm⟩

/-- Behind a sign the digits are read. -/
theorem number?_signed_eq_some_iff {digits : List Char} :
    number? ('+' :: digits) = some number ↔ IsDecimal number digits := by
  simp only [number?, Option.ite_none_right_eq_some, Option.some.injEq, isDecimal_iff]

/-- Without a sign all of the text is read. -/
theorem number?_unsigned_eq_some_iff {digits : List Char} (unsigned : digits.head? ≠ some '+') :
    number? digits = some number ↔ IsDecimal number digits := by
  unfold number?
  split
  · exact absurd rfl unsigned
  · simp only [Option.ite_none_right_eq_some, Option.some.injEq, isDecimal_iff]

/-- The numbers that are read are those that texts stand for. -/
theorem number?_eq_some_iff : number? text.toList = some number ↔ IsNumeral number text := by
  rw [isNumeral_iff]
  by_cases sign : text.toList.head? = some '+'
  · obtain ⟨digits, signed⟩ := List.head?_eq_some_iff.mp sign
    -- A sign is no digit, so that the digits can only stand behind it.
    have undecimal : ¬IsDecimal number text.toList := fun decimal =>
      absurd (decimal.isDigit '+' (List.mem_of_mem_head? sign)) (by decide)
    rw [signed] at undecimal ⊢
    simp only [number?_signed_eq_some_iff, undecimal, List.cons.injEq, true_and, false_or,
      exists_eq_left']
  · have unsigned (digits : List Char) : text.toList ≠ '+' :: digits := by
      rintro signed
      rw [signed] at sign
      exact sign rfl
    simp only [number?_unsigned_eq_some_iff sign, unsigned, false_and, exists_false, or_false]

theorem number?_toString (number : Nat) : number? (toString number).toList = some number :=
  number?_eq_some_iff.mpr (isNumeral_toString number)

/-- A text stands for one number at most. -/
theorem IsNumeral.unique {other : Nat} (numeral : IsNumeral number text)
    (another : IsNumeral other text) : number = other :=
  Option.some.inj
    ((number?_eq_some_iff.mpr numeral).symm.trans (number?_eq_some_iff.mpr another))

end Arguments

/-- The numbers from one on that fit into a word are rates. -/
theorem Rate.ofNat?_eq_some_iff {number : Nat} {rate : Rate} :
    ofNat? number = some rate ↔ number = rate.hertz.toNat := by
  unfold ofNat?
  constructor
  · intro same
    split at same
    case isTrue bounds =>
      cases same
      exact (UInt32.toNat_ofNat_of_lt' bounds.2).symm
    case isFalse => cases same
  · rintro rfl
    rw [dif_pos ⟨rate.positive, rate.hertz.toNat_lt⟩]
    obtain ⟨hertz, positive⟩ := rate
    simp only [UInt32.ofNat_toNat]

/-- Zero is no rate, and neither is a number that is too large for one. -/
theorem Rate.ofNat?_eq_none_iff {number : Nat} :
    ofNat? number = none ↔ number = 0 ∨ UInt32.size ≤ number := by
  unfold ofNat?
  split
  case isTrue bounds => exact iff_of_false nofun (by omega)
  case isFalse outside => exact iff_of_true rfl (by omega)

namespace Arguments

variable {text : String}

/-- A text is accepted as a rate if it stands for its number. -/
theorem rate?_eq_some_iff {rate : Rate} :
    rate? text.toList = some rate ↔ IsNumeral rate.hertz.toNat text := by
  simp only [rate?, Option.bind_eq_some_iff, number?_eq_some_iff, Rate.ofNat?_eq_some_iff,
    exists_eq_right]

/-- A text is refused as a rate if it stands for no number in range. -/
theorem rate?_eq_none_iff :
    rate? text.toList = none ↔
      ∀ number, IsNumeral number text → number = 0 ∨ UInt32.size ≤ number := by
  simp only [rate?, Option.bind_eq_none_iff, number?_eq_some_iff, Rate.ofNat?_eq_none_iff]

/-- A text is accepted as a limit if it stands for its number. -/
theorem limit?_eq_some_iff {limit : UInt64} :
    limit? text.toList = some limit ↔ IsNumeral limit.toNat text := by
  rw [← number?_eq_some_iff, limit?]
  cases number? text.toList with
  | none => exact iff_of_false nofun nofun
  | some number =>
      simp only [Option.ite_none_right_eq_some, Option.some.injEq]
      constructor
      · rintro ⟨fits, rfl⟩
        exact (UInt64.toNat_ofNat_of_lt' fits).symm
      · rintro rfl
        exact ⟨limit.toNat_lt, UInt64.ofNat_toNat⟩

/-- A text is refused as a limit if it stands for no number in range. -/
theorem limit?_eq_none_iff :
    limit? text.toList = none ↔ ∀ number, IsNumeral number text → UInt64.size ≤ number := by
  simp only [← number?_eq_some_iff, limit?]
  cases number? text.toList with
  | none => exact iff_of_true rfl nofun
  | some number => simp

end Arguments

end ChipEight
