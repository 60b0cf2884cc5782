import ChipEight.Fault

/-! # Repetition

An action that can fail is repeated up to a number of times. The first fault ends
the repetition and leaves what the last success made.
-/

namespace ChipEight

/-- Repeats an action up to a number of times. The outcome is what the last
success made, together with the fault that ended the repetition early, if any. -/
def repeatUpTo {α : Type} (action : α → Except Fault α) : Nat → α → α × Option Fault
  | 0, current => (current, none)
  | times + 1, current =>
    match action current with
    | .ok next => repeatUpTo action times next
    | .error fault => (current, some fault)

variable {α : Type} {action : α → Except Fault α}

@[simp] theorem repeatUpTo_zero (current : α) : repeatUpTo action 0 current = (current, none) := rfl

theorem repeatUpTo_succ_of_ok {current next : α} (success : action current = .ok next)
    (times : Nat) : repeatUpTo action (times + 1) current = repeatUpTo action times next := by
  simp only [repeatUpTo, success]

theorem repeatUpTo_succ_of_error {current : α} {fault : Fault}
    (failure : action current = .error fault) (times : Nat) :
    repeatUpTo action (times + 1) current = (current, some fault) := by
  simp only [repeatUpTo, failure]

/-- Repetition does not get past an action that fails. -/
theorem fst_repeatUpTo_of_error {current : α} {fault : Fault}
    (failure : action current = .error fault) (times : Nat) :
    (repeatUpTo action times current).1 = current := by
  cases times with
  | zero => rfl
  | succ times => rw [repeatUpTo_succ_of_error failure]

/-- Where the first repetitions all succeed, the others go on from what they made. -/
theorem repeatUpTo_add {current middle : α} {first : Nat}
    (successes : repeatUpTo action first current = (middle, none)) (second : Nat) :
    repeatUpTo action (first + second) current = repeatUpTo action second middle := by
  induction first generalizing current with
  | zero =>
      cases successes
      rw [Nat.zero_add]
  | succ first ih =>
      cases outcome : action current with
      | error fault =>
          rw [repeatUpTo_succ_of_error outcome] at successes
          cases successes
      | ok next =>
          rw [repeatUpTo_succ_of_ok outcome] at successes
          rw [Nat.add_right_comm, repeatUpTo_succ_of_ok outcome, ih successes]

/-- However the first repetitions end, the others go on from what they leave. -/
theorem fst_repeatUpTo_add (current : α) (first second : Nat) :
    (repeatUpTo action (first + second) current).1 =
      (repeatUpTo action second (repeatUpTo action first current).1).1 := by
  induction first generalizing current with
  | zero => rw [Nat.zero_add, repeatUpTo_zero]
  | succ first ih =>
      rw [Nat.add_right_comm]
      cases attempt : action current with
      | ok next => rw [repeatUpTo_succ_of_ok attempt, repeatUpTo_succ_of_ok attempt, ih]
      | error fault =>
          rw [repeatUpTo_succ_of_error attempt, repeatUpTo_succ_of_error attempt,
            fst_repeatUpTo_of_error attempt]

/-- What every success keeps holds after any number of repetitions. -/
theorem repeatUpTo_keeps {Holds : α → Prop}
    (keeps : ∀ current next, Holds current → action current = .ok next → Holds next)
    {current : α} (initially : Holds current) (times : Nat) :
    Holds (repeatUpTo action times current).1 := by
  induction times generalizing current with
  | zero => exact initially
  | succ times ih =>
      cases attempt : action current with
      | ok next =>
          rw [repeatUpTo_succ_of_ok attempt]
          exact ih (keeps current next initially attempt)
      | error fault =>
          rw [repeatUpTo_succ_of_error attempt]
          exact initially

/-- If all repetitions succeed, so do the first of them. -/
theorem exists_repeatUpTo_of_le {current last : α} {times fewer : Nat}
    (successes : repeatUpTo action times current = (last, none)) (enough : fewer ≤ times) :
    ∃ middle, repeatUpTo action fewer current = (middle, none) := by
  induction fewer generalizing current times with
  | zero => exact ⟨current, rfl⟩
  | succ fewer ih =>
      obtain ⟨times, rfl⟩ : ∃ rest, times = rest + 1 := ⟨times - 1, by omega⟩
      cases outcome : action current with
      | error fault =>
          rw [repeatUpTo_succ_of_error outcome] at successes
          cases successes
      | ok next =>
          rw [repeatUpTo_succ_of_ok outcome] at successes ⊢
          exact ih successes (by omega)

/-- An action fails after a number of successes if so many repetitions succeed and the
next one does not. -/
def FailsAfter (action : α → Except Fault α) (current : α) (successes : Nat) : Prop :=
  ∃ last fault, repeatUpTo action successes current = (last, none) ∧ action last = .error fault

/-- An action that fails after some successes fails after the rest of them once the first
are made. -/
theorem FailsAfter.of_add {current middle : α} {first second : Nat}
    (fails : FailsAfter action current (first + second))
    (successes : repeatUpTo action first current = (middle, none)) :
    FailsAfter action middle second := by
  obtain ⟨last, fault, made, failed⟩ := fails
  exact ⟨last, fault, (repeatUpTo_add successes second).symm.trans made, failed⟩

/-- There is at most one number of successes after which an action fails. -/
theorem FailsAfter.unique {current : α} {first second : Nat}
    (fails : FailsAfter action current first) (failsToo : FailsAfter action current second) :
    first = second := by
  -- If one number were smaller, the action would fail where the other run still succeeds.
  have shorter {less more : Nat} (fails : FailsAfter action current less)
      (failsLater : FailsAfter action current more) : more ≤ less := by
    obtain ⟨last, fault, made, failed⟩ := fails
    obtain ⟨_, _, madeMore, _⟩ := failsLater
    apply Nat.le_of_not_lt
    intro longer
    obtain ⟨rest, rfl⟩ := Nat.exists_eq_add_of_lt longer
    rw [Nat.add_assoc, repeatUpTo_add made, repeatUpTo_succ_of_error failed] at madeMore
    cases madeMore
  exact Nat.le_antisymm (shorter failsToo fails) (shorter fails failsToo)

/-- A fault ends a repetition exactly if the action fails after a smaller number of
successes. -/
theorem repeatUpTo_eq_fault_iff {current last : α} {fault : Fault} {times : Nat} :
    repeatUpTo action times current = (last, some fault) ↔
      ∃ successes < times,
        repeatUpTo action successes current = (last, none) ∧ action last = .error fault := by
  constructor
  · intro ended
    induction times generalizing current with
    | zero => cases ended
    | succ times ih =>
        cases outcome : action current with
        | error cause =>
            rw [repeatUpTo_succ_of_error outcome] at ended
            cases ended
            exact ⟨0, Nat.succ_pos times, rfl, outcome⟩
        | ok next =>
            rw [repeatUpTo_succ_of_ok outcome] at ended
            obtain ⟨successes, fewer, made, failed⟩ := ih ended
            refine ⟨successes + 1, Nat.succ_lt_succ fewer, ?_, failed⟩
            rw [repeatUpTo_succ_of_ok outcome, made]
  · rintro ⟨successes, fewer, made, failed⟩
    obtain ⟨rest, rfl⟩ := Nat.exists_eq_add_of_lt fewer
    rw [Nat.add_assoc, repeatUpTo_add made, repeatUpTo_succ_of_error failed]

/-- Where a view of what an action works on is all that decides about success and
about the view of what comes next, repetitions are seen as repetitions. -/
theorem repeatUpTo_map {β : Type} {viewed : β → Except Fault β} (view : α → β)
    (simulates : ∀ current, (action current).map view = viewed (view current))
    (times : Nat) (current : α) :
    repeatUpTo viewed times (view current) =
      (view (repeatUpTo action times current).1, (repeatUpTo action times current).2) := by
  induction times generalizing current with
  | zero => rfl
  | succ times ih =>
      have seen := simulates current
      cases attempt : action current with
      | ok next =>
          rw [attempt] at seen
          rw [repeatUpTo_succ_of_ok attempt, repeatUpTo_succ_of_ok seen.symm, ih]
      | error fault =>
          rw [attempt] at seen
          rw [repeatUpTo_succ_of_error attempt, repeatUpTo_succ_of_error seen.symm]

end ChipEight
