import ChipEight.Proofs.Halting

/-! # Keys held down during a run

The keys that are held down during a run change nothing about its cycles. So the report of a
program that is accepted is that of a session in which it was loaded and no key is held
(`Options.report?_of_fits`).
-/

namespace ChipEight

namespace Machine

variable (machine : Machine) (keypad : Keypad)

/-- No opcode looks at the keys. -/
theorem complete_setKeypad (op : Opcode) :
    (machine.setKeypad keypad).complete op = (machine.complete op).setKeypad keypad := by
  unfold complete
  cases Instruction.decode? op with
  | none => rfl
  | some instruction => cases instruction <;> rfl

theorem map_setKeypad_step :
    machine.step.map (fun next => next.setKeypad keypad) = (machine.setKeypad keypad).step := by
  have fetch : (machine.setKeypad keypad).state.fetch = machine.state.fetch := rfl
  unfold step
  rw [fetch]
  cases machine.state.fetch with
  | ok op => exact congrArg Except.ok (machine.complete_setKeypad keypad op).symm
  | error fault => rfl

end Machine

namespace Session

section Cycles

variable (session : Session) (keypad : Keypad)

theorem holding_collectFrame :
    session.collectFrame.holding keypad = (session.holding keypad).collectFrame := by
  unfold collectFrame Machine.takeFrame
  cases pending : session.machine.state.framePending <;>
    simp only [holding, Machine.setKeypad, pending, Bool.false_eq_true, ↓reduceIte, record]

/-- Which keys are held down makes no difference to a cycle. -/
theorem map_holding_cycle :
    session.cycle.map (fun next => next.holding keypad) = (session.holding keypad).cycle := by
  have steps := session.machine.map_setKeypad_step keypad
  unfold cycle step
  rw [holding, ← steps]
  cases session.machine.step with
  | ok machine => exact congrArg Except.ok (holding_collectFrame ⟨machine, _, _⟩ keypad)
  | error fault => rfl

theorem run?_some_holding (limit : UInt64) :
    (session.holding keypad).run? (some limit) =
      (session.run? (some limit)).map fun (last, fault) => (last.holding keypad, fault) :=
  congrArg some
    (repeatUpTo_map (fun session : Session => session.holding keypad)
      (fun session => session.map_holding_cycle keypad) limit.toNat session)

/-- So is every run. -/
theorem run?_holding (limit : Option UInt64) :
    (session.holding keypad).run? limit =
      (session.run? limit).map fun (last, fault) => (last.holding keypad, fault) := by
  cases limit with
  | some limit => exact session.run?_some_holding keypad limit
  | none =>
      apply Option.ext
      intro outcome
      rw [run?_none_eq_some_iff, run?_some_holding, Option.map_eq_some_iff,
        Option.map_eq_some_iff]
      constructor
      · rintro ⟨⟨reached, ended, rfl⟩, stopped⟩
        exact ⟨reached, run?_none_eq_some_iff.mpr ⟨ended, stopped⟩, rfl⟩
      · rintro ⟨reached, ended, rfl⟩
        obtain ⟨limited, stopped⟩ := run?_none_eq_some_iff.mp ended
        exact ⟨⟨reached, limited, rfl⟩, stopped⟩

end Cycles

end Session

namespace Options

/-- A program that fits is run from the session in which it was loaded, whichever keys are
held down. -/
theorem report?_of_fits (options : Options) {keypad : Keypad}
    (accepted : Keypad.holding options.hold = .ok keypad) {bytes : Array UInt8}
    (fits : bytes.size ≤ Rom.maxSize) (threshold : Option Level) :
    options.report? (.ok bytes) threshold =
      ((Session.loaded options.path ⟨bytes, fits⟩ threshold).run? options.limit).map
        fun (last, fault) => options.reportOf last fault := by
  rw [report?, start_of_fits accepted fits]
  simp only [Session.run?_holding, Option.map_map]
  rfl

/-- Whichever keys are held down, a run gives the same report. -/
theorem report?_of_hold {options : Options} {firstHold secondHold : String}
    {firstKeypad secondKeypad : Keypad} (firstAccepted : Keypad.holding firstHold = .ok firstKeypad)
    (secondAccepted : Keypad.holding secondHold = .ok secondKeypad) (file : FileContents)
    (threshold : Option Level) :
    { options with hold := firstHold }.report? file threshold =
      { options with hold := secondHold }.report? file threshold := by
  cases file with
  | error cause => simp only [report?, start, firstAccepted, secondAccepted]
  | ok bytes =>
      by_cases fits : bytes.size ≤ Rom.maxSize
      · have first :=
          report?_of_fits { options with hold := firstHold } firstAccepted fits threshold
        have second :=
          report?_of_fits { options with hold := secondHold } secondAccepted fits threshold
        exact first.trans second.symm
      · have large := Nat.lt_of_not_le fits
        have first : { options with hold := firstHold }.start (.ok bytes) threshold = .error _ :=
          start_of_large firstAccepted large
        have second : { options with hold := secondHold }.start (.ok bytes) threshold = .error _ :=
          start_of_large secondAccepted large
        rw [report?, report?, first, second]

end Options

end ChipEight
