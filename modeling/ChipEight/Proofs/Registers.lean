import ChipEight.Proofs.Drawing
import ChipEight.Proofs.Parity
import ChipEight.Proofs.Reachability

/-! # Registers and timers over a run

What a register holds after a run is what was loaded into it last, or what it held at the start,
and everything that was added to it since. This goes for the flag register too if a draw counts as
loading it with one or zero. The index register holds the address that was set last, and the timers
have counted down once for every step (`Machine.registers_in_closed_form`).
-/

namespace ChipEight

namespace Execution

/-- Whether an execution erased a cell of the frame: it drew on one that held one. -/
def Erases (execution : Execution) : Prop :=
  ∃ pixel, execution.Hits pixel ∧ execution.state.frame.cell pixel = 1

/-- An execution erases pixels if it draws a sprite that collides. -/
theorem erases_iff {execution : Execution} :
    execution.Erases ↔ execution.op.family.val = 0xD ∧
      (execution.state.sprite execution.op.x execution.op.y execution.op.n.val).collides
        execution.state.frame = true := by
  rw [State.collides_sprite_iff _ _ _ execution.op.n_le, ← exists_and_left]
  simp only [Erases, Hits, and_assoc]

instance (execution : Execution) : Decidable execution.Erases :=
  decidable_of_iff _ erases_iff.symm

/-- The value that an execution loads into a register, if it does. A draw loads the flag register
with one or zero, by whether it erased a cell. -/
def loaded? (register : Register) (execution : Execution) : Option UInt8 :=
  if execution.op.family.val = 0x6 ∧ execution.op.x = register then some execution.op.kk
  else if execution.op.family.val = 0xD ∧ State.flagRegister = register then
    some (if execution.Erases then 1 else 0)
  else none

/-- The number that an execution adds to a register. -/
def added (register : Register) (execution : Execution) : Nat :=
  if execution.op.family.val = 0x7 ∧ execution.op.x = register then execution.op.kk.toNat else 0

/-- The address that an execution sets the index register to, if it does. -/
def indexed? (execution : Execution) : Option Address :=
  if execution.op.family.val = 0xA then some execution.op.address else none

/-- The value that was loaded last into a register. -/
def lastLoaded? (register : Register) (executions : List Execution) : Option UInt8 :=
  (executions.filterMap (loaded? register)).getLast?

/-- The executions after the last one that loaded a register. -/
def sinceLoaded (register : Register) (executions : List Execution) : List Execution :=
  executions.rtakeWhile fun execution => (execution.loaded? register).isNone

/-- The sum of the numbers that were added to a register since it was loaded last. -/
def addedSince (register : Register) (executions : List Execution) : Nat :=
  ((sinceLoaded register executions).map (added register)).sum

/-- The address that the index register was set to last. -/
def lastIndexed? (executions : List Execution) : Option Address :=
  (executions.filterMap indexed?).getLast?

section Concat

variable {register : Register} {execution : Execution} (executions : List Execution)

theorem getLast?_filterMap_concat {α : Type} (select : Execution → Option α) :
    ((executions ++ [execution]).filterMap select).getLast? =
      (select execution).or (executions.filterMap select).getLast? := by
  rw [List.filterMap_append, List.filterMap_cons, List.filterMap_nil]
  cases select execution with
  | some value => rw [List.getLast?_concat, Option.some_or]
  | none => rw [List.append_nil, Option.none_or]

theorem lastLoaded?_concat :
    lastLoaded? register (executions ++ [execution]) =
      (execution.loaded? register).or (lastLoaded? register executions) :=
  getLast?_filterMap_concat executions (loaded? register)

theorem lastIndexed?_concat :
    lastIndexed? (executions ++ [execution]) = execution.indexed?.or (lastIndexed? executions) :=
  getLast?_filterMap_concat executions indexed?

/-- A load starts the sum anew. -/
theorem addedSince_concat_of_loads {value : UInt8}
    (loads : execution.loaded? register = some value) :
    addedSince register (executions ++ [execution]) = 0 := by
  have nothing : sinceLoaded register (executions ++ [execution]) = [] :=
    List.rtakeWhile_concat_neg _ _ _ (by rw [loads]; exact Bool.false_ne_true)
  rw [addedSince, nothing, List.map_nil, List.sum_nil]

theorem addedSince_concat (keeps : execution.loaded? register = none) :
    addedSince register (executions ++ [execution]) =
      addedSince register executions + execution.added register := by
  have one : sinceLoaded register (executions ++ [execution]) =
      sinceLoaded register executions ++ [execution] :=
    List.rtakeWhile_concat_pos _ _ _ (by rw [keeps]; rfl)
  rw [addedSince, one, List.map_append, List.sum_append, List.map_singleton, List.sum_singleton,
    addedSince]

end Concat

end Execution

namespace Machine

/-- An execution loads a register or adds to it, and adding nothing leaves it. -/
theorem toNat_register_complete (machine : Machine) (op : Opcode) (register : Register) :
    ((machine.complete op).state.register register).toNat =
      match Execution.loaded? register ⟨machine.state, op⟩ with
      | some value => value.toNat
      | none => ((machine.state.register register).toNat +
          Execution.added register ⟨machine.state, op⟩) % 256 := by
  have six : op.family = 0x6 ↔ op.family.val = 0x6 := Fin.ext_iff
  have seven : op.family = 0x7 ↔ op.family.val = 0x7 := Fin.ext_iff
  have thirteen : op.family = 0xD ↔ op.family.val = 0xD := Fin.ext_iff
  simp only [register_complete, six, seven, thirteen, Execution.loaded?]
  by_cases loads : op.family.val = 0x6 ∧ op.x = register
  · rw [if_pos loads, if_pos loads]
  rw [if_neg loads, if_neg loads]
  by_cases draws : op.family.val = 0xD ∧ State.flagRegister = register
  · have other : ¬(op.family.val = 0x7 ∧ op.x = register) := fun adds => by omega
    rw [if_neg other, if_pos draws, if_pos draws]
    simp only [Execution.erases_iff, draws.1, true_and]
  rw [if_neg draws, if_neg draws]
  simp only [Execution.added]
  split
  · exact UInt8.toNat_add _ _
  · exact (Nat.mod_eq_of_lt (machine.state.register register).toNat_lt).symm

/-- The registers and timers of a machine are those of an earlier one after some executions: each
register holds what was loaded into it last and what was added to it since, up to multiples of
256. -/
structure HasSummed (machine earlier : Machine) (executions : List Execution) : Prop where
  register : ∀ register, (machine.state.register register).toNat =
    (((Execution.lastLoaded? register executions).getD (earlier.state.register register)).toNat +
      Execution.addedSince register executions) % 256
  index : machine.state.index.toNat =
    ((Execution.lastIndexed? executions).map Fin.val).getD earlier.state.index.toNat
  delayTimer : machine.state.delayTimer.toNat = earlier.state.delayTimer.toNat - executions.length
  soundTimer : machine.state.soundTimer.toNat = earlier.state.soundTimer.toNat - executions.length
  memory : machine.state.memory = earlier.state.memory
  keypad : machine.state.keypad = earlier.state.keypad

theorem hasSummed_refl (machine : Machine) : machine.HasSummed machine [] where
  register := fun register => (Nat.mod_eq_of_lt (machine.state.register register).toNat_lt).symm
  index := rfl
  delayTimer := rfl
  soundTimer := rfl
  memory := rfl
  keypad := rfl

/-- One more execution keeps the sums right. -/
theorem HasSummed.complete {machine earlier : Machine} {executions : List Execution}
    (sums : machine.HasSummed earlier executions) (op : Opcode) :
    (machine.complete op).HasSummed earlier (executions ++ [⟨machine.state, op⟩]) where
  register := by
    intro register
    rw [toNat_register_complete, Execution.lastLoaded?_concat]
    cases loads : Execution.loaded? register ⟨machine.state, op⟩ with
    | some value =>
        rw [Execution.addedSince_concat_of_loads executions loads]
        exact (Nat.mod_eq_of_lt value.toNat_lt).symm
    | none =>
        rw [Execution.addedSince_concat executions loads, Option.none_or, ← Nat.add_assoc]
        simp only [sums.register register, Nat.mod_add_mod]
  index := by
    rw [index_complete, Execution.lastIndexed?_concat, Execution.indexed?]
    by_cases sets : op.family = 0xA
    · have setsToo : op.family.val = 0xA := Fin.ext_iff.mp sets
      rw [if_pos sets, if_pos setsToo]
      exact Settled.toNat_address op
    · have setsNot : ¬op.family.val = 0xA := fun same => sets (Fin.ext same)
      rw [if_neg sets, if_neg setsNot]
      exact sums.index
  delayTimer := by
    rw [delayTimer_complete, State.toNat_countDown, sums.delayTimer, List.length_append,
      List.length_singleton, Nat.sub_sub]
  soundTimer := by
    rw [soundTimer_complete, State.toNat_countDown, sums.soundTimer, List.length_append,
      List.length_singleton, Nat.sub_sub]
  memory := (machine.memory_complete op).trans sums.memory
  keypad := (machine.keypad_complete op).trans sums.keypad

/-- The sums are right after every run. -/
theorem hasSummed_repeatUpTo (machine : Machine) (steps : Nat) :
    (repeatUpTo step steps machine).1.HasSummed machine (machine.executions steps) := by
  have kept := machine.run_keeps (fun executions execution => executions ++ [execution])
    (fun executions last => last.HasSummed machine executions)
    (fun _ _ op _ sums => sums.complete op) steps machine.hasSummed_refl
  rwa [List.foldl_append_eq_append, ← List.flatMap_def, List.flatMap_singleton',
    List.nil_append] at kept

/-- **Registers and timers in closed form.** Let a number of steps succeed on any machine. They
execute one opcode each, the one that is fetched after as many steps as there were before it. After
them each register holds the value that was loaded into it last, or the one it held at the start if
none was, and the sum of what was added to it since, modulo 256. Only a load counts as loading a
register, but for the flag register, which every draw loads with one or zero, by whether it erased
a cell that held one. The index register holds the address that was set last, or what it held at
the start, and the timers have counted down by the number of steps, but not below zero. Memory and
keys are what they were. -/
theorem registers_in_closed_form (machine last : Machine) (steps : Nat)
    (successes : repeatUpTo step steps machine = (last, none)) :
    let executions := machine.executions steps
    executions.length = steps ∧
      (∀ number < steps, ∃ op,
        let current := (repeatUpTo step number machine).1
        current.state.fetch = .ok op ∧ executions[number]? = some ⟨current.state, op⟩) ∧
      last.HasSummed machine executions := by
  intro executions
  have sums := machine.hasSummed_repeatUpTo steps
  rw [successes] at sums
  exact ⟨length_executions successes, fun _ below => getElem?_executions successes below, sums⟩

/-- A program that loads the flag register, adds to it, and adds to it again after each of two
draws, of which only the second one erases something. -/
theorem registers_in_closed_form_between_draws :
    let program : Rom :=
      ⟨#[0x6F, 0x05, 0x7F, 0xFF, 0xD0, 0x05, 0x7F, 0x03, 0xD0, 0x05, 0x7F, 0x07, 0xA1, 0x23,
        0x81, 0x20], by decide⟩
    let state : State := { (loaded program).state with delayTimer := 10, soundTimer := 3 }
    let machine : Machine := starting state
    (repeatUpTo step 2 machine).1.state.register State.flagRegister = 4 ∧
      ∃ last, repeatUpTo step 8 machine = (last, none) ∧
        (last.state.register State.flagRegister).toNat = 8 ∧ last.state.index.toNat = 0x123 ∧
        last.state.delayTimer.toNat = 2 ∧ last.state.soundTimer.toNat = 0 := by
  intro program state machine
  have successes : repeatUpTo step 8 machine = ((repeatUpTo step 8 machine).1, none) :=
    Prod.ext rfl (by decide)
  obtain ⟨_, _, sums⟩ := registers_in_closed_form machine _ 8 successes
  exact ⟨by decide, _, successes, (sums.register State.flagRegister).trans (by decide),
    sums.index.trans (by decide), sums.delayTimer.trans (by decide),
    sums.soundTimer.trans (by decide)⟩

end Machine

end ChipEight
