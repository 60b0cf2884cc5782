import ChipEight.Proofs.Hosting
import Mathlib.Data.List.DropRight

/-! # What a call does

A call does one of four things (`Call.effect`): it puts a program in place, completes an
opcode, takes the frame, or changes at most the keypad. What a history has done since the last
call of some kind is read off the calls after it (`Call.since`). Whatever the calls so far are
meant to say about the machine holds after every history if each further call keeps it
(`Operation.performAll_keeps_calls`).
-/

namespace ChipEight

namespace Operation

/-- What the calls say about the machine holds after every history if each further call keeps
it so. -/
theorem performAll_keeps_calls (Holds : List Call → Machine → Prop)
    (keeps : ∀ earlier call, Holds earlier call.machine → Holds (earlier ++ [call]) call.next)
    (operations : List Operation) {machine : Machine} (initially : Holds [] machine) :
    Holds (calls operations machine) (performAll operations machine) := by
  have collected (earlier later : List Call) :
      later.foldl (fun calls call => calls ++ [call]) earlier = earlier ++ later := by
    induction later generalizing earlier with
    | nil => rw [List.foldl_nil, List.append_nil]
    | cons call rest ih => rw [List.foldl_cons, ih, List.append_assoc, List.singleton_append]
  have kept := performAll_keeps (fun calls call => calls ++ [call]) Holds keeps operations initially
  rw [collected, List.nil_append] at kept
  exact kept

end Operation

namespace Call

/-- Whether a call puts a program into the machine. -/
def installs (call : Call) : Bool :=
  call.operation.installs

/-- Whether a call asks for the frame if it is pending. -/
def polls (call : Call) : Bool :=
  match call.operation with
  | .takeFrame => true
  | _ => false

/-- What a call can do to a machine. -/
inductive Effect (call : Call) : Prop
  /-- A program is put into a machine that has not run yet. -/
  | installs (memory : Memory) (installs : call.installs = true)
      (next : call.next = .starting (.starting memory))
  | executes (op : Opcode) (installs : call.installs = false) (polls : call.polls = false)
      (executes : call.opcode? = some op) (next : call.next = call.machine.complete op)
  | polls (installs : call.installs = false) (polls : call.polls = true)
      (executes : call.opcode? = none) (next : call.next = call.machine.takeFrame.2)
  /-- At most some keys are pressed or let go. -/
  | hosts (keypad : Keypad) (installs : call.installs = false) (polls : call.polls = false)
      (executes : call.opcode? = none) (next : call.next = call.machine.setKeypad keypad)

/-- A request for a key changes at most the keypad. -/
theorem exists_setKeypad_answer (machine : Machine) (key : UInt8) (held : Bool) :
    ∃ keypad, (machine.answer (machine.putKey key held)).2 = machine.setKeypad keypad := by
  unfold Machine.putKey
  cases Key.ofByte key with
  | ok key => exact ⟨_, rfl⟩
  | error fault => exact ⟨machine.state.keypad, rfl⟩

/-- Every call has one of these effects. What is refused leaves the keypad as well. -/
theorem effect (call : Call) : call.Effect := by
  obtain ⟨machine, operation⟩ := call
  cases operation with
  | restart => exact .installs Memory.powerOn rfl rfl
  | reset => exact .installs Memory.powerOn rfl rfl
  | load bytes =>
      by_cases fits : bytes.size ≤ Rom.maxSize
      · refine .installs (Rom.memory ⟨bytes, fits⟩) (decide_eq_true fits) ?_
        simp only [next, Operation.perform, Rom.ofBytes_of_le fits, Except.map, Machine.answer]
        rfl
      · refine .hosts machine.state.keypad (decide_eq_false fits) rfl rfl ?_
        simp only [next, Operation.perform, Rom.ofBytes_of_lt (Nat.lt_of_not_le fits), Except.map,
          Machine.answer]
        rfl
  | step =>
      cases fetched : machine.state.fetch with
      | ok op =>
          have success := Machine.step_eq_ok_iff.mpr ⟨op, fetched, rfl⟩
          refine .executes op rfl rfl ?_ ?_
          · simp only [opcode?, fetched]
          · simp only [next, Operation.perform, success, Machine.answer]
      | error fault =>
          have failure := Machine.step_eq_error_iff.mpr fetched
          refine .hosts machine.state.keypad rfl rfl ?_ ?_
          · simp only [opcode?, fetched]
          · simp only [next, Operation.perform, failure, Machine.answer]
            rfl
  | takeFrame => exact .polls rfl rfl rfl rfl
  | viewFrame => exact .hosts machine.state.keypad rfl rfl rfl rfl
  | press key =>
      obtain ⟨keypad, put⟩ := exists_setKeypad_answer machine key true
      exact .hosts keypad rfl rfl rfl put
  | release key =>
      obtain ⟨keypad, put⟩ := exists_setKeypad_answer machine key false
      exact .hosts keypad rfl rfl rfl put
  | setKeys keypad => exact .hosts keypad rfl rfl rfl rfl

/-! ## Calls since another -/

/-- The calls after the last one of some kind, or all of them if there was none. -/
def since (ends : Call → Bool) (calls : List Call) : List Call :=
  calls.rtakeWhile fun call => !ends call

/-- The opcodes that some calls executed. -/
def executed (calls : List Call) : List Opcode :=
  calls.filterMap opcode?

variable {ends : Call → Bool} {calls : List Call} {call : Call}

/-- A call of the kind that is looked for leaves nothing since. -/
theorem since_concat_of_ends (last : ends call = true) : since ends (calls ++ [call]) = [] :=
  List.rtakeWhile_concat_neg _ _ _ (by rw [last]; decide)

theorem since_concat (goesOn : ends call = false) :
    since ends (calls ++ [call]) = since ends calls ++ [call] :=
  List.rtakeWhile_concat_pos _ _ _ (by rw [goesOn]; rfl)

/-- A call that executes an opcode adds it behind the others. -/
theorem executed_concat_some {op : Opcode} (executes : call.opcode? = some op) :
    executed (calls ++ [call]) = executed calls ++ [op] := by
  simp only [executed, List.filterMap_append, List.filterMap_cons, executes, List.filterMap_nil]

theorem executed_concat_none (executes : call.opcode? = none) :
    executed (calls ++ [call]) = executed calls := by
  simp only [executed, List.filterMap_append, List.filterMap_cons, executes, List.filterMap_nil,
    List.append_nil]

end Call

end ChipEight
