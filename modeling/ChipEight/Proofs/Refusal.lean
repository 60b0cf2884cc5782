import ChipEight.Proofs.Hosting

/-! # Refusals

An operation that is refused changes nothing, although it is carried out piece by piece and
nothing is undone (`Operation.procedure_eq`): whatever can fail comes before the first change.
A machine that cannot step is halted: until a program is installed, whatever else is asked of
it, it stays where it is and every further step fails in the same way
(`Machine.refusals_change_nothing`).
-/

namespace ChipEight

/-- Work on a machine that may fail. What it has changed until then stays changed. -/
abbrev Procedure := EStateM Fault Machine

namespace Procedure

/-- Fetches the opcode, moves past it, and executes it or notes that it is skipped. The state
is put in place at the end, and the account of skipped opcodes before that. -/
def step : Procedure Reply := do
  let op ← MonadExcept.ofExcept (← get).state.fetch
  let fetched := (← get).state.passOpcode
  let next ←
    match Instruction.decode? op with
    | some instruction => pure (instruction.execute fetched)
    | none => do
      modify fun machine => { machine with skipped := machine.skipped + 1, lastSkipped := some op }
      pure fetched
  modify fun machine => { machine with state := next.tick }
  return .done

/-- Resets the machine, unless the program is too large, and writes it to the memory. -/
def load (bytes : Array UInt8) : Procedure Reply := do
  if Rom.maxSize < bytes.size then
    throw (.romTooLarge bytes.size Rom.maxSize)
  set Machine.powerOn
  modify fun machine =>
    { machine with
      state :=
        { machine.state with memory := machine.state.memory.write Memory.programStart bytes } }
  return .done

/-- Puts a key down or lets it go, if there is one of this number. -/
def put (key : UInt8) (held : Bool) : Procedure Reply := do
  let key ← MonadExcept.ofExcept (Key.ofByte key)
  modify fun machine => machine.setKeypad (machine.state.keypad.put key held)
  return .done

/-- Hands out the frame if it is pending. -/
def takeFrame : Procedure Reply := do
  if (← get).state.framePending then
    modify fun machine => { machine with state := { machine.state with framePending := false } }
    return .frame (some (← get).state.frame)
  else
    return .frame none

theorem get_bind {α : Type} (next : Machine → Procedure α) (machine : Machine) :
    (get >>= next : Procedure α) machine = next machine machine := rfl

/-- A fault ends a procedure in the machine that it was raised in. -/
theorem ofExcept_bind {α β : Type} (outcome : Except Fault α) (next : α → Procedure β)
    (machine : Machine) :
    (MonadExcept.ofExcept outcome >>= next) machine =
      match outcome with
      | .ok value => next value machine
      | .error fault => .error fault machine := by
  cases outcome <;> rfl

/-- An attempt on a machine as work on it: a failure leaves the machine. -/
def attempt (outcome : Machine → Except Fault Machine) : Procedure Reply := fun machine =>
  match outcome machine with
  | .ok next => .ok .done next
  | .error fault => .error fault machine

/-- A step is made at once or not at all. -/
theorem step_eq : step = attempt Machine.step := by
  funext machine
  unfold attempt Machine.step Machine.complete
  simp only [step, get_bind, ofExcept_bind]
  cases machine.state.fetch with
  | error fault => rfl
  | ok op =>
      simp only [Except.map]
      cases Instruction.decode? op <;> rfl

theorem load_eq (bytes : Array UInt8) :
    load bytes = attempt fun _ => (Rom.ofBytes bytes).map Machine.loaded := by
  funext machine
  unfold attempt
  by_cases fits : bytes.size ≤ Rom.maxSize
  · simp only [load, Nat.not_lt.mpr fits, ↓reduceIte, Rom.ofBytes_of_le fits]
    rfl
  · simp only [load, Nat.lt_of_not_le fits, ↓reduceIte, Rom.ofBytes_of_lt (Nat.lt_of_not_le fits)]
    rfl

theorem put_eq (key : UInt8) (held : Bool) :
    put key held = attempt fun machine => machine.putKey key held := by
  funext machine
  unfold attempt put Machine.putKey
  cases Key.ofByte key <;> rfl

end Procedure

namespace Operation

/-- An operation piece by piece. -/
def procedure : Operation → Procedure Reply
  | .restart => do
    set Machine.powerOn
    return .done
  | .reset => do
    set Machine.powerOn
    return .done
  | .load bytes => Procedure.load bytes
  | .step => Procedure.step
  | .takeFrame => Procedure.takeFrame
  | .viewFrame => return .frame (some (← get).state.frame)
  | .press key => Procedure.put key true
  | .release key => Procedure.put key false
  | .setKeys keypad => do
    modify fun machine => machine.setKeypad keypad
    return .done

/-- Carried out piece by piece, an operation replies what it replies as a whole, and leaves the
same machine. -/
theorem procedure_eq (operation : Operation) (machine : Machine) :
    operation.procedure machine =
      match operation.perform machine with
      | (.refused fault, next) => .error fault next
      | (reply, next) => .ok reply next := by
  have attempted (outcome : Machine → Except Fault Machine) :
      Procedure.attempt outcome machine =
        match machine.answer (outcome machine) with
        | (.refused fault, next) => .error fault next
        | (reply, next) => .ok reply next := by
    unfold Procedure.attempt Machine.answer
    cases outcome machine <;> rfl
  cases operation with
  | restart => rfl
  | reset => rfl
  | load bytes => exact (congrFun (Procedure.load_eq bytes) machine).trans (attempted _)
  | step => exact (congrFun Procedure.step_eq machine).trans (attempted _)
  | takeFrame =>
      simp only [procedure, Procedure.takeFrame, perform, Machine.takeFrame, Procedure.get_bind]
      cases machine.state.framePending <;> rfl
  | viewFrame => rfl
  | press key => exact (congrFun (Procedure.put_eq key true) machine).trans (attempted _)
  | release key => exact (congrFun (Procedure.put_eq key false) machine).trans (attempted _)
  | setKeys keypad => rfl

/-! ## What is refused -/

/-- The fault for which an operation is refused, if it is: a program that does not fit, a step
from the last byte of the memory or from past it, and a key that is not on the keypad. -/
def fault? : Operation → Machine → Option Fault
  | .load bytes, _ => if 3584 < bytes.size then some (.romTooLarge bytes.size 3584) else none
  | .step, machine =>
    if 0xFFF ≤ machine.state.pc.toNat then
      some (.outOfBounds (max machine.state.pc.toNat 0x1000))
    else none
  | .press key, _ => if 0xF < key.toNat then some (.invalidKey key) else none
  | .release key, _ => if 0xF < key.toNat then some (.invalidKey key) else none
  | _, _ => none

theorem load_eq_error_iff (bytes : Array UInt8) (machine : Machine) (fault : Fault) :
    (Rom.ofBytes bytes).map Machine.loaded = .error fault ↔
      (Operation.load bytes).fault? machine = some fault := by
  have limit : Rom.maxSize = 3584 := rfl
  by_cases fits : bytes.size ≤ Rom.maxSize
  · have small : ¬3584 < bytes.size := Nat.not_lt.mpr fits
    simp only [Rom.ofBytes_of_le fits, Except.map, fault?, small, ↓reduceIte, reduceCtorEq]
  · have large : 3584 < bytes.size := Nat.lt_of_not_le fits
    simp only [Rom.ofBytes_of_lt large, Except.map, fault?, large, ↓reduceIte, limit,
      Except.error.injEq, Option.some.injEq]

/-- A step fails with the fault that is named for it. -/
theorem step_eq_error_iff (machine : Machine) (fault : Fault) :
    machine.step = .error fault ↔ Operation.step.fault? machine = some fault := by
  rw [Machine.step_eq_error_iff, State.fetch_eq_error_iff, fault?, Memory.size]
  by_cases outside : 0xFFF ≤ machine.state.pc.toNat
  · simp only [Nat.succ_le_succ outside, outside, true_and, ↓reduceIte, Option.some.injEq, eq_comm]
  · have inside : ¬4096 ≤ machine.state.pc.toNat + 1 := fun past =>
      outside (Nat.le_of_succ_le_succ past)
    simp only [inside, outside, false_and, ↓reduceIte, reduceCtorEq]

theorem putKey_eq_error_iff (machine : Machine) (key : UInt8) (held : Bool) (fault : Fault) :
    machine.putKey key held = .error fault ↔ (Operation.press key).fault? machine = some fault := by
  unfold Machine.putKey Key.ofByte
  by_cases off : 0xF < key.toNat
  · have outside : ¬key.toNat < Keypad.size := Nat.not_lt.mpr off
    simp only [outside, ↓reduceDIte, Except.map, fault?, off, ↓reduceIte, Except.error.injEq,
      Option.some.injEq]
  · have inside : key.toNat < Keypad.size := Nat.lt_succ_of_le (Nat.not_lt.mp off)
    simp only [inside, ↓reduceDIte, Except.map, fault?, off, ↓reduceIte, reduceCtorEq]

/-- An operation is refused exactly for its fault, and leaves the machine. -/
theorem perform_eq_refused_iff {operation : Operation} {machine next : Machine} {fault : Fault} :
    operation.perform machine = (.refused fault, next) ↔
      operation.fault? machine = some fault ∧ next = machine := by
  have attempted (outcome : Except Fault Machine) :
      machine.answer outcome = (.refused fault, next) ↔
        outcome = .error fault ∧ next = machine := by
    cases outcome with
    | ok _ => simp only [Machine.answer, Prod.mk.injEq, reduceCtorEq, false_and]
    | error cause =>
        simp only [Machine.answer, Prod.mk.injEq, Reply.refused.injEq, Except.error.injEq,
          eq_comm]
  cases operation with
  | load bytes =>
      exact (attempted _).trans (and_congr_left' (load_eq_error_iff bytes machine fault))
  | step => exact (attempted _).trans (and_congr_left' (step_eq_error_iff machine fault))
  | press key =>
      exact (attempted _).trans (and_congr_left' (putKey_eq_error_iff machine key true fault))
  | release key =>
      exact (attempted _).trans (and_congr_left' (putKey_eq_error_iff machine key false fault))
  | _ => simp only [perform, fault?, Prod.mk.injEq, reduceCtorEq, false_and]

/-- A procedure fails exactly with the fault of its operation, and leaves the machine as it was. -/
theorem procedure_eq_error_iff {operation : Operation} {machine next : Machine} {fault : Fault} :
    operation.procedure machine = .error fault next ↔
      operation.fault? machine = some fault ∧ next = machine := by
  rw [procedure_eq, ← perform_eq_refused_iff]
  rcases operation.perform machine with ⟨_ | _ | cause, left⟩ <;>
    simp only [reduceCtorEq, Prod.mk.injEq, false_and, EStateM.Result.error.injEq,
      Reply.refused.injEq]

/-- Nothing is told about an operation that is refused. -/
theorem events_of_refused {operation : Operation} {machine : Machine} {fault : Fault}
    (refused : operation.fault? machine = some fault) : operation.events machine = [] := by
  cases operation with
  | load bytes =>
      have large : ¬bytes.size ≤ Rom.maxSize := by
        intro fits
        rw [← load_eq_error_iff, Rom.ofBytes_of_le fits] at refused
        cases refused
      simp only [events, large, ↓reduceIte]
  | step =>
      have failed := Machine.step_eq_error_iff.mp ((step_eq_error_iff machine fault).mpr refused)
      simp only [events, Machine.stepEvents, failed]
  | press key => rfl
  | release key => rfl
  | _ => cases refused

end Operation

/-- A session in which an operation is refused goes on as if it had not been asked for. -/
theorem Session.perform_of_refused {operation : Operation} {session : Session} {fault : Fault}
    (refused : (session.perform operation).1 = .refused fault) :
    (session.perform operation).2 = session := by
  have found : operation.perform session.machine =
      (.refused fault, (operation.perform session.machine).2) := Prod.ext refused rfl
  obtain ⟨cause, left⟩ := Operation.perform_eq_refused_iff.mp found
  simp only [perform, left, Operation.events_of_refused cause, Journal.recordAll_nil]

namespace Machine

/-! ## Halted machines -/

/-- A halted machine stays where it is, whatever is asked of it but to install a program. -/
theorem performAll_of_halted {machine : Machine} {fault : Fault}
    (halted : machine.step = .error fault) {operations : List Operation}
    (installs : ∀ operation ∈ operations, operation.installs = false) :
    (Operation.performAll operations machine).detached = machine.detached ∧
      (Operation.performAll operations machine).step = .error fault := by
  obtain ⟨reaches, _⟩ := Operation.performAll_of_not_installs installs machine
  rw [fst_repeatUpTo_of_error halted] at reaches
  exact ⟨reaches, (step_eq_error_of_control (control_of_detached reaches) fault).mpr halted⟩

/-- A machine that has not run yet can step. -/
theorem exists_step_starting (memory : Memory) :
    ∃ next, (starting (State.starting memory)).step = .ok next := by
  cases outcome : (starting (State.starting memory)).step with
  | ok next => exact ⟨next, rfl⟩
  | error fault =>
      obtain ⟨outside, _⟩ := State.fetch_eq_error_iff.mp (step_eq_error_iff.mp outcome)
      exact absurd outside (by decide : ¬Memory.size ≤ (UInt16.ofNat Memory.programStart).toNat + 1)

/-- A machine that a program was installed in makes a step. -/
theorem exists_step_of_installs {operation : Operation} (installs : operation.installs = true)
    (machine : Machine) : ∃ next, (operation.perform machine).2.step = .ok next := by
  cases operation with
  | restart => exact exists_step_starting Memory.powerOn
  | reset => exact exists_step_starting Memory.powerOn
  | load bytes =>
      have fits : bytes.size ≤ Rom.maxSize := of_decide_eq_true installs
      simp only [Operation.perform, Rom.ofBytes_of_le fits, Except.map, answer]
      exact exists_step_starting _
  | _ => cases installs

/-- **Refusals change nothing, and a halted machine stays halted.** An operation is refused
exactly if the program does not fit, the opcode does not lie inside the memory, or the key is
not on the keypad. It then leaves the machine as it was, also when it is carried out piece by
piece, and a session with its journal too. Once a step has failed, then until a program is
installed every further step fails in the same way, and nothing but the keypad and the pending
frame changes. The operations that make a halted machine step again are those that install a
program. -/
theorem refusals_change_nothing :
    (∀ (operation : Operation) (machine next : Machine) (fault : Fault),
      (operation.perform machine = (.refused fault, next) ↔
          operation.fault? machine = some fault ∧ next = machine) ∧
        (operation.procedure machine = .error fault next ↔
          operation.fault? machine = some fault ∧ next = machine)) ∧
    (∀ (operation : Operation) (session : Session) (fault : Fault),
      (session.perform operation).1 = .refused fault → (session.perform operation).2 = session) ∧
    (∀ (machine : Machine) (fault : Fault) (operations : List Operation),
      machine.step = .error fault →
      (∀ operation ∈ operations, operation.installs = false) →
        (Operation.performAll operations machine).detached = machine.detached ∧
          (Operation.performAll operations machine).step = .error fault) ∧
    ∀ (machine : Machine) (fault : Fault) (operation : Operation),
      machine.step = .error fault →
        ((∃ next, (operation.perform machine).2.step = .ok next) ↔ operation.installs = true) := by
  refine ⟨?refused, ?sessions, ?halted, ?revived⟩
  case refused =>
    intro operation machine next fault
    exact ⟨Operation.perform_eq_refused_iff, Operation.procedure_eq_error_iff⟩
  case sessions =>
    intro operation session fault refused
    exact Session.perform_of_refused refused
  case halted =>
    intro machine fault operations halted installs
    exact performAll_of_halted halted installs
  case revived =>
    intro machine fault operation halted
    refine ⟨?_, fun installs => exists_step_of_installs installs machine⟩
    rintro ⟨next, steps⟩
    apply Bool.eq_true_of_not_eq_false
    intro other
    have stays := (performAll_of_halted halted (List.forall_mem_singleton.mpr other)).2
    rw [Operation.performAll_cons, Operation.performAll_nil, steps] at stays
    cases stays

/-- A machine that stands at the last byte of its memory, and what is asked of it there. -/
theorem refusals_change_nothing_at_the_last_byte :
    let machine : Machine := starting { State.powerOn with pc := 0xFFF, delayTimer := 9 }
    let session : Session := .opening machine (some .trace)
    let large : Operation := .load (Array.replicate 3585 0)
    let operations : List Operation := [.step, .press 3, .press 0x10, .takeFrame, large, .step]
    let now := Operation.performAll operations machine
    machine.step = .error (.outOfBounds 0x1000) ∧
      (session.perform .step).2 = session ∧
      now.detached = machine.detached ∧
      now.step = .error (.outOfBounds 0x1000) ∧
      ∃ next, ((Operation.load #[0x12, 0x00]).perform machine).2.step = .ok next := by
  intro machine session large operations now
  have halted : machine.step = .error (.outOfBounds 0x1000) :=
    step_eq_error_iff.mpr (State.fetch_eq_error_iff.mpr (by decide))
  have oversized : large.installs = false := by
    simp only [large, Operation.installs, Array.size_replicate]
    decide
  have installs : ∀ operation ∈ operations, operation.installs = false := by
    simp only [operations, List.forall_mem_cons]
    exact ⟨rfl, rfl, rfl, rfl, oversized, rfl, nofun⟩
  have stays := refusals_change_nothing.2.2.1 machine _ operations halted installs
  refine ⟨halted, ?_, stays.1, stays.2, ?_⟩
  · refine refusals_change_nothing.2.1 .step session (.outOfBounds 0x1000) ?_
    exact congrArg Prod.fst
      (((refusals_change_nothing.1 .step machine machine _).1).mpr ⟨by decide, rfl⟩)
  · exact (refusals_change_nothing.2.2.2 machine _ _ halted).mpr rfl

end Machine

end ChipEight
