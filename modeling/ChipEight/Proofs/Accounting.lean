import ChipEight.Proofs.Calls
import ChipEight.Proofs.Halting

/-! # The account of skipped opcodes

After every history a machine has counted exactly those opcodes that it does not know among
the ones executed since a program was last put into it, and remembers the last of them
(`Machine.skips_accounted_for`). A run is a history too (`Session.reachable_of_run?`), so that
the warning at its end names an opcode that was skipped.
-/

namespace ChipEight

theorem Opcode.not_isImplemented (op : Opcode) : (!op.isImplemented) = decide ¬op.IsKnown := by
  have known := op.isImplemented_iff
  by_cases knows : op.IsKnown
  · rw [known.mpr knows, decide_eq_false (not_not_intro knows), Bool.not_true]
  · rw [Bool.eq_false_iff.mpr (mt known.mp knows), decide_eq_true knows, Bool.not_false]

namespace Machine

variable {machine : Machine} {skips : List Opcode}

/-- A machine that has skipped something since it was new knows what it skipped last. -/
theorem HasSkipped.lastSkipped_eq_none_iff (account : machine.HasSkipped powerOn skips) :
    machine.lastSkipped = none ↔ machine.skipped = 0 := by
  have count : machine.skipped = 0 + skips.length := account.count
  have last : machine.lastSkipped = skips.getLast?.or none := account.last
  rw [count, last, Option.or_none, List.getLast?_eq_none_iff, Nat.zero_add,
    List.length_eq_zero_iff]

end Machine

namespace Call

variable {call : Call} {earlier : Machine} {skips : List Opcode}

/-- A call that neither installs a program nor executes an opcode leaves the account. -/
theorem hasSkipped_next (account : call.machine.HasSkipped earlier skips)
    (others : call.installs = false) (idle : call.opcode? = none) :
    call.next.HasSkipped earlier skips := by
  cases call.effect with
  | installs _ installs _ =>
      rw [others] at installs
      cases installs
  | executes _ _ _ executes _ =>
      rw [idle] at executes
      cases executes
  | polls _ _ _ next =>
      rw [next]
      exact account.of_detached call.machine.detached_takeFrame
  | hosts keypad _ _ _ next =>
      rw [next]
      exact account.of_detached (call.machine.detached_setKeypad keypad)

end Call

namespace Operation

/-- Since a program was last installed, the account has grown from nothing by the executed
opcodes that are not implemented. -/
theorem hasSkipped_since_installs (operations : List Operation) :
    (performAll operations .powerOn).HasSkipped .powerOn
      ((Call.executed (Call.since Call.installs (calls operations .powerOn))).filter
        fun op => !op.isImplemented) := by
  refine performAll_keeps_calls
    (fun calls machine => machine.HasSkipped .powerOn
      ((Call.executed (Call.since Call.installs calls)).filter fun op => !op.isImplemented))
    ?_ operations ⟨rfl, rfl⟩
  intro earlier call account
  cases call.effect with
  | installs memory installs next =>
      rw [next, Call.since_concat_of_ends installs]
      exact ⟨rfl, rfl⟩
  | executes op others _ executes next =>
      have grown := account.complete op
      rw [next, Call.since_concat others, Call.executed_concat_some executes, List.filter_append]
      cases implemented : op.isImplemented <;>
        simpa only [implemented, List.filter_cons, List.filter_nil, Bool.not_true, Bool.not_false,
          Bool.false_eq_true, ↓reduceIte] using grown
  | polls others _ idle _ =>
      rw [Call.since_concat others, Call.executed_concat_none idle]
      exact Call.hasSkipped_next account others idle
  | hosts _ others _ idle _ =>
      rw [Call.since_concat others, Call.executed_concat_none idle]
      exact Call.hasSkipped_next account others idle

/-- At most as many opcodes are executed as steps are asked for. -/
theorem length_opcodes_le (operations : List Operation) (machine : Machine) :
    (opcodes operations machine).length ≤ stepCount operations := by
  induction operations generalizing machine with
  | nil => exact Nat.le_refl 0
  | cons operation rest ih =>
      have later := ih (operation.perform machine).2
      rw [opcodes_cons, List.length_append, stepCount_cons]
      cases steps : operation.isStep with
      | true =>
          have one : (Call.opcode? ⟨machine, operation⟩).toList.length ≤ 1 :=
            Option.length_toList_le
          simp only [↓reduceIte]
          omega
      | false =>
          rw [opcode?_of_not_isStep steps]
          simpa only [Option.toList_none, List.length_nil, Nat.zero_add, Bool.false_eq_true,
            ↓reduceIte, Nat.add_zero] using later

/-- No more opcodes are executed than steps are made. -/
theorem length_executed_since_le (ends : Call → Bool) (operations : List Operation)
    (machine : Machine) :
    (Call.executed (Call.since ends (calls operations machine))).length ≤ stepCount operations :=
  have fewer : (Call.since ends (calls operations machine)).Sublist (calls operations machine) :=
    (List.rtakeWhile_suffix _ _).sublist
  (fewer.filterMap Call.opcode?).length_le.trans (length_opcodes_le operations machine)

end Operation

/-! ## Runs as histories -/

/-- A machine is reachable if some operations lead to it from power-on. -/
def Machine.Reachable (machine : Machine) : Prop :=
  ∃ operations, Operation.performAll operations .powerOn = machine

/-- Whatever a reachable machine is asked to do leads to a reachable one. -/
theorem Machine.Reachable.performAll {machine : Machine} (reachable : machine.Reachable)
    (operations : List Operation) : (Operation.performAll operations machine).Reachable := by
  obtain ⟨earlier, rfl⟩ := reachable
  exact ⟨earlier ++ operations, Operation.performAll_append earlier operations .powerOn⟩

namespace Session

/-- A cycle is a step after which the frame is taken. -/
theorem machine_of_cycle {session next : Session} (success : session.cycle = .ok next) :
    next.machine = Operation.performAll [.step, .takeFrame] session.machine := by
  unfold cycle step at success
  cases attempt : session.machine.step with
  | error fault =>
      rw [attempt] at success
      cases success
  | ok machine =>
      rw [attempt] at success
      cases success
      simp only [machine_collectFrame, Operation.performAll_cons, Operation.performAll_nil,
        Operation.perform, attempt, Machine.answer]

/-- A run is started by loading its program and pressing the keys. -/
theorem machine_of_start {path : String} {bytes : Array UInt8} {keypad : Keypad}
    {threshold : Option Level} {session : Session}
    (started : start path bytes keypad threshold = .ok session) :
    session.machine = Operation.performAll [.load bytes, .setKeys keypad] .powerOn := by
  by_cases fits : bytes.size ≤ Rom.maxSize
  · rw [start_of_le path fits] at started
    cases started
    simp only [Operation.performAll_cons, Operation.performAll_nil, Operation.perform,
      Rom.ofBytes_of_le fits, Except.map, Machine.answer]
    rfl
  · rw [start_of_lt path (Nat.lt_of_not_le fits)] at started
    cases started

/-- Whatever a run leaves is a reachable machine. -/
theorem reachable_of_run? {path : String} {bytes : Array UInt8} {keypad : Keypad}
    {threshold : Option Level} {session last : Session} {limit : Option UInt64}
    {fault? : Option Fault} (started : start path bytes keypad threshold = .ok session)
    (ended : session.run? limit = some (last, fault?)) : last.machine.Reachable := by
  obtain ⟨cycles, reached⟩ := exists_runFor_of_run? ended
  have initially : session.machine.Reachable := ⟨_, (machine_of_start started).symm⟩
  have keeps (current next : Session) (reachable : current.machine.Reachable)
      (success : current.cycle = .ok next) : next.machine.Reachable := by
    rw [machine_of_cycle success]
    exact reachable.performAll _
  have kept := repeatUpTo_keeps keeps initially cycles
  rw [← runFor, reached] at kept
  exact kept

end Session

namespace Machine

/-- **Skipped opcodes are accounted for.** After every history of a machine that was new at its
start, the skipped opcodes are those that the machine does not know among the opcodes executed
since it was last new, reset, or loaded with a program that fits. Their number is the count,
which is never more than that of the opcodes executed, nor than that of the steps asked for, so
that sixty-four bits hold it as long as they hold the latter; and the last of them is the one
remembered. Refused calls, and those that neither install a program nor step, leave the account.
So at the end of a run the opcode to be named is known. -/
theorem skips_accounted_for :
    (∀ operations : List Operation,
      let machine := Operation.performAll operations .powerOn
      let executed :=
        Call.executed (Call.since Call.installs (Operation.calls operations .powerOn))
      let skips := executed.filter fun op => ¬op.IsKnown
      machine.skipped = skips.length ∧
        machine.lastSkipped = skips.getLast? ∧
        (machine.lastSkipped = none ↔ machine.skipped = 0) ∧
        machine.skipped ≤ executed.length ∧
        executed.length ≤ Operation.stepCount operations) ∧
    (∀ call : Call,
      (∃ fault, call.reply = .refused fault) ∨
          call.installs = false ∧ call.operation.isStep = false →
        call.next.skipped = call.machine.skipped ∧
          call.next.lastSkipped = call.machine.lastSkipped) ∧
    ∀ (path : String) (bytes : Array UInt8) (keypad : Keypad) (threshold : Option Level)
      (session last : Session) (limit : Option UInt64) (fault? : Option Fault),
      Session.start path bytes keypad threshold = .ok session →
      session.run? limit = some (last, fault?) → 0 < last.machine.skipped →
        ∃ op, last.machine.lastSkipped = some op := by
  refine ⟨?histories, ?calls, ?runs⟩
  case histories =>
    intro operations machine executed skips
    have account := Operation.hasSkipped_since_installs operations
    have same : executed.filter (fun op => !op.isImplemented) = skips :=
      List.filter_congr fun op _ => op.not_isImplemented
    rw [same] at account
    have count : machine.skipped = skips.length := account.count.trans (Nat.zero_add _)
    have last : machine.lastSkipped = skips.getLast? := account.last.trans Option.or_none
    refine ⟨count, last, account.lastSkipped_eq_none_iff, ?_,
      Operation.length_executed_since_le _ operations .powerOn⟩
    rw [count]
    exact List.length_filter_le _ _
  case calls =>
    rintro call (⟨fault, refused⟩ | ⟨others, other⟩)
    · have unchanged : call.next = call.machine := Operation.perform_of_refused refused
      rw [unchanged]
      exact ⟨rfl, rfl⟩
    · have account : call.machine.HasSkipped call.machine [] := ⟨rfl, rfl⟩
      obtain ⟨count, last⟩ :=
        account.of_detached (Operation.detached_perform others other call.machine)
      exact ⟨count, last⟩
  case runs =>
    intro path bytes keypad threshold session last limit fault? started ended skips
    obtain ⟨operations, reached⟩ := Session.reachable_of_run? started ended
    have account := Operation.hasSkipped_since_installs operations
    rw [reached] at account
    apply Option.ne_none_iff_exists'.mp
    rw [Ne, account.lastSkipped_eq_none_iff]
    exact Nat.ne_of_gt skips

/-- A program that skips an opcode, another one in its place that skips two of the three that it
executes before it leaves the memory, and a run of the latter. -/
theorem skips_accounted_for_after_another_load :
    let bytes : Array UInt8 := #[0x81, 0x23, 0x51, 0x20, 0x1F, 0xFF]
    let operations : List Operation :=
      [.load #[0x22, 0x00], .step, .load bytes, .step, .takeFrame, .step, .press 0x10, .step]
    let call : Call := ⟨Operation.performAll operations .powerOn, .step⟩
    let session := (Session.loaded "rom" ⟨bytes, by decide⟩ none).holding Keypad.released
    call.machine.skipped = 2 ∧ call.machine.lastSkipped = some ⟨0x5120⟩ ∧
      call.reply = .refused (.outOfBounds 0x1000) ∧
      call.next.skipped = call.machine.skipped ∧
      Session.start "rom" bytes Keypad.released none = .ok session ∧
      ∃ last fault?, session.run? (some 3) = some (last, fault?) ∧ 0 < last.machine.skipped ∧
        ∃ op, last.machine.lastSkipped = some op := by
  intro bytes operations call session
  obtain ⟨histories, calls, runs⟩ := skips_accounted_for
  obtain ⟨count, last, _⟩ := histories operations
  have halted : call.reply = .refused (.outOfBounds 0x1000) := by
    have failed : call.machine.step = .error (.outOfBounds 0x1000) :=
      step_eq_error_iff.mpr (State.fetch_eq_error_iff.mpr (by decide))
    exact congrArg (fun outcome => (call.machine.answer outcome).1) failed
  have started : Session.start "rom" bytes Keypad.released none = .ok session :=
    Session.start_of_le "rom" (by decide) Keypad.released none
  have ended : session.run? (some 3) = some ((session.runFor 3).1, (session.runFor 3).2) := rfl
  have skips : 0 < (session.runFor 3).1.machine.skipped := by decide
  exact ⟨count.trans (by decide), last.trans (by decide), halted,
    (calls call (.inl ⟨_, halted⟩)).1, started, _, _, ended, skips,
    runs _ _ _ _ _ _ _ _ started ended skips⟩

end Machine

end ChipEight
