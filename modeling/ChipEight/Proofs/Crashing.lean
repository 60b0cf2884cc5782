import ChipEight.Proofs.Checking
import ChipEight.Proofs.Limits
import ChipEight.Proofs.Manual

/-! # What can crash

The checked machine fetches, steps, takes a program or a key, and runs as the machine does. In every
state all that a step needs is met, except that the count of skipped opcodes may have no room for
one more, and in a run with a limit it has (`Checked.crashes_only_in_counting_skips`).
-/

namespace ChipEight

namespace Checked

/-! ## Steps -/

/-- Fetches the opcode in the slice of two bytes at the program counter. -/
def fetch (state : State) : Checked Opcode := do
  let _ ← sum UInt64.size state.pc.toNat 2
  attempt state.fetch

/-- Fetches the opcode, moves past it, and executes it or counts it as skipped. -/
def step (machine : Machine) : Checked Machine := do
  let op ← fetch machine.state
  let pc ← sum UInt16.size machine.state.pc.toNat 2
  let fetched := { machine.state with pc := UInt16.ofNat pc }
  match select? op.word with
  | some instruction => do
    let next ← instruction op.word fetched
    return { machine with state := next.tick }
  | none => do
    let skipped ← sum UInt64.size machine.skipped 1
    return { state := fetched.tick, skipped := skipped, lastSkipped := some op }

section Steps

variable {machine : Machine} {op : Opcode}

/-- A fetch never crashes. -/
theorem fetch_eq (state : State) : fetch state = attempt state.fetch := by
  have bound := state.pc.toNat_lt
  rw [fetch, sum_of_lt (lt_size_of_lt (by omega)), ok_bind]

/-- A program counter from which an opcode can be fetched is far from the greatest one. -/
theorem pc_add_two_lt {state : State} (fetched : state.fetch = .ok op) :
    state.pc.toNat + 2 < UInt16.size := by
  rw [← State.toNat_pc_passOpcode fetched]
  exact state.passOpcode.pc.toNat_lt

/-- A step that fetches nothing is refused. -/
theorem step_of_fetch_error {fault : Fault} (failed : machine.state.fetch = .error fault) :
    step machine = .error (.refused fault) := by
  rw [step, fetch_eq, failed]
  rfl

/-- Once its opcode is fetched, a step crashes only where the opcode has to be counted and cannot
be. -/
theorem step_of_fetch (fetched : machine.state.fetch = .ok op) :
    step machine =
      if op.isImplemented then .ok (machine.complete op)
      else ensure (.sum machine.skipped 1 UInt64.size) (machine.complete op) := by
  have selected := select?_eq op.word machine.state.passOpcode
  have advanced : { machine.state with pc := UInt16.ofNat (machine.state.pc.toNat + 2) } =
      machine.state.passOpcode := by
    rw [← State.toNat_pc_passOpcode fetched, UInt16.ofNat_toNat]
    rfl
  rw [step, fetch_eq, fetched, attempt, Except.mapError, ok_bind, sum_of_lt (pc_add_two_lt fetched),
    ok_bind]
  simp only [advanced]
  cases decoded : Instruction.decode? op with
  | some known =>
      have implemented : op.isImplemented = true := by
        rw [Opcode.isImplemented, decoded]
        rfl
      rw [decoded] at selected
      obtain ⟨instruction, selects, success⟩ := Option.map_eq_some_iff.mp selected
      rw [if_pos implemented, Machine.complete, decoded, selects]
      simp only [success]
      rfl
  | none =>
      have unknown : ¬op.isImplemented = true := by
        rw [Opcode.isImplemented, decoded]
        exact Bool.false_ne_true
      rw [decoded] at selected
      rw [if_neg unknown, Machine.complete, decoded, Option.map_eq_none_iff.mp selected]
      exact ensure_map _ _ _

/-- Only a step that fetches nothing is refused. -/
theorem step_eq_refused_iff {fault : Fault} :
    step machine = .error (.refused fault) ↔ machine.state.fetch = .error fault := by
  refine ⟨fun refused => ?_, step_of_fetch_error⟩
  cases fetched : machine.state.fetch with
  | error cause =>
      rw [step_of_fetch_error fetched] at refused
      cases refused
      rfl
  | ok op =>
      rw [step_of_fetch fetched, ensure] at refused
      split_ifs at refused
      cases refused

/-- A step crashes exactly if one more opcode has to be counted than can be. -/
theorem step_eq_crashed_iff {unmet : Demand} :
    step machine = .error (.crashed unmet) ↔
      unmet = .sum machine.skipped 1 UInt64.size ∧ UInt64.size ≤ machine.skipped + 1 ∧
        ∃ op, machine.state.fetch = .ok op ∧ op.isImplemented = false := by
  cases fetched : machine.state.fetch with
  | error cause =>
      rw [step_of_fetch_error fetched]
      simp only [Except.error.injEq, reduceCtorEq, false_and, exists_false, and_false]
  | ok op =>
      rw [step_of_fetch fetched, ensure]
      by_cases implemented : op.isImplemented = true
      · simp only [implemented, ↓reduceIte, reduceCtorEq, Except.ok.injEq, exists_eq_left',
          Bool.true_eq_false, and_false]
      · by_cases small : machine.skipped + 1 < UInt64.size
        · have met : Demand.IsMet (.sum machine.skipped 1 UInt64.size) := small
          simp only [implemented, met, Nat.not_le.mpr small, Bool.false_eq_true, ↓reduceIte,
            reduceCtorEq, false_and, and_false]
        · have large : ¬Demand.IsMet (.sum machine.skipped 1 UInt64.size) := small
          simp only [implemented, large, Nat.not_lt.mp small, Bool.false_eq_true, ↓reduceIte,
            Except.error.injEq, Stop.crashed.injEq, Except.ok.injEq, exists_eq_left', and_true,
            eq_comm]

/-- What a step that ends as a checked one makes is what it makes otherwise. -/
theorem step_eq_ok {next : Machine} (stepped : step machine = .ok next) :
    machine.step = .ok next := by
  cases fetched : machine.state.fetch with
  | error fault =>
      rw [step_of_fetch_error fetched] at stepped
      cases stepped
  | ok op =>
      rw [step_of_fetch fetched, ensure] at stepped
      refine Machine.step_eq_ok_iff.mpr ⟨op, fetched, ?_⟩
      split_ifs at stepped
      · exact Except.ok.inj stepped
      · exact Except.ok.inj stepped

/-- As long as the count of skipped opcodes can grow, a step ends as it does otherwise. -/
theorem step_of_lt (small : machine.skipped + 1 < UInt64.size) :
    step machine = attempt machine.step := by
  cases fetched : machine.state.fetch with
  | error fault =>
      rw [step_of_fetch_error fetched, Machine.step_eq_error_iff.mpr fetched]
      rfl
  | ok op =>
      have counted : ensure (.sum machine.skipped 1 UInt64.size) (machine.complete op) =
          .ok (machine.complete op) := if_pos small
      rw [step_of_fetch fetched, counted, ite_self,
        Machine.step_eq_ok_iff.mpr ⟨op, fetched, rfl⟩]
      rfl

/-- As long as the count of skipped opcodes can grow, a step is the one of the manual. -/
theorem step_of_manual (small : machine.skipped + 1 < UInt64.size) :
    step machine = attempt (Manual.step machine) := by
  rw [step_of_lt small, Machine.step_eq_step_of_manual]

end Steps

/-! ## Programs and keys -/

/-- A new machine, with the font copied to the bottom of its memory. -/
def powerOn : Checked Machine := do
  let memory ← copy .blank 0 Font.bytes.size Font.bytes
  return .starting (.starting memory)

/-- Copies a program into a new machine, unless it is too large. -/
def loadProgram (bytes : Array UInt8) : Checked Machine := do
  if Rom.maxSize < bytes.size then
    throw (.refused (.romTooLarge bytes.size Rom.maxSize))
  let machine ← powerOn
  let last ← sum UInt64.size Memory.programStart bytes.size
  let memory ← copy machine.state.memory Memory.programStart last bytes
  return { machine with state := { machine.state with memory := memory } }

/-- Puts a key down or lets it go, if there is one of this number. -/
def putKey (machine : Machine) (key : UInt8) (held : Bool) : Checked Machine :=
  if key.toNat < Keypad.size then do
    let keys ← set machine.state.keypad.held key.toNat held
    return machine.setKeypad ⟨keys⟩
  else throw (.refused (.invalidKey key))

/-- A machine is switched on without a crash. -/
theorem powerOn_eq : powerOn = .ok .powerOn := by
  rw [powerOn, copy_of_le (Nat.zero_add _) (by rw [Font.size_bytes]; decide)]
  rfl

/-- The program of a size that is accepted ends where the memory does or before. -/
theorem loadProgram_eq (bytes : Array UInt8) :
    loadProgram bytes = attempt ((Rom.ofBytes bytes).map Machine.loaded) := by
  have limit : Rom.maxSize = Memory.size - Memory.programStart := rfl
  have start : Memory.programStart < Memory.size := by decide
  have room : Memory.size < UInt64.size := by decide
  by_cases fits : bytes.size ≤ Rom.maxSize
  · have inside : Memory.programStart + bytes.size ≤ Memory.size := by omega
    rw [loadProgram, if_neg (Nat.not_lt.mpr fits), powerOn_eq]
    simp only [ok_bind, sum_of_lt (Nat.lt_of_le_of_lt inside room), copy_of_le rfl inside,
      Rom.ofBytes_of_le fits]
    rfl
  · rw [loadProgram, if_pos (Nat.lt_of_not_le fits), Rom.ofBytes_of_lt (Nat.lt_of_not_le fits)]
    rfl

/-- A key is put or refused without a crash. -/
theorem putKey_eq (machine : Machine) (key : UInt8) (held : Bool) :
    putKey machine key held = attempt (machine.putKey key held) := by
  unfold putKey Machine.putKey Key.ofByte
  by_cases inside : key.toNat < Keypad.size
  · have place : key.toNat < 16 := inside
    rw [if_pos inside, dif_pos inside, set_of_lt place]
    rfl
  · rw [if_neg inside, dif_neg inside]
    rfl

/-! ## Runs -/

/-- A step that is counted, after which the frame is taken. -/
def cycle (session : Session) : Checked Session := do
  let machine ← step session.machine
  let steps ← sum UInt64.size session.steps 1
  return Session.collectFrame
    { machine := machine
      journal := session.journal.recordAll session.machine.stepEvents
      steps := steps }

/-- Whether a number of cycles uses a limit up, if there is one. -/
def usesUp : Option UInt64 → Nat → Bool
  | some limit, cycles => limit.toNat ≤ cycles
  | none, _ => false

/-- The session with which a run goes on, or the end of the run: its limit is used up, or the cycle
has no outcome. -/
def turn (limit : Option UInt64) (session : Session) : Except (Session × Option Stop) Session :=
  if usesUp limit session.steps then .error (session, none)
  else (cycle session).mapError fun stop => (session, some stop)

end Checked

/-- Runs checked cycles until the run comes to an end; nothing if it never does. -/
def Session.runChecked? (session : Session) (limit : Option UInt64) :
    Option (Session × Option Stop) :=
  match Checked.turn limit session with
  | .ok next => next |>.runChecked? limit
  | .error ended => some ended
partial_fixpoint

namespace Checked

section Runs

variable {session : Session}

/-- A cycle does not crash as long as both of its counts can grow. -/
theorem cycle_of_lt (skips : session.machine.skipped + 1 < UInt64.size)
    (small : session.steps + 1 < UInt64.size) : cycle session = attempt session.cycle := by
  rw [cycle, step_of_lt skips, sum_of_lt small, Session.cycle, Session.step]
  cases session.machine.step with
  | ok machine => rfl
  | error fault => rfl

/-- A session has skipped at most as many opcodes as it has made steps. -/
def SkipsWithin (session : Session) : Prop :=
  session.machine.skipped ≤ session.steps

/-- A cycle skips one opcode at most. -/
theorem SkipsWithin.cycle {next : Session} (within : SkipsWithin session)
    (success : session.cycle = .ok next) : SkipsWithin next := by
  obtain ⟨machine, stepped, rfl⟩ := Session.exists_step_of_cycle success
  obtain ⟨op, _, rfl⟩ := Machine.step_eq_ok_iff.mp stepped
  have before : session.machine.skipped ≤ session.steps := within
  have polled : (session.machine.complete op).takeFrame.2.skipped =
      (session.machine.complete op).skipped :=
    Machine.eq_of_detached Machine.skipped (fun _ => rfl)
      (session.machine.complete op).detached_takeFrame
  change _ ≤ session.steps + 1
  rw [polled, Machine.skipped_complete]
  split
  · exact Nat.le_succ_of_le before
  · exact Nat.succ_le_succ before

/-- A run skips no more opcodes than it has cycles, by induction over them. -/
theorem SkipsWithin.runFor (within : SkipsWithin session) (cycles : Nat) :
    SkipsWithin (session.runFor cycles).1 :=
  repeatUpTo_keeps (fun _ _ within success => within.cycle success) within cycles

/-- Below the limit both counts can grow, so that a run ends as it does otherwise. -/
theorem runChecked?_some_eq {limit : UInt64} {rest : Nat} (within : SkipsWithin session)
    (left : session.steps + rest = limit.toNat) :
    session.runChecked? (some limit) =
      some ((session.runFor rest).1, (session.runFor rest).2.map .refused) := by
  induction rest generalizing session with
  | zero =>
      have reached : usesUp (some limit) session.steps = true :=
        decide_eq_true (Nat.le_of_eq left.symm)
      rw [Session.runChecked?, turn, if_pos reached]
      rfl
  | succ rest ih =>
      have goesOn : ¬usesUp (some limit) session.steps = true := by
        rw [usesUp, decide_eq_true_eq]
        omega
      have bound : limit.toNat < UInt64.size := limit.toNat_lt
      have skips : session.machine.skipped ≤ session.steps := within
      rw [Session.runChecked?, turn, if_neg goesOn, cycle_of_lt (by omega) (by omega),
        Session.runFor]
      cases attempted : session.cycle with
      | ok next =>
          rw [repeatUpTo_succ_of_ok attempted]
          exact ih (within.cycle attempted) (by rw [Session.steps_of_cycle attempted]; omega)
      | error fault =>
          rw [repeatUpTo_succ_of_error attempted]
          rfl

/-- A session starts with both counts at zero. -/
theorem of_start {path : String} {bytes : Array UInt8} {keypad : Keypad}
    {threshold : Option Level}
    (started : Session.start path bytes keypad threshold = .ok session) :
    session.machine.skipped = 0 ∧ session.steps = 0 := by
  by_cases fits : bytes.size ≤ Rom.maxSize
  · rw [Session.start_of_le path fits] at started
    cases started
    exact ⟨rfl, rfl⟩
  · rw [Session.start_of_lt path (Nat.lt_of_not_le fits)] at started
    cases started

end Runs

/-- **Nothing but the count of skipped opcodes can crash.** Whatever the word and the state, every
instruction ends as a checked one, without being refused, and the one that a word selects does what
its opcode decodes to. So a step is refused exactly where no opcode is fetched. It crashes exactly
if the opcode has to be counted and sixty-four bits do not hold one more; where it ends, it makes
what the machine's step makes. Loading a program and putting a key end as they do otherwise. So does
a run with a limit: until its end it has skipped at most as many opcodes as it has made cycles, and
made at most as many cycles as the limit allows. -/
theorem crashes_only_in_counting_skips :
    (∀ instruction ∈ instructions, ∀ word state, ∃ next, instruction word state = .ok next) ∧
    (∀ (word : UInt16) (state : State),
      ((select? word).map fun instruction => instruction word state) =
        (Instruction.decode? ⟨word⟩).map fun instruction => .ok (instruction.execute state)) ∧
    (∀ (machine : Machine) (fault : Fault),
      step machine = .error (.refused fault) ↔ machine.state.fetch = .error fault) ∧
    (∀ (machine : Machine) (unmet : Demand), step machine = .error (.crashed unmet) ↔
      unmet = .sum machine.skipped 1 UInt64.size ∧ UInt64.size ≤ machine.skipped + 1 ∧
        ∃ op, machine.state.fetch = .ok op ∧ op.isImplemented = false) ∧
    (∀ machine next, step machine = .ok next → machine.step = .ok next) ∧
    (∀ bytes, loadProgram bytes = attempt ((Rom.ofBytes bytes).map Machine.loaded)) ∧
    (∀ machine key held, putKey machine key held = attempt (machine.putKey key held)) ∧
    ∀ (path : String) (bytes : Array UInt8) (keypad : Keypad) (threshold : Option Level)
      (session : Session) (limit : UInt64),
      Session.start path bytes keypad threshold = .ok session →
        session.runChecked? (some limit) =
            (session.run? (some limit)).map (fun (last, fault) => (last, fault.map .refused)) ∧
          ∀ cycles ≤ limit.toNat,
            (session.runFor cycles).1.machine.skipped ≤ (session.runFor cycles).1.steps ∧
              (session.runFor cycles).1.steps ≤ limit.toNat := by
  refine ⟨?instructions, ?selected, ?refused, ?crashed, ?stepped, ?loaded, ?put, ?runs⟩
  case instructions =>
    intro instruction member word state
    exact exists_eq_ok_of_mem word state member
  case selected =>
    intro word state
    exact select?_eq word state
  case refused =>
    intro machine fault
    exact step_eq_refused_iff
  case crashed =>
    intro machine unmet
    exact step_eq_crashed_iff
  case stepped =>
    intro machine next stepped
    exact step_eq_ok stepped
  case loaded => exact loadProgram_eq
  case put => exact putKey_eq
  case runs =>
    intro path bytes keypad threshold session limit started
    obtain ⟨skips, steps⟩ := of_start started
    have within : SkipsWithin session := Nat.le_of_eq (skips.trans steps.symm)
    refine ⟨runChecked?_some_eq within (by rw [steps, Nat.zero_add]), fun cycles enough => ?_⟩
    have made := session.steps_runFor_le cycles
    rw [steps, Nat.zero_add] at made
    exact ⟨within.runFor cycles, made.trans enough⟩

/-- A machine that has to skip an opcode, once when it is new and once when its count is the
greatest one, and a run in which it skips two. -/
theorem crashes_only_in_counting_skips_at_the_greatest_count :
    let bytes : Array UInt8 := #[0x81, 0x23, 0x12, 0x00]
    let session := (Session.loaded "rom" ⟨bytes, by decide⟩ none).holding Keypad.released
    let full : Machine := { session.machine with skipped := UInt64.size - 1 }
    (∃ next, draw 0xDFFF full.state = .ok next) ∧
      step full = .error (.crashed (.sum (UInt64.size - 1) 1 UInt64.size)) ∧
      step session.machine = .ok (session.machine.complete ⟨0x8123⟩) ∧
      session.machine.step = .ok (session.machine.complete ⟨0x8123⟩) ∧
      Session.start "rom" bytes Keypad.released none = .ok session ∧
      session.runChecked? (some 3) = (session.run? (some 3)).map (fun (last, fault) =>
        (last, fault.map .refused)) ∧
      (session.runFor 3).1.machine.skipped = 2 ∧ (session.runFor 3).1.machine.skipped ≤ 3 := by
  intro bytes session full
  obtain ⟨succeeds, _, _, crashed, agrees, _, _, runs⟩ := crashes_only_in_counting_skips
  have fetched : session.machine.state.fetch = .ok ⟨0x8123⟩ :=
    State.fetch_eq_ok_iff.mpr (by decide)
  have stepped : step session.machine = .ok (session.machine.complete ⟨0x8123⟩) :=
    (step_of_lt (by decide)).trans
      (congrArg attempt (Machine.step_eq_ok_iff.mpr ⟨_, fetched, rfl⟩))
  have started : Session.start "rom" bytes Keypad.released none = .ok session :=
    Session.start_of_le "rom" (by decide) Keypad.released none
  obtain ⟨ended, within⟩ := runs "rom" bytes Keypad.released none session 3 started
  obtain ⟨skips, cycles⟩ := within 3 (by decide)
  exact ⟨succeeds draw (by simp [instructions]) 0xDFFF full.state,
    (crashed full _).mpr ⟨rfl, by decide, _, fetched, by decide⟩, stepped, agrees _ _ stepped,
    started, ended, by decide, skips.trans cycles⟩

end Checked

end ChipEight
