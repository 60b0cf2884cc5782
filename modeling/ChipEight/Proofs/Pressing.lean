import ChipEight.Proofs.Accounting
import ChipEight.Proofs.Chords
import ChipEight.Proofs.Refusal

/-! # Which keys are held down

A call puts a key down or lets it go, or leaves it (`Call.puts?`), and a key is held down exactly
if the last call that put it put it down (`Machine.keys_follow_last_put`). Loading a program lets
all keys go. A run puts its keys down after that, and no cycle lets go of them.
-/

namespace ChipEight

namespace Call

/-- What a call makes of a key, if anything: whether it is held down from now on. -/
def puts? (key : Key) (call : Call) : Option Bool :=
  match call.operation, call.reply with
  | .restart, _ => some false
  | .reset, _ => some false
  | .load _, .done => some false
  | .press byte, _ => if byte.toNat = key.val then some true else none
  | .release byte, _ => if byte.toNat = key.val then some false else none
  | .setKeys keypad, _ => some (keypad.isHeld key)
  | _, _ => none

/-- What the last of some calls that put a key made of it. -/
def lastPut? (key : Key) (calls : List Call) : Option Bool :=
  calls.reverse.findSome? (puts? key)

/-- The last effective put is the last call if this is one. -/
theorem lastPut?_concat (key : Key) (calls : List Call) (call : Call) :
    lastPut? key (calls ++ [call]) = (call.puts? key).or (lastPut? key calls) := by
  rw [lastPut?, List.reverse_concat, List.findSome?_cons]
  cases call.puts? key with
  | some held => rfl
  | none => rfl

/-- The last effective put is a put with none behind it. -/
theorem lastPut?_eq_some_iff {key : Key} {calls : List Call} {held : Bool} :
    lastPut? key calls = some held ↔
      ∃ earlier call later, calls = earlier ++ call :: later ∧ call.puts? key = some held ∧
        ∀ other ∈ later, other.puts? key = none := by
  rw [lastPut?, List.findSome?_eq_some_iff]
  constructor
  · rintro ⟨later, call, earlier, split, puts, leave⟩
    refine ⟨earlier.reverse, call, later.reverse, ?_, puts, fun other member => ?_⟩
    · rw [← List.reverse_reverse calls, split, List.reverse_append, List.reverse_cons,
        List.append_assoc, List.singleton_append]
    · exact leave other (List.mem_reverse.mp member)
  · rintro ⟨earlier, call, later, rfl, puts, leave⟩
    refine ⟨later.reverse, call, earlier.reverse, ?_, puts, fun other member => ?_⟩
    · rw [List.reverse_append, List.reverse_cons, List.append_assoc, List.singleton_append]
    · exact leave other (List.mem_reverse.mp member)

/-- A byte that is the number of a key puts this key, and any other leaves it. -/
theorem isHeld_putKey (machine : Machine) (byte : UInt8) (held : Bool) (key : Key) :
    (machine.answer (machine.putKey byte held)).2.state.keypad.isHeld key =
      if byte.toNat = key.val then held else machine.state.keypad.isHeld key := by
  unfold Machine.putKey Key.ofByte
  by_cases inside : byte.toNat < Keypad.size
  · rw [dif_pos inside]
    refine (Keypad.isHeld_put machine.state.keypad _ key held).trans ?_
    simp only [Fin.ext_iff]
  · have other : byte.toNat ≠ key.val := fun same => inside (same ▸ key.isLt)
    rw [dif_neg inside, if_neg other]
    rfl

/-- A call puts the keys as told, and leaves the others. -/
theorem isHeld_next (call : Call) (key : Key) :
    call.next.state.keypad.isHeld key =
      (call.puts? key).getD (call.machine.state.keypad.isHeld key) := by
  obtain ⟨machine, operation⟩ := call
  cases operation with
  | restart => exact Keypad.isHeld_released key
  | reset => exact Keypad.isHeld_released key
  | load bytes =>
      by_cases fits : bytes.size ≤ Rom.maxSize
      · have accepted := Rom.ofBytes_of_le fits
        simp only [next, puts?, reply, Operation.perform, accepted, Except.map, Machine.answer]
        exact Keypad.isHeld_released key
      · have refused := Rom.ofBytes_of_lt (Nat.lt_of_not_le fits)
        simp only [next, puts?, reply, Operation.perform, refused, Except.map, Machine.answer]
        rfl
  | step =>
      simp only [next, puts?, Operation.perform, Option.getD_none]
      cases outcome : machine.step with
      | ok stepped =>
          obtain ⟨op, _, rfl⟩ := Machine.step_eq_ok_iff.mp outcome
          rw [Machine.answer, Machine.keypad_complete]
      | error fault => rfl
  | takeFrame =>
      simp only [next, puts?, Operation.perform, Machine.takeFrame, Option.getD_none]
      split <;> rfl
  | viewFrame => rfl
  | press byte =>
      refine (isHeld_putKey machine byte true key).trans ?_
      simp only [puts?]
      split <;> rfl
  | release byte =>
      refine (isHeld_putKey machine byte false key).trans ?_
      simp only [puts?]
      split <;> rfl
  | setKeys keypad => rfl

/-- What is refused puts no key: a program that does not fit, or a byte that is no key's number. -/
theorem puts?_of_refused {call : Call} {fault : Fault} (refused : call.reply = .refused fault)
    (key : Key) : call.puts? key = none := by
  have off {byte : UInt8} (invalid : 0xF < byte.toNat) : byte.toNat ≠ key.val := by omega
  have cause : call.operation.fault? call.machine = some fault :=
    (Operation.perform_eq_refused_iff.mp (Prod.ext refused rfl)).1
  obtain ⟨machine, operation⟩ := call
  cases operation with
  | restart => cases refused
  | reset => cases refused
  | load bytes => simp only [puts?, refused]
  | step => rfl
  | takeFrame => rfl
  | viewFrame => rfl
  | press byte =>
      obtain ⟨invalid, _⟩ := Option.ite_none_right_eq_some.mp cause
      exact if_neg (off invalid)
  | release byte =>
      obtain ⟨invalid, _⟩ := Option.ite_none_right_eq_some.mp cause
      exact if_neg (off invalid)
  | setKeys keypad => cases refused

end Call

namespace Operation

/-- After every history a key is as it was put last. A new machine holds no key down. -/
theorem isHeld_performAll (operations : List Operation) (key : Key) :
    (performAll operations .powerOn).state.keypad.isHeld key =
      (Call.lastPut? key (calls operations .powerOn)).getD false := by
  refine performAll_keeps_calls
    (fun calls machine => machine.state.keypad.isHeld key = (Call.lastPut? key calls).getD false)
    ?_ operations (Keypad.isHeld_released key)
  intro earlier call before
  rw [call.isHeld_next, before, Call.lastPut?_concat]
  cases call.puts? key with
  | some held => rfl
  | none => rfl

end Operation

namespace Session

variable {session next : Session} {keypad : Keypad}

/-- No cycle changes the keys. -/
theorem keypad_of_cycle (success : session.cycle = .ok next) :
    next.machine.state.keypad = session.machine.state.keypad := by
  apply Keypad.eq_of_isHeld_eq
  intro key
  let stepped := (Operation.step.perform session.machine).2
  have step : stepped.state.keypad.isHeld key = session.machine.state.keypad.isHeld key :=
    Call.isHeld_next ⟨session.machine, .step⟩ key
  rw [machine_of_cycle success, ← step]
  exact Call.isHeld_next ⟨stepped, .takeFrame⟩ key

/-- A session starts with the keys that it is given. -/
theorem keypad_of_start {path : String} {bytes : Array UInt8} {threshold : Option Level}
    (started : start path bytes keypad threshold = .ok session) :
    session.machine.state.keypad = keypad := by
  rw [machine_of_start started]
  rfl

/-- During a run the keys stay as they are, by induction over its cycles. -/
theorem keypad_runFor (held : session.machine.state.keypad = keypad) (cycles : Nat) :
    (session.runFor cycles).1.machine.state.keypad = keypad := by
  have keeps (current next : Session) (held : current.machine.state.keypad = keypad)
      (success : current.cycle = .ok next) : next.machine.state.keypad = keypad :=
    (keypad_of_cycle success).trans held
  exact repeatUpTo_keeps keeps held cycles

end Session

/-- **Keys follow the last put.** After every history of a machine that was new at its start, a key
is held down exactly if some call put it down and no later one put it. Pressing or letting go of a
byte above fifteen is refused with that byte; whatever is refused leaves the machine and puts no
key; and a call leaves the keys that it does not put. A program that is loaded lets all keys go. A
run nevertheless holds down exactly the keys of its options, after every number of cycles and when
it has ended. -/
theorem Machine.keys_follow_last_put :
    (∀ (operations : List Operation) (key : Key),
      (Operation.performAll operations .powerOn).state.keypad.isHeld key = true ↔
        ∃ earlier call later, Operation.calls operations .powerOn = earlier ++ call :: later ∧
          call.puts? key = some true ∧ ∀ other ∈ later, other.puts? key = none) ∧
    (∀ (machine : Machine) (byte : UInt8), 0xF < byte.toNat →
      (Operation.press byte).perform machine = (.refused (.invalidKey byte), machine) ∧
        (Operation.release byte).perform machine = (.refused (.invalidKey byte), machine)) ∧
    (∀ (call : Call) (fault : Fault), call.reply = .refused fault →
      call.next = call.machine ∧ ∀ key, call.puts? key = none) ∧
    (∀ (call : Call) (key : Key), call.puts? key = none →
      call.next.state.keypad.isHeld key = call.machine.state.keypad.isHeld key) ∧
    (∀ (machine loaded : Machine) (bytes : Array UInt8),
      (Operation.load bytes).perform machine = (.done, loaded) →
        loaded.state.keypad = Keypad.released) ∧
    ∀ (options : Options) (keypad : Keypad) (bytes : Array UInt8) (threshold : Option Level)
      (session : Session), Keypad.holding options.hold = .ok keypad →
      Session.start options.path bytes keypad threshold = .ok session →
        (∀ cycles key, (session.runFor cycles).1.machine.state.keypad.isHeld key = true ↔
          ∃ character ∈ options.hold.toList, Key.ofChar? character = some key) ∧
        ∀ last fault?, session.run? options.limit = some (last, fault?) →
          last.machine.state.keypad = keypad := by
  refine ⟨?histories, ?off, ?refused, ?left, ?loaded, ?runs⟩
  case histories =>
    intro operations key
    rw [Operation.isHeld_performAll, ← Call.lastPut?_eq_some_iff]
    cases Call.lastPut? key (Operation.calls operations .powerOn) with
    | some held => rw [Option.getD_some, Option.some.injEq]
    | none => simp only [Option.getD_none, Bool.false_eq_true, reduceCtorEq]
  case off =>
    intro machine byte off
    have refused {operation : Operation} (cause : operation.fault? machine =
        if 0xF < byte.toNat then some (.invalidKey byte) else none) :
        operation.perform machine = (.refused (.invalidKey byte), machine) :=
      Operation.perform_eq_refused_iff.mpr ⟨cause.trans (if_pos off), rfl⟩
    exact ⟨refused rfl, refused rfl⟩
  case refused =>
    intro call fault refused
    exact ⟨Operation.perform_of_refused refused, Call.puts?_of_refused refused⟩
  case left =>
    intro call key leaves
    rw [call.isHeld_next, leaves, Option.getD_none]
  case loaded =>
    intro machine loaded bytes performed
    apply Keypad.eq_of_isHeld_eq
    intro key
    have next : loaded = Call.next ⟨machine, .load bytes⟩ := (congrArg Prod.snd performed).symm
    have reply : Call.reply ⟨machine, .load bytes⟩ = .done := congrArg Prod.fst performed
    rw [next, Call.isHeld_next, Keypad.isHeld_released]
    simp only [Call.puts?, reply, Option.getD_some]
  case runs =>
    intro options keypad bytes threshold session holds started
    have held := Session.keypad_runFor (Session.keypad_of_start started)
    constructor
    · intro cycles key
      rw [held cycles]
      exact (Keypad.holding_eq_ok_iff.mp holds).2 key
    · intro last fault? ended
      obtain ⟨cycles, reached⟩ := Session.exists_runFor_of_run? ended
      have kept := held cycles
      rw [reached] at kept
      exact kept

/-- Three keys, of which one is held down before a program is loaded and one is let go again, a byte
that is no key's number, and a run with two more keys. -/
theorem Machine.keys_follow_last_put_of_a_jump :
    let bytes : Array UInt8 := #[0x12, 0x00]
    let operations : List Operation :=
      [.press 0x4, .load bytes, .press 0xA, .press 0xB, .release 0xB, .step]
    let machine := Operation.performAll operations .powerOn
    let call : Call := ⟨machine, .press 0x1A⟩
    let options : Options := { path := "rom", hold := "1v", limit := some 3 }
    machine.state.keypad.isHeld 0x4 = false ∧ machine.state.keypad.isHeld 0xB = false ∧
      (∃ earlier call later, Operation.calls operations .powerOn = earlier ++ call :: later ∧
        call.puts? 0xA = some true ∧ ∀ other ∈ later, other.puts? 0xA = none) ∧
      call.reply = .refused (.invalidKey 0x1A) ∧ call.next = call.machine ∧
      call.next.state.keypad.isHeld 0xA = call.machine.state.keypad.isHeld 0xA ∧
      (∃ loaded, (Operation.load bytes).perform machine = (.done, loaded) ∧
        loaded.state.keypad = Keypad.released) ∧
      ∃ keypad session last fault?, Keypad.holding options.hold = .ok keypad ∧
        Session.start options.path bytes keypad none = .ok session ∧
        (session.runFor 2).1.machine.state.keypad.isHeld 0xF = true ∧
        session.run? options.limit = some (last, fault?) ∧
        last.machine.state.keypad = keypad := by
  intro bytes operations machine call options
  obtain ⟨histories, off, refused, left, loaded, runs⟩ := keys_follow_last_put
  have down : machine.state.keypad.isHeld 0xA = true := by decide
  have reply : call.reply = .refused (.invalidKey 0x1A) :=
    congrArg Prod.fst (off machine 0x1A (by decide)).1
  obtain ⟨same, leaves⟩ := refused call _ reply
  have fits : bytes.size ≤ Rom.maxSize := by decide
  have performed : (Operation.load bytes).perform machine = (.done, .loaded ⟨bytes, fits⟩) :=
    congrArg (fun outcome : Except Fault Rom => machine.answer (outcome.map Machine.loaded))
      (Rom.ofBytes_of_le fits)
  obtain ⟨keypad, holds⟩ : ∃ keypad, Keypad.holding "1v" = .ok keypad := ⟨_, rfl⟩
  have started := Session.start_of_le "rom" fits keypad none
  obtain ⟨held, kept⟩ := runs options keypad bytes none _ holds started
  refine ⟨by decide, by decide, (histories operations 0xA).mp down, reply, same,
    left call 0xA (leaves 0xA), ⟨_, performed, loaded machine _ bytes performed⟩, keypad, _, _, _,
    holds, started, ?_, rfl, kept _ _ rfl⟩
  exact (held 2 0xF).mpr ⟨'v', by simp [options], rfl⟩

end ChipEight
