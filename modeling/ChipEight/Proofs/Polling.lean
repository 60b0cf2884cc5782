import ChipEight.Proofs.Calls

/-! # Polling the frame

Whether the frame is pending sums up a whole history: it is exactly if something was painted
since a program was last installed or the frame last handed out
(`Operation.framePending_iff`). So a call for the frame reports what was painted and not
yet reported (`Machine.polls_report_what_was_painted`). It does not report every change: to
install a program blanks the frame without a report (`Machine.poll_misses_iff`).
-/

namespace ChipEight

namespace Machine

/-- A frame is handed out if it is pending. -/
theorem fst_takeFrame (machine : Machine) :
    machine.takeFrame.1 =
      if machine.state.framePending then some machine.state.frame else none := by
  unfold takeFrame
  split <;> rfl

/-- To take the frame changes nothing but that it is no longer pending. -/
theorem snd_takeFrame (machine : Machine) :
    machine.takeFrame.2 =
      { machine with state := { machine.state with framePending := false } } := by
  unfold takeFrame
  cases pending : machine.state.framePending with
  | true => rfl
  | false =>
      simp only [Bool.false_eq_true, ↓reduceIte]
      rw [← pending]

/-- Nothing is handed out exactly if the frame is not pending. -/
theorem takeFrame_eq_none_iff (machine : Machine) :
    (Operation.takeFrame.perform machine).1 = .frame none ↔
      machine.state.framePending = false := by
  simp only [Operation.perform, fst_takeFrame, Reply.frame.injEq]
  cases machine.state.framePending <;>
    simp only [Bool.false_eq_true, Bool.true_eq_false, ↓reduceIte, reduceCtorEq]

end Machine

namespace Call

/-- Whether a call hands out the frame. -/
def handsOut (call : Call) : Bool :=
  match call.operation, call.reply with
  | .takeFrame, .frame (some _) => true
  | _, _ => false

/-- Whether a call leaves nothing painted that is not reported. -/
def settles (call : Call) : Bool :=
  call.installs || call.handsOut

/-- A poll hands out the frame that is pending. -/
theorem handsOut_of_polls {call : Call} (polls : call.polls = true) :
    call.handsOut = call.machine.state.framePending := by
  obtain ⟨machine, operation⟩ := call
  cases operation with
  | takeFrame =>
      simp only [handsOut, reply, Operation.perform, Machine.fst_takeFrame]
      cases machine.state.framePending <;> rfl
  | _ => cases polls

/-- Nothing else hands out a frame. -/
theorem handsOut_of_not_polls {call : Call} (polls : call.polls = false) :
    call.handsOut = false := by
  obtain ⟨machine, operation⟩ := call
  cases operation with
  | takeFrame => cases polls
  | _ => rfl

/-- A call that installs a program settles the frame. -/
theorem settles_of_installs {call : Call} (installs : call.installs = true) :
    call.settles = true := by
  rw [settles, installs, Bool.true_or]

/-- Any other call settles the frame that it hands out. -/
theorem settles_of_not_installs {call : Call} (installs : call.installs = false) :
    call.settles = call.handsOut := by
  rw [settles, installs, Bool.false_or]

/-- What neither installs a program nor asks for the frame settles nothing. -/
theorem settles_of_not_polls {call : Call} (installs : call.installs = false)
    (polls : call.polls = false) : call.settles = false :=
  (settles_of_not_installs installs).trans (handsOut_of_not_polls polls)

/-- A call that executes nothing does not make the frame pending. -/
theorem framePending_next {call : Call} (idle : call.opcode? = none)
    (settled : call.machine.state.framePending = false) :
    call.next.state.framePending = false := by
  cases call.effect with
  | installs _ _ next => rw [next]; rfl
  | executes _ _ _ executes _ =>
      rw [idle] at executes
      cases executes
  | polls _ _ _ next => rw [next, Machine.snd_takeFrame]
  | hosts _ _ _ _ next =>
      rw [next]
      exact settled

end Call

namespace Operation

/-- The frame is pending exactly if something was painted since a program was last installed or
the frame last handed out. -/
theorem framePending_iff (operations : List Operation) :
    (performAll operations .powerOn).state.framePending = true ↔
      ∃ op ∈ Call.executed (Call.since Call.settles (calls operations .powerOn)), op.Paints := by
  refine performAll_keeps_calls
    (fun calls machine => machine.state.framePending = true ↔
      ∃ op ∈ Call.executed (Call.since Call.settles calls), op.Paints)
    ?_ operations ⟨nofun, nofun⟩
  intro earlier call pending
  cases call.effect with
  | installs memory installs next =>
      rw [next, Call.since_concat_of_ends (Call.settles_of_installs installs)]
      exact ⟨nofun, nofun⟩
  | executes op others polls executes next =>
      have goesOn := Call.settles_of_not_polls others polls
      rw [next, Machine.framePending_complete, Call.since_concat goesOn,
        Call.executed_concat_some executes]
      simp only [List.mem_append, List.mem_singleton, or_and_right, exists_or, exists_eq_left,
        ← pending]
      by_cases paints : op.Paints
      · simp only [paints, or_true, ↓reduceIte]
      · simp only [paints, or_false, ↓reduceIte]
  | polls others polls idle next =>
      have settles := (Call.settles_of_not_installs others).trans (Call.handsOut_of_polls polls)
      rw [next, Machine.snd_takeFrame]
      cases before : call.machine.state.framePending with
      | true =>
          rw [Call.since_concat_of_ends (settles.trans before)]
          exact ⟨nofun, nofun⟩
      | false =>
          rw [Call.since_concat (settles.trans before), Call.executed_concat_none idle, ← pending,
            before]
  | hosts keypad others polls idle next =>
      have goesOn := Call.settles_of_not_polls others polls
      rw [next, Call.since_concat goesOn, Call.executed_concat_none idle]
      exact pending

/-- Without a step a frame that is not pending does not become so. -/
theorem framePending_performAll {operations : List Operation}
    (others : ∀ operation ∈ operations, operation.isStep = false) {machine : Machine}
    (settled : machine.state.framePending = false) :
    (performAll operations machine).state.framePending = false := by
  induction operations generalizing machine with
  | nil => exact settled
  | cons operation rest ih =>
      obtain ⟨other, later⟩ := List.forall_mem_cons.mp others
      exact ih later (Call.framePending_next (opcode?_of_not_isStep other machine) settled)

end Operation

namespace Machine

/-- **A call for the frame reports what was painted.** After every history of a machine that was
new at its start, it hands out the frame exactly if a clear or a draw was executed since a program
was last installed or the frame last handed out, and the frame is the current one. It changes
nothing but that the frame is no longer pending. So of two calls for the frame without a step in
between, the second one hands out nothing. -/
theorem polls_report_what_was_painted :
    (∀ operations : List Operation,
      let machine := Operation.performAll operations .powerOn
      let unreported :=
        Call.executed (Call.since Call.settles (Operation.calls operations .powerOn))
      (Operation.takeFrame.perform machine).1 =
        .frame (if ∃ op ∈ unreported, op.Paints then some machine.state.frame else none)) ∧
    (∀ machine : Machine,
      (Operation.takeFrame.perform machine).2 =
        { machine with state := { machine.state with framePending := false } }) ∧
    ∀ (machine : Machine) (between : List Operation),
      (∀ operation ∈ between, operation.isStep = false) →
        let polled := (Operation.takeFrame.perform machine).2
        (Operation.takeFrame.perform (Operation.performAll between polled)).1 = .frame none := by
  refine ⟨?reports, snd_takeFrame, ?once⟩
  case reports =>
    intro operations machine unreported
    have pending : machine.state.framePending = true ↔ ∃ op ∈ unreported, op.Paints :=
      Operation.framePending_iff operations
    simp only [Operation.perform, fst_takeFrame, pending]
  case once =>
    intro machine between others polled
    have settled : polled.state.framePending = false :=
      congrArg (fun machine => machine.state.framePending) machine.snd_takeFrame
    exact (takeFrame_eq_none_iff _).mpr (Operation.framePending_performAll others settled)

/-- A program that draws nothing where it draws, and that polls do not report twice. -/
theorem polls_report_what_was_painted_of_no_height :
    let operations : List Operation := [.load #[0xD0, 0x00, 0x60, 0x01], .step, .step]
    let between : List Operation := [.press 3, .load #[0x00, 0xE0], .takeFrame, .viewFrame]
    let machine := Operation.performAll operations .powerOn
    let polled := (Operation.takeFrame.perform machine).2
    (Operation.takeFrame.perform machine).1 = .frame (some machine.state.frame) ∧
      (∀ operation ∈ between, operation.isStep = false) ∧
      (Operation.takeFrame.perform (Operation.performAll between polled)).1 = .frame none := by
  intro operations between machine polled
  obtain ⟨reports, _, once⟩ := polls_report_what_was_painted
  have painted : ∃ op ∈ Call.executed (Call.since Call.settles
      (Operation.calls operations .powerOn)), op.Paints := ⟨⟨0xD000⟩, by decide, .inr rfl⟩
  have others : ∀ operation ∈ between, operation.isStep = false := by decide
  refine ⟨(reports operations).trans ?_, others, once machine between others⟩
  exact congrArg Reply.frame (if_pos painted)

end Machine

/-! ## Changes that are not reported -/

namespace Call

/-- Whether a call constructs a new machine. -/
def constructs (call : Call) : Bool :=
  match call.operation with
  | .restart => true
  | _ => false

/-- Whether a call is one that the frame of a later poll is compared with. -/
def renews (call : Call) : Bool :=
  call.constructs || call.polls

/-- The frame to compare with after a call, given the one before: a new machine starts with its
own, and a poll sees the frame whether or not it hands it out. -/
def glimpse (seen : Frame) (call : Call) : Frame :=
  if call.constructs then Machine.powerOn.state.frame
  else if call.polls then call.machine.state.frame
  else seen

/-- The frame at the last poll, or at construction if there was none since. -/
def lastSeen (calls : List Call) : Frame :=
  calls.foldl glimpse Machine.powerOn.state.frame

/-- A new machine is an installed one. -/
theorem installs_of_constructs {call : Call} (constructs : call.constructs = true) :
    call.installs = true := by
  obtain ⟨machine, operation⟩ := call
  cases operation with
  | restart => rfl
  | _ => cases constructs

theorem polls_of_installs {call : Call} (installs : call.installs = true) :
    call.polls = false := by
  obtain ⟨machine, operation⟩ := call
  cases operation with
  | takeFrame => cases installs
  | _ => rfl

/-- A call that installs nothing makes no new machine. -/
theorem constructs_of_not_installs {call : Call} (others : call.installs = false) :
    call.constructs = false :=
  Bool.eq_false_iff.mpr fun constructs =>
    Bool.false_ne_true (others.symm.trans (installs_of_constructs constructs))

theorem renews_of_not_installs {call : Call} (others : call.installs = false) :
    call.renews = call.polls := by
  rw [renews, constructs_of_not_installs others, Bool.false_or]

/-- The last frame that was seen, with one more call. -/
theorem lastSeen_concat (calls : List Call) (call : Call) :
    lastSeen (calls ++ [call]) = glimpse (lastSeen calls) call :=
  List.foldl_concat glimpse _ call calls

/-- The frame that is there after some calls if nothing was painted: the one seen last, unless a
program was installed since, which blanks it. -/
def unpainted (calls : List Call) : Frame :=
  if ∃ call ∈ since renews calls, call.installs then Frame.blank else lastSeen calls

variable {calls : List Call} {call : Call}

/-- A call that installs a program leaves a blank frame. -/
theorem unpainted_concat_of_installs (installs : call.installs = true) :
    unpainted (calls ++ [call]) = Frame.blank := by
  cases constructs : call.constructs with
  | true =>
      have renews : call.renews = true := by rw [Call.renews, constructs, Bool.true_or]
      rw [unpainted, since_concat_of_ends renews, lastSeen_concat, glimpse, constructs]
      rfl
  | false =>
      have goesOn : call.renews = false := by
        rw [Call.renews, constructs, polls_of_installs installs, Bool.or_false]
      rw [unpainted, since_concat goesOn]
      exact if_pos ⟨call, List.mem_append_right _ (List.mem_singleton_self call), installs⟩

/-- A poll shows the frame as it is. -/
theorem unpainted_concat_of_polls (others : call.installs = false) (polls : call.polls = true) :
    unpainted (calls ++ [call]) = call.machine.state.frame := by
  rw [unpainted, since_concat_of_ends ((renews_of_not_installs others).trans polls),
    lastSeen_concat, glimpse, constructs_of_not_installs others, polls]
  rfl

/-- Any other call shows nothing. -/
theorem unpainted_concat (others : call.installs = false) (goesOn : call.polls = false) :
    unpainted (calls ++ [call]) = unpainted calls := by
  have same : (∃ other ∈ since renews calls ++ [call], other.installs) ↔
      ∃ other ∈ since renews calls, other.installs := by
    simp only [List.mem_append, List.mem_singleton, or_and_right, exists_or, exists_eq_left, others,
      Bool.false_eq_true, or_false]
  rw [unpainted, since_concat ((renews_of_not_installs others).trans goesOn), lastSeen_concat,
    glimpse, constructs_of_not_installs others, goesOn]
  simp only [same, Bool.false_eq_true, ↓reduceIte]
  rfl

/-- If a program was installed since the frame was last compared, then nothing was handed out
since the last program was installed. -/
theorem since_settles_of_installed (installed : ∃ call ∈ since renews calls, call.installs) :
    since settles calls = since installs calls := by
  induction calls using List.reverseRecOn with
  | nil =>
      obtain ⟨call, member, _⟩ := installed
      cases member
  | append_singleton earlier last ih =>
      cases installs : last.installs with
      | true =>
          rw [since_concat_of_ends (settles_of_installs installs),
            since_concat_of_ends installs]
      | false =>
          have renews := renews_of_not_installs installs
          cases polls : last.polls with
          | true =>
              rw [since_concat_of_ends (renews.trans polls)] at installed
              obtain ⟨call, member, _⟩ := installed
              cases member
          | false =>
              rw [since_concat (renews.trans polls)] at installed
              obtain ⟨call, member, placed⟩ := installed
              rw [since_concat (settles_of_not_polls installs polls), since_concat installs, ih]
              rcases List.mem_append.mp member with before | here
              · exact ⟨call, before, placed⟩
              · rw [List.mem_singleton.mp here, installs] at placed
                cases placed

end Call

namespace Operation

/-- A frame that is not pending is what it is where nothing was painted. -/
theorem frame_of_not_pending (operations : List Operation)
    (settled : (performAll operations .powerOn).state.framePending = false) :
    (performAll operations .powerOn).state.frame = Call.unpainted (calls operations .powerOn) := by
  refine performAll_keeps_calls
    (fun calls machine => machine.state.framePending = false →
      machine.state.frame = Call.unpainted calls)
    ?_ operations (fun _ => rfl) settled
  intro earlier call unpainted settled
  cases call.effect with
  | installs memory installs next =>
      rw [next, Call.unpainted_concat_of_installs installs]
      rfl
  | executes op others polls executes next =>
      rw [next, Machine.framePending_complete] at settled
      by_cases paints : op.Paints
      · rw [if_pos paints] at settled
        cases settled
      · rw [if_neg paints] at settled
        rw [next, Machine.frame_complete_of_not_paints _ _ paints,
          Call.unpainted_concat others polls, unpainted settled]
  | polls others polls idle next =>
      rw [next, Machine.snd_takeFrame, Call.unpainted_concat_of_polls others polls]
  | hosts keypad others polls idle next =>
      rw [next] at settled ⊢
      rw [Call.unpainted_concat others polls]
      exact unpainted settled

end Operation

namespace Machine

/-- **Which changes a poll misses.** Take any history of a machine that was new at its start, and
compare the frame at a poll with the one at the poll before, or at construction. The poll hands
out nothing although the two differ exactly if since the poll before, which did not see a blank
frame, a reset or a load has put a program into the machine, and since then nothing was drawn or
cleared. -/
theorem poll_misses_iff (operations : List Operation) :
    let machine := Operation.performAll operations .powerOn
    let calls := Operation.calls operations .powerOn
    (machine.state.frame ≠ Call.lastSeen calls ∧
        (Operation.takeFrame.perform machine).1 = .frame none) ↔
      (Call.lastSeen calls ≠ Frame.blank ∧
        (∃ call ∈ Call.since Call.renews calls, call.installs) ∧
        ¬∃ op ∈ Call.executed (Call.since Call.installs calls), op.Paints) := by
  intro machine calls
  have pending := Operation.framePending_iff operations
  have unpainted := Operation.frame_of_not_pending operations
  rw [takeFrame_eq_none_iff]
  constructor
  · rintro ⟨changed, settled⟩
    have frame := unpainted settled
    by_cases installed : ∃ call ∈ Call.since Call.renews calls, call.installs
    · rw [Call.unpainted, if_pos installed] at frame
      refine ⟨fun blank => changed (frame.trans blank.symm), installed, ?_⟩
      rw [← Call.since_settles_of_installed installed, ← pending, settled]
      exact Bool.false_ne_true
    · rw [Call.unpainted, if_neg installed] at frame
      exact absurd frame changed
  · rintro ⟨lit, installed, unpaintedSince⟩
    rw [← Call.since_settles_of_installed installed, ← pending, Bool.not_eq_true] at unpaintedSince
    refine ⟨?_, unpaintedSince⟩
    rw [unpainted unpaintedSince, Call.unpainted, if_pos installed]
    exact lit.symm

/-- A reset blanks the frame that was handed out, and the next poll hands out nothing. -/
theorem reset_goes_unreported :
    let operations : List Operation := [.load #[0xD0, 0x05], .step, .takeFrame, .reset]
    let machine := Operation.performAll operations .powerOn
    machine.state.frame ≠ Call.lastSeen (Operation.calls operations .powerOn) ∧
      (Operation.takeFrame.perform machine).1 = .frame none := by
  intro operations machine
  refine ⟨fun same => ?_, rfl⟩
  have corner : Frame.blank.cell ⟨0, 0⟩ =
      (Call.lastSeen (Operation.calls operations .powerOn)).cell ⟨0, 0⟩ :=
    congrArg (fun frame : Frame => frame.cell ⟨0, 0⟩) same
  exact absurd corner (by decide)

end Machine

end ChipEight
