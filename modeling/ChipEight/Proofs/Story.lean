import ChipEight.Event
import ChipEight.Proofs.Tracing

/-! # The story of a run

What a run tells is a story: an opening, and then for each cycle the line of the opcode that was
fetched, followed by one line more if the opcode had to be skipped or has painted the frame
(`Story`). Whatever the cycles do, the lines of a story agree with each other and with the
machine: there is one opcode for each cycle (`Story.length_traced`), the machine has skipped the
opcodes that are told to be skipped (`Story.hasSkipped`), the frames told are those painted
(`Story.frames`), and every line that is not the first of its cycle goes with the one before
(`Story.supports`).
-/

namespace ChipEight

namespace Event

/-- The opcode that is told to be fetched. -/
def fetched? : Event → Option Opcode
  | .fetched op .. => some op
  | _ => none

/-- The opcode that is told to be skipped. -/
def skipped? : Event → Option Opcode
  | .skipping op _ => some op
  | _ => none

/-- The cycle after which a frame is told to be taken, and how many pixels are lit in it. -/
def frame? : Event → Option (Nat × Nat)
  | .frameTaken cycles lit => some (cycles, lit)
  | _ => none

/-- The events of the most detailed level tell which opcodes are fetched. -/
theorem isSome_fetched? (event : Event) :
    event.fetched?.isSome = decide (event.level = .trace) := by
  cases event <;> rfl

end Event

/-- The opcodes that are told to be fetched. -/
def traced (told : List Event) : List Opcode :=
  told.filterMap Event.fetched?

/-- The opcodes that are told to be skipped. -/
def toldSkips (told : List Event) : List Opcode :=
  told.filterMap Event.skipped?

/-- The frames that are told of, each with its cycle and its lit pixels. -/
def toldFrames (told : List Event) : List (Nat × Nat) :=
  told.filterMap Event.frame?

/-- How many pixels the last frame has, where frames are given with their cycles; none if there
is no frame. -/
def lastLit (frames : List (Nat × Nat)) : Nat :=
  (frames.getLast?.map Prod.snd).getD 0

/-- Whether what is told ends with the line of an opcode, past which the program counter has a
given value. -/
def EndsFetching (told : List Event) (op : Opcode) (pc : UInt16) : Prop :=
  ∃ earlier registers index, told = earlier ++ [.fetched op registers index pc]

theorem traced_append (told more : List Event) :
    traced (told ++ more) = traced told ++ traced more :=
  List.filterMap_append

/-- There are as many opcodes as events of the most detailed level. -/
theorem countP_trace (told : List Event) :
    told.countP (fun event => event.level = .trace) = (traced told).length := by
  rw [traced, List.length_filterMap_eq_countP]
  apply List.countP_congr
  intro event _
  rw [event.isSome_fetched?]

theorem toldSkips_append (told more : List Event) :
    toldSkips (told ++ more) = toldSkips told ++ toldSkips more :=
  List.filterMap_append

theorem toldFrames_append (told more : List Event) :
    toldFrames (told ++ more) = toldFrames told ++ toldFrames more :=
  List.filterMap_append

/-- What tells of no frame can be left out where frames are looked for. -/
theorem toldFrames_append_of_eq_nil (told : List Event) {more : List Event}
    (quiet : toldFrames more = []) : toldFrames (told ++ more) = toldFrames told := by
  rw [toldFrames_append, quiet, List.append_nil]

theorem lastLit_concat (frames : List (Nat × Nat)) (cycles lit : Nat) :
    lastLit (frames ++ [(cycles, lit)]) = lit := by
  rw [lastLit, List.getLast?_concat]
  rfl

/-- An event that is reached while one more is told is that one or was reached before. -/
theorem concat_prefix_concat_iff {told earlier : List Event} {last event : Event} :
    earlier ++ [event] <+: told ++ [last] ↔
      earlier = told ∧ event = last ∨ earlier ++ [event] <+: told := by
  rw [List.prefix_concat_iff, List.append_singleton_inj]

namespace Machine

/-- The machine after a number of steps, or where they stop it. -/
def after (machine : Machine) (steps : Nat) : Machine :=
  (repeatUpTo step steps machine).1

/-- How many pixels are lit after a number of steps. -/
def litAfter (machine : Machine) (steps : Nat) : Nat :=
  (machine.after steps).state.frame.litCount

/-- The event of an opcode that is fetched. -/
def fetching (machine : Machine) (op : Opcode) : Event :=
  .fetched op machine.state.registers machine.state.index machine.state.passOpcode.pc

/-- The cycles of those opcodes that paint, and how many pixels are lit after each of them. -/
def paintings (machine : Machine) (ops : List Opcode) : List (Nat × Nat) :=
  (ops.zipIdx 1).filterMap fun (op, cycle) =>
    if op.Paints then some (cycle, machine.litAfter cycle) else none

/-- Whether what was told before an event is reason to tell it now: that an opcode is skipped, or
that the frame was taken, is told right after the line of the opcode. -/
def Supports (machine : Machine) (earlier : List Event) : Event → Prop
  | .skipping op address => ∃ pc, EndsFetching earlier op pc ∧ pc.toNat = address.toNat + 2
  | .frameTaken cycles lit =>
    ∃ op pc, EndsFetching earlier op pc ∧ op.Paints ∧ cycles = (traced earlier).length ∧
      lit = machine.litAfter cycles ∧ (op.word = 0x00E0 → lit = 0)
  | _ => True

variable {machine : Machine} {op : Opcode} {steps : Nat}

theorem after_succ (fetched : (machine.after steps).state.fetch = .ok op) :
    machine.after (steps + 1) = (machine.after steps).complete op := by
  have success := step_eq_ok_iff.mpr ⟨op, fetched, rfl⟩
  have longer := congrArg Prod.fst (repeatUpTo_succ_of_ok success 0)
  exact (fst_repeatUpTo_add machine steps 1).trans longer

/-- An opcode that does not paint leaves the number of lit pixels. -/
theorem litAfter_succ_of_not_paints (fetched : (machine.after steps).state.fetch = .ok op)
    (other : ¬op.Paints) : machine.litAfter (steps + 1) = machine.litAfter steps := by
  rw [litAfter, after_succ fetched, frame_complete_of_not_paints _ _ other, litAfter]

/-- The account of skipped opcodes goes on for one more step. -/
theorem hasSkipped_after_succ {earlier : Machine} {skips : List Opcode}
    (account : (machine.after steps).HasSkipped earlier skips)
    (fetched : (machine.after steps).state.fetch = .ok op) :
    (machine.after (steps + 1)).HasSkipped earlier
      (skips ++ if op.isImplemented then [] else [op]) := by
  rw [after_succ fetched]
  exact account.complete op

/-- Nothing is lit after the frame is cleared. -/
theorem litAfter_succ_of_clears (fetched : (machine.after steps).state.fetch = .ok op)
    (clears : op.word = 0x00E0) : machine.litAfter (steps + 1) = 0 := by
  rw [litAfter, after_succ fetched, frame_complete, if_pos clears]
  exact Frame.litCount_blank

/-- One more opcode is one more frame if it paints. -/
theorem paintings_concat (machine : Machine) (ops : List Opcode) (op : Opcode) :
    machine.paintings (ops ++ [op]) =
      machine.paintings ops ++
        if op.Paints then [(ops.length + 1, machine.litAfter (ops.length + 1))] else [] := by
  simp only [paintings, List.zipIdx_append, List.zipIdx_singleton, List.filterMap_append,
    Nat.add_comm 1]
  by_cases paints : op.Paints <;>
    simp only [paints, ↓reduceIte, List.filterMap_cons, List.filterMap_nil]

theorem paintings_concat_of_not_paints (machine : Machine) (ops : List Opcode)
    (other : ¬op.Paints) : machine.paintings (ops ++ [op]) = machine.paintings ops := by
  rw [paintings_concat, if_neg other, List.append_nil]

end Machine

/-- What is told of the first cycles of a machine's run. -/
inductive Story (start : Machine) : Nat → List Event → Prop
  | opening (size : Nat) (path : String) :
      Story start 0 [.resetting, .romLoaded size, .fileLoaded size path]
  | skips {cycles : Nat} {told : List Event} {op : Opcode} (story : Story start cycles told)
      (fetched : (start.after cycles).state.fetch = .ok op) (unknown : op.isImplemented = false) :
      Story start (cycles + 1)
        (told ++ [(start.after cycles).fetching op, .skipping op (start.after cycles).state.pc])
  | executes {cycles : Nat} {told : List Event} {op : Opcode} (story : Story start cycles told)
      (fetched : (start.after cycles).state.fetch = .ok op) (known : op.isImplemented = true)
      (other : ¬op.Paints) :
      Story start (cycles + 1) (told ++ [(start.after cycles).fetching op])
  | paints {cycles : Nat} {told : List Event} {op : Opcode} (story : Story start cycles told)
      (fetched : (start.after cycles).state.fetch = .ok op) (paints : op.Paints) :
      Story start (cycles + 1)
        (told ++ [(start.after cycles).fetching op,
          .frameTaken (cycles + 1) (start.litAfter (cycles + 1))])

namespace Story

variable {start : Machine} {cycles : Nat} {told : List Event}

/-- A story tells of one opcode for each cycle. -/
theorem length_traced (story : Story start cycles told) : (traced told).length = cycles := by
  induction story with
  | opening => rfl
  | skips _ _ _ ih => rw [traced_append, List.length_append, ih]; rfl
  | executes _ _ _ _ ih => rw [traced_append, List.length_append, ih]; rfl
  | paints _ _ _ ih => rw [traced_append, List.length_append, ih]; rfl

/-- The machine has skipped what is told to be skipped. -/
theorem hasSkipped (story : Story start cycles told) :
    (start.after cycles).HasSkipped start (toldSkips told) := by
  induction story with
  | opening => exact ⟨rfl, rfl⟩
  | skips _ fetched unknown ih =>
      have account := Machine.hasSkipped_after_succ ih fetched
      rw [unknown] at account
      rw [toldSkips_append]
      exact account
  | executes _ fetched known _ ih =>
      have account := Machine.hasSkipped_after_succ ih fetched
      rw [known] at account
      rw [toldSkips_append]
      exact account
  | paints _ fetched paints ih =>
      have account := Machine.hasSkipped_after_succ ih fetched
      rw [Opcode.isImplemented_of_paints paints] at account
      rw [toldSkips_append]
      exact account

/-- A frame is told of after exactly those cycles whose opcode paints, in their order. -/
theorem frames (story : Story start cycles told) :
    toldFrames told = start.paintings (traced told) := by
  induction story with
  | opening => rfl
  | @skips _ told op _ _ unknown ih =>
      rw [toldFrames_append_of_eq_nil told rfl, ih, traced_append]
      exact (start.paintings_concat_of_not_paints _ (Opcode.not_paints_of_unknown unknown)).symm
  | @executes _ told op _ _ _ other ih =>
      rw [toldFrames_append_of_eq_nil told rfl, ih, traced_append]
      exact (start.paintings_concat_of_not_paints _ other).symm
  | @paints cycles told op story _ paints ih =>
      have painted := start.paintings_concat (traced told) op
      rw [if_pos paints, story.length_traced] at painted
      rw [toldFrames_append, ih, traced_append]
      exact painted.symm

/-- As many pixels are lit as the last frame that was told of had. -/
theorem litAfter_eq (story : Story start cycles told) (blank : start.litAfter 0 = 0) :
    start.litAfter cycles = lastLit (toldFrames told) := by
  induction story with
  | opening => exact blank
  | @skips _ told _ _ fetched unknown ih =>
      rw [Machine.litAfter_succ_of_not_paints fetched (Opcode.not_paints_of_unknown unknown), ih,
        toldFrames_append_of_eq_nil told rfl]
  | @executes _ told _ _ fetched _ other ih =>
      rw [Machine.litAfter_succ_of_not_paints fetched other, ih,
        toldFrames_append_of_eq_nil told rfl]
  | paints _ _ _ _ =>
      rw [toldFrames_append]
      exact (lastLit_concat _ _ _).symm

/-- Whatever a story tells is supported by what was told before it. -/
theorem supports (story : Story start cycles told) {earlier : List Event} {event : Event}
    (reached : earlier ++ [event] <+: told) : start.Supports earlier event := by
  induction story with
  | opening size path =>
      have quiet : event ∈ [.resetting, .romLoaded size, .fileLoaded size path] :=
        reached.subset (List.mem_append_right earlier (List.mem_singleton_self event))
      simp only [List.mem_cons, List.not_mem_nil, or_false] at quiet
      rcases quiet with rfl | rfl | rfl <;> trivial
  | @skips _ told _ _ fetched _ ih =>
      -- The event is the last one told, the one before it, or was reached in an earlier cycle.
      rw [List.append_cons told, concat_prefix_concat_iff, concat_prefix_concat_iff] at reached
      rcases reached with ⟨rfl, rfl⟩ | ⟨rfl, rfl⟩ | before
      · exact ⟨_, ⟨_, _, _, rfl⟩, State.toNat_pc_passOpcode fetched⟩
      · trivial
      · exact ih before
  | executes _ _ _ _ ih =>
      rw [concat_prefix_concat_iff] at reached
      rcases reached with ⟨rfl, rfl⟩ | before
      · trivial
      · exact ih before
  | @paints _ told _ story fetched paints ih =>
      rw [List.append_cons told, concat_prefix_concat_iff, concat_prefix_concat_iff] at reached
      rcases reached with ⟨rfl, rfl⟩ | ⟨rfl, rfl⟩ | before
      · refine ⟨_, _, ⟨_, _, _, rfl⟩, paints, ?_, rfl, Machine.litAfter_succ_of_clears fetched⟩
        rw [traced_append, List.length_append, story.length_traced]
        rfl
      · trivial
      · exact ih before

end Story

end ChipEight
