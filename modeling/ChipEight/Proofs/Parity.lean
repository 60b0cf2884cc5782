import ChipEight.Proofs.Covering
import ChipEight.Proofs.Tracing
import Mathlib.Data.List.DropRight
import Mathlib.Data.List.Induction

/-! # The frame as a parity

A cell of the frame tells how often it was hit since the frame was last cleared, or, if it
never was, by how many hits it differs from where it started: an even number leaves it and
an odd number flips it (`Machine.frame_parity`). Nothing but clears and draws counts, and
since flips commute, the order of draws does not show in the frame.
-/

namespace ChipEight

namespace Execution

/-- An execution turns all pixels off. -/
def Clears (execution : Execution) : Prop :=
  execution.op.word = 0x00E0

/-- Whether a pixel was hit. -/
def Hits (execution : Execution) (pixel : Pixel) : Prop :=
  execution.op.family.val = 0xD ∧
    execution.state.Hits execution.op.x execution.op.y execution.op.n.val pixel

/-- An execution hits a pixel if it draws a sprite over it. -/
theorem hits_iff {execution : Execution} {pixel : Pixel} :
    execution.Hits pixel ↔ execution.op.family = 0xD ∧
      execution.state.Hits execution.op.x execution.op.y execution.op.n.val pixel := by
  have draws : execution.op.family = 0xD ↔ execution.op.family.val = 0xD := Fin.ext_iff
  rw [Hits, draws]

instance (execution : Execution) : Decidable execution.Clears :=
  inferInstanceAs (Decidable (_ = _))

instance (execution : Execution) (pixel : Pixel) : Decidable (execution.Hits pixel) :=
  inferInstanceAs (Decidable (_ ∧ _))

/-- The executions after the last one that cleared the frame. -/
def sinceClear (executions : List Execution) : List Execution :=
  executions.rtakeWhile fun execution => ¬execution.Clears

/-- How often a pixel is hit. -/
def hitCount (executions : List Execution) (pixel : Pixel) : Nat :=
  executions.countP fun execution => execution.Hits pixel

/-- What an execution makes of a cell. -/
def onCell (pixel : Pixel) (cell : UInt8) (execution : Execution) : UInt8 :=
  if execution.Clears then 0 else if execution.Hits pixel then cell ^^^ 1 else cell

/-- One more changes the parity. -/
theorem ofNat_succ_mod_two (count : Nat) :
    UInt8.ofNat ((count + 1) % 2) = UInt8.ofNat (count % 2) ^^^ 1 := by
  rcases Nat.mod_two_eq_zero_or_one count with even | odd
  · have next : (count + 1) % 2 = 1 := by omega
    rw [next, even]
    rfl
  · have next : (count + 1) % 2 = 0 := by omega
    rw [next, odd]
    rfl

/-- Executed one after the other, the executions since the last clear flip the cell by the
parity of their hits. -/
theorem foldl_onCell (executions : List Execution) (pixel : Pixel) (cell : UInt8) :
    executions.foldl (onCell pixel) cell =
      (if ∃ execution ∈ executions, execution.Clears then 0 else cell) ^^^
        UInt8.ofNat (hitCount (sinceClear executions) pixel % 2) := by
  induction executions using List.reverseRecOn with
  | nil =>
      simp only [List.foldl_nil, List.not_mem_nil, false_and, exists_false, ↓reduceIte, hitCount,
        sinceClear, List.rtakeWhile_nil, List.countP_nil, Nat.zero_mod]
      exact UInt8.xor_zero.symm
  | append_singleton earlier last ih =>
      rw [List.foldl_append, List.foldl_cons, List.foldl_nil, ih]
      by_cases clears : last.Clears
      · have cleared : ∃ execution ∈ earlier ++ [last], execution.Clears :=
          ⟨last, List.mem_append_right _ (List.mem_singleton_self last), clears⟩
        have none : sinceClear (earlier ++ [last]) = [] :=
          List.rtakeWhile_concat_neg _ _ _ (by simp only [clears, not_true, decide_false,
            Bool.false_eq_true, not_false_eq_true])
        simp only [onCell, clears, cleared, none, ↓reduceIte, hitCount, List.countP_nil]
        rfl
      · have one : sinceClear (earlier ++ [last]) = sinceClear earlier ++ [last] :=
          List.rtakeWhile_concat_pos _ _ _ (by simp only [clears, not_false_eq_true, decide_true])
        have same : (∃ execution ∈ earlier ++ [last], execution.Clears) ↔
            ∃ execution ∈ earlier, execution.Clears := by
          simp only [List.mem_append, List.mem_singleton, or_and_right, exists_or, exists_eq_left,
            clears, or_false]
        simp only [same, one, hitCount, List.countP_append, List.countP_singleton]
        by_cases hits : last.Hits pixel
        · simp only [onCell, clears, hits, decide_true, ↓reduceIte, ofNat_succ_mod_two,
            UInt8.xor_assoc]
        · simp only [onCell, clears, hits, decide_false, Bool.false_eq_true, ↓reduceIte,
            Nat.add_zero]

end Execution

namespace Machine

/-- An opcode clears a cell, flips it or leaves it. -/
theorem cell_complete (machine : Machine) (op : Opcode) (pixel : Pixel) :
    (machine.complete op).state.frame.cell pixel =
      Execution.onCell pixel (machine.state.frame.cell pixel) ⟨machine.state, op⟩ := by
  rw [frame_complete]
  simp only [Execution.onCell, Execution.Clears, Execution.hits_iff]
  by_cases clears : op.word = 0x00E0
  · simp only [clears, ↓reduceIte, Frame.cell_blank]
  · by_cases draws : op.family = 0xD
    · simp only [clears, draws, true_and, ↓reduceIte]
      exact machine.state.cell_draw op.x op.y op.n_le pixel
    · simp only [clears, draws, false_and, ↓reduceIte]

/-- Completing a draw draws its sprite and lets the timers count down. -/
theorem complete_of_draw (machine : Machine) {op : Opcode} (draws : op.family = 0xD) :
    machine.complete op =
      { machine with
        state := (machine.state.passOpcode.draw
          (machine.state.sprite op.x op.y op.n.val)).tick } := by
  have other := Instruction.word_ne_of_family_ne op (by rw [draws]; decide)
  unfold complete
  rw [Instruction.decode?_eq]
  simp only [other, draws, Fin.reduceEq, ↓reduceIte]
  rfl

/-- A draw writes no register but the flag, which counts as zero in a coordinate. So every
draw hits the same pixels before another one and after it. -/
theorem hits_complete_of_draw (machine : Machine) {op : Opcode} (draws : op.family = 0xD)
    (left top : Register) (height : Nat) (pixel : Pixel) :
    (machine.complete op).state.Hits left top height pixel ↔
      machine.state.Hits left top height pixel := by
  have coordinate (register : Register) :
      (machine.complete op).state.coordinate register = machine.state.coordinate register := by
    rw [machine.complete_of_draw draws]
    exact machine.state.passOpcode.coordinate_draw _ register
  have index : (machine.complete op).state.index = machine.state.index := by
    rw [machine.complete_of_draw draws]
    rfl
  simp only [State.Hits, coordinate, index, memory_complete]

/-- The draws of a list flip a cell once for each of them that hits it, as seen from where
the first one starts. -/
theorem cell_foldl_complete (machine : Machine) {draws : List Opcode}
    (all : ∀ op ∈ draws, op.family = 0xD) (pixel : Pixel) :
    (draws.foldl complete machine).state.frame.cell pixel =
      draws.foldl
        (fun cell op =>
          if machine.state.Hits op.x op.y op.n.val pixel then cell ^^^ 1 else cell)
        (machine.state.frame.cell pixel) := by
  induction draws generalizing machine with
  | nil => rfl
  | cons op rest ih =>
      have isDraw := all op List.mem_cons_self
      have unclear : op.word ≠ 0x00E0 :=
        Instruction.word_ne_of_family_ne op (by rw [isDraw]; decide)
      rw [List.foldl_cons, ih _ fun other member => all other (List.mem_cons_of_mem _ member)]
      simp only [machine.hits_complete_of_draw isDraw, machine.cell_complete, List.foldl_cons,
        Execution.onCell, Execution.Clears, Execution.hits_iff, unclear, isDraw, true_and, ↓reduceIte]

/-- Draws leave the same frame in any order, as the hits do not depend on it. -/
theorem frame_foldl_complete_of_perm (machine : Machine) {draws reordered : List Opcode}
    (all : ∀ op ∈ draws, op.family = 0xD) (same : draws.Perm reordered) :
    (draws.foldl complete machine).state.frame =
      (reordered.foldl complete machine).state.frame := by
  apply Frame.eq_of_cell_eq
  intro pixel
  rw [machine.cell_foldl_complete all,
    machine.cell_foldl_complete fun op member => all op (same.mem_iff.mpr member)]
  apply same.foldl_eq'
  intro first _ second _ cell
  split_ifs <;> rfl

/-- **The frame is the parity of hits since the last clear.** After any number of steps of
any machine, each cell is what it was at the start, or zero if the frame was cleared, flipped
by the parity of the draws since the last clear that hit it when they were executed. Draws
that follow each other can be put in any order without a difference to the frame. -/
theorem frame_parity :
    (∀ (machine : Machine) (steps : Nat) (pixel : Pixel),
      (repeatUpTo step steps machine).1.state.frame.cell pixel =
        (if ∃ execution ∈ machine.executions steps, execution.Clears then 0
          else machine.state.frame.cell pixel) ^^^
          UInt8.ofNat (Execution.hitCount (Execution.sinceClear (machine.executions steps)) pixel
            % 2)) ∧
    ∀ (machine : Machine) (draws reordered : List Opcode),
      (∀ op ∈ draws, op.family = 0xD) → draws.Perm reordered →
        (draws.foldl complete machine).state.frame =
          (reordered.foldl complete machine).state.frame := by
  constructor
  · intro machine steps pixel
    rw [← Execution.foldl_onCell]
    refine machine.run_keeps (Execution.onCell pixel)
      (fun cell machine => machine.state.frame.cell pixel = cell) ?_ steps rfl
    rintro _ machine op _ rfl
    exact machine.cell_complete op pixel
  · intro machine draws reordered all same
    exact machine.frame_foldl_complete_of_perm all same

/-- A program that draws the digit zero twice over itself and clears what is left. -/
theorem frame_parity_overlapping_draws :
    let machine := loaded ⟨#[0xD0, 0x05, 0xD0, 0x15, 0x00, 0xE0, 0xD0, 0x05], by decide⟩
    let corner : Pixel := ⟨0, 0⟩
    (repeatUpTo step 1 machine).1.state.frame.cell corner = 1 ∧
      (repeatUpTo step 2 machine).1.state.frame.cell corner = 0 ∧
      (repeatUpTo step 4 machine).1.state.frame.cell corner = 1 ∧
      (∀ op ∈ [Opcode.mk 0xD005, ⟨0xDF13⟩], op.family = 0xD) ∧
      (complete (complete machine ⟨0xD005⟩) ⟨0xDF13⟩).state.frame =
        (complete (complete machine ⟨0xDF13⟩) ⟨0xD005⟩).state.frame := by
  intro machine corner
  have draws : ∀ op ∈ [Opcode.mk 0xD005, ⟨0xDF13⟩], op.family = 0xD := by decide
  refine ⟨?_, ?_, ?_, draws, frame_parity.2 machine _ _ draws (List.Perm.swap ..)⟩
  · exact (frame_parity.1 machine 1 corner).trans (by decide)
  · exact (frame_parity.1 machine 2 corner).trans (by decide)
  · exact (frame_parity.1 machine 4 corner).trans (by decide)

end Machine

end ChipEight
