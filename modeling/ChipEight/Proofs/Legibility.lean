import ChipEight.Proofs.Accounting
import ChipEight.Proofs.Covering
import ChipEight.Proofs.Pictures
import ChipEight.Proofs.Reachability

/-! # Reading pictures

A picture shows every cell of a frame at its own place (`Frame.getElem?_picture`), so that a frame
of zeros and ones can be read back from it line by line (`Frame.ofPicture_picture`). Texts of
thirty-two lines of sixty-four marks are the pictures of such frames, each of exactly one
(`Frame.pictures_are_faithful`).
-/

namespace ChipEight

section Lines

variable {α β : Type} {items : List α} {line : α → List β} {width : Nat}
  (wide : ∀ item ∈ items, (line item).length = width)

/-- With a separator behind the last line as well, every line has one of its own. -/
theorem intercalate_concat (separator : β) (nonempty : items ≠ []) :
    [separator].intercalate (items.map line) ++ [separator] =
      items.flatMap fun item => line item ++ [separator] := by
  induction items with
  | nil => exact absurd rfl nonempty
  | cons item rest ih =>
      cases rest with
      | nil =>
          simp only [List.map_cons, List.map_nil, List.intercalate_singleton, List.flatMap_cons,
            List.flatMap_nil, List.append_nil]
      | cons next rest =>
          rw [List.flatMap_cons, ← ih (List.cons_ne_nil next rest), List.map_cons, List.map_cons,
            List.intercalate_cons_cons, List.append_assoc]

include wide

theorem length_flatMap_of_length_eq :
    (items.flatMap line).length = width * items.length := by
  rw [List.length_flatMap, List.map_congr_left wide, List.map_const', List.sum_replicate_nat,
    Nat.mul_comm]

/-- In lines of one width, one after the other, the places follow from the numbers. -/
theorem getElem?_flatMap_of_length_eq {x y : Nat} (narrow : x < width) :
    (items.flatMap line)[x + width * y]? = items[y]?.bind fun item => (line item)[x]? := by
  induction items generalizing y with
  | nil => rfl
  | cons item rest ih =>
      obtain ⟨here, later⟩ := List.forall_mem_cons.mp wide
      rw [List.flatMap_cons]
      cases y with
      | zero =>
          rw [Nat.mul_zero, Nat.add_zero, List.getElem?_append_left (here ▸ narrow)]
          rfl
      | succ y =>
          have past : x + width * (y + 1) = (line item).length + (x + width * y) := by
            rw [here, Nat.mul_succ]
            omega
          rw [past, List.getElem?_append_right (Nat.le_add_right _ _), Nat.add_sub_cancel_left,
            ih later, List.getElem?_cons_succ]

end Lines

theorem getElem?_map_finRange {α : Type} {size : Nat} (value : Fin size → α) (index : Fin size) :
    ((List.finRange size).map value)[index.val]? = some (value index) := by
  have inside : index.val < (List.finRange size).length := by
    rw [List.length_finRange]
    exact index.isLt
  rw [List.getElem?_map, List.getElem?_eq_getElem inside, List.getElem_finRange]
  rfl

namespace Frame

variable (frame : Frame)

theorem cell_eq_iff (pixel : Pixel) (value : UInt8) :
    frame.cell pixel = value ↔
      frame.cells[pixel.column.val + 64 * pixel.row.val]? = some value := by
  have inside : pixel.column.val + 64 * pixel.row.val < 2048 := pixel.index.isLt
  rw [Vector.getElem?_eq_getElem inside, Option.some.injEq]
  rfl

/-! ## Places -/

/-- The characters of a line, from the left. -/
theorem toList_line (row : Fin 32) :
    (frame.line row).toList = (List.finRange 64).map fun column => frame.mark ⟨column, row⟩ :=
  String.toList_ofList

theorem length_line (row : Fin 32) : (frame.line row).toList.length = 64 := by
  rw [toList_line, List.length_map, List.length_finRange]

theorem getElem?_line (pixel : Pixel) :
    (frame.line pixel.row).toList[pixel.column.val]? = some (frame.mark pixel) := by
  rw [toList_line]
  exact getElem?_map_finRange (fun column => frame.mark ⟨column, pixel.row⟩) pixel.column

/-- A picture is its lines with line breaks in between. -/
theorem toList_picture :
    frame.picture.toList =
      ['\n'].intercalate ((List.finRange 32).map fun row => (frame.line row).toList) := by
  rw [picture, String.toList_intercalate, List.map_map]
  rfl

/-- With a line break behind it, a picture consists of lines that all end with one. -/
theorem picture_concat :
    frame.picture.toList ++ ['\n'] =
      (List.finRange 32).flatMap fun row => (frame.line row).toList ++ ['\n'] := by
  rw [toList_picture]
  exact intercalate_concat '\n' (List.ne_nil_of_length_pos (by decide))

theorem length_line_concat (row : Fin 32) : ((frame.line row).toList ++ ['\n']).length = 65 := by
  rw [List.length_append, length_line]
  rfl

/-- A picture has 32 lines of 64 characters and 31 breaks. -/
theorem length_picture : frame.picture.toList.length = 2079 := by
  have lines := congrArg List.length frame.picture_concat
  rw [length_flatMap_of_length_eq fun row _ => frame.length_line_concat row, List.length_finRange,
    List.length_append, List.length_singleton] at lines
  omega

/-- From a row to the next one there is one character more than there are cells. -/
theorem getElem?_picture_concat {x : Nat} (narrow : x < 65) (row : Fin 32) :
    (frame.picture.toList ++ ['\n'])[x + 65 * row.val]? =
      ((frame.line row).toList ++ ['\n'])[x]? := by
  have here := getElem?_map_finRange id row
  rw [List.map_id] at here
  rw [picture_concat,
    getElem?_flatMap_of_length_eq (fun row _ => frame.length_line_concat row) narrow, here]
  rfl

/-- A picture shows each pixel at its column and 65 times its row. -/
theorem getElem?_picture (pixel : Pixel) :
    frame.picture.toList[pixel.column.val + 65 * pixel.row.val]? = some (frame.mark pixel) := by
  have shown := frame.getElem?_picture_concat (Nat.lt_succ_of_lt pixel.column.isLt) pixel.row
  rw [List.getElem?_append_left (by rw [length_picture]; omega),
    List.getElem?_append_left (by rw [length_line]; exact pixel.column.isLt)] at shown
  rw [shown, getElem?_line]

/-- All lines but the last one end with a break. -/
theorem getElem?_picture_lineBreak {y : Nat} (low : y < 31) :
    frame.picture.toList[64 + 65 * y]? = some '\n' := by
  have shown : (frame.picture.toList ++ ['\n'])[64 + 65 * y]? = _ :=
    frame.getElem?_picture_concat (by decide) ⟨y, Nat.lt_succ_of_lt low⟩
  rw [List.getElem?_append_left (by rw [length_picture]; omega),
    List.getElem?_append_right (by rw [length_line]), length_line] at shown
  exact shown

theorem mark_eq_or_eq (pixel : Pixel) : frame.mark pixel = '#' ∨ frame.mark pixel = '.' := by
  unfold mark
  split
  · exact .inl rfl
  · exact .inr rfl

/-- The line breaks of a picture are those between its lines. -/
theorem getElem?_picture_eq_lineBreak_iff (place : Nat) :
    frame.picture.toList[place]? = some '\n' ↔ ∃ y < 31, place = 64 + 65 * y := by
  constructor
  · intro breaks
    obtain ⟨inside, _⟩ := List.getElem?_eq_some_iff.mp breaks
    rw [length_picture] at inside
    by_cases narrow : place % 65 < 64
    · have shown := frame.getElem?_picture ⟨⟨place % 65, narrow⟩, ⟨place / 65, by omega⟩⟩
      rw [show place % 65 + 65 * (place / 65) = place from Nat.mod_add_div place 65, breaks,
        Option.some.injEq] at shown
      rcases frame.mark_eq_or_eq _ with mark | dot
      · exact absurd (shown.trans mark) (by decide)
      · exact absurd (shown.trans dot) (by decide)
    · exact ⟨place / 65, by omega, by omega⟩
  · rintro ⟨y, low, rfl⟩
    exact frame.getElem?_picture_lineBreak low

/-! ## Texts that are pictures -/

/-- Whether a line consists of sixty-four marks, each for a pixel that is lit or not. -/
def IsLine (line : List Char) : Prop :=
  line.length = 64 ∧ ∀ character ∈ line, character = '#' ∨ character = '.'

/-- Whether a text consists of thirty-two lines of marks with line breaks between them. -/
def IsPicture (text : String) : Prop :=
  ∃ lines : List String, lines.length = 32 ∧ (∀ line ∈ lines, IsLine line.toList) ∧
    text = "\n".intercalate lines

theorem isLine_line (row : Fin 32) : IsLine (frame.line row).toList := by
  refine ⟨frame.length_line row, fun character shown => ?_⟩
  rw [toList_line, List.mem_map] at shown
  obtain ⟨column, _, rfl⟩ := shown
  exact frame.mark_eq_or_eq ⟨column, row⟩

theorem isLine_of_mem {line : String} (member : line ∈ (List.finRange 32).map frame.line) :
    IsLine line.toList := by
  obtain ⟨row, _, rfl⟩ := List.mem_map.mp member
  exact frame.isLine_line row

theorem length_lines : ((List.finRange 32).map frame.line).length = 32 := by
  rw [List.length_map, List.length_finRange]

theorem isPicture_picture : IsPicture frame.picture :=
  ⟨_, frame.length_lines, fun _ => frame.isLine_of_mem, rfl⟩

/-- No mark is a line break, so that lines of marks can be told apart. -/
theorem splitOn_intercalate {lines : List String} (marks : ∀ line ∈ lines, IsLine line.toList)
    (nonempty : lines ≠ []) :
    ("\n".intercalate lines).toList.splitOn '\n' = lines.map String.toList := by
  rw [String.toList_intercalate]
  apply List.splitOn_intercalate
  · intro line member breaks
    obtain ⟨text, given, rfl⟩ := List.mem_map.mp member
    rcases (marks text given).2 '\n' breaks with mark | dot
    · exact absurd mark (by decide)
    · exact absurd dot (by decide)
  · rwa [ne_eq, List.map_eq_nil_iff]

/-! ## Reading -/

/-- The frame that lines from the top show: a cell holds one where there is a mark. -/
def ofLines (lines : List (List Char)) : Frame :=
  ⟨Vector.ofFn fun index =>
    if (lines[index.val / 64]?.getD [])[index.val % 64]? = some '#' then 1 else 0⟩

/-- The frame that a text shows, line by line. -/
def ofPicture (text : String) : Frame :=
  ofLines (text.toList.splitOn '\n')

theorem isBinary_ofLines (lines : List (List Char)) : (ofLines lines).IsBinary := by
  intro cell member
  obtain ⟨index, rfl⟩ := Vector.mem_ofFn.mp member
  split
  · exact .inr rfl
  · exact .inl rfl

/-- A pixel that is read is lit if its character is a hash. -/
theorem cell_ofLines {lines : List (List Char)} {pixel : Pixel} {characters : List Char}
    (here : lines[pixel.row.val]? = some characters) :
    (ofLines lines).cell pixel = if characters[pixel.column.val]? = some '#' then 1 else 0 := by
  have row : pixel.index.val / 64 = pixel.row.val := by
    simp only [Pixel.index]
    omega
  have column : pixel.index.val % 64 = pixel.column.val := by
    simp only [Pixel.index]
    omega
  simp only [cell, ofLines, Fin.getElem_fin, Vector.getElem_ofFn, row, column, here,
    Option.getD_some]

/-- A frame that holds only zeros and ones can be read back from its picture. -/
theorem ofPicture_picture {frame : Frame} (binary : frame.IsBinary) :
    ofPicture frame.picture = frame := by
  have nonempty : (List.finRange 32).map frame.line ≠ [] :=
    List.ne_nil_of_length_pos (by rw [length_lines]; decide)
  have split : frame.picture.toList.splitOn '\n' =
      ((List.finRange 32).map frame.line).map String.toList :=
    splitOn_intercalate (fun _ => frame.isLine_of_mem) nonempty
  apply eq_of_cell_eq
  intro pixel
  have here : (((List.finRange 32).map frame.line).map String.toList)[pixel.row.val]? =
      some (frame.line pixel.row).toList := by
    rw [List.getElem?_map, getElem?_map_finRange, Option.map_some]
  rw [ofPicture, split, cell_ofLines here, getElem?_line]
  simp only [Option.some.injEq, mark_eq_iff]
  rcases binary.cell pixel with off | on
  · rw [off, if_neg (by decide)]
  · rw [on, if_pos rfl]

/-- A line of marks is that of the frame that it shows. -/
theorem line_ofLines {lines : List (List Char)} {row : Fin 32} {characters : List Char}
    (here : lines[row.val]? = some characters) (marks : IsLine characters) :
    ((ofLines lines).line row).toList = characters := by
  apply List.ext_getElem?'
  intro x inside
  rw [length_line, marks.1, max_self] at inside
  have within : x < characters.length := marks.1.symm ▸ inside
  have read : characters[x]? = some characters[x] := List.getElem?_eq_getElem within
  let pixel : Pixel := ⟨⟨x, inside⟩, row⟩
  have lit : (ofLines lines).mark pixel = '#' ↔ characters[x] = '#' := by
    rw [mark_eq_iff, cell_ofLines here, read]
    simp only [Option.some.injEq]
    split
    · next mark => exact iff_of_true rfl mark
    · next dot => exact iff_of_false (by decide) dot
  rw [read]
  refine ((ofLines lines).getElem?_line pixel).trans (congrArg some ?_)
  rcases marks.2 characters[x] (List.getElem_mem within) with mark | dot
  · rw [lit.mpr mark, mark]
  · have unlit : (ofLines lines).mark pixel ≠ '#' := by
      rw [ne_eq, lit, dot]
      decide
    rw [((ofLines lines).mark_eq_or_eq pixel).resolve_left unlit, dot]

/-- A text of marks is the picture of the frame that it shows. -/
theorem picture_ofPicture {text : String} (isPicture : IsPicture text) :
    (ofPicture text).picture = text := by
  obtain ⟨lines, count, marks, rfl⟩ := isPicture
  have nonempty : lines ≠ [] := List.ne_nil_of_length_pos (by omega)
  rw [ofPicture, splitOn_intercalate marks nonempty, picture]
  congr 1
  apply List.ext_getElem ((length_lines _).trans count.symm)
  intro y low inside
  rw [length_lines] at low
  have here : (lines.map String.toList)[y]? = some lines[y].toList := by
    rw [List.getElem?_map, List.getElem?_eq_getElem inside, Option.map_some]
  have shown := @line_ofLines _ ⟨y, low⟩ _ here (marks lines[y] (List.getElem_mem inside))
  rw [List.getElem_map, List.getElem_finRange]
  exact String.toList_inj.mp shown

/-- Frames of zeros and ones that look the same are the same. -/
theorem picture_inj {first second : Frame} (binary : first.IsBinary) (binaryToo : second.IsBinary) :
    first.picture = second.picture ↔ first = second := by
  refine ⟨fun same => ?_, congrArg picture⟩
  rw [← ofPicture_picture binary, same, ofPicture_picture binaryToo]

/-- The pictures are the texts that show exactly one frame of pixels that are on or off. -/
theorem isPicture_iff {text : String} :
    IsPicture text ↔ ∃! frame : Frame, frame.IsBinary ∧ frame.picture = text := by
  constructor
  · intro isPicture
    refine ⟨ofPicture text, ⟨isBinary_ofLines _, picture_ofPicture isPicture⟩, ?_⟩
    rintro frame ⟨binary, rfl⟩
    exact (ofPicture_picture binary).symm
  · rintro ⟨frame, ⟨_, rfl⟩, _⟩
    exact frame.isPicture_picture

end Frame

/-- The cells of a reachable machine hold zeros and ones. -/
theorem Machine.Reachable.isBinary {machine : Machine} (reachable : machine.Reachable) :
    machine.state.frame.IsBinary := by
  obtain ⟨operations, rfl⟩ := reachable
  have settled := Operation.performAll_keeps Call.install Machine.Settled
    (fun _ call => Machine.Settled.perform call) operations Machine.Settled.powerOn
  exact settled.frame

/-- With a dump a run prints the picture of its last frame. -/
theorem Options.output_reportOf {options : Options} (dump : options.dump = true) (last : Session)
    (fault : Option Fault) :
    (options.reportOf last fault).output = last.machine.state.frame.picture ++ "\n" :=
  if_pos dump

/-- **Pictures are faithful.** The picture of a frame, whatever its cells hold, has 2079
characters: at the place of each cell a mark if it holds exactly one and a full stop otherwise,
and line breaks between the lines and nowhere else. A frame that holds only zeros and ones is read
back from its picture line by line. So what is printed at the end of two runs is the same exactly
if their frames are. The texts of thirty-two lines of sixty-four such characters are those that
are pictures of frames of zeros and ones, each of exactly one. -/
theorem Frame.pictures_are_faithful :
    (∀ frame : Frame, frame.picture.length = 2079 ∧
      (∀ x < 64, ∀ y < 32, frame.picture.toList[x + 65 * y]? =
        some (if frame.cells[x + 64 * y]? = some 1 then '#' else '.')) ∧
      ∀ place, frame.picture.toList[place]? = some '\n' ↔ ∃ y < 31, place = 64 + 65 * y) ∧
    (∀ frame : Frame, frame.IsBinary → ofPicture frame.picture = frame) ∧
    (∀ (options others : Options) (first second : Session) (fault cause : Option Fault),
      options.dump = true → others.dump = true →
      first.machine.Reachable → second.machine.Reachable →
        ((options.reportOf first fault).output = (others.reportOf second cause).output ↔
          first.machine.state.frame = second.machine.state.frame)) ∧
    ∀ text, IsPicture text ↔ ∃! frame : Frame, frame.IsBinary ∧ frame.picture = text := by
  refine ⟨?places, ?read, ?printed, ?texts⟩
  case places =>
    intro frame
    refine ⟨String.length_toList.symm.trans frame.length_picture, ?_,
      frame.getElem?_picture_eq_lineBreak_iff⟩
    intro x narrow y low
    let pixel : Pixel := ⟨⟨x, narrow⟩, ⟨y, low⟩⟩
    have shown : frame.picture.toList[x + 65 * y]? = some (frame.mark pixel) :=
      frame.getElem?_picture pixel
    have lit : frame.isLit pixel = true ↔ frame.cells[x + 64 * y]? = some 1 :=
      beq_iff_eq.trans (frame.cell_eq_iff pixel 1)
    simp only [shown, mark, lit]
  case read =>
    intro frame binary
    exact ofPicture_picture binary
  case printed =>
    intro options others first second fault cause dump dumpToo reachable reachableToo
    rw [Options.output_reportOf dump, Options.output_reportOf dumpToo, String.append_left_inj]
    exact picture_inj reachable.isBinary reachableToo.isBinary
  case texts =>
    intro text
    exact isPicture_iff

/-- A machine that has drawn the digit zero, and a new one. -/
theorem Frame.pictures_are_faithful_of_a_digit :
    let drawn : Machine := Operation.performAll [.load #[0xD0, 0x05], .step] .powerOn
    let text := drawn.state.frame.picture
    let options : Options := { path := "rom", dump := true }
    text.toList[3 + 65 * 4]? = some '#' ∧ text.toList[4 + 65 * 4]? = some '.' ∧
      text.toList[64 + 65 * 4]? = some '\n' ∧ text.toList[2078]? ≠ some '\n' ∧
      ofPicture text = drawn.state.frame ∧
      (options.reportOf (.opening drawn none) none).output ≠
        (options.reportOf (.opening .powerOn none) none).output := by
  intro drawn text options
  obtain ⟨places, read, printed, _⟩ := pictures_are_faithful
  obtain ⟨_, marks, breaks⟩ := places drawn.state.frame
  have reachable : drawn.Reachable := ⟨_, rfl⟩
  have lit : drawn.state.frame.cells[3 + 64 * 4]? = some 1 := by decide
  have dark : Machine.powerOn.state.frame.cells[3 + 64 * 4]? ≠ some 1 := by decide
  have same := printed options options (.opening drawn none) (.opening .powerOn none) none none rfl
    rfl reachable ⟨[], rfl⟩
  refine ⟨(marks 3 (by decide) 4 (by decide)).trans ?_,
    (marks 4 (by decide) 4 (by decide)).trans (by decide),
    (breaks _).mpr ⟨4, by decide, rfl⟩, ?_, read _ reachable.isBinary, ?_⟩
  · rw [if_pos lit]
  · rw [ne_eq, breaks]
    omega
  · intro printsSame
    have frames : drawn.state.frame = Machine.powerOn.state.frame := same.mp printsSame
    rw [frames] at lit
    exact dark lit

end ChipEight
