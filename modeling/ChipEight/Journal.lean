import ChipEight.Event

/-! # Journals

A journal keeps the events that are severe enough, in the order in which they
happened.
-/

namespace ChipEight

/-- A record of events. -/
structure Journal where
  /-- The least severe level that is kept; nothing is kept without one. -/
  threshold : Option Level
  events : Array Event

namespace Journal

/-- A journal without events. -/
def empty (threshold : Option Level) : Journal :=
  ⟨threshold, #[]⟩

/-- Whether a threshold lets an event into the journal. -/
def admits (threshold : Option Level) (event : Event) : Bool :=
  match threshold with
  | some least => event.level.rank ≤ least.rank
  | none => false

/-- The journal with one more event, if it is severe enough. -/
def record (journal : Journal) (event : Event) : Journal :=
  if admits journal.threshold event then { journal with events := journal.events.push event }
  else journal

/-- The journal with more events, those of them that are severe enough. -/
def recordAll (journal : Journal) (events : List Event) : Journal :=
  events.foldl record journal

/-- The levels and messages of the events of a journal. -/
def records (journal : Journal) : List (Level × String) :=
  journal.events.toList.map fun event => (event.level, event.message)

/-- The lines that tell the events of a journal. -/
def lines (journal : Journal) : List String :=
  journal.events.toList.map Event.line

@[simp] theorem recordAll_nil (journal : Journal) : journal.recordAll [] = journal := rfl

@[simp] theorem recordAll_cons (journal : Journal) (event : Event) (events : List Event) :
    journal.recordAll (event :: events) = (journal.record event).recordAll events := rfl

/-- What is recorded does not change the level from which on it is. -/
@[simp] theorem threshold_record (journal : Journal) (event : Event) :
    (journal.record event).threshold = journal.threshold := by
  unfold record
  split <;> rfl

@[simp] theorem threshold_recordAll (journal : Journal) (events : List Event) :
    (journal.recordAll events).threshold = journal.threshold := by
  induction events generalizing journal with
  | nil => rfl
  | cons event rest ih => rw [recordAll_cons, ih, threshold_record]

theorem recordAll_append (journal : Journal) (first second : List Event) :
    journal.recordAll (first ++ second) = (journal.recordAll first).recordAll second :=
  List.foldl_append

/-- Recording keeps exactly the events that the threshold admits. -/
theorem events_recordAll (journal : Journal) (events : List Event) :
    (journal.recordAll events).events.toList =
      journal.events.toList ++ events.filter (admits journal.threshold) := by
  induction events generalizing journal with
  | nil => simp only [recordAll_nil, List.filter_nil, List.append_nil]
  | cons event rest ih =>
      rw [recordAll_cons, ih, threshold_record]
      unfold record
      by_cases admitted : admits journal.threshold event
      · simp only [admitted, ↓reduceIte, Array.toList_push, List.filter_cons, List.append_assoc,
          List.singleton_append]
      · simp only [admitted, List.filter_cons, Bool.false_eq_true, ↓reduceIte]

end Journal

end ChipEight
