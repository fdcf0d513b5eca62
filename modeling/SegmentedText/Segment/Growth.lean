import SegmentedText.Capacity
import SegmentedText.Edited
import SegmentedText.Surroundings

/-!
# Making and extending segments

A segment is made over an array of its own.  It is extended in the cells between
its end and its limit while there is room and nobody looks at the array;
otherwise its window is first copied to the front of a larger array, and every
other window over the old array stays where it is.

The single maker is `Segment.allocate`: a new array that holds the given units and
fillers behind them.  It shows just these units (`Segment.content_allocate`), and
no cell that was there before is changed (`Segment.cell?_allocate`).

The larger array is larger than the units at hand need, and room may also be asked
for as a number.  Either may be more than there can be (`Segment.canReserve`).  Then
no array is made, and an append that asks for it is refused and does nothing; a text
is appended unit by unit, and what was appended before the refusal stays.
-/

set_option autoImplicit false

namespace SegmentedText
namespace Segment

variable {α : Type} [TextUnit α]

/-! ## Making -/

/-- A segment over a new array of at least `capacity` cells, the first of which hold `units`. -/
def allocate (units : List α) (capacity : Nat) (st : Store α) : Segment × Store α :=
  let made := st.alloc (CellArray.make units capacity TextUnit.blank)
  (⟨made.1, 0, units.length, max capacity units.length⟩, made.2)

@[simp] theorem length_allocate (units : List α) (capacity : Nat) (st : Store α) :
    (allocate units capacity st).1.length = units.length := Nat.sub_zero _

@[simp] theorem capacity_allocate (units : List α) (capacity : Nat) (st : Store α) :
    (allocate units capacity st).1.capacity = max capacity units.length := Nat.sub_zero _

/-- Making a segment leaves the arrays that were there before as they are. -/
theorem cell?_allocate (units : List α) (capacity : Nat) (st : Store α) {id : StorageId}
    (older : id.index < st.arrays.size) (i : Nat) :
    (allocate units capacity st).2.cell? id i = st.cell? id i := by
  rw [allocate, Store.cell?_alloc, if_neg (by omega)]

theorem valid_allocate (units : List α) (capacity : Nat) (st : Store α) :
    (allocate units capacity st).1.Valid (allocate units capacity st).2 := by
  have room : (allocate units capacity st).2.extent (allocate units capacity st).1.storage =
      max capacity units.length :=
    (Store.extent_alloc_self st _).trans (CellArray.extent_make units capacity TextUnit.blank)
  exact ⟨Nat.zero_le _, Nat.le_max_right _ _, Nat.le_of_eq room.symm⟩

/-- A new segment shows the units that it was made for. -/
theorem content_allocate (units : List α) (capacity : Nat) (st : Store α) :
    (allocate units capacity st).1.content (allocate units capacity st).2 = units := by
  apply List.ext_getElem?
  intro k
  rw [getElem?_content, length_allocate]
  split
  next inside =>
    simp only [allocate, Store.cell?_alloc_self, Nat.zero_add]
    exact CellArray.get?_make units capacity TextUnit.blank inside
  next beyond => exact (List.getElem?_eq_none (Nat.le_of_not_lt beyond)).symm

/-- A segment that shows nothing and has no room. -/
def empty (st : Store α) : Segment × Store α := allocate [] 0 st

/-- A segment that shows the given units and has no room beyond them. -/
def ofUnits (units : List α) (st : Store α) : Segment × Store α := allocate units units.length st

/-- A segment that shows a text, whose characters have been collected one by one. -/
def ofText (text : String) (st : Store α) : Segment × Store α :=
  allocate (TextUnit.unitsOf text)
    (collectedCapacity (TextUnit.kind α).smallestCapacity text.toList) st

/-- A segment that shows the given units and has room up to a capacity. -/
def withRoom (units : List α) (capacity : Nat) (st : Store α) : Except Fault (Segment × Store α) :=
  if fitsMemory (TextUnit.kind α).width (max capacity units.length) then
    .ok (allocate units capacity st)
  else .error .roomExceeded

/-- A segment that shows nothing yet and has room for `capacity` units. -/
def withCapacity (capacity : Nat) (st : Store α) : Except Fault (Segment × Store α) :=
  withRoom [] capacity st

/-- A new segment whose capacity cannot be counted in a machine word is refused, as there is no
memory for it either. -/
theorem withCapacity_counted (layout : Layout) (pending : Nat) (st : Store α) :
    withCapacity (layout.newSegmentCapacity pending) st =
      (layout.countedCapacity pending).bind fun capacity => withCapacity capacity st := by
  rw [Layout.countedCapacity]
  split
  next => rfl
  next uncounted =>
    refine if_neg fun fits => uncounted ?_
    rw [List.length_nil, Nat.max_zero] at fits
    exact lt_of_fitsMemory (TextUnit.kind α).width_pos fits

/-! ## Extending -/

/-- Whether more units can be appended where the segment is: the room is there, and the array is
not lent out. -/
def hasRoom (s : Segment) (around : Surroundings) (additional : Nat) : Bool :=
  additional ≤ s.spare && !around.lends s.storage

/-- The capacity of the array to which the segment moves so that more units fit. -/
def nextCapacity (s : Segment) (additional : Nat) : Nat :=
  grownCapacity s.capacity (s.length + additional)

/-- Whether there can be room for more units: where the segment is, or in a larger array. -/
def canReserve (α : Type) [TextUnit α] (s : Segment) (around : Surroundings) (additional : Nat) :
    Bool :=
  s.hasRoom around additional ||
    fitsMemory (TextUnit.kind α).width (s.nextCapacity additional)

/-- The segment with room for more units, if there can be.  It moves only if it has to. -/
def makeRoom (s : Segment) (around : Surroundings) (additional : Nat) (st : Store α) :
    Segment × Store α :=
  if s.hasRoom around additional then (s, st)
  else allocate (s.content st) (s.nextCapacity additional) st

/-- Makes room for more units, unless that is more than there can be. -/
def reserve (s : Segment) (around : Surroundings) (additional : Nat) (st : Store α) :
    Except Fault (Segment × Store α) :=
  if s.canReserve α around additional then .ok (s.makeRoom around additional st)
  else .error .roomExceeded

/-- Makes room for more units and goes on in it.  Where there can be no room, nothing is done. -/
def growing (s : Segment) (around : Surroundings) (additional : Nat)
    (next : Segment → Store α → Edited Segment α Unit) (st : Store α) : Edited Segment α Unit :=
  (Edited.whole s st (s.reserve around additional st)).andThen next

/-- Writes units into the room behind the window. -/
def fillBehind (s : Segment) (units : List α) (st : Store α) : Edited Segment α Unit :=
  ⟨{ s with stop := s.stop + units.length }, st.writeAll s.storage s.stop units, .ok ()⟩

/-- Appends one unit. -/
def append (s : Segment) (around : Surroundings) (u : α) (st : Store α) : Edited Segment α Unit :=
  s.growing around 1 (fun s st => s.fillBehind [u] st) st

/-- Appends units one by one. -/
def appendEach (s : Segment) (around : Surroundings) : List α → Store α → Edited Segment α Unit
  | [], st => ⟨s, st, .ok ()⟩
  | u :: us, st => (s.append around u st).andThen fun s st => s.appendEach around us st

/-- Appends a list of units at once.  Appending nothing leaves the segment where it is. -/
def appendSlice (s : Segment) (around : Surroundings) (units : List α) (st : Store α) :
    Edited Segment α Unit :=
  if units.isEmpty then ⟨s, st, .ok ()⟩
  else s.growing around units.length (fun s st => s.fillBehind units st) st

/-- Appends a text: makes room for all of it, then appends its units one by one. -/
def appendText (s : Segment) (around : Surroundings) (text : String) (st : Store α) :
    Edited Segment α Unit :=
  s.growing around text.toList.length
    (fun s st => s.appendEach around (TextUnit.unitsOf text) st) st

section

variable {s : Segment} {around : Surroundings} {additional : Nat}
  {next : Segment → Store α → Edited Segment α Unit} {st : Store α}

/-- Where there can be room, what comes next is done in it. -/
theorem growing_of_canReserve (can : s.canReserve α around additional = true) :
    s.growing around additional next st =
      next (s.makeRoom around additional st).1 (s.makeRoom around additional st).2 := by
  rw [growing, reserve, if_pos can]
  rfl

/-- Where there can be no room, nothing is done. -/
theorem growing_of_not_canReserve (cannot : ¬s.canReserve α around additional = true) :
    s.growing around additional next st = ⟨s, st, .error .roomExceeded⟩ := by
  rw [growing, reserve, if_neg cannot]
  rfl

theorem answer_growing : (s.growing around additional next st).answer = .ok () ↔
    s.canReserve α around additional = true ∧
      (next (s.makeRoom around additional st).1 (s.makeRoom around additional st).2).answer =
        .ok () := by
  by_cases can : s.canReserve α around additional = true
  · rw [growing_of_canReserve can, and_iff_right can]
  · rw [growing_of_not_canReserve can]
    simp [can]

/-- What holds of the segment as it is, and of what is done in the room, holds of what is left. -/
theorem left_growing {P : Segment → Store α → Prop} (old : P s st)
    (done : s.canReserve α around additional = true →
      P (next (s.makeRoom around additional st).1 (s.makeRoom around additional st).2).object
        (next (s.makeRoom around additional st).1 (s.makeRoom around additional st).2).store) :
    P (s.growing around additional next st).object (s.growing around additional next st).store := by
  by_cases can : s.canReserve α around additional = true
  · rw [growing_of_canReserve can]
    exact done can
  · rw [growing_of_not_canReserve can]
    exact old

end

/-- Appending something at once makes room first. -/
theorem appendSlice_of_ne_nil (s : Segment) (around : Surroundings) {units : List α}
    (some : units ≠ []) (st : Store α) : s.appendSlice around units st =
      s.growing around units.length (fun s st => s.fillBehind units st) st :=
  if_neg (by simpa using some)

/-! ## Copying -/

/-- Moves the window to an array of its own that holds nothing else. -/
def compact (s : Segment) (st : Store α) : Segment × Store α := ofUnits (s.content st) st

/-- The same text in units of another kind, in a store for that kind. -/
def convert {β : Type} [TextUnit β] (s : Segment) (st : Store α) (target : Store β) :
    Segment × Store β :=
  ofUnits ((s.content st).map fun u => TextUnit.ofChar (TextUnit.toChar u)) target

end Segment
end SegmentedText
