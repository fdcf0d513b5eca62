import SegmentedText.Fault
import SegmentedText.Store
import SegmentedText.TextUnit

/-!
# Segments

A segment is a window over one array of the store: it shows the cells from
`start` up to `stop`, and may be extended in place as far as `limit`.  It holds
no text of its own, so two segments over one array can show the same cells, and
making one from another copies nothing.

What a segment shows is `Segment.content`; which cells show it is
`Segment.cells`.  The two agree cell by cell (`Segment.getElem?_content`), and
the content has the segment's length when the window lies within its array
(`Segment.Valid.length_content`).  This module holds everything that reads a
segment and changes nothing.
-/

set_option autoImplicit false

namespace SegmentedText

/-- A window over an array. -/
structure Segment where
  /-- The array. -/
  storage : StorageId
  /-- The first cell that is shown. -/
  start : Nat
  /-- The cell behind the last one that is shown. -/
  stop : Nat
  /-- The cell behind the last one that the segment may use. -/
  limit : Nat
  deriving Repr, DecidableEq

namespace Segment

/-! ## Measures -/

/-- The number of units shown. -/
def length (s : Segment) : Nat := s.stop - s.start

/-- Whether nothing is shown. -/
def isEmpty (s : Segment) : Bool := s.stop == s.start

/-- The number of units that the segment can show without moving. -/
def capacity (s : Segment) : Nat := s.limit - s.start

/-- The number of units that can be appended without moving. -/
def spare (s : Segment) : Nat := s.limit - s.stop

/-- Whether two segments are windows over the same array. -/
def sharesStorage (s t : Segment) : Bool := s.storage == t.storage

/-! ## The view -/

/-- The cells that are shown, in order. -/
def cells (s : Segment) : List Cell := (List.range' s.start s.length).map (Cell.mk s.storage)

@[simp] theorem length_cells (s : Segment) : s.cells.length = s.length := by
  rw [cells, List.length_map, List.length_range']

theorem length_eq_zero_of_isEmpty {s : Segment} (none : s.isEmpty = true) : s.length = 0 := by
  rw [length, beq_iff_eq.1 none]
  exact Nat.sub_self _

theorem cells_eq_nil_of_isEmpty {s : Segment} (none : s.isEmpty = true) : s.cells = [] :=
  List.eq_nil_of_length_eq_zero (by rw [length_cells, length_eq_zero_of_isEmpty none])

variable {α : Type}

/-- The units that are shown, in order. -/
def content (s : Segment) (st : Store α) : List α := st.slice s.storage s.start s.stop

/-- The window lies in order within its array. -/
structure Valid (s : Segment) (st : Store α) : Prop where
  start_le_stop : s.start ≤ s.stop
  stop_le_limit : s.stop ≤ s.limit
  limit_le_extent : s.limit ≤ st.extent s.storage

/-- A place of the content shows the cell at the same distance from the start of the window. -/
theorem getElem?_content (s : Segment) (st : Store α) (k : Nat) :
    (s.content st)[k]? = if k < s.length then st.cell? s.storage (s.start + k) else none :=
  st.getElem?_slice s.storage s.start s.stop k

theorem Valid.length_content {s : Segment} {st : Store α} (valid : s.Valid st) :
    (s.content st).length = s.length := by
  have := valid.stop_le_limit
  have := valid.limit_le_extent
  rw [content, Store.length_slice, length, Nat.min_eq_left (by omega)]

theorem length_content_le (s : Segment) (st : Store α) : (s.content st).length ≤ s.length := by
  rw [content, Store.length_slice, length]
  omega

/-! ## Reading -/

/-- The unit at an index. -/
def unitAt (s : Segment) (i : Nat) (st : Store α) : Except Fault α :=
  match (s.content st)[i]? with
  | some u => .ok u
  | none => .error (.segmentIndex i s.length)

/-- The first unit, if there is one. -/
def first? (s : Segment) (st : Store α) : Option α := (s.content st).head?

/-- The last unit, if there is one. -/
def last? (s : Segment) (st : Store α) : Option α := (s.content st).getLast?

/-- Copies the content over the front of a destination, and says how many units were copied. -/
def fill (s : Segment) (destination : List α) (st : Store α) : Except Fault (List α × Nat) :=
  if destination.length < s.length then .error .destinationTooShort
  else .ok (s.content st ++ destination.drop s.length, s.length)

variable [TextUnit α]

/-- The text that is shown. -/
def display (s : Segment) (st : Store α) : String := TextUnit.textOf (s.content st)

/-- The segment as it is shown for inspection: its window and nothing around it. -/
def inspect (s : Segment) (st : Store α) : String :=
  "Segment(" ++ TextUnit.quoted (s.content st) ++ ")"

/-- Whether two segments show the same units. -/
def sameContent (s t : Segment) (st : Store α) : Bool := s.content st == t.content st

/-- Whether a segment shows the given text. -/
def showsText (s : Segment) (text : String) (st : Store α) : Bool :=
  (s.content st).map TextUnit.toChar == text.toList

end Segment

end SegmentedText
