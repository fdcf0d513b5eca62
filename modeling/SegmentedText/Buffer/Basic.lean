import SegmentedText.Buffer.Cursor

/-!
# Buffers

A buffer is a text cut into segments.  Concatenating and slicing buffers moves
segments about and copies no unit.  A buffer that has no segment is told apart
from one whose only segment shows nothing yet: the first has nothing to append
into.

What a buffer shows is `Buffer.content`, and which cells show it is
`Buffer.cells`.  This module holds the type and everything that reads a buffer.
The ways of reading walk the segments each in its own manner: by block, by unit,
by cursor, from the front or from the back.
-/

set_option autoImplicit false

namespace SegmentedText

/-! ## The list of segments -/

/-- The segments of a buffer: none were ever made or all are gone, or a list of them is kept.

How many places a list has is not kept.  Opening one can be refused (`Buffer.canHold`); a list that
gets longer is taken to find the places that it needs. -/
inductive SegmentList where
  | vacant
  | held (segments : List Segment)
  deriving Repr, DecidableEq

namespace SegmentList

/-- The segments in order. -/
def toList : SegmentList → List Segment
  | .vacant => []
  | .held segments => segments

/-- A list that is kept although its last segment has gone is given up. -/
def settle : SegmentList → SegmentList
  | .held [] => .vacant
  | list => list

/-- Places a segment before all others. -/
def pushFront (list : SegmentList) (s : Segment) : SegmentList := .held (s :: list.toList)

/-- Places a segment behind all others. -/
def push (list : SegmentList) (s : Segment) : SegmentList := .held (list.toList ++ [s])

/-- Places several segments behind all others; placing none changes nothing. -/
def pushAll (list : SegmentList) (segments : List Segment) : SegmentList :=
  if segments.isEmpty then list else .held (list.toList ++ segments)

@[simp] theorem toList_vacant : vacant.toList = [] := rfl

@[simp] theorem toList_held (segments : List Segment) : (held segments).toList = segments := rfl

@[simp] theorem toList_settle (list : SegmentList) : list.settle.toList = list.toList := by
  unfold settle
  split <;> rfl

@[simp] theorem toList_pushFront (list : SegmentList) (s : Segment) :
    (list.pushFront s).toList = s :: list.toList := rfl

@[simp] theorem toList_push (list : SegmentList) (s : Segment) :
    (list.push s).toList = list.toList ++ [s] := rfl

@[simp] theorem toList_pushAll (list : SegmentList) (segments : List Segment) :
    (list.pushAll segments).toList = list.toList ++ segments := by
  unfold pushAll
  split
  next none => simp [List.isEmpty_iff.1 none]
  next => rfl

end SegmentList

/-- A text cut into segments, with the rule for opening new ones. -/
structure Buffer where
  segmentList : SegmentList := .vacant
  layout : Layout := {}
  deriving Repr, DecidableEq

namespace Buffer

/-! ## The view -/

/-- The segments in order. -/
def segments (b : Buffer) : List Segment := b.segmentList.toList

/-- The cells that are shown, in order. -/
def cells (b : Buffer) : List Cell := b.segments.flatMap Segment.cells

variable {α : Type}

/-- The units that are shown, in order. -/
def content (b : Buffer) (st : Store α) : List α := b.segments.flatMap (·.content st)

/-- Every segment lies within its array. -/
def Valid (b : Buffer) (st : Store α) : Prop := ∀ s ∈ b.segments, s.Valid st

/-! ## Measures -/

/-- The number of units shown. -/
def length (b : Buffer) : Nat := totalLength b.segments

/-- Whether nothing is shown. -/
def isEmpty (b : Buffer) : Bool := b.segments.all Segment.isEmpty

@[simp] theorem length_cells (b : Buffer) : b.cells.length = b.length := by
  unfold cells length
  induction b.segments with
  | nil => rfl
  | cons s rest ih => rw [List.flatMap_cons, List.length_append, ih, Segment.length_cells,
      totalLength_cons]

/-- The number of segments. -/
def segmentCount (b : Buffer) : Nat := b.segments.length

/-- Whether there is no list of segments. -/
def hasNoSegments (b : Buffer) : Bool :=
  match b.segmentList with
  | .vacant => true
  | .held _ => false

/-- Whether the buffer has a list of segments, or can open one. -/
def canHold (b : Buffer) : Bool := !b.hasNoSegments || b.layout.opensList

/-! ## Reading by unit and by block -/

/-- The units, read one by one. -/
def units (b : Buffer) (st : Store α) : List α :=
  b.segments.flatMap fun s =>
    (List.range s.length).filterMap fun i => (s.unitAt i st).toOption

/-- What each segment shows. -/
def windows (b : Buffer) (st : Store α) : List (List α) := b.segments.map (·.content st)

/-- The units, copied block by block. -/
def toUnits (b : Buffer) (st : Store α) : List α := (b.windows st).foldl (· ++ ·) []

/-- The first unit, if there is one. -/
def first? (b : Buffer) (st : Store α) : Option α := b.segments.findSome? (·.first? st)

/-- The last unit, if there is one. -/
def last? (b : Buffer) (st : Store α) : Option α := b.segments.reverse.findSome? (·.last? st)

/-- The unit at an index. -/
def unitAt (b : Buffer) (i : Nat) (st : Store α) : Except Fault α :=
  match (Cursor.locate b.segments i).unit? b.segments st with
  | some u => .ok u
  | none => .error (.bufferIndex i b.length)

/-- Copies segments over a destination from the place `done` on. -/
def fillFrom : List Segment → List α → Nat → Store α → Except Fault (List α × Nat)
  | [], destination, done, _ => .ok (destination, done)
  | s :: rest, destination, done, st =>
      match s.fill (destination.drop done) st with
      | .error fault => .error fault
      | .ok (tail, count) => fillFrom rest (destination.take done ++ tail) (done + count) st

/-- Copies the content over the front of a destination, and says how many units were copied. -/
def fill (b : Buffer) (destination : List α) (st : Store α) : Except Fault (List α × Nat) :=
  fillFrom b.segments destination 0 st

/-! ## Reading as text -/

variable [TextUnit α]

/-- The text that is shown. -/
def display (b : Buffer) (st : Store α) : String :=
  b.segments.foldl (fun text s => text ++ s.display st) ""

/-- The buffer as it is shown for inspection, on one line. -/
def inspect (b : Buffer) (st : Store α) : String :=
  "SegmentedBuffer([" ++ String.intercalate ", " (b.segments.map (·.inspect st)) ++ "])"

/-- The buffer as it is shown for inspection, one line for each segment. -/
def inspectLines (b : Buffer) (st : Store α) : List String :=
  ["SegmentedBuffer("]
    ++ (if b.segments.isEmpty then ["    [],"]
      else ["    ["] ++ b.segments.map (fun s => "        " ++ s.inspect st ++ ",") ++ ["    ],"])
    ++ [")"]

/-- Whether two buffers show the same units, however they are cut. -/
def sameContent (b c : Buffer) (st : Store α) : Bool :=
  b.length == c.length && b.units st == c.units st

/-- Whether a buffer shows the given text. -/
def showsText (b : Buffer) (text : String) (st : Store α) : Bool :=
  (b.units st).map TextUnit.toChar == text.toList

end Buffer
end SegmentedText
