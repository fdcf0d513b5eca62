import SegmentedText.Buffer.Growth
import SegmentedText.Segment.InPlace

/-!
# Changing a buffer in place

A single unit is overwritten in the segment that shows it.  A mapping of all
units goes from segment to segment; when it meets an array that is lent out it
stops there, and the segments before stay changed.
-/

set_option autoImplicit false

namespace SegmentedText

/-- Applies a mapping to the units of each segment in turn, up to the first that is refused. -/
def mapEachSegment {α : Type} (around : Surroundings) (f : α → α) :
    List Segment → Store α → Store α × Option Fault
  | [], st => (st, none)
  | s :: rest, st =>
      match s.mapUnits around f st with
      | .ok st => mapEachSegment around f rest st
      | .error fault => (st, some fault)

namespace Buffer

variable {α : Type}

/-- Overwrites the unit at an index. -/
def setAt (b : Buffer) (around : Surroundings) (i : Nat) (u : α) (st : Store α) :
    Except Fault (Store α) :=
  let c := Cursor.locate b.segments i
  match b.segments[c.segment]? with
  | some s => s.setAt around c.offset u st
  | none => .error (.bufferIndex i b.length)

/-- Applies a mapping to every unit that is shown.  The store is the one that the mapping leaves
behind, whether or not it came to its end. -/
def mapUnits (b : Buffer) (around : Surroundings) (f : α → α) (st : Store α) :
    Store α × Option Fault :=
  mapEachSegment around f b.segments st

end Buffer
end SegmentedText
