import SegmentedText.Buffer.Growth
import SegmentedText.Segment.Shorten

/-!
# Shortening buffers

Units are dropped from an end by dropping whole segments and shortening the one
that is left there.  The two ends differ in what becomes of segments that show
nothing: they are passed at the front even when no unit is to be dropped, while
at the end nothing happens then.

The segments of the buffer that are still there are alive for each other: the
last segment keeps the cells that it gives up only if no other segment of the
same buffer, and no window outside it, is over its array.
-/

set_option autoImplicit false

namespace SegmentedText

/-! ## Lists of segments -/

/-- The segments without the first `count` units. -/
def dropUnits : List Segment → Nat → List Segment
  | [], _ => []
  | s :: rest, count =>
      if count < s.length then s.removeStart count :: rest else dropUnits rest (count - s.length)

/-- The segments, last one first, without the last `count` units. -/
def dropLastUnits (around : Surroundings) : List Segment → Nat → List Segment
  | [], _ => []
  | last :: front, count =>
      if count = 0 then last :: front
      else if count < last.length then last.removeEnd (around.besides front) count :: front
      else dropLastUnits around front (count - last.length)

section

variable {α : Type} [TextUnit α]

/-- The segments without the white space at the front. -/
def trimFirst (st : Store α) : List Segment → List Segment
  | [] => []
  | s :: rest =>
      let trimmed := s.trimStart st
      if trimmed.isEmpty then trimFirst st rest else trimmed :: rest

/-- The segments, last one first, without the white space at the end. -/
def trimLast (around : Surroundings) (st : Store α) : List Segment → List Segment
  | [] => []
  | last :: front =>
      let trimmed := last.trimEnd (around.besides front) st
      if trimmed.isEmpty then trimLast around st front else trimmed :: front

/-- Moves each segment to an array of its own, one after the other. -/
def compactEach : List Segment → Store α → List Segment × Store α
  | [], st => ([], st)
  | s :: rest, st =>
      let (s, st) := s.compact st
      let (rest, st) := compactEach rest st
      (s :: rest, st)

end

namespace Buffer

/-- The buffer with its segments changed; nothing is kept of a list that has become empty. -/
def mapSegments (b : Buffer) (f : List Segment → List Segment) : Buffer :=
  match b.segmentList with
  | .vacant => b
  | .held segments => { b with segmentList := (SegmentList.held (f segments)).settle }

/-! ## By count -/

/-- Drops up to `count` units from the front. -/
def removeStart (b : Buffer) (count : Nat) : Buffer :=
  b.mapSegments fun segments => dropUnits segments count

/-- Drops up to `count` units from the end. -/
def removeEnd (b : Buffer) (around : Surroundings) (count : Nat) : Buffer :=
  b.mapSegments fun segments => (dropLastUnits around segments.reverse count).reverse

/-! ## By white space -/

variable {α : Type} [TextUnit α]

/-- Drops the white space at the front, and the segments that show nothing else. -/
def trimStart (b : Buffer) (st : Store α) : Buffer :=
  b.mapSegments fun segments => trimFirst st segments

/-- Drops the white space at the end, and the segments that show nothing else. -/
def trimEnd (b : Buffer) (around : Surroundings) (st : Store α) : Buffer :=
  b.mapSegments fun segments => (trimLast around st segments.reverse).reverse

/-- Drops the white space at both ends. -/
def trim (b : Buffer) (around : Surroundings) (st : Store α) : Buffer :=
  (b.trimStart st).trimEnd around st

/-! ## By room -/

/-- Drops the segments that show nothing, and moves the others to arrays of their own without
room. -/
def compact (b : Buffer) (st : Store α) : Buffer × Store α :=
  let (segments, st) := compactEach (b.segments.filter (!·.isEmpty)) st
  (b.mapSegments fun _ => segments, st)

end Buffer
end SegmentedText
