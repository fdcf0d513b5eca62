import SegmentedText.Bounded

/-!
# Objects

An object is what a register holds: a segment by itself, a buffer, or a bounded
buffer.  Its dump is what can be seen of it from outside: the text and the
capacity of each of its segments, and the bounds of a bounded buffer.
-/

set_option autoImplicit false

namespace SegmentedText

/-- A segment, a buffer or a bounded buffer. -/
inductive Object where
  | segment (s : Segment)
  | buffer (b : Buffer)
  | bounded (b : Bounded)
  deriving Repr, DecidableEq

/-- What one segment shows, and its capacity. -/
structure SegmentDump where
  text : String
  capacity : Nat
  deriving Repr, DecidableEq

/-- What is seen of an object. -/
inductive Dump where
  | segment (shown : SegmentDump)
  | buffer (segments : List SegmentDump)
  | bounded (maxSize size : Nat) (segments : List SegmentDump)
  deriving Repr, DecidableEq

namespace Object

/-- The windows that are alive in an object. -/
def segments : Object → List Segment
  | segment s => [s]
  | buffer b => b.segments
  | bounded b => b.inner.segments

/-- The cells that an object shows, in order. -/
def cells (o : Object) : List Cell := o.segments.flatMap Segment.cells

/-- The units that an object shows, in order. -/
def content {α : Type} (o : Object) (st : Store α) : List α := o.segments.flatMap (·.content st)

/-- The segment at a place of a buffer.  An object that is a single segment has that at every
place. -/
def segmentAt? (o : Object) (i : Nat) : Option Segment :=
  match o with
  | segment s => some s
  | buffer b => b.segments[i]?
  | bounded b => b.inner.segments[i]?

/-- The object as a single segment. -/
def segment? : Object → Option Segment
  | segment s => some s
  | _ => none

/-- The object as an unbounded buffer. -/
def plainBuffer? : Object → Option Buffer
  | buffer b => some b
  | _ => none

/-- The buffer that an object is or holds. -/
def buffer? : Object → Option Buffer
  | buffer b => some b
  | bounded b => some b.inner
  | segment _ => none

/-- A second object on the same cells.  That of a bounded buffer is not bounded. -/
def shared : Object → Object
  | segment s => .segment s.shared
  | buffer b => .buffer b.shared
  | bounded b => .buffer b.inner.shared

end Object

variable {α : Type} [TextUnit α]

/-- The dump of a segment. -/
def Segment.dump (s : Segment) (st : Store α) : SegmentDump := ⟨s.display st, s.capacity⟩

/-- The dump of a buffer. -/
def Buffer.dump (b : Buffer) (st : Store α) : Dump := .buffer (b.segments.map (·.dump st))

/-- The dump of an object. -/
def Object.dump (o : Object) (st : Store α) : Dump :=
  match o with
  | .segment s => .segment (s.dump st)
  | .buffer b => b.dump st
  | .bounded b => .bounded b.maxSize b.size (b.inner.segments.map (·.dump st))

end SegmentedText
