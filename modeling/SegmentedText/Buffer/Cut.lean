import SegmentedText.Buffer.Growth

/-!
# Cutting buffers

A part of a buffer is a buffer over the same cells: the segments inside the range
are shared whole, and the two at its ends are shared in part.  Parts have no room
of their own, and no segment of a part shows nothing.
-/

set_option autoImplicit false

namespace SegmentedText
namespace Buffer

/-! ## Ranges -/

/-- The part from `start` up to `stop`, for a range within the buffer.  A range that is empty or
reversed gives a buffer without segments. -/
def part (b : Buffer) (start stop : Nat) : Buffer :=
  if stop ≤ start then ofLayout b.layout
  else
    let first := Cursor.locate b.segments start
    let last := Cursor.locate b.segments (stop - 1)
    match b.segments[first.segment]?, b.segments[last.segment]? with
    | some front, some back =>
        if first.segment = last.segment then
          { b with segmentList := .held [front.window first.offset (last.offset + 1)] }
        else
          let between := (b.segments.take last.segment).drop (first.segment + 1)
          { b with
            segmentList := .held
              ([front.window first.offset front.length]
                ++ (between.map Segment.shared).filter (!·.isEmpty)
                ++ [back.window 0 (last.offset + 1)]) }
    | _, _ => ofLayout b.layout

/-- The part from `start` up to `stop`. -/
def substring (b : Buffer) (start stop : Nat) : Except Fault Buffer :=
  if start < stop ∧ b.length < stop then .error (.substringEnd stop b.length)
  else .ok (b.part start stop)

/-- The part from `start` to the end. -/
def substringFrom (b : Buffer) (start : Nat) : Except Fault Buffer :=
  if b.length < start then .error (.substringStart start b.length)
  else b.substring start b.length

/-! ## Pieces -/

/-- Cuts one segment at the given bounds: the pieces that it completes, the first of which began
as `current`, and the piece that is still open behind it. -/
def cutSegment (layout : Layout) (s : Segment) : List (Nat × Nat) → Buffer → List Buffer × Buffer
  | [], current => ([], current)
  | [(start, stop)], current => ([], current.push (s.window start stop))
  | (start, stop) :: rest, current =>
      let (pieces, last) := cutSegment layout s rest (ofLayout layout)
      (current.push (s.window start stop) :: pieces, last)

variable {α : Type} [TextUnit α]

/-- Cuts a list of segments at each separator; the first piece began as `current`. -/
def splitSegments (layout : Layout) (separator : α) (st : Store α) :
    List Segment → Buffer → List Buffer
  | [], current => [current]
  | s :: rest, current =>
      let (pieces, last) := cutSegment layout s (pieceBounds separator (s.content st) 0 0) current
      pieces ++ splitSegments layout separator st rest last

/-- The pieces between the separators, empty ones included. -/
def split (b : Buffer) (separator : α) (st : Store α) : List Buffer :=
  splitSegments b.layout separator st b.segments (ofLayout b.layout)

end Buffer
end SegmentedText
