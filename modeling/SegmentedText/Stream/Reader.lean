import SegmentedText.Buffer.Growth
import SegmentedText.Buffer.Search

/-!
# Readers

A reader walks over the segments of a buffer that does not change meanwhile.  One
unit can be pushed back in front of what is still unread; a second one takes its
place.

A block is read segment by segment, and a line is copied to its sink segment by
segment.  Each round of these loops leaves a segment behind or fills up the
destination, so they end (`Cursor.lt_segment_jumpTo`).
-/

set_option autoImplicit false

namespace SegmentedText

namespace Cursor

variable {α : Type}

/-- The units from a cursor on, up to `room` of them, and the cursor behind them. -/
def gather (segments : List Segment) (st : Store α) (c : Cursor) (room : Nat) :
    List α × Cursor :=
  match _here : segments[c.segment]? with
  | none => ([], c)
  | some s =>
      if room = 0 then ([], c)
      else
        let count := min (s.length - c.offset) room
        let block := ((s.content st).drop c.offset).take count
        let (others, behind) :=
          gather segments st (c.jumpTo segments (c.offset + count)) (room - count)
        (block ++ others, behind)
  termination_by room + (segments.length - c.segment)
  decreasing_by
    have held := (List.getElem?_eq_some_iff.1 _here).1
    have onward := le_segment_jumpTo c segments (c.offset + min (s.length - c.offset) room)
    by_cases past : s.length ≤ c.offset + min (s.length - c.offset) room
    · have := lt_segment_jumpTo _here past
      omega
    · omega

variable [TextUnit α]

/-- Appends to a sink the units from a cursor up to a delimiter or the end.  Says whether the
delimiter was found; the cursor then stands behind it.  The cursor stays where the sink takes no
more. -/
def pour (segments : List Segment) (delimiter : α) (around : Surroundings) (c : Cursor)
    (sink : Buffer) (st : Store α) : Cursor × Edited Buffer α Bool :=
  match _here : segments[c.segment]? with
  | none => (c, ⟨sink, st, .ok false⟩)
  | some s =>
      match s.indexOf delimiter c.offset st with
      | some place =>
          let r := sink.appendSlice around (((s.content st).take place).drop c.offset) st
          match r.answer with
          | .ok () => (c.jumpTo segments (place + 1), r.mapAnswer fun _ => true)
          | .error fault => (c, ⟨r.object, r.store, .error fault⟩)
      | none =>
          let r := sink.appendSlice around ((s.content st).drop c.offset) st
          match r.answer with
          | .ok () => pour segments delimiter around (c.jumpTo segments s.length) r.object r.store
          | .error fault => (c, ⟨r.object, r.store, .error fault⟩)
  termination_by segments.length - c.segment
  decreasing_by
    have held := (List.getElem?_eq_some_iff.1 _here).1
    have := lt_segment_jumpTo _here (Nat.le_refl s.length)
    omega

end Cursor

/-- A reader of a list of segments. -/
structure Reader (α : Type) where
  segments : List Segment
  cursor : Cursor
  pushback : Option α := none
  deriving Repr

namespace Reader

variable {α : Type}

/-- A reader at the front of a buffer. -/
def ofBuffer (b : Buffer) : Reader α := { segments := b.segments, cursor := .locate b.segments 0 }

/-- The number of units still to be read, one that was pushed back included. -/
def remaining (r : Reader α) : Nat :=
  totalLength r.segments - r.cursor.position + (if r.pushback.isSome then 1 else 0)

/-- The bounds that the reader gives for the number of units to come. -/
def sizeHint (r : Reader α) : Nat × Option Nat := (r.remaining, some r.remaining)

/-- Reads one unit. -/
def read (r : Reader α) (st : Store α) : Except EndOfData α × Reader α :=
  match r.pushback with
  | some u => (.ok u, { r with pushback := none })
  | none =>
      match r.cursor.unit? r.segments st with
      | some u => (.ok u, { r with cursor := r.cursor.advance r.segments })
      | none => (.error .reached, r)

/-- Fills the front of a destination with the units still unread, as many as there are.  An empty
destination takes none, and leaves a unit that was pushed back where it is. -/
def readInto (r : Reader α) (destination : List α) (st : Store α) :
    Except EndOfData Nat × List α × Reader α :=
  if destination.isEmpty then (.ok 0, destination, r)
  else
    let pending := r.pushback.toList
    let (units, cursor) :=
      r.cursor.gather r.segments st (destination.length - pending.length)
    let read := pending ++ units
    let r := { r with cursor, pushback := none }
    if read.isEmpty then (.error .reached, destination, r)
    else (.ok read.length, read ++ destination.drop read.length, r)

/-- Pushes a unit back, so that it is read next. -/
def back (r : Reader α) (u : α) : Reader α := { r with pushback := some u }

/-- Reads up to `count` units one by one. -/
def take (r : Reader α) (st : Store α) : Nat → List α × Reader α
  | 0 => ([], r)
  | count + 1 =>
      match r.read st with
      | (.ok u, r) =>
          let (us, r) := r.take st count
          (u :: us, r)
      | (.error _, r) => ([], r)

/-- Reads everything that is left, one by one. -/
def rest (r : Reader α) (st : Store α) : List α × Reader α := r.take st (r.remaining + 1)

/-- Appends to a sink the units from the reader's cursor up to a delimiter or the end. -/
def pour [TextUnit α] (r : Reader α) (delimiter : α) (around : Surroundings) (sink : Buffer)
    (st : Store α) : Reader α × Edited Buffer α Bool :=
  let (cursor, poured) := r.cursor.pour r.segments delimiter around sink st
  ({ r with cursor }, poured)

/-- Appends to a sink the units up to a delimiter or the end.  The delimiter is used up and not
appended.  Says whether it was found. -/
def readUntil [TextUnit α] (r : Reader α) (delimiter : α) (around : Surroundings) (sink : Buffer)
    (st : Store α) : Reader α × Edited Buffer α Bool :=
  match r.pushback with
  | none => r.pour delimiter around sink st
  | some u =>
      let r := { r with pushback := none }
      if u = delimiter then (r, ⟨sink, st, .ok true⟩)
      else
        match sink.append around u st with
        | .ok (sink, st) => r.pour delimiter around sink st
        | .error fault => (r, ⟨sink, st, .error fault⟩)

end Reader
end SegmentedText
