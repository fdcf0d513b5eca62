import SegmentedText.Buffer.Basic
import SegmentedText.Edited

/-!
# Making and extending buffers

Units are appended to the last segment while it has room; what is left over goes
into one new segment, sized by the layout of the buffer.  Segments are appended
as they are, and segments that show nothing are not taken in.

A buffer whose last segment has room never moves it, unless its array is lent
out; then the segment moves, and its text with it.

A layout can ask for more room than there can be, and so can a last segment that has
to move.  Then no new segment is made, or no list to keep it in, or the last segment
stays where it is; what has gone into it by then stays there.

Buffers and segments that are appended as they are show the same cells behind
those of the buffer (`Buffer.cells_of_appendSegment`, `Buffer.cells_of_appendBuffer`).
-/

set_option autoImplicit false

namespace SegmentedText
namespace Buffer

/-! ## Segments as they are -/

/-- A buffer without segments. -/
def ofLayout (layout : Layout) : Buffer := { layout }

/-- The buffer with a segment behind its own, unless that shows nothing. -/
def push (b : Buffer) (s : Segment) : Buffer :=
  if s.isEmpty then b else { b with segmentList := b.segmentList.push s }

/-- The buffer with a segment before its own, unless that shows nothing. -/
def pushFront (b : Buffer) (s : Segment) : Buffer :=
  if s.isEmpty then b else { b with segmentList := b.segmentList.pushFront s }

/-- The buffer with those of the given segments behind its own that show something. -/
def pushAll (b : Buffer) (segments : List Segment) : Buffer :=
  { b with segmentList := b.segmentList.pushAll (segments.filter (!·.isEmpty)) }

/-- A buffer of one segment, or of none if it shows nothing. -/
def ofSegment (s : Segment) : Buffer := push {} s

/-- A buffer without its segments. -/
def clear (b : Buffer) : Buffer := { b with segmentList := .vacant }

/-- A second buffer on the same cells, none of whose segments has room. -/
def shared (b : Buffer) : Buffer :=
  match b.segmentList with
  | .vacant => b
  | .held segments => { b with segmentList := .held (segments.map Segment.shared) }

/-- What a buffer becomes by taking segments in.  If nothing is taken in, it need not hold any. -/
def taking (b : Buffer) (nothing : Bool) (changed : Buffer) : Except Fault Buffer :=
  if nothing || b.canHold then .ok changed else .error .roomExceeded

/-- Appends a segment as it is, unless it shows nothing. -/
def appendSegment (b : Buffer) (s : Segment) : Except Fault Buffer :=
  b.taking s.isEmpty (b.push s)

/-- Prepends a segment as it is, unless it shows nothing. -/
def prependSegment (b : Buffer) (s : Segment) : Except Fault Buffer :=
  b.taking s.isEmpty (b.pushFront s)

/-- Appends those of the given segments that show something. -/
def appendSegments (b : Buffer) (segments : List Segment) : Except Fault Buffer :=
  b.taking (segments.all Segment.isEmpty) (b.pushAll segments)

/-- Appends the content of another buffer, which keeps it: its segments are shared. -/
def appendBuffer (b other : Buffer) : Except Fault Buffer :=
  b.appendSegments (other.segments.map Segment.shared)

/-- Appends the content of another buffer, which is used up: its segments change hands. -/
def appendOwned (b other : Buffer) : Except Fault Buffer := b.appendSegments other.segments

@[simp] theorem cells_push (b : Buffer) (s : Segment) : (b.push s).cells = b.cells ++ s.cells := by
  unfold push
  split
  next none => rw [Segment.cells_eq_nil_of_isEmpty none, List.append_nil]
  next => simp [cells, segments]

@[simp] theorem cells_pushFront (b : Buffer) (s : Segment) :
    (b.pushFront s).cells = s.cells ++ b.cells := by
  unfold pushFront
  split
  next none => rw [Segment.cells_eq_nil_of_isEmpty none, List.nil_append]
  next => simp [cells, segments]

theorem flatMap_cells_filter (segments : List Segment) :
    (segments.filter (!·.isEmpty)).flatMap Segment.cells = segments.flatMap Segment.cells := by
  induction segments with
  | nil => rfl
  | cons s rest ih =>
      cases none : s.isEmpty with
      | true => simp [none, ih, Segment.cells_eq_nil_of_isEmpty none]
      | false => simp [none, ih]

@[simp] theorem cells_pushAll (b : Buffer) (segments : List Segment) :
    (b.pushAll segments).cells = b.cells ++ segments.flatMap Segment.cells := by
  rw [← flatMap_cells_filter segments]
  simp [cells, Buffer.segments, pushAll]

@[simp] theorem cells_shared (b : Buffer) : b.shared.cells = b.cells := by
  unfold shared
  split
  next => rfl
  next held =>
    simp only [cells, segments, held, SegmentList.toList_held, List.flatMap_map]
    rfl

theorem eq_of_taking {b changed b' : Buffer} {nothing : Bool}
    (done : b.taking nothing changed = .ok b') : b' = changed := by
  unfold taking at done
  split at done
  next => exact (Except.ok.inj done).symm
  next => cases done

theorem cells_of_appendSegment {b b' : Buffer} {s : Segment}
    (done : b.appendSegment s = .ok b') : b'.cells = b.cells ++ s.cells := by
  rw [eq_of_taking done, cells_push]

theorem cells_of_prependSegment {b b' : Buffer} {s : Segment}
    (done : b.prependSegment s = .ok b') : b'.cells = s.cells ++ b.cells := by
  rw [eq_of_taking done, cells_pushFront]

theorem cells_of_appendBuffer {b b' other : Buffer}
    (done : b.appendBuffer other = .ok b') : b'.cells = b.cells ++ other.cells := by
  rw [eq_of_taking done, cells_pushAll, List.flatMap_map]
  rfl

theorem cells_of_appendOwned {b b' other : Buffer}
    (done : b.appendOwned other = .ok b') : b'.cells = b.cells ++ other.cells := by
  rw [eq_of_taking done, cells_pushAll]
  rfl

/-- A buffer that can hold segments takes every segment in. -/
theorem appendSegment_eq_push {b : Buffer} (s : Segment) (room : b.canHold = true) :
    b.appendSegment s = .ok (b.push s) := by
  simp [appendSegment, taking, room]

variable {α : Type} [TextUnit α]

/-! ## Making -/

/-- A buffer of one segment that shows nothing and has room for `capacity` units. -/
def withCapacity (capacity : Nat) (st : Store α) : Except Fault (Buffer × Store α) :=
  (Segment.withCapacity capacity st).map fun (s, st) => ({ segmentList := .held [s] }, st)

/-- A buffer that shows the given units in one segment, or in none, with room up to a capacity. -/
def withRoom (units : List α) (capacity : Nat) (st : Store α) : Except Fault (Buffer × Store α) :=
  (Segment.withRoom units capacity st).map fun (s, st) => (ofSegment s, st)

/-- A buffer that shows the given units in one segment. -/
def ofUnits (units : List α) (st : Store α) : Buffer × Store α :=
  let (s, st) := Segment.ofUnits units st
  (ofSegment s, st)

/-- A buffer that shows a text in one segment. -/
def ofText (text : String) (st : Store α) : Buffer × Store α :=
  let (s, st) := Segment.ofText text st
  (ofSegment s, st)

/-! ## Extending -/

/-- The last segment, if it has room, and those before it. -/
def trailing? (b : Buffer) : Option (List Segment × Segment) :=
  match b.segments.getLast? with
  | some last => if 0 < last.spare then some (b.segments.dropLast, last) else none
  | none => none

/-- The buffer with its last segment exchanged. -/
def withTrailing (b : Buffer) (front : List Segment) (last : Segment) : Buffer :=
  { b with segmentList := .held (front ++ [last]) }

/-- The buffer with a new last segment, sized for `pending` units and filled by `write`. -/
def extendBy (b : Buffer) (pending : Nat) (write : Segment → Store α → Edited Segment α Unit)
    (st : Store α) : Except Fault (Buffer × Store α) :=
  match Segment.withCapacity (b.layout.newSegmentCapacity pending) st with
  | .error fault => .error fault
  | .ok (s, st) =>
      match (write s st).outcome with
      | .error fault => .error fault
      | .ok (s, st) =>
          if b.canHold then .ok ({ b with segmentList := b.segmentList.push s }, st)
          else .error .roomExceeded

/-- A new last segment has been made, filled and taken in. -/
theorem extendBy_eq_ok {b : Buffer} {pending : Nat}
    {write : Segment → Store α → Edited Segment α Unit} {st : Store α}
    {extended : Buffer × Store α} : b.extendBy pending write st = .ok extended ↔
      ∃ s made, Segment.withCapacity (b.layout.newSegmentCapacity pending) st = .ok (s, made) ∧
        (write s made).answer = .ok () ∧ b.canHold = true ∧
        extended = ({ b with segmentList := b.segmentList.push (write s made).object },
          (write s made).store) := by
  unfold extendBy
  cases fresh : Segment.withCapacity (b.layout.newSegmentCapacity pending) st with
  | error fault => simp
  | ok r =>
      obtain ⟨s, made⟩ := r
      cases filled : (write s made).answer with
      | error fault => simp [Edited.outcome, filled, Except.map]
      | ok _ =>
          refine ⟨fun done => ?_, ?_⟩
          · simp only [Edited.outcome, filled, Except.map] at done
            split at done
            next room => exact ⟨s, made, rfl, filled, room, (Except.ok.inj done).symm⟩
            next => cases done
          · rintro ⟨_, _, same, -, room, rfl⟩
            cases same
            simp [Edited.outcome, filled, Except.map, room]

/-- Appends one unit. -/
def append (b : Buffer) (around : Surroundings) (u : α) (st : Store α) :
    Except Fault (Buffer × Store α) :=
  match b.trailing? with
  | some (front, last) => ((last.append around u st).mapObject (b.withTrailing front)).outcome
  | none => b.extendBy 1 (fun s st => s.append around u st) st

/-- Appends units one by one. -/
def extend (b : Buffer) (around : Surroundings) : List α → Store α → Edited Buffer α Unit
  | [], st => ⟨b, st, .ok ()⟩
  | u :: us, st =>
      match b.append around u st with
      | .ok (b, st) => b.extend around us st
      | .error fault => ⟨b, st, .error fault⟩

/-- Puts what is left over into a new segment. -/
def appendRest (write : Segment → List α → Store α → Edited Segment α Unit) (b : Buffer)
    (rest : List α) (st : Store α) : Edited Buffer α Unit :=
  if rest.isEmpty then ⟨b, st, .ok ()⟩
  else .whole b st (b.extendBy rest.length (fun s st => write s rest st) st)

/-- Appends units in bulk, by a given way of writing them into one segment: as many as fit to the
last segment, the others in a new one. -/
def appendBy (write : Segment → List α → Store α → Edited Segment α Unit) (b : Buffer)
    (units : List α) (st : Store α) : Edited Buffer α Unit :=
  match b.trailing? with
  | some (front, last) =>
      let fits := min last.spare units.length
      ((write last (units.take fits) st).mapObject (b.withTrailing front)).andThen
        fun b st => b.appendRest write (units.drop fits) st
  | none => b.appendRest write units st

/-- Appends a list of units at once. -/
def appendSlice (b : Buffer) (around : Surroundings) (units : List α) (st : Store α) :
    Edited Buffer α Unit :=
  b.appendBy (fun s units st => s.appendSlice around units st) units st

/-- Appends a text, unit by unit. -/
def appendText (b : Buffer) (around : Surroundings) (text : String) (st : Store α) :
    Edited Buffer α Unit :=
  b.appendBy (fun s units st => s.appendEach around units st) (TextUnit.unitsOf text) st

/-- A buffer that shows the given units, appended one by one. -/
def ofEach (units : List α) (st : Store α) : Edited Buffer α Unit := extend {} {} units st

/-! ## Copying -/

/-- A buffer that shows the same units in one segment of its own. -/
def copy (b : Buffer) (st : Store α) : Buffer × Store α :=
  let (s, st) := Segment.ofUnits (b.toUnits st) st
  ((ofLayout b.layout).push s, st)

end Buffer
end SegmentedText
