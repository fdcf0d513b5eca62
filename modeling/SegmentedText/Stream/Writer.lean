import SegmentedText.Buffer.Growth

/-!
# Writers

A writer appends to a buffer and counts the units written.  What it appends can
be seen at once.

Showing a segment hands its units over one by one while the segment is lent out,
so a buffer whose last segment is over the same array moves that segment with the
first unit and stays clear of the array from then on.

A write is refused where the buffer refuses it, and nothing is written after that.
-/

set_option autoImplicit false

namespace SegmentedText

/-- A buffer that is written to. -/
structure Writer where
  buffer : Buffer
  /-- The number of units written so far. -/
  written : Nat := 0
  deriving Repr, DecidableEq

namespace Writer

variable {α : Type} [TextUnit α]

/-- The writer after `count` units were appended to its buffer.  An append that was refused is not
counted. -/
def counting (w : Writer) (count : Nat) (r : Edited Buffer α Unit) : Edited Writer α Unit :=
  match r.answer with
  | .ok () => ⟨⟨r.object, w.written + count⟩, r.store, .ok ()⟩
  | .error fault => ⟨⟨r.object, w.written⟩, r.store, .error fault⟩

omit [TextUnit α] in
/-- What holds of the buffer after an append holds of it when the append is counted. -/
theorem buffer_counting {P : Buffer → Prop} {w : Writer} {count : Nat} {r : Edited Buffer α Unit}
    (kept : P r.object) : P (w.counting count r).object.buffer := by
  unfold counting
  split <;> exact kept

/-- Writes one unit. -/
def write (w : Writer) (around : Surroundings) (u : α) (st : Store α) : Edited Writer α Unit :=
  w.counting 1 (.whole w.buffer st (w.buffer.append around u st))

/-- Writes a list of units at once. -/
def writeSlice (w : Writer) (around : Surroundings) (units : List α) (st : Store α) :
    Edited Writer α Unit :=
  w.counting units.length (w.buffer.appendSlice around units st)

/-- Writes a text at once. -/
def writeText (w : Writer) (around : Surroundings) (text : String) (st : Store α) :
    Edited Writer α Unit :=
  w.counting text.toList.length (w.buffer.appendText around text st)

/-- Nothing is held back that would have to be written now. -/
def flush (w : Writer) : Writer := w

/-- Writes characters one by one. -/
def writeChars (w : Writer) (around : Surroundings) : List Char → Store α → Edited Writer α Unit
  | [], st => ⟨w, st, .ok ()⟩
  | c :: cs, st =>
      let r := w.write around (TextUnit.ofChar c : α) st
      match r.answer with
      | .ok () => r.object.writeChars around cs r.store
      | .error _ => r

/-- Shows segments into the buffer, each lent out while its characters are written. -/
def showSegments (w : Writer) (around : Surroundings) :
    List Segment → Store α → Edited Writer α Unit
  | [], st => ⟨w, st, .ok ()⟩
  | s :: rest, st =>
      let text := (s.content st).map TextUnit.toChar
      let r := w.writeChars (around.lending s.storage) text st
      match r.answer with
      | .ok () => r.object.showSegments around rest r.store
      | .error _ => r

end Writer
end SegmentedText
