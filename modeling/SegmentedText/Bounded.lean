import SegmentedText.Edit

/-!
# Bounded buffers

A bounded buffer never shows more than a maximum number of units.  Every change
amounts to the change of the unbounded buffer, followed by a cut at the end.
Appends get there by admitting no more than the budget that is left; changes that
may both take out and put in are made first, and what overflows is dropped from
the end afterwards.

The number of units shown is kept beside the buffer, so that the budget is known
without a walk over the segments.  It is brought up to date by the changes that
succeed; one that is refused midway for want of memory leaves it as it was.  Then
the buffer may show more than the maximum, and once that has been counted there is
no budget: whatever asks for it is refused until the excess has been dropped.
-/

set_option autoImplicit false

namespace SegmentedText

/-- A buffer with a maximum length. -/
structure Bounded where
  /-- The buffer. -/
  inner : Buffer
  /-- The greatest number of units that may be shown. -/
  maxSize : Nat
  /-- The number of units shown, as far as they have been counted. -/
  size : Nat
  deriving Repr, DecidableEq

namespace Bounded

/-! ## The budget -/

/-- The number of units that may still be added, unless more are counted than the maximum. -/
def remaining (b : Bounded) : Except Fault Nat :=
  if b.size ≤ b.maxSize then .ok (b.maxSize - b.size) else .error .budgetExceeded

theorem remaining_of_le {b : Bounded} (le : b.size ≤ b.maxSize) :
    b.remaining = .ok (b.maxSize - b.size) := if_pos le

/-- Whether nothing may be added. -/
def isFull (b : Bounded) : Bool := b.size == b.maxSize

/-- Drops from the end what exceeds the maximum. -/
def truncate (b : Bounded) (around : Surroundings) : Bounded :=
  if b.maxSize < b.size then
    { b with inner := b.inner.removeEnd around (b.size - b.maxSize), size := b.maxSize }
  else b

/-! ## Making -/

/-- A bounded buffer without segments. -/
def ofLayout (layout : Layout) (maxSize : Nat) : Bounded := ⟨Buffer.ofLayout layout, maxSize, 0⟩

/-- A buffer cut down to the maximum. -/
def ofBuffer (b : Buffer) (maxSize : Nat) (around : Surroundings) : Bounded :=
  truncate ⟨b, maxSize, b.length⟩ around

variable {α : Type} [TextUnit α]

/-! ## Appending within the budget -/

/-- The bounded buffer after `added` units were appended to its inner buffer.  An append that was
refused is not counted, even if some of its units have gone in. -/
def counting (b : Bounded) (added : Nat) (r : Edited Buffer α Unit) : Edited Bounded α Unit :=
  match r.answer with
  | .ok () => ⟨{ b with inner := r.object, size := b.size + added }, r.store, .ok ()⟩
  | .error fault => ⟨{ b with inner := r.object }, r.store, .error fault⟩

/-- A change that goes by the budget, which is refused if there is none. -/
def admitting (b : Bounded) (st : Store α) (change : Nat → Edited Bounded α Unit) :
    Edited Bounded α Unit :=
  match b.remaining with
  | .ok budget => change budget
  | .error fault => ⟨b, st, .error fault⟩

omit [TextUnit α] in
/-- What holds of the inner buffer after an append holds of it when the append is counted. -/
theorem inner_counting {P : Buffer → Prop} {b : Bounded} {added : Nat} {r : Edited Buffer α Unit}
    (kept : P r.object) : P (b.counting added r).object.inner := by
  unfold counting
  split <;> exact kept

omit [TextUnit α] in
theorem inner_admitting {P : Buffer → Prop} {b : Bounded} {st : Store α}
    {change : Nat → Edited Bounded α Unit} (old : P b.inner)
    (kept : ∀ budget, P (change budget).object.inner) :
    P (b.admitting st change).object.inner := by
  unfold admitting
  split
  next => exact kept _
  next => exact old

/-- Appends one unit if there is room for it. -/
def append (b : Bounded) (around : Surroundings) (u : α) (st : Store α) : Edited Bounded α Unit :=
  if b.isFull then ⟨b, st, .ok ()⟩
  else b.counting 1 (.whole b.inner st (b.inner.append around u st))

/-- Appends as much of a list as the budget admits. -/
def appendSlice (b : Bounded) (around : Surroundings) (units : List α) (st : Store α) :
    Edited Bounded α Unit :=
  b.admitting st fun budget =>
    let admitted := units.take budget
    b.counting admitted.length (b.inner.appendSlice around admitted st)

/-- Appends as much of a text as the budget admits. -/
def appendText (b : Bounded) (around : Surroundings) (text : String) (st : Store α) :
    Edited Bounded α Unit :=
  b.admitting st fun budget =>
    let admitted := text.toList.take budget
    b.counting admitted.length (b.inner.appendText around (String.ofList admitted) st)

/-- Appends units one by one while there is room. -/
def appendEach (b : Bounded) (around : Surroundings) : List α → Store α → Edited Bounded α Unit
  | [], st => ⟨b, st, .ok ()⟩
  | u :: us, st =>
      let r := b.append around u st
      match r.answer with
      | .ok () => r.object.appendEach around us r.store
      | .error _ => r

/-- Appends units one by one, as many as the budget admits at the outset. -/
def extend (b : Bounded) (around : Surroundings) (units : List α) (st : Store α) :
    Edited Bounded α Unit :=
  b.admitting st fun budget => b.appendEach around (units.take budget) st

/-- Appends as much of a segment as the budget admits.  It is counted before it is taken in. -/
def appendSegment (b : Bounded) (s : Segment) (st : Store α) : Edited Bounded α Unit :=
  b.admitting st fun budget =>
    let admitted := if budget < s.length then s.window 0 budget else s
    let b := { b with size := b.size + admitted.length }
    match b.inner.appendSegment admitted with
    | .ok inner => ⟨{ b with inner }, st, .ok ()⟩
    | .error fault => ⟨b, st, .error fault⟩

/-- Appends as much of another buffer as the budget admits. -/
def appendBuffer (b : Bounded) (other : Buffer) (st : Store α) : Edited Bounded α Unit :=
  b.admitting st fun budget =>
    if other.length ≤ budget then
      b.counting other.length (.wholeObject b.inner st (b.inner.appendBuffer other))
    else
      b.counting budget (.wholeObject b.inner st (b.inner.appendBuffer (other.part 0 budget)))

/-! ## Changes that may overflow -/

/-- What a change leaves, cut down to the maximum unless the change was refused. -/
def truncating (around : Surroundings) (r : Edited Bounded α Unit) : Edited Bounded α Unit :=
  match r.answer with
  | .ok () => r.mapObject (truncate · around)
  | .error _ => r

/-- Prepends one unit, which pushes the last one out of a full buffer. -/
def prepend (b : Bounded) (around : Surroundings) (u : α) (st : Store α) : Edited Bounded α Unit :=
  if b.maxSize = 0 then ⟨b, st, .ok ()⟩
  else truncating around (b.counting 1 (.whole b.inner st (b.inner.prepend u st)))

/-- Prepends a segment. -/
def prependSegment (b : Bounded) (around : Surroundings) (s : Segment) (st : Store α) :
    Edited Bounded α Unit :=
  truncating around (b.counting s.length (.wholeObject b.inner st (b.inner.prependSegment s)))

/-- Exchanges the range from `start` up to `stop`.  What goes out has to be among the units that
are counted. -/
def replaceRange (b : Bounded) (around : Surroundings) (start stop : Nat) (replacement : Buffer)
    (st : Store α) : Edited Bounded α Unit :=
  let inserted := replacement.length
  let r := b.inner.replaceRange start stop replacement st
  let changed := { b with inner := r.object }
  match r.answer with
  | .ok () =>
      if b.size < stop - start then ⟨changed, r.store, .error .countExceeded⟩
      else
        let size := b.size - (stop - start) + inserted
        ⟨truncate { changed with size } around, r.store, .ok ()⟩
  | .error fault => ⟨changed, r.store, .error fault⟩

/-- Replaces every occurrence of `search`.  What goes out has to be among the units that are
counted with those that come in. -/
def replaceAll (b : Bounded) (around : Surroundings) (search replacement : List α) (st : Store α) :
    Edited Bounded α Nat :=
  let r := b.inner.replaceAll search replacement st
  let changed := { b with inner := r.object }
  match r.answer with
  | .ok count =>
      let counted := b.size + count * replacement.length
      if counted < count * search.length then ⟨changed, r.store, .error .countExceeded⟩
      else
        let size := counted - count * search.length
        ⟨truncate { changed with size } around, r.store, .ok count⟩
  | .error fault => ⟨changed, r.store, .error fault⟩

/-- Replaces every span between markers; what overflows is dropped when the scan is over. -/
def substitute (b : Bounded) (around : Surroundings) (opening closing : List α)
    (provider : Provider α) (st : Store α) : Edited Bounded α (List Buffer) :=
  let r := b.inner.substitute opening closing provider st
  match r.answer with
  | .ok enclosed =>
      ⟨truncate { b with inner := r.object, size := r.object.length } around, r.store,
        .ok enclosed⟩
  | .error fault => ⟨{ b with inner := r.object }, r.store, .error fault⟩

/-! ## Changes that never overflow -/

/-- The bounded buffer after a change of its inner buffer that leaves `size` units. -/
def withInner (b : Bounded) (inner : Buffer) (size : Nat) : Bounded := { b with inner, size }

/-- Drops up to `count` units from the front. -/
def removeStart (b : Bounded) (count : Nat) : Bounded :=
  b.withInner (b.inner.removeStart count) (b.size - min count b.size)

/-- Drops up to `count` units from the end. -/
def removeEnd (b : Bounded) (around : Surroundings) (count : Nat) : Bounded :=
  b.withInner (b.inner.removeEnd around count) (b.size - min count b.size)

/-- The bounded buffer after its inner buffer has been trimmed. -/
def trimmed (b : Bounded) (inner : Buffer) : Bounded := b.withInner inner inner.length

/-- Applies an edit. -/
def apply (b : Bounded) (around : Surroundings) (st : Store α) :
    Edit α → Edited Bounded α Reply
  | .append u => (b.append around u st).silent
  | .appendSlice units => (b.appendSlice around units st).silent
  | .appendText text => (b.appendText around text st).silent
  | .extend units => (b.extend around units st).silent
  | .appendSegment s => (b.appendSegment s st).silent
  | .appendBuffer other => (b.appendBuffer other st).silent
  | .prepend u => (b.prepend around u st).silent
  | .prependSegment s => (b.prependSegment around s st).silent
  | .setAt i u => .written b st (b.inner.setAt around i u st)
  | .replaceUnit old new => .mapped b (b.inner.mapUnits around (replacing old new) st)
  | .lowerCase => .mapped b (b.inner.mapUnits around TextUnit.toLower st)
  | .upperCase => .mapped b (b.inner.mapUnits around TextUnit.toUpper st)
  | .removeStart count => .moved (b.removeStart count) st
  | .removeEnd count => .moved (b.removeEnd around count) st
  | .trimStart => .moved (b.trimmed (b.inner.trimStart st)) st
  | .trimEnd => .moved (b.trimmed (b.inner.trimEnd around st)) st
  | .trim => .moved (b.trimmed (b.inner.trim around st)) st
  | .compact =>
      let (inner, st) := b.inner.compact st
      .moved { b with inner } st
  | .clear => .moved (b.withInner b.inner.clear 0) st
  | .replaceRange start stop replacement =>
      (b.replaceRange around start stop replacement st).silent
  | .replaceAll search replacement => (b.replaceAll around search replacement st).mapAnswer .count
  | .substitute opening closing provider =>
      (b.substitute around opening closing provider st).mapAnswer .enclosed

/-! ## Inspection -/

/-- The bounded buffer as it is shown for inspection, on one line. -/
def inspect (b : Bounded) (st : Store α) : String :=
  "BoundedSegmentedBuffer \x7b max_size: " ++ toString b.maxSize ++ ", size: " ++ toString b.size
    ++ ", content: " ++ b.inner.inspect st ++ " \x7d"

/-- The bounded buffer as it is shown for inspection, one line for each part. -/
def inspectLines (b : Bounded) (st : Store α) : List String :=
  let content := b.inner.inspectLines st
  let fields :=
    ["max_size: " ++ toString b.maxSize ++ ",", "size: " ++ toString b.size ++ ",",
      "content: " ++ content.headD ""] ++ content.tail.dropLast ++ [content.getLastD "" ++ ","]
  ["BoundedSegmentedBuffer \x7b"] ++ fields.map ("    " ++ ·) ++ ["\x7d"]

end Bounded
end SegmentedText
