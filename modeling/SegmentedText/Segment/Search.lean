import SegmentedText.Segment.Growth

/-!
# Searching and cutting one segment

Search within a single window, and the windows cut out of it.  A part shares the
cells of the segment it was cut from and has no room of its own to grow into; an
empty part shows no cells, so it is made over an array of its own.
-/

set_option autoImplicit false

namespace SegmentedText

/-! ## Search in a list -/

/-- The place of the first occurrence of a pattern. -/
def firstOccurrence {α : Type} [BEq α] (pattern : List α) : List α → Option Nat
  | [] => if pattern.isEmpty then some 0 else none
  | u :: us =>
      if pattern.isPrefixOf (u :: us) then some 0 else (firstOccurrence pattern us).map (· + 1)

/-- The bounds of the pieces between separators, counted from `here`; the piece at hand began at
`opened`.  There is one piece more than there are separators. -/
def pieceBounds {α : Type} [DecidableEq α] (separator : α) :
    List α → Nat → Nat → List (Nat × Nat)
  | [], opened, here => [(opened, here)]
  | u :: us, opened, here =>
      if u = separator then (opened, here) :: pieceBounds separator us (here + 1) (here + 1)
      else pieceBounds separator us opened (here + 1)

namespace Segment

variable {α : Type} [TextUnit α]

/-! ## Search -/

/-- The place of the first `u` at or behind `start`. -/
def indexOf (s : Segment) (u : α) (start : Nat) (st : Store α) : Option Nat :=
  (((s.content st).drop start).findIdx? (· == u)).map (· + start)

/-- The place of the first occurrence of a pattern at or behind `start`.  The empty pattern occurs
everywhere up to the end. -/
def indexOfSlice (s : Segment) (pattern : List α) (start : Nat) (st : Store α) : Option Nat :=
  let window := s.content st
  if window.length < start then none
  else if pattern.isEmpty then some start
  else
    let tail := window.drop start
    ((List.range (tail.length + 1 - pattern.length)).find? fun place =>
      (tail.drop place).take pattern.length == pattern).map (· + start)

/-- The place of a byte string at or behind `start`, as `find` tells it for the rest of the window:
given the byte string and a text, `find` gives a place in the text. -/
def findBytesBy (find : List α → List α → Option Nat) (s : Segment) (needle : List α)
    (start : Nat) (st : Store α) : Option Nat :=
  let window := s.content st
  if window.length < start then none
  else (find needle (window.drop start)).map (· + start)

/-- The place of the first occurrence of a byte string at or behind `start`. -/
def findBytes (s : Segment) (needle : List α) (start : Nat) (st : Store α) : Option Nat :=
  s.findBytesBy firstOccurrence needle start st

/-- Whether a pattern occurs. -/
def contains (s : Segment) (pattern : List α) (st : Store α) : Bool :=
  (s.indexOfSlice pattern 0 st).isSome

/-- Whether the content begins with a pattern. -/
def startsWith (s : Segment) (pattern : List α) (st : Store α) : Bool :=
  pattern.isPrefixOf (s.content st)

/-- Whether the content ends with a pattern. -/
def endsWith (s : Segment) (pattern : List α) (st : Store α) : Bool :=
  pattern.isSuffixOf (s.content st)

/-! ## Parts -/

/-- A second window on the same cells, without room. -/
def shared (s : Segment) : Segment := { s with limit := s.stop }

/-- The window on the cells from `start` up to `stop`, counted within the segment. -/
def window (s : Segment) (start stop : Nat) : Segment :=
  ⟨s.storage, s.start + start, s.start + stop, s.start + stop⟩

@[simp] theorem cells_shared (s : Segment) : s.shared.cells = s.cells := rfl

@[simp] theorem spare_shared (s : Segment) : s.shared.spare = 0 := Nat.sub_self _

@[simp] theorem spare_window (s : Segment) (start stop : Nat) : (s.window start stop).spare = 0 :=
  Nat.sub_self _

@[simp] theorem length_window (s : Segment) (start stop : Nat) :
    (s.window start stop).length = stop - start := Nat.add_sub_add_left ..

/-- A window within a segment shows the segment's cells in its range. -/
theorem cells_window {s : Segment} {start stop : Nat} (inside : stop ≤ s.length) :
    (s.window start stop).cells = (s.cells.take stop).drop start := by
  apply List.ext_getElem?
  intro k
  rw [List.getElem?_drop, List.getElem?_take]
  simp only [cells, List.getElem?_map, length_window]
  split
  next within =>
    rw [List.getElem?_range' (by omega), List.getElem?_range' (by omega)]
    simp only [window, Option.map_some, Option.some.injEq, Cell.mk.injEq, true_and]
    omega
  next beyond =>
    rw [List.getElem?_eq_none (by rw [List.length_range']; omega), Option.map_none]

/-- The part from `start` up to `stop`.  A range that is empty or reversed gives an empty segment,
wherever it lies. -/
def substring (s : Segment) (start stop : Nat) (st : Store α) : Except Fault (Segment × Store α) :=
  if stop ≤ start then .ok (empty st)
  else if s.length < stop then .error (.substringEnd stop s.length)
  else .ok (s.window start stop, st)

/-- The part from `start` to the end. -/
def substringFrom (s : Segment) (start : Nat) (st : Store α) : Except Fault (Segment × Store α) :=
  if s.length < start then .error (.substringStart start s.length)
  else s.substring start s.length st

/-- The parts with the given bounds, one after the other. -/
def parts (s : Segment) : List (Nat × Nat) → Store α → List Segment × Store α
  | [], st => ([], st)
  | (start, stop) :: rest, st =>
      let (part, st) := if stop ≤ start then empty st else (s.window start stop, st)
      let (others, st) := s.parts rest st
      (part :: others, st)

/-- The pieces between the separators, empty ones included. -/
def split (s : Segment) (separator : α) (st : Store α) : List Segment × Store α :=
  s.parts (pieceBounds separator (s.content st) 0 0) st

end Segment
end SegmentedText
