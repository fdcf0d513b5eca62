import SegmentedText.Surroundings

/-!
# Shortening segments

A window is shortened by moving its ends inward; no cell is touched.  What is
given up at the front is gone.  What is given up at the end stays usable, unless
another window is alive over the same array and might show it.

Removal by count is removal from the list of cells that are shown
(`Segment.cells_removeStart`, `Segment.cells_removeEnd`).
-/

set_option autoImplicit false

namespace SegmentedText
namespace Segment

/-! ## By count -/

/-- Gives up the cells behind the end while another window is alive over the array. -/
def releaseTail (s : Segment) (around : Surroundings) : Segment :=
  if around.shows s.storage then { s with limit := s.stop } else s

/-- Drops up to `count` units from the front. -/
def removeStart (s : Segment) (count : Nat) : Segment :=
  { s with start := s.start + min count s.length }

/-- Drops up to `count` units from the end. -/
def removeEnd (s : Segment) (around : Surroundings) (count : Nat) : Segment :=
  { s with stop := s.stop - min count s.length }.releaseTail around

/-- Moves past consumed units at the front. -/
def moveForward (s : Segment) (count : Nat) : Except Fault Segment :=
  if count ≤ s.length then .ok { s with start := s.start + count }
  else .error (.moveForward count s.length)

@[simp] theorem cells_releaseTail (s : Segment) (around : Surroundings) :
    (s.releaseTail around).cells = s.cells := by
  unfold releaseTail
  split <;> rfl

theorem cells_removeStart (s : Segment) (count : Nat) :
    (s.removeStart count).cells = s.cells.drop count := by
  simp only [cells, removeStart, length, ← List.map_drop, List.drop_range']
  congr 1
  by_cases within : count ≤ s.stop - s.start
  · rw [Nat.min_eq_left within]
    congr 1 <;> omega
  · rw [show s.stop - (s.start + min count (s.stop - s.start)) = 0 by omega,
      show s.stop - s.start - count = 0 by omega]
    rfl

theorem cells_removeEnd (s : Segment) (around : Surroundings) (count : Nat) :
    (s.removeEnd around count).cells = s.cells.take (s.length - count) := by
  rw [removeEnd, cells_releaseTail]
  apply List.ext_getElem?
  intro k
  simp only [List.getElem?_take, cells, List.getElem?_map, length]
  split
  next within =>
    rw [List.getElem?_range' (by omega), List.getElem?_range' (by omega)]
  next beyond =>
    rw [List.getElem?_eq_none (by rw [List.length_range']; omega), Option.map_none]

/-! ## By white space -/

variable {α : Type} [TextUnit α]

/-- Drops the white space at the front. -/
def trimStart (s : Segment) (st : Store α) : Segment :=
  { s with start := s.start + ((s.content st).takeWhile TextUnit.isWhitespace).length }

/-- Drops the white space at the end. -/
def trimEnd (s : Segment) (around : Surroundings) (st : Store α) : Segment :=
  { s with
    stop := s.stop - ((s.content st).reverse.takeWhile TextUnit.isWhitespace).length
    }.releaseTail around

/-- Drops the white space at both ends. -/
def trim (s : Segment) (around : Surroundings) (st : Store α) : Segment :=
  (s.trimStart st).trimEnd around st

end Segment
end SegmentedText
