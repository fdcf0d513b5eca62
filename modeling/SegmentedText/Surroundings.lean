import SegmentedText.Segment.Basic

/-!
# Surroundings of an operation

Two things outside a segment decide what happens to it.  Cells that a segment
gives up at its end may be used again only while no other window is alive over
the same array; and an array over which a window is lent out is neither written
in place nor extended.

`Surroundings` says what an operation needs to know of them: the windows that are
alive besides the object it works on, and the arrays that are lent out.  Nothing
is counted and kept up to date; the question is asked of the windows themselves.
-/

set_option autoImplicit false

namespace SegmentedText

/-- What is alive, and what is lent out, while an operation runs. -/
structure Surroundings where
  /-- The windows that are alive besides the object of the operation. -/
  alive : List Segment := []
  /-- The arrays over which a window is lent out. -/
  lent : List StorageId := []
  deriving Repr, DecidableEq

namespace Surroundings

/-- Whether a window is alive over the array. -/
def shows (around : Surroundings) (id : StorageId) : Bool :=
  around.alive.any (·.storage == id)

/-- Whether a window over the array is lent out. -/
def lends (around : Surroundings) (id : StorageId) : Bool := around.lent.contains id

/-- The surroundings with more windows alive. -/
def besides (around : Surroundings) (segments : List Segment) : Surroundings :=
  { around with alive := segments ++ around.alive }

/-- The surroundings with one more array lent out. -/
def lending (around : Surroundings) (id : StorageId) : Surroundings :=
  { around with lent := id :: around.lent }

theorem shows_iff {around : Surroundings} {id : StorageId} :
    around.shows id = true ↔ ∃ s ∈ around.alive, s.storage = id := by
  simp [shows]

@[simp] theorem lends_besides (around : Surroundings) (segments : List Segment) (id : StorageId) :
    (around.besides segments).lends id = around.lends id := rfl

theorem shows_besides (around : Surroundings) (segments : List Segment) (id : StorageId) :
    (around.besides segments).shows id =
      (segments.any (·.storage == id) || around.shows id) := by
  simp [shows, besides]

end Surroundings

end SegmentedText
