import SegmentedText.Surroundings

/-!
# Changes in place

These operations overwrite cells that are shown, so they are seen through every
window that shows the same cells.  They are refused while the array is lent out,
whether or not a cell would have been written; an index is judged before that.
-/

set_option autoImplicit false

namespace SegmentedText
namespace Segment

variable {α : Type}

/-- Overwrites the unit at an index. -/
def setAt (s : Segment) (around : Surroundings) (i : Nat) (u : α) (st : Store α) :
    Except Fault (Store α) :=
  if s.length ≤ i then .error (.segmentIndex i s.length)
  else if around.lends s.storage then .error .storageLent
  else .ok (st.write s.storage (s.start + i) u)

/-- Applies a mapping to every unit that is shown. -/
def mapUnits (s : Segment) (around : Surroundings) (f : α → α) (st : Store α) :
    Except Fault (Store α) :=
  if around.lends s.storage then .error .storageLent
  else .ok (st.mapRange s.storage s.start s.stop f)

end Segment

/-- The mapping that turns one unit into another and keeps the rest. -/
def replacing {α : Type} [TextUnit α] (old new : α) (u : α) : α := if u = old then new else u

end SegmentedText
