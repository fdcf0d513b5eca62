import SegmentedText.Fault

/-!
# Capacities

How much room an array is given when a window outgrows its own, when a text is
collected character by character, and when a buffer opens a new segment; and how
much room there can be.

A capacity is a promise about later appends, so it is part of what an answer
shows.  The main statements say that each rule gives enough room
(`le_grownCapacity`, `length_le_collectedCapacity`, `le_pushedCapacity`,
`Layout.le_newSegmentCapacity`).
-/

set_option autoImplicit false

namespace SegmentedText

/-! ## Limits -/

/-- The greatest number of bytes that an array or a list can take: half of the address space. -/
def greatestByteCount : Nat := 0x7fffffffffffffff

/-- Whether there can be `count` places of `width` bytes each. -/
def fitsMemory (width count : Nat) : Bool := width * count ≤ greatestByteCount

/-- Fewer places fit where more do. -/
theorem fitsMemory_of_le {width count more : Nat} (le : count ≤ more)
    (fits : fitsMemory width more = true) : fitsMemory width count = true := by
  simp only [fitsMemory, decide_eq_true_eq] at fits ⊢
  exact Nat.le_trans (Nat.mul_le_mul_left width le) fits

/-- What fits can be counted in a machine word. -/
theorem lt_of_fitsMemory {width count : Nat} (taken : 0 < width)
    (fits : fitsMemory width count = true) : count < UInt64.size := by
  simp only [fitsMemory, decide_eq_true_eq] at fits
  calc
    count ≤ width * count := Nat.le_mul_of_pos_left count taken
    _ ≤ greatestByteCount := fits
    _ < UInt64.size := by decide

/-- The width of a place in a list of segments, which holds four words. -/
def segmentWidth : Nat := 32

/-! ## Growth of one array -/

/-- The capacity of the array that replaces one of `capacity` cells so that `required` units fit.
A small array grows by 512 cells and a large one by half of its size. -/
def grownCapacity (capacity required : Nat) : Nat :=
  max (if capacity < 1024 then capacity + 512 else capacity + capacity / 2) required

theorem le_grownCapacity (capacity required : Nat) : required ≤ grownCapacity capacity required :=
  Nat.le_max_right _ _

theorem lt_grownCapacity (capacity required : Nat) : capacity < grownCapacity capacity required := by
  unfold grownCapacity
  split <;> omega

/-! ## Collecting a text -/

/-- The number of bytes that a text takes in UTF-8. -/
def utf8Length : List Char → Nat
  | [] => 0
  | c :: cs => c.utf8Size + utf8Length cs

/-- The least number of characters that a text still unread can have, judged by its bytes. -/
def leastCount (cs : List Char) : Nat := (utf8Length cs + 3) / 4

/-- The capacity after the rest of a text has been pushed behind `count` units.  A full array is
doubled, or made large enough for the least number of characters to come. -/
def capacityAfter (smallest : Nat) : List Char → Nat → Nat → Nat
  | [], _, capacity => capacity
  | _ :: rest, count, capacity =>
      capacityAfter smallest rest (count + 1)
        (if count = capacity then
          max (max (2 * capacity) (count + leastCount rest + 1)) smallest
        else capacity)

/-- The capacity of the array into which a text has been collected character by character. -/
def collectedCapacity (smallest : Nat) : List Char → Nat
  | [] => 0
  | _ :: rest => capacityAfter smallest rest 1 (max smallest (leastCount rest + 1))

/-- What has been pushed and what is still to come fit together. -/
theorem le_capacityAfter (smallest : Nat) (cs : List Char) (count capacity : Nat)
    (fits : count ≤ capacity) : count + cs.length ≤ capacityAfter smallest cs count capacity := by
  induction cs generalizing count capacity with
  | nil => simpa [capacityAfter] using fits
  | cons c rest ih =>
      rw [capacityAfter, List.length_cons]
      split
      next full =>
        have := ih (count + 1) (max (max (2 * capacity) (count + leastCount rest + 1)) smallest)
          (by omega)
        omega
      next room =>
        have := ih (count + 1) capacity (by omega)
        omega

theorem length_le_collectedCapacity (smallest : Nat) (cs : List Char) :
    cs.length ≤ collectedCapacity smallest cs := by
  cases cs with
  | nil => exact Nat.zero_le _
  | cons c rest =>
      have := le_capacityAfter smallest rest 1 (max smallest (leastCount rest + 1)) (by omega)
      rw [collectedCapacity, List.length_cons]
      omega

/-- The capacity of an array of bytes filled one by one, with nothing known in advance: none at
first, then eight, doubled whenever it is full. -/
def pushedCapacity : Nat → Nat
  | 0 => 0
  | count + 1 =>
      let capacity := pushedCapacity count
      if count = capacity then max (2 * capacity) 8 else capacity

theorem le_pushedCapacity (count : Nat) : count ≤ pushedCapacity count := by
  induction count with
  | zero => exact Nat.zero_le _
  | succ count ih =>
      rw [pushedCapacity]
      split <;> omega

/-! ## Layout of a buffer -/

/-- How a buffer lays out its content.  The choice never changes the content, only the sizes of
the segments that hold it. -/
structure Layout where
  /-- The capacity of a segment opened for a small append. -/
  initialCapacity : Nat := 32
  /-- The number of pending units above which a new segment gets room beyond them. -/
  largeAppend : Nat := 50
  /-- The number of places by which a full list of segments is extended. -/
  slotIncrement : Nat := 8
  deriving Repr, DecidableEq

/-- The capacity of a new segment that is to hold `pending` units, as a sum that may be more than a
machine word can hold.  The sum in words is `Layout.countedCapacity`. -/
def Layout.newSegmentCapacity (layout : Layout) (pending : Nat) : Nat :=
  let base := max layout.initialCapacity 1
  if layout.largeAppend < pending then pending + base else max base pending

theorem Layout.le_newSegmentCapacity (layout : Layout) (pending : Nat) :
    pending ≤ layout.newSegmentCapacity pending := by
  simp only [newSegmentCapacity]
  split <;> omega

/-- Fewer units never ask for more. -/
theorem Layout.newSegmentCapacity_mono (layout : Layout) {less more : Nat} (le : less ≤ more) :
    layout.newSegmentCapacity less ≤ layout.newSegmentCapacity more := by
  simp only [newSegmentCapacity]
  split <;> split <;> omega

/-- The capacity of a new segment for `pending` units, added up in machine words.  A sum that does
not fit is refused.  That is what happens where overflow is checked: where it is not, the sum wraps
around, and the capacity may be too small for the units. -/
def Layout.countedCapacity (layout : Layout) (pending : Nat) : Except Fault Nat :=
  let capacity := layout.newSegmentCapacity pending
  if capacity < UInt64.size then .ok capacity else .error .roomExceeded

/-- Whether a list of segments can be opened with as many places as the layout adds at a time. -/
def Layout.opensList (layout : Layout) : Bool := fitsMemory segmentWidth layout.slotIncrement

end SegmentedText
