/-!
# Faults

The ways in which an operation can be refused: an index, a count or a range
that does not fit the length, a destination that is too short, an in-place change
of an array that is lent out, more room than there can be, and the count of a
bounded buffer that does not fit what is asked of it.  A fault carries the numbers
that its message tells, and the message is made from them in one place.
-/

set_option autoImplicit false

namespace SegmentedText

/-- Why an operation was refused. -/
inductive Fault where
  /-- A single segment has no unit at the index. -/
  | segmentIndex (index length : Nat)
  /-- A buffer has no unit at the index. -/
  | bufferIndex (index length : Nat)
  /-- A part ends beyond the content. -/
  | substringEnd (stop length : Nat)
  /-- A part begins beyond the content. -/
  | substringStart (start length : Nat)
  /-- The range to be replaced is reversed or reaches beyond the content. -/
  | replaceRange (start stop length : Nat)
  /-- More units were to be consumed than the window shows. -/
  | moveForward (count length : Nat)
  /-- The destination of a copy is shorter than the content. -/
  | destinationTooShort
  /-- An array was to be changed in place while a window over it is lent out. -/
  | storageLent
  /-- More room was asked for than an array or a list of segments can have. -/
  | roomExceeded
  /-- More units were taken out of a bounded buffer than it counts. -/
  | countExceeded
  /-- A bounded buffer counts more units than it may show, so it has no budget to tell. -/
  | budgetExceeded
  deriving Repr, DecidableEq

/-- The wording of a fault.  Those that are not about an index, a range or a count of the caller
carry none. -/
def Fault.message? : Fault → Option String
  | .segmentIndex index length =>
      some s!"index {index} out of range for segment of length {length}"
  | .bufferIndex index length => some s!"index {index} out of range for length {length}"
  | .substringEnd stop length => some s!"substring end {stop} out of range for length {length}"
  | .substringStart start length =>
      some s!"substring start {start} out of range for length {length}"
  | .replaceRange start stop length =>
      some s!"replace range {start}..{stop} out of range for length {length}"
  | .moveForward count length => some s!"cannot move forward {count} units over a window of {length}"
  | .destinationTooShort => none
  | .storageLent => none
  | .roomExceeded => none
  | .countExceeded => none
  | .budgetExceeded => none

/-- Nothing is left to be read.  This is how reading ends, not a failure of what is read. -/
inductive EndOfData where
  | reached
  deriving Repr, DecidableEq

def EndOfData.message : EndOfData → String
  | .reached => "end of data"

end SegmentedText
