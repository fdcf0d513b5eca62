/-!
# Faults in JSON text

A JSON text can fail to be read in two ways: it is not well formed, or it is well
formed so far and holds something of another kind than is wanted.  Reading goes
from left to right and ends at the first fault.
-/

set_option autoImplicit false

namespace SegmentedText

/-- Why a JSON text was not read. -/
inductive JsonFault where
  /-- The text is malformed, incomplete, or goes on behind its value. -/
  | malformed
  /-- The value, or a part of it, is not of the kind that is wanted. -/
  | misplaced
  deriving Repr, DecidableEq

/-- The blanks of JSON. -/
def isJsonBlank (c : Char) : Bool := c = ' ' || c = '\n' || c = '\t' || c = '\r'

/-- The text behind the blanks at its front. -/
def skipBlanks (cs : List Char) : List Char := cs.dropWhile isJsonBlank

theorem length_skipBlanks_le (cs : List Char) : (skipBlanks cs).length ≤ cs.length :=
  (List.dropWhile_suffix _).length_le

end SegmentedText
