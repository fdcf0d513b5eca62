import SegmentedText.Json.Number
import SegmentedText.Json.Quoted

/-!
# JSON texts

A text is written and read as a JSON string.  A byte string is written as an array
of numbers, and read from such an array or from a string.

A value of another kind is a fault of its own, but what the value begins with is
read first: a literal, a number or a string that is not well formed is reported as
such, while an array or an object is refused at its opening bracket.
-/

set_option autoImplicit false

namespace SegmentedText

/-! ## Writing -/

/-- Byte values as a JSON array. -/
def jsonBytes (bytes : List UInt8) : List Char :=
  ['['] ++ List.intercalate [','] (bytes.map fun b => Nat.toDigits 10 b.toNat) ++ [']']

/-! ## Values of another kind -/

/-- The fault of a value that begins with the given literal, apart from its first letter. -/
def literalFault (literal cs : List Char) : JsonFault :=
  if literal.isPrefixOf cs then .misplaced else .malformed

/-- The fault of a value that was read although it is not wanted. -/
def readFault {β : Type} : Except JsonFault β → JsonFault
  | .ok _ => .misplaced
  | .error fault => fault

/-- The fault of a text that begins with a value of a kind that is not wanted. -/
def misplacedValue (cs : List Char) : JsonFault :=
  match cs with
  | [] => .malformed
  | c :: rest =>
      if c = 'n' then literalFault ['u', 'l', 'l'] rest
      else if c = 't' then literalFault ['r', 'u', 'e'] rest
      else if c = 'f' then literalFault ['a', 'l', 's', 'e'] rest
      else if c = '-' || c.isDigit then readFault (readNumber (c :: rest))
      else if c = quotationMark then readFault (readText rest)
      else if c = '[' || c = '\x7b' then .misplaced
      else .malformed

/-! ## Reading -/

/-- A value that nothing but blanks may follow. -/
def wholeValue {β : Type} (r : Except JsonFault (β × List Char)) : Except JsonFault β :=
  match r with
  | .error fault => .error fault
  | .ok (value, behind) => if (skipBlanks behind).isEmpty then .ok value else .error .malformed

/-- Reads a text. -/
def readJsonText (cs : List Char) : Except JsonFault (List Char) :=
  match skipBlanks cs with
  | [] => .error .malformed
  | c :: rest =>
      if c = quotationMark then wholeValue (readText rest)
      else .error (misplacedValue (c :: rest))

/-- Reads one byte value. -/
def readByte (cs : List Char) : Except JsonFault (UInt8 × List Char) :=
  match cs with
  | [] => .error .malformed
  | c :: _ =>
      if c = '-' || c.isDigit then
        match readNumber cs with
        | .error fault => .error fault
        | .ok (.natural n, behind) =>
            if n ≤ 0xff then .ok (UInt8.ofNat n, behind) else .error .misplaced
        | .ok (.other, _) => .error .misplaced
      else .error (misplacedValue cs)

/-- A byte value takes at least one character. -/
theorem length_readByte_lt {cs behind : List Char} {b : UInt8}
    (read : readByte cs = .ok (b, behind)) : behind.length < cs.length := by
  unfold readByte at read
  split at read
  · cases read
  · split at read
    · split at read
      · cases read
      next numberRead =>
        split at read
        · obtain ⟨_, rfl⟩ := Prod.mk.inj (Except.ok.inj read)
          exact length_readNumber_lt numberRead
        · cases read
      · cases read
    · cases read

/-- Reads byte values up to the closing bracket of an array that has at least one. -/
def readBytes (cs : List Char) : Except JsonFault (List UInt8 × List Char) :=
  match _read : readByte cs with
  | .error fault => .error fault
  | .ok (b, behind) =>
      match _skipped : skipBlanks behind with
      | [] => .error .malformed
      | c :: rest =>
          if c = ']' then .ok ([b], rest)
          else if c = ',' then
            match readBytes (skipBlanks rest) with
            | .error fault => .error fault
            | .ok (bs, behind) => .ok (b :: bs, behind)
          else .error .malformed
  termination_by cs.length
  decreasing_by
    have := length_readByte_lt _read
    have first := length_skipBlanks_le behind
    rw [_skipped, List.length_cons] at first
    have := length_skipBlanks_le rest
    omega

/-- Reads an array of byte values behind its opening bracket. -/
def readArray (cs : List Char) : Except JsonFault (List UInt8 × List Char) :=
  match skipBlanks cs with
  | [] => .error .malformed
  | c :: rest => if c = ']' then .ok ([], rest) else readBytes (c :: rest)

/-- The two forms in which a byte string is read. -/
inductive JsonBytes where
  | string (bytes : List UInt8)
  | array (bytes : List UInt8)
  deriving Repr, DecidableEq

/-- Reads a byte string. -/
def readJsonBytes (cs : List Char) : Except JsonFault JsonBytes :=
  match skipBlanks cs with
  | [] => .error .malformed
  | c :: rest =>
      if c = quotationMark then (wholeValue (readRaw rest)).map .string
      else if c = '[' then (wholeValue (readArray rest)).map .array
      else .error (misplacedValue (c :: rest))

end SegmentedText
