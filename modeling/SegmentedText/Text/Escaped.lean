import SegmentedText.Text.DefaultIgnorable
import SegmentedText.Text.GraphemeExtend
import SegmentedText.Text.Printable

/-!
# Escaped text

Text is shown for inspection between quotation marks, with the characters that
would be misread written as escapes.  The line ends, the tab and the null
character have short escapes; the backslash and the quotation marks that the
caller names are preceded by a backslash; a character that would merge with its
neighbour, or that is ignored or could not be seen, is written by its code point
in hexadecimal.
Everything else stands for itself.

A byte string is shown the same way after its bytes have been read as UTF-8.
Bytes that are no part of a well-formed sequence are written as two hexadecimal
digits, and so are the control characters of ASCII that have no short escape.
-/

set_option autoImplicit false

namespace SegmentedText

/-! ## Marks and digits -/

/-- The character that opens an escape. -/
def backslash : Char := '\x5c'

/-- The mark on either side of a quoted text. -/
def quotationMark : Char := '\x22'

/-- The single mark, which encloses a quoted character. -/
def apostrophe : Char := '\x27'

/-- A number in hexadecimal, without leading zeros and in lower case. -/
def hexDigits (n : Nat) : List Char := Nat.toDigits 16 n

/-- A byte as two hexadecimal digits in lower case. -/
def hexByte (b : UInt8) : List Char :=
  hexDigits (b.toNat / 16) ++ hexDigits (b.toNat % 16)

/-! ## Characters -/

/-- A character by its code point. -/
def escapedCode (c : Char) : List Char :=
  [backslash, 'u', '\x7b'] ++ hexDigits c.toNat ++ ['\x7d']

/-- Whether a character is one of the two halfwidth sound marks.  They extend the character before
them, but take up a place of their own. -/
def isHalfwidthSoundMark (c : Char) : Bool := c = '\uff9e' || c = '\uff9f'

/-- Whether a character would merge with the one before it. -/
def mergesBackward (c : Char) : Bool := isGraphemeExtend c && !isHalfwidthSoundMark c

/-- A character as it is shown for inspection, where the marks in `marks` need an escape. -/
def escapedChar (marks : List Char) (c : Char) : List Char :=
  if c = '\x00' then [backslash, '0']
  else if c = '\t' then [backslash, 't']
  else if c = '\r' then [backslash, 'r']
  else if c = '\n' then [backslash, 'n']
  else if c = backslash || marks.contains c then [backslash, c]
  else if mergesBackward c || isDefaultIgnorable c || !isPrintable c then escapedCode c
  else [c]

/-- A character between apostrophes. -/
def quotedChar (c : Char) : String :=
  String.ofList ([apostrophe] ++ escapedChar [apostrophe] c ++ [apostrophe])

/-- A text between quotation marks.  Both kinds of mark are escaped inside it. -/
def quotedText (cs : List Char) : String :=
  String.ofList
    ([quotationMark] ++ cs.flatMap (escapedChar [quotationMark, apostrophe]) ++ [quotationMark])

/-! ## Byte strings -/

/-- A byte by its value. -/
def escapedByte (b : UInt8) : List Char := [backslash, 'x'] ++ hexByte b

/-- The control characters with a short escape. -/
def shortEscaped : List Char := ['\x00', '\t', '\r', '\n']

/-- A character read from a byte string: controls of ASCII without a short escape are shown as
bytes, all others like the characters of a text. -/
def escapedByteChar (c : Char) : List Char :=
  if c = '\ufffd' then [c]
  else if (c.toNat < 0x20 && !shortEscaped.contains c) || c = '\x7f' then
    escapedByte (UInt8.ofNat c.toNat)
  else escapedChar [quotationMark, apostrophe] c

/-- The character whose UTF-8 form a byte string begins with, if it begins with one. -/
def leadingChar? (bytes : List UInt8) : Option Char :=
  ((bytes.take 4).toByteArray).utf8DecodeChar? 0

/-- The bytes of a string as they are shown, read as UTF-8 from the front.  A byte that begins no
well-formed sequence is shown by itself, and reading goes on behind it. -/
def escapedBytes (bytes : List UInt8) : List Char :=
  match bytes with
  | [] => []
  | b :: rest =>
      match leadingChar? (b :: rest) with
      | some c => escapedByteChar c ++ escapedBytes (rest.drop (c.utf8Size - 1))
      | none => escapedByte b ++ escapedBytes rest
  termination_by bytes.length
  decreasing_by
    all_goals simp only [List.length_cons, List.length_drop]
    all_goals omega

/-- A byte string between quotation marks. -/
def quotedBytes (bytes : List UInt8) : String :=
  String.ofList ([quotationMark] ++ escapedBytes bytes ++ [quotationMark])

end SegmentedText
