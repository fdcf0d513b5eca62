import SegmentedText.Text.Escaped
import SegmentedText.Text.LetterCase
import SegmentedText.Text.WhiteSpace

/-!
# Units of text

A segment stores its text as an array of units.  There are two kinds: the full
characters, and single bytes that stand for the characters of ISO-8859-1.  A
byte takes a quarter of the room, and a character beyond U+00FF is stored in it
as a question mark.

Each kind says how it stands to characters, what it trims and how it changes
case.  A change of case is always one unit for one unit: where the case of a
character would take several, or would leave the range of bytes, the unit stays
as it is.

The law that both kinds obey is `TextUnit.ofChar_toChar`: widening a unit to a
character and storing that gives the unit back.  So two contents are equal
exactly when the texts they show are (`TextUnit.toChar_inj`).
-/

set_option autoImplicit false

namespace SegmentedText

/-! ## Kinds -/

/-- The kinds of unit: full characters, or bytes of ISO-8859-1. -/
inductive UnitKind where
  | text
  | latin1
  deriving Repr, DecidableEq

/-- The room first set aside when units of this kind are collected one by one. -/
def UnitKind.smallestCapacity : UnitKind → Nat
  | .text => 4
  | .latin1 => 8

/-- The number of bytes that a unit of this kind takes. -/
def UnitKind.width : UnitKind → Nat
  | .text => 4
  | .latin1 => 1

theorem UnitKind.width_pos (kind : UnitKind) : 0 < kind.width := by cases kind <;> decide

/-- A type whose values are single elements of stored text. -/
class TextUnit (α : Type) where
  /-- Units can be compared. -/
  [decEq : DecidableEq α]
  /-- Which of the two kinds this is. -/
  kind : UnitKind
  /-- The unit that stores a character, or stands in for it. -/
  ofChar : Char → α
  /-- The character that a unit shows. -/
  toChar : α → Char
  /-- Whether trimming removes the unit. -/
  isWhitespace : α → Bool
  /-- The lower case of a unit. -/
  toLower : α → α
  /-- The upper case of a unit. -/
  toUpper : α → α
  /-- The character of a unit is stored as that unit. -/
  ofChar_toChar : ∀ u : α, ofChar (toChar u) = u

attribute [reducible, instance] TextUnit.decEq

namespace TextUnit

variable {α : Type} [TextUnit α]

/-- The filler of cells that nothing has been written to. -/
def blank : α := ofChar '\x00'

/-- The units that store a text. -/
def unitsOf (text : String) : List α := text.toList.map ofChar

/-- The text that a list of units shows. -/
def textOf (units : List α) : String := String.ofList (units.map toChar)

/-- The code of a unit, for the kinds whose units are bytes. -/
def toByte (u : α) : UInt8 := UInt8.ofNat (toChar u).toNat

/-- The unit with the given code, for the kinds whose units are bytes. -/
def ofByte (b : UInt8) : α := ofChar (Char.ofNat b.toNat)

/-- A window of units as it is shown for inspection. -/
def quoted (units : List α) : String :=
  match kind α with
  | .text => quotedText (units.map toChar)
  | .latin1 => quotedBytes (units.map toByte)

/-- Different units show different characters. -/
theorem toChar_inj {u v : α} : toChar u = toChar v ↔ u = v :=
  ⟨fun h => by rw [← ofChar_toChar u, h, ofChar_toChar], fun h => h ▸ rfl⟩

end TextUnit

/-! ## Full characters -/

instance : TextUnit Char where
  kind := .text
  ofChar c := c
  toChar c := c
  isWhitespace := isWhiteSpace
  toLower := lowerCase
  toUpper := upperCase
  ofChar_toChar _ := rfl

/-! ## Bytes of ISO-8859-1 -/

namespace Latin1

/-- The byte of a character, or a question mark for a character that has none. -/
def ofChar (c : Char) : UInt8 := if c.toNat ≤ 0xff then UInt8.ofNat c.toNat else 0x3f

/-- The character of a byte. -/
def toChar (b : UInt8) : Char := Char.ofNat b.toNat

/-- The blanks and line ends of ASCII, the vertical tab, the next line and the no-break space. -/
def isWhitespace (b : UInt8) : Bool :=
  [0x20, 0x09, 0x0a, 0x0c, 0x0d, 0x0b, 0x85, 0xa0].contains b

/-- The lower case of the byte's character, which is again a byte. -/
def toLower (b : UInt8) : UInt8 := ofChar (lowerCase (toChar b))

/-- The upper case of the byte's character, or the byte where that lies outside ISO-8859-1. -/
def toUpper (b : UInt8) : UInt8 :=
  let upper := upperCase (toChar b)
  if upper.toNat ≤ 0xff then UInt8.ofNat upper.toNat else b

theorem toNat_toChar (b : UInt8) : (toChar b).toNat = b.toNat := by
  have small : b.toNat < 256 := b.toNat_lt
  have valid : b.toNat.isValidChar := by
    left
    omega
  rw [toChar, Char.ofNat, dif_pos valid]
  rfl

theorem ofChar_toChar (b : UInt8) : ofChar (toChar b) = b := by
  have small : b.toNat < 256 := b.toNat_lt
  rw [ofChar, toNat_toChar, if_pos (by omega)]
  exact UInt8.ofNat_toNat

end Latin1

instance : TextUnit UInt8 where
  kind := .latin1
  ofChar := Latin1.ofChar
  toChar := Latin1.toChar
  isWhitespace := Latin1.isWhitespace
  toLower := Latin1.toLower
  toUpper := Latin1.toUpper
  ofChar_toChar := Latin1.ofChar_toChar

end SegmentedText
