import SegmentedText.Json.Value

/-!
# Libraries for JSON

Buffers do not read and write JSON themselves.  They hand a text or a byte string to
a library, and are given one back; `JsonCodec` is such a library, as far as buffers
use it.

What JSON is does not depend on the library.  A JSON string spells a text
(`Spells`), each character of it as it is or by an escape, and an array lists byte
values in decimal (`Lists`).  A library is lawful if what it writes spells or lists
what it was given, and if it reads whatever spells or lists something
(`JsonCodec.Lawful`).  Where a byte string is wanted, a JSON string stands for the
bytes that its text has in UTF-8.

Worlds use the library that is written out here (`JsonCodec.standard`).
-/

set_option autoImplicit false

namespace SegmentedText

/-! ## JSON as it is specified -/

/-- Characters between the marks of a JSON string, and the text that they spell. -/
inductive SpellsInside : List Char → List Char → Prop where
  | nil : SpellsInside [] []
  /-- A character that stands for itself. -/
  | plain {c : Char} {written text : List Char} (mark : c ≠ quotationMark) (slash : c ≠ backslash)
      (printable : 0x20 ≤ c.toNat) (rest : SpellsInside written text) :
      SpellsInside (c :: written) (c :: text)
  /-- An escape of one letter. -/
  | short {e c : Char} {written text : List Char} (known : shortEscape? e = some c)
      (rest : SpellsInside written text) : SpellsInside (backslash :: e :: written) (c :: text)
  /-- The code of a character in four hexadecimal digits. -/
  | code {h₁ h₂ h₃ h₄ c : Char} {written text : List Char}
      (value : hexNumber? h₁ h₂ h₃ h₄ = some c.toNat) (rest : SpellsInside written text) :
      SpellsInside (backslash :: 'u' :: h₁ :: h₂ :: h₃ :: h₄ :: written) (c :: text)
  /-- A pair of surrogates, each in four hexadecimal digits. -/
  | pair {h₁ h₂ h₃ h₄ l₁ l₂ l₃ l₄ : Char} {high low : Nat} {written text : List Char}
      (first : hexNumber? h₁ h₂ h₃ h₄ = some high) (announces : isHighSurrogate high = true)
      (second : hexNumber? l₁ l₂ l₃ l₄ = some low) (completes : isLowSurrogate low = true)
      (rest : SpellsInside written text) :
      SpellsInside
        (backslash :: 'u' :: h₁ :: h₂ :: h₃ :: h₄ :: backslash :: 'u' :: l₁ :: l₂ :: l₃ :: l₄ ::
          written)
        (Char.ofNat (surrogatePair high low) :: text)

/-- Characters that mean nothing between the parts of a JSON text. -/
def JsonBlank (cs : List Char) : Prop := ∀ c ∈ cs, isJsonBlank c = true

/-- A JSON text that is a string and spells a text. -/
def Spells (json text : String) : Prop :=
  ∃ front written behind, JsonBlank front ∧ JsonBlank behind ∧ SpellsInside written text.toList ∧
    json.toList = front ++ quotationMark :: (written ++ quotationMark :: behind)

/-- Characters between the brackets of a JSON array, and the byte values that they list. -/
inductive ListsInside : List Char → List UInt8 → Prop where
  | last {front behind : List Char} (before : JsonBlank front) (after : JsonBlank behind)
      (b : UInt8) : ListsInside (front ++ (Nat.toDigits 10 b.toNat ++ behind)) [b]
  | next {front behind written : List Char} {bytes : List UInt8} (before : JsonBlank front)
      (after : JsonBlank behind) (b : UInt8) (rest : ListsInside written bytes) :
      ListsInside (front ++ (Nat.toDigits 10 b.toNat ++ (behind ++ ',' :: written))) (b :: bytes)

/-- A JSON text that is an array and lists byte values. -/
def Lists (json : String) (bytes : List UInt8) : Prop :=
  ∃ front written behind, JsonBlank front ∧ JsonBlank behind ∧
    (bytes = [] ∧ JsonBlank written ∨ ListsInside written bytes) ∧
    json.toList = front ++ '[' :: (written ++ ']' :: behind)

/-! ## Libraries -/

/-- A library that reads and writes JSON, as far as buffers use it. -/
structure JsonCodec where
  /-- Writes a text. -/
  writeText : String → String
  /-- Reads a text. -/
  readText : String → Except JsonFault String
  /-- Writes a byte string. -/
  writeBytes : List UInt8 → String
  /-- Reads a byte string. -/
  readBytes : String → Except JsonFault JsonBytes

/-- What a library does that reads and writes JSON as it is specified. -/
structure JsonCodec.Lawful (codec : JsonCodec) : Prop where
  spells_writeText : ∀ text, Spells (codec.writeText text) text
  readText_of_spells : ∀ {json text}, Spells json text → codec.readText json = .ok text
  lists_writeBytes : ∀ bytes, Lists (codec.writeBytes bytes) bytes
  readBytes_of_lists : ∀ {json bytes}, Lists json bytes → codec.readBytes json = .ok (.array bytes)
  /-- Where a byte string is wanted, a string stands for the bytes of its text. -/
  readBytes_of_spells : ∀ {json text}, Spells json text →
    codec.readBytes json = .ok (.string (text.toList.flatMap String.utf8EncodeChar))

/-- The library that worlds use. -/
def JsonCodec.standard : JsonCodec where
  writeText text := String.ofList (jsonText text.toList)
  readText json := (readJsonText json.toList).map String.ofList
  writeBytes bytes := String.ofList (jsonBytes bytes)
  readBytes json := readJsonBytes json.toList

end SegmentedText
