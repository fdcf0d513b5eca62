import SegmentedText.Proofs.Flat.Cells
import SegmentedText.Proofs.Serial.Json
import SegmentedText.Serial

/-!
# Serial forms read back

What a buffer is kept as outside says nothing of its segments, so what is read back shows
the same units in one segment, or in none where there are no units (`Buffer.Whole`).

For a buffer of characters the outer form is its text as a JSON string, whatever characters
the text holds.  For a buffer of bytes it is the JSON array of the bytes; a format that has
byte strings, or sequences, gives back the same as the array does.  The library that reads
and writes JSON is any that keeps to what JSON is (`JsonCodec.Lawful`).  The main statement
puts them together (`Buffer.read_back`).
-/

set_option autoImplicit false

namespace SegmentedText
namespace Buffer

section

variable {α : Type} [TextUnit α] (b : Buffer) (st : Store α)

/-! ## What is written -/

/-- The text that is written is that of the content. -/
theorem display_eq : b.display st = TextUnit.textOf (b.content st) := by
  have written : ∀ (segments : List Segment) (text : String),
      segments.foldl (fun text s => text ++ s.display st) text =
        text ++ TextUnit.textOf (contentOf segments st) := by
    intro segments
    induction segments with
    | nil => exact fun text => (String.append_empty).symm
    | cons s rest ih =>
        intro text
        rw [List.foldl_cons, ih, contentOf_cons, TextUnit.textOf, TextUnit.textOf, List.map_append,
          String.ofList_append, String.append_assoc]
        rfl
  exact (written b.segments "").trans String.empty_append

omit [TextUnit α] in
/-- The units that are copied block by block are those of the content. -/
theorem toUnits_eq : b.toUnits st = b.content st := by
  have copied : ∀ (windows : List (List α)) (units : List α),
      windows.foldl (· ++ ·) units = units ++ windows.flatten := by
    intro windows
    induction windows with
    | nil => exact fun units => (List.append_nil units).symm
    | cons window rest ih =>
        intro units
        rw [List.foldl_cons, ih, List.flatten_cons, List.append_assoc]
  exact (copied _ _).trans (List.nil_append _)

/-! ## What is read -/

/-- A buffer that shows units in one segment, or in none if there are none. -/
structure Whole (units : List α) (r : Buffer × Store α) : Prop where
  content : r.1.content r.2 = units
  vacant : units = [] → r.1.hasNoSegments = true ∧ r.1.segmentCount = 0
  single : units ≠ [] → r.1.segmentCount = 1

/-- An array of its own shows its units whole. -/
theorem whole_ofArray (units : List α) (capacity : Nat) :
    Whole units (ofArray units capacity st) := by
  cases units with
  | nil => exact ⟨rfl, fun _ => ⟨rfl, rfl⟩, fun some => absurd rfl some⟩
  | cons u us =>
      have single : (ofArray (u :: us) capacity st).1.segments =
          [(Segment.allocate (u :: us) capacity st).1] := rfl
      refine ⟨?_, fun none => (nomatch none), fun _ => congrArg List.length single⟩
      show contentOf (ofArray (u :: us) capacity st).1.segments _ = _
      rw [single, contentOf_cons, contentOf_nil, List.append_nil]
      exact Segment.content_allocate (u :: us) capacity st

theorem whole_ofUnits (units : List α) : Whole units (ofUnits units st) :=
  whole_ofArray st units units.length

theorem whole_ofText (text : String) : Whole (TextUnit.unitsOf text) (ofText text st) :=
  whole_ofArray st _ _

end

/-! ## Bytes -/

theorem toByte_eq (u : UInt8) : TextUnit.toByte u = u := by
  show UInt8.ofNat (Latin1.toChar u).toNat = u
  rw [Latin1.toNat_toChar, UInt8.ofNat_toNat]

theorem ofByte_eq (b : UInt8) : (TextUnit.ofByte b : UInt8) = b := Latin1.ofChar_toChar b

/-- The units of bytes are the bytes. -/
theorem whole_ofBytes (bytes : List UInt8) (st : Store UInt8) :
    Whole bytes (ofBytes bytes st) := by
  have same : bytes.map TextUnit.ofByte = bytes :=
    (List.map_congr_left fun b _ => ofByte_eq b).trans (List.map_id bytes)
  show Whole bytes (ofUnits (bytes.map TextUnit.ofByte) st)
  rw [same]
  exact whole_ofUnits st bytes

theorem byteValues_toNat (bytes : List UInt8) : byteValues (bytes.map UInt8.toNat) = .ok bytes := by
  induction bytes with
  | nil => rfl
  | cons b bytes ih =>
      have small : b.toNat < 256 := b.toNat_lt
      rw [List.map_cons, byteValues, if_neg (by omega), ih, UInt8.ofNat_toNat]

/-- A buffer of bytes is written as the byte string of its content. -/
theorem toJson_bytes (codec : JsonCodec) (b : Buffer) (st : Store UInt8) :
    b.toJson codec st = codec.writeBytes (b.content st) := by
  have same : (b.content st).map TextUnit.toByte = b.content st :=
    (List.map_congr_left fun u _ => toByte_eq u).trans (List.map_id _)
  show codec.writeBytes ((b.toUnits st).map TextUnit.toByte) = _
  rw [toUnits_eq, same]

/-- The text of a buffer of characters is its content. -/
theorem unitsOf_display {α : Type} [TextUnit α] (b : Buffer) (st : Store α) :
    TextUnit.unitsOf (b.display st) = b.content st := by
  rw [display_eq, TextUnit.unitsOf, TextUnit.textOf, String.toList_ofList, List.map_map]
  exact (List.map_congr_left fun u _ => TextUnit.ofChar_toChar u).trans (List.map_id _)

/-! ## Reading by a lawful library -/

section

variable {codec : JsonCodec} (lawful : codec.Lawful)
include lawful

theorem ofJson_of_spells_text {json text : String} (spells : Spells json text) (st : Store Char) :
    ofJson codec json st = .ok (ofText text st) := by
  show (codec.readText json).map _ = _
  rw [lawful.readText_of_spells spells]
  rfl

/-- A string of JSON gives a byte buffer the bytes of the text that it spells. -/
theorem ofJson_of_spells {json text : String} (spells : Spells json text) (st : Store UInt8) :
    ofJson codec json st = .ok (ofBytes (text.toList.flatMap String.utf8EncodeChar) st) := by
  show (codec.readBytes json).map _ = _
  rw [lawful.readBytes_of_spells spells]
  rfl

/-- An array of JSON gives a byte buffer the bytes that it lists. -/
theorem ofJson_of_lists {json : String} {bytes : List UInt8} (lists : Lists json bytes)
    (st : Store UInt8) :
    ofJson codec json st = .ok (ofArray bytes (pushedCapacity bytes.length) st) := by
  have same : bytes.map TextUnit.ofByte = bytes :=
    (List.map_congr_left fun b _ => ofByte_eq b).trans (List.map_id _)
  show (codec.readBytes json).map _ = _
  rw [lawful.readBytes_of_lists lists]
  show Except.ok (ofArray (bytes.map TextUnit.ofByte) _ st) = _
  rw [same]

/-! ## Round trips -/

/-- **What a buffer is kept as gives its content back.**

With any library that reads and writes JSON as it is specified, a buffer of characters is written
as a JSON string of its text and read back from it, whatever characters it holds and however it is
cut.  A buffer of bytes is written as a JSON array of its bytes, and is read back from that, from
its bytes as a byte string, and from its bytes as a sequence.  Each time what is read shows the
content in one segment, or in none if there is no content. -/
theorem read_back (b : Buffer) :
    (∀ st target : Store Char,
      Spells (b.toJson codec st) (b.display st) ∧ (b.display st).toList = b.content st ∧
      ∃ back, ofJson codec (b.toJson codec st) target = .ok back ∧ Whole (b.content st) back) ∧
    (∀ st target : Store UInt8,
      Lists (b.toJson codec st) (b.content st) ∧
      (∃ back, ofJson codec (b.toJson codec st) target = .ok back ∧
        Whole (b.content st) back) ∧
      (∃ back, ofValue (.bytes (b.content st)) target = .ok back ∧ Whole (b.content st) back) ∧
      (∃ back, ofValue (.ownedBytes (b.content st)) target = .ok back ∧
        Whole (b.content st) back) ∧
      ∃ back, ofValue (.sequence ((b.content st).map UInt8.toNat)) target = .ok back ∧
        Whole (b.content st) back) := by
  refine ⟨fun st target => ?_, fun st target => ?_⟩
  · have spells : Spells (b.toJson codec st) (b.display st) :=
      lawful.spells_writeText (b.display st)
    have units : (b.display st).toList = b.content st :=
      (List.map_id _).symm.trans (unitsOf_display b st)
    have whole := whole_ofText target (b.display st)
    rw [unitsOf_display] at whole
    exact ⟨spells, units, _, ofJson_of_spells_text lawful spells target, whole⟩
  · have lists : Lists (b.toJson codec st) (b.content st) := by
      rw [toJson_bytes]
      exact lawful.lists_writeBytes (b.content st)
    refine ⟨lists, ⟨_, ofJson_of_lists lawful lists target, whole_ofArray target _ _⟩,
      ⟨_, rfl, whole_ofBytes _ target⟩, ⟨_, rfl, whole_ofBytes _ target⟩,
      ofBytes (b.content st) target, ?_, whole_ofBytes _ target⟩
    show (byteValues _).map _ = _
    rw [byteValues_toNat]
    rfl

end

/-- Two segments of characters, among them a mark, a control character and one beyond 16 bits. -/
def quotedLines : Buffer × Store Char :=
  let first := Segment.ofUnits ['a', quotationMark, '\n'] {}
  let second := Segment.ofUnits [Char.ofNat 0x1f600] first.2
  ({ segmentList := .held [first.1, second.1] }, second.2)

theorem read_back_quotedLines :
    JsonCodec.standard.Lawful ∧
      ∃ back, ofJson .standard (quotedLines.1.toJson .standard quotedLines.2) quotedLines.2 =
          .ok back ∧
        back.1.content back.2 = ['a', quotationMark, '\n', Char.ofNat 0x1f600] ∧
        back.1.segmentCount = 1 := by
  have shown : quotedLines.1.content quotedLines.2 =
      ['a', quotationMark, '\n', Char.ofNat 0x1f600] := by decide
  obtain ⟨-, -, back, read, whole⟩ :=
    (read_back JsonCodec.lawful_standard quotedLines.1).1 quotedLines.2 quotedLines.2
  refine ⟨JsonCodec.lawful_standard, back, read, whole.content.trans shown, whole.single ?_⟩
  rw [shown]
  exact List.cons_ne_nil _ _

end Buffer
end SegmentedText
