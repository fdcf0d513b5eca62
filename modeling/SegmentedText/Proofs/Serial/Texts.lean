import SegmentedText.Proofs.Serial.RoundTrip
import SegmentedText.Proofs.Streams.Drains

/-!
# Texts read into byte buffers

A byte buffer shows a text, one character for each byte.  A data format that has texts may
present that text as one, and then it is stored again character by character, which gives the
bytes back.

JSON has no byte strings of its own.  Where a byte string is wanted, a JSON string stands for
the bytes that its text has in UTF-8, by whatever escapes it spells the text, so the
characters beyond ASCII come back as two bytes each.  The main statement puts the two routes
side by side (`Buffer.texts_into_bytes`).
-/

set_option autoImplicit false

namespace SegmentedText

/-! ## The bytes of a byte's character -/

namespace Latin1

/-- The bytes that the character of a byte has in UTF-8. -/
def utf8 (b : UInt8) : List UInt8 :=
  if b.toNat < 0x80 then [b]
  else [UInt8.ofNat (0xc0 + b.toNat / 0x40), UInt8.ofNat (0x80 + b.toNat % 0x40)]

theorem utf8EncodeChar_toChar (b : UInt8) : String.utf8EncodeChar (toChar b) = utf8 b := by
  have small : b.toNat < 256 := b.toNat_lt
  have code : (toChar b).val.toNat = b.toNat := toNat_toChar b
  rw [String.utf8EncodeChar, code, utf8]
  by_cases ascii : b.toNat < 0x80
  · rw [if_pos (by omega), if_pos ascii, UInt8.ofNat_toNat]
  · have first : b.toNat / 64 % 32 + 192 = 0xc0 + b.toNat / 0x40 := by omega
    have second : b.toNat % 64 + 128 = 0x80 + b.toNat % 0x40 := by omega
    rw [if_neg (by omega), if_pos (by omega), if_neg ascii, first, second]

theorem utf8Bytes_eq (bytes : List UInt8) : utf8Bytes bytes = bytes.flatMap utf8 :=
  List.flatMap_congr fun b _ => utf8EncodeChar_toChar b

theorem length_le_flatMap_utf8 (bytes : List UInt8) :
    bytes.length ≤ (bytes.flatMap utf8).length := by
  induction bytes with
  | nil => exact Nat.le_refl _
  | cons b bytes ih =>
      have some : 0 < (utf8 b).length := by
        rw [utf8]
        split <;> exact Nat.succ_pos _
      rw [List.flatMap_cons, List.length_append, List.length_cons]
      omega

/-- Only bytes of ASCII are their own in UTF-8. -/
theorem flatMap_utf8_eq_self_iff (bytes : List UInt8) :
    bytes.flatMap utf8 = bytes ↔ ∀ b ∈ bytes, b.toNat < 0x80 := by
  induction bytes with
  | nil => exact iff_of_true rfl fun _ none => absurd none List.not_mem_nil
  | cons b bytes ih =>
      rw [List.flatMap_cons, List.forall_mem_cons, ← ih, utf8]
      by_cases ascii : b.toNat < 0x80
      · rw [if_pos ascii, List.singleton_append, List.cons_inj_right]
        exact (and_iff_right ascii).symm
      · rw [if_neg ascii]
        refine iff_of_false (fun same => ?_) fun both => ascii both.1
        have longer := length_le_flatMap_utf8 bytes
        have count := congrArg List.length same
        simp only [List.cons_append, List.nil_append, List.length_cons] at count
        omega

end Latin1

/-! ## Both routes -/

namespace Buffer

/-- **The text of a byte buffer gives its bytes back as a text, but not as a string of JSON.**

The text shows each byte as one character.  Presented as a text, borrowed or handed over, it is
stored as those bytes, in one segment or in none.  A string of JSON that spells it is stored, by any
library that keeps to what JSON is, as the bytes that the text has in UTF-8, which are the same only
where all of them are ASCII. -/
theorem texts_into_bytes {codec : JsonCodec} (lawful : codec.Lawful) (b : Buffer)
    (st target : Store UInt8) :
    (b.display st).toList = (b.content st).map Latin1.toChar ∧
    (∃ back, ofValue (.text (b.display st)) target = .ok back ∧ Whole (b.content st) back) ∧
    (∃ back, ofValue (.ownedText (b.display st)) target = .ok back ∧ Whole (b.content st) back) ∧
    Spells (codec.writeText (b.display st)) (b.display st) ∧
    ((b.content st).flatMap Latin1.utf8).toByteArray = (b.display st).toUTF8 ∧
    ∀ json, Spells json (b.display st) → ∃ back, ofJson codec json target = .ok back ∧
      Whole ((b.content st).flatMap Latin1.utf8) back ∧
      (back.1.content back.2 = b.content st ↔ ∀ u ∈ b.content st, u.toNat < 0x80) := by
  have shown : (b.display st).toList = (b.content st).map Latin1.toChar := by
    rw [display_eq, TextUnit.textOf, String.toList_ofList]
    rfl
  have stored := whole_ofText target (b.display st)
  rw [unitsOf_display] at stored
  refine ⟨shown, ⟨_, rfl, stored⟩, ⟨_, rfl, stored⟩, lawful.spells_writeText _, ?_,
    fun json spells => ?_⟩
  · rw [← Latin1.utf8Bytes_eq, toByteArray_utf8Bytes, ← display_eq]
    rfl
  · have bytes : (b.display st).toList.flatMap String.utf8EncodeChar =
        (b.content st).flatMap Latin1.utf8 := by
      rw [shown, List.flatMap_map, ← Latin1.utf8Bytes_eq]
      rfl
    have whole := whole_ofBytes ((b.content st).flatMap Latin1.utf8) target
    refine ⟨_, ofJson_of_spells lawful spells target, ?_⟩
    rw [bytes]
    refine ⟨whole, ?_⟩
    rw [whole.content]
    exact Latin1.flatMap_utf8_eq_self_iff _

/-- Two bytes, the second beyond ASCII. -/
def accentedBytes : Buffer × Store UInt8 := ofUnits [0x61, 0xe9] {}

theorem toList_display_accentedBytes :
    (accentedBytes.1.display accentedBytes.2).toList = ['a', Latin1.toChar 0xe9] := by decide

/-- The text of these bytes as a string of JSON, the second character as an escape. -/
def escapedAccent : String :=
  String.ofList [quotationMark, 'a', backslash, 'u', '0', '0', 'e', '9', quotationMark]

theorem spells_escapedAccent :
    Spells escapedAccent (accentedBytes.1.display accentedBytes.2) := by
  refine ⟨[], ['a', backslash, 'u', '0', '0', 'e', '9'], [], jsonBlank_nil, jsonBlank_nil, ?_,
    String.toList_ofList⟩
  rw [toList_display_accentedBytes]
  exact .plain (by decide) (by decide) (by decide) (.code (by decide) .nil)

theorem texts_into_bytes_accentedBytes :
    JsonCodec.standard.Lawful ∧ Spells escapedAccent (accentedBytes.1.display accentedBytes.2) ∧
      ∃ back, ofJson .standard escapedAccent accentedBytes.2 = .ok back ∧
        back.1.content back.2 = [0x61, 0xc3, 0xa9] := by
  have spells := spells_escapedAccent
  obtain ⟨back, read, whole, -⟩ :=
    (texts_into_bytes JsonCodec.lawful_standard accentedBytes.1 accentedBytes.2
      accentedBytes.2).2.2.2.2.2 _ spells
  exact ⟨JsonCodec.lawful_standard, spells, back, read, whole.content⟩

/-- No library that keeps to what JSON is gives these bytes back from a string of JSON that spells
their text. -/
theorem accentedBytes_not_read_back :
    (∃ codec : JsonCodec, codec.Lawful) ∧ ¬∃ (codec : JsonCodec) (json : String),
      codec.Lawful ∧ Spells json (accentedBytes.1.display accentedBytes.2) ∧
      ∃ back, ofJson codec json accentedBytes.2 = .ok back ∧
        back.1.content back.2 = accentedBytes.1.content accentedBytes.2 := by
  refine ⟨⟨.standard, JsonCodec.lawful_standard⟩, ?_⟩
  rintro ⟨codec, json, lawful, spells, back, read, same⟩
  rw [ofJson_of_spells lawful spells, toList_display_accentedBytes] at read
  cases read
  rw [(whole_ofBytes _ _).content] at same
  revert same
  decide

end Buffer

end SegmentedText
