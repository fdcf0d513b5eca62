import SegmentedText.Buffer.Growth
import SegmentedText.Json.Codec

/-!
# Serial forms of a buffer

A buffer of characters is kept outside as a text, and a buffer of bytes as a byte
string, however its content is cut into segments.  What is read back comes in one
segment, or in none if there is nothing to show.

Besides JSON text, a buffer is read from single values as a data format presents
them.  A byte buffer takes byte strings, sequences of byte values and texts; a
text is stored in it character by character.  A character buffer takes texts only.
-/

set_option autoImplicit false

namespace SegmentedText

/-! ## Single values -/

/-- A value as a data format presents it. -/
inductive SerialValue where
  /-- A text that belongs to somebody else. -/
  | text (t : String)
  /-- A text that is handed over. -/
  | ownedText (t : String)
  /-- A single character. -/
  | character (c : Char)
  /-- A byte string that belongs to somebody else. -/
  | bytes (bs : List UInt8)
  /-- A byte string that is handed over. -/
  | ownedBytes (bs : List UInt8)
  /-- A sequence of natural numbers, whose length is known in advance. -/
  | sequence (elements : List Nat)
  | natural (n : Nat)
  | integer (i : Int)
  | boolean (b : Bool)
  | unit
  deriving Repr, DecidableEq

/-- How a value of no use is called in a message. -/
def SerialValue.describe : SerialValue → String
  | .text t | .ownedText t => "string " ++ quotedText t.toList
  | .character c => "string " ++ quotedText [c]
  | .bytes _ | .ownedBytes _ => "byte array"
  | .sequence _ => "sequence"
  | .natural n => "integer `" ++ toString n ++ "`"
  | .integer i => "integer `" ++ toString i ++ "`"
  | .boolean b => "boolean `" ++ (if b then "true" else "false") ++ "`"
  | .unit => "unit value"

/-- Why a value was refused. -/
inductive SerialError where
  /-- The value is of another kind than a buffer of this kind of unit takes. -/
  | otherKind (found : SerialValue) (wanted : UnitKind)
  /-- An element of a sequence is no byte value. -/
  | notByte (n : Nat)
  deriving Repr, DecidableEq

/-- What a buffer of this kind of unit is read from. -/
def UnitKind.expected : UnitKind → String
  | .text => "a string"
  | .latin1 => "a byte string"

def SerialError.message : SerialError → String
  | .otherKind found wanted =>
      "invalid type: " ++ found.describe ++ ", expected " ++ wanted.expected
  | .notByte n => "invalid value: integer `" ++ toString n ++ "`, expected u8"

/-- The byte values of a sequence, up to the first that is none. -/
def byteValues : List Nat → Except SerialError (List UInt8)
  | [] => .ok []
  | n :: ns =>
      if 0xff < n then .error (.notByte n)
      else
        match byteValues ns with
        | .ok bs => .ok (UInt8.ofNat n :: bs)
        | .error e => .error e

namespace Buffer

variable {α : Type} [TextUnit α]

/-- A buffer of one segment, or of none, with an array of the given capacity. -/
def ofArray (units : List α) (capacity : Nat) (st : Store α) : Buffer × Store α :=
  let (s, st) := Segment.allocate units capacity st
  (ofSegment s, st)

/-- A buffer that shows bytes in one segment. -/
def ofBytes (bytes : List UInt8) (st : Store α) : Buffer × Store α :=
  ofUnits (bytes.map TextUnit.ofByte) st

/-- Reads a buffer of characters from a value. -/
def ofTextValue (value : SerialValue) (st : Store α) : Except SerialError (Buffer × Store α) :=
  match value with
  | .text t | .ownedText t => .ok (ofText t st)
  | .character c => .ok (ofText (String.singleton c) st)
  | other => .error (.otherKind other .text)

/-- Reads a buffer of bytes from a value. -/
def ofBytesValue (value : SerialValue) (st : Store α) : Except SerialError (Buffer × Store α) :=
  match value with
  | .text t | .ownedText t => .ok (ofText t st)
  | .character c => .ok (ofText (String.singleton c) st)
  | .bytes bs | .ownedBytes bs => .ok (ofBytes bs st)
  | .sequence elements => (byteValues elements).map fun bs => ofBytes bs st
  | other => .error (.otherKind other .latin1)

/-- Reads a buffer from a value. -/
def ofValue (value : SerialValue) (st : Store α) : Except SerialError (Buffer × Store α) :=
  match TextUnit.kind α with
  | .text => ofTextValue value st
  | .latin1 => ofBytesValue value st

/-! ## JSON text -/

/-- The JSON text of a buffer, as a library writes it. -/
def toJson (codec : JsonCodec) (b : Buffer) (st : Store α) : String :=
  match TextUnit.kind α with
  | .text => codec.writeText (b.display st)
  | .latin1 => codec.writeBytes ((b.toUnits st).map TextUnit.toByte)

/-- Reads a buffer from a JSON text by a library.  A byte string is taken as it is, and an array of
byte values is collected one by one. -/
def ofJson (codec : JsonCodec) (json : String) (st : Store α) :
    Except JsonFault (Buffer × Store α) :=
  match TextUnit.kind α with
  | .text => (codec.readText json).map fun text => ofText text st
  | .latin1 =>
      (codec.readBytes json).map fun
        | .string bytes => ofBytes bytes st
        | .array bytes => ofArray (bytes.map TextUnit.ofByte) (pushedCapacity bytes.length) st

end Buffer
end SegmentedText
