import SegmentedText.TextUnit

/-!
# Encoding units as bytes

An encoder turns windows of units into bytes.  It sees the windows of a text in
order, is told which one is the last, and may keep a state from one window to the
next, and from one text to the next.

There are two families.  UTF-8 encodes every character.  The single-byte charsets
encode the characters up to a limit; beyond it a lenient encoder writes a question
mark, and a strict one fails and names the character and the number of units that
the encoder had encoded before it.
-/

set_option autoImplicit false

namespace SegmentedText

/-! ## Errors -/

/-- The charsets with one byte for each character. -/
inductive Charset where
  | latin1
  | ascii
  deriving Repr, DecidableEq

/-- The name of a charset. -/
def Charset.name : Charset → String
  | .latin1 => "ISO-8859-1"
  | .ascii => "US-ASCII"

/-- The greatest code point of a charset. -/
def Charset.limit : Charset → Nat
  | .latin1 => 0xff
  | .ascii => 0x7f

/-- A character that a charset does not have. -/
structure EncodingError where
  character : Char
  position : Nat
  charset : Charset
  deriving Repr, DecidableEq

def EncodingError.message (e : EncodingError) : String :=
  "character " ++ quotedChar e.character ++ " at position " ++ toString e.position
    ++ " cannot be encoded in " ++ e.charset.name

/-! ## Encoders -/

/-- An encoder of units of type `α` with states of type `σ`. -/
structure Encoder (α σ : Type) where
  /-- The state of an encoder that has encoded nothing. -/
  fresh : σ
  /-- Encodes one window; the flag tells whether it is the last of its text. -/
  encode : σ → List α → Bool → σ × Except EncodingError (List UInt8)

namespace Encoder

variable {α σ : Type} [TextUnit α]

/-- The encoder that writes characters in UTF-8. -/
def utf8 : Encoder α Unit where
  fresh := ()
  encode _ window _ :=
    ((), .ok (window.flatMap fun u => String.utf8EncodeChar (TextUnit.toChar u)))

/-- Encodes a window in a charset, behind `position` units.  The position moves on with every unit
that is encoded, and stays at one that is not. -/
def encodeSingle (charset : Charset) (strict : Bool) :
    List α → Nat → Nat × Except EncodingError (List UInt8)
  | [], position => (position, .ok [])
  | u :: us, position =>
      let c := TextUnit.toChar u
      let encoded : Except EncodingError UInt8 :=
        if c.toNat ≤ charset.limit then .ok (UInt8.ofNat c.toNat)
        else if strict then .error ⟨c, position, charset⟩
        else .ok 0x3f
      match encoded with
      | .error e => (position, .error e)
      | .ok b =>
          match encodeSingle charset strict us (position + 1) with
          | (position, .ok bytes) => (position, .ok (b :: bytes))
          | (position, .error e) => (position, .error e)

/-- The encoder of a single-byte charset.  Its state is the number of units encoded. -/
def singleByte (charset : Charset) (strict : Bool) : Encoder α Nat where
  fresh := 0
  encode position window _ := encodeSingle charset strict window position

/-- An encoder that also keeps what it was given. -/
def traced (encoder : Encoder α σ) : Encoder α (σ × List (List α × Bool)) where
  fresh := (encoder.fresh, [])
  encode state window last :=
    let (inner, bytes) := encoder.encode state.1 window last
    ((inner, state.2 ++ [(window, last)]), bytes)

end Encoder
end SegmentedText
