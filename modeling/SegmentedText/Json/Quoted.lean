import SegmentedText.Json.Fault
import SegmentedText.Text.Escaped

/-!
# JSON strings

A string is written between quotation marks, with the marks, the backslash and
the control characters below U+0020 escaped, and all other characters as they
are.

Reading has two forms.  A text is read strictly: control characters must be
escaped, and escapes that name surrogates must name a pair.  A byte string takes
the bytes of what is written: control characters may stand as they are, and a
surrogate without its partner gives the three bytes that it would have in UTF-8.
-/

set_option autoImplicit false

namespace SegmentedText

/-! ## Writing -/

/-- A number below 65536 in four hexadecimal digits. -/
def fourHexDigits (n : Nat) : List Char :=
  let digits := hexDigits n
  List.replicate (4 - digits.length) '0' ++ digits

/-- A character as it is written in a JSON string. -/
def jsonChar (c : Char) : List Char :=
  if c = quotationMark || c = backslash then [backslash, c]
  else if c = '\x08' then [backslash, 'b']
  else if c = '\t' then [backslash, 't']
  else if c = '\n' then [backslash, 'n']
  else if c = '\x0c' then [backslash, 'f']
  else if c = '\r' then [backslash, 'r']
  else if c.toNat < 0x20 then [backslash, 'u'] ++ fourHexDigits c.toNat
  else [c]

/-- A text as a JSON string. -/
def jsonText (cs : List Char) : List Char := quotationMark :: cs.flatMap jsonChar ++ [quotationMark]

/-! ## Surrogates -/

/-- A code that announces a second one. -/
def isHighSurrogate (n : Nat) : Bool := 0xd800 ≤ n && n ≤ 0xdbff

/-- A code that completes a pair. -/
def isLowSurrogate (n : Nat) : Bool := 0xdc00 ≤ n && n ≤ 0xdfff

/-- The code point of a pair of surrogates. -/
def surrogatePair (high low : Nat) : Nat := (high - 0xd800) * 0x400 + (low - 0xdc00) + 0x10000

/-! ## Reading -/

/-- The value of a hexadecimal digit. -/
def hexValue? (c : Char) : Option Nat :=
  if '0' ≤ c && c ≤ '9' then some (c.toNat - 0x30)
  else if 'a' ≤ c && c ≤ 'f' then some (c.toNat - 0x61 + 10)
  else if 'A' ≤ c && c ≤ 'F' then some (c.toNat - 0x41 + 10)
  else none

/-- The number of four hexadecimal digits. -/
def hexNumber? (a b c d : Char) : Option Nat := do
  let a ← hexValue? a
  let b ← hexValue? b
  let c ← hexValue? c
  let d ← hexValue? d
  return ((a * 16 + b) * 16 + c) * 16 + d

/-- The character of an escape of one letter. -/
def shortEscape? (c : Char) : Option Char :=
  if c = quotationMark || c = backslash || c = '/' then some c
  else if c = 'b' then some '\x08'
  else if c = 'f' then some '\x0c'
  else if c = 'n' then some '\n'
  else if c = 'r' then some '\r'
  else if c = 't' then some '\t'
  else none

/-- Codes read in front of the ones that a later part gives. -/
def withCodes (codes : List Nat) (r : Except JsonFault (List Nat × List Char)) :
    Except JsonFault (List Nat × List Char) :=
  r.map fun (later, behind) => (codes ++ later, behind)

/-- Reads the inside of a string up to the closing mark: the codes of its characters and the text
behind the mark.  A high surrogate that still waits for its partner is in `waiting`. -/
def readCodes (strict : Bool) (waiting : Option Nat) :
    List Char → Except JsonFault (List Nat × List Char)
  | [] => .error .malformed
  | c :: rest =>
      if c = backslash then
        match rest with
        | [] => .error .malformed
        | e :: rest =>
            if e = 'u' then
              match rest with
              | h₁ :: h₂ :: h₃ :: h₄ :: rest =>
                  match hexNumber? h₁ h₂ h₃ h₄, waiting with
                  | none, _ => .error .malformed
                  | some n, some high =>
                      if isLowSurrogate n then
                        withCodes [surrogatePair high n] (readCodes strict none rest)
                      else if strict then .error .malformed
                      else if isHighSurrogate n then
                        withCodes [high] (readCodes strict (some n) rest)
                      else withCodes [high, n] (readCodes strict none rest)
                  | some n, none =>
                      if isHighSurrogate n then readCodes strict (some n) rest
                      else if strict && isLowSurrogate n then .error .malformed
                      else withCodes [n] (readCodes strict none rest)
              | _ => .error .malformed
            else
              match shortEscape? e with
              | none => .error .malformed
              | some escaped =>
                  if strict && waiting.isSome then .error .malformed
                  else withCodes (waiting.toList ++ [escaped.toNat]) (readCodes strict none rest)
      else if strict && waiting.isSome then .error .malformed
      else if c = quotationMark then .ok (waiting.toList, rest)
      else if strict && c.toNat < 0x20 then .error .malformed
      else withCodes (waiting.toList ++ [c.toNat]) (readCodes strict none rest)

/-- Reads a text behind its opening mark. -/
def readText (cs : List Char) : Except JsonFault (List Char × List Char) :=
  (readCodes true none cs).map fun (codes, behind) => (codes.map Char.ofNat, behind)

/-- The bytes of a code, which may be a surrogate. -/
def codeBytes (n : Nat) : List UInt8 :=
  if isHighSurrogate n || isLowSurrogate n then
    [UInt8.ofNat (0xe0 + n / 4096), UInt8.ofNat (0x80 + n / 64 % 64), UInt8.ofNat (0x80 + n % 64)]
  else String.utf8EncodeChar (Char.ofNat n)

/-- Reads a byte string behind its opening mark. -/
def readRaw (cs : List Char) : Except JsonFault (List UInt8 × List Char) :=
  (readCodes false none cs).map fun (codes, behind) => (codes.flatMap codeBytes, behind)

end SegmentedText
