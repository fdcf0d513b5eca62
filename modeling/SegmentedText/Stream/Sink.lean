/-!
# Sinks of bytes

A sink takes chunks of bytes one after the other and may refuse one.  It is given
by its state and by what a chunk does to that; so a sink can decide by everything
that it has seen before.
-/

set_option autoImplicit false

namespace SegmentedText

/-- A sink with states of type `κ` that refuses a chunk with an error of type `ε`. -/
structure Sink (κ ε : Type) where
  accept : κ → List UInt8 → κ × Except ε Unit

/-! ## A sink that never refuses -/

/-- The bytes collected, and the number of chunks in which they came. -/
structure Collected where
  bytes : List UInt8 := []
  writes : Nat := 0
  deriving Repr, DecidableEq

/-- The sink that keeps every byte. -/
def Sink.collecting : Sink Collected Empty where
  accept kept chunk := (⟨kept.bytes ++ chunk, kept.writes + 1⟩, .ok ())

/-! ## A sink of limited room -/

/-- The sink has taken all the chunks that it has room for. -/
inductive SinkFull where
  | diskFull
  deriving Repr, DecidableEq

def SinkFull.message : SinkFull → String
  | .diskFull => "disk full"

/-- The sink that takes `budget` chunks in all and refuses every later one. -/
def Sink.limited (budget : Nat) : Sink (List (List UInt8)) SinkFull where
  accept chunks chunk :=
    if chunks.length < budget then (chunks ++ [chunk], .ok ()) else (chunks, .error .diskFull)

end SegmentedText
