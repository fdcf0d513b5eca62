import SegmentedText.Buffer.Basic
import SegmentedText.Stream.Charset
import SegmentedText.Stream.Priority
import SegmentedText.Stream.Sink

/-!
# Draining a buffer into a sink

A buffer is drained window by window: each window is encoded as a piece of work of
its own, and the chunk that comes of it is handed to the sink before the next
window is touched.  An empty chunk is not handed over.  The first failure, of the
encoder or of the sink, ends the run.

The result of a run holds the states in which it leaves encoder and sink, so that
a later run can go on with them, and a log of what happened in order.
-/

set_option autoImplicit false

namespace SegmentedText

/-- Why a run ended early. -/
inductive DrainError (ε : Type) where
  | encoding (error : EncodingError)
  | sink (error : ε)
  deriving Repr, DecidableEq

/-- The wording of a failure, given that of the sink's errors. -/
def DrainError.message {ε : Type} (describe : ε → String) : DrainError ε → String
  | .encoding error => "encoding error: " ++ error.message
  | .sink error => "sink error: " ++ describe error

/-- What happens in a run. -/
inductive DrainEvent (α : Type) where
  /-- Work was handed over with a priority. -/
  | scheduled (priority : Priority)
  /-- A window was given to the encoder, with the flag that marks the last one. -/
  | encoded (window : List α) (last : Bool)
  /-- A chunk was given to the sink. -/
  | offered (chunk : List UInt8)
  deriving Repr, DecidableEq

/-- The outcome of a run. -/
structure Drained (α σ κ ε : Type) where
  encoder : σ
  sink : κ
  log : List (DrainEvent α)
  /-- The number of bytes written, or the failure that ended the run. -/
  result : Except (DrainError ε) Nat

namespace Drained

variable {α σ κ ε : Type}

/-- The priorities that were handed over, in order. -/
def priorities (run : Drained α σ κ ε) : List Priority :=
  run.log.filterMap fun
    | .scheduled priority => some priority
    | _ => none

/-- The same run with something logged before it. -/
def after (run : Drained α σ κ ε) (events : List (DrainEvent α)) : Drained α σ κ ε :=
  { run with log := events ++ run.log }

end Drained

variable {α σ κ ε : Type}

/-- Drains windows with `written` bytes written before them. -/
def drainWindows (encoder : Encoder α σ) (sink : Sink κ ε) (priority : Priority) :
    List (List α) → σ → κ → Nat → Drained α σ κ ε
  | [], state, kept, written => ⟨state, kept, [], .ok written⟩
  | window :: rest, state, kept, written =>
      let events := [.scheduled priority, .encoded window rest.isEmpty]
      match encoder.encode state window rest.isEmpty with
      | (state, .error error) => ⟨state, kept, events, .error (.encoding error)⟩
      | (state, .ok chunk) =>
          if chunk.isEmpty then
            (drainWindows encoder sink priority rest state kept written).after events
          else
            match sink.accept kept chunk with
            | (kept, .ok ()) =>
                (drainWindows encoder sink priority rest state kept
                  (written + chunk.length)).after (events ++ [.offered chunk])
            | (kept, .error error) =>
                ⟨state, kept, events ++ [.offered chunk], .error (.sink error)⟩

/-- Drains a buffer. -/
def drain (encoder : Encoder α σ) (sink : Sink κ ε) (priority : Priority) (b : Buffer)
    (st : Store α) (state : σ) (kept : κ) : Drained α σ κ ε :=
  drainWindows encoder sink priority (b.windows st) state kept 0

end SegmentedText
