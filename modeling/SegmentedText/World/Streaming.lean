import SegmentedText.Stream.Drain
import SegmentedText.Stream.Reader
import SegmentedText.Stream.Writer
import SegmentedText.World.Query

/-!
# Objects as streams

While an object is read, written to or drained, it is out of the table and its
windows are set aside.  Reading may fill buffers in other registers, and writing
may show the objects of other registers.  A use that is refused ends the step; what
was read or written before it stays, but the object itself does not come back to its
register.
-/

set_option autoImplicit false

namespace SegmentedText

variable {α : Type} [TextUnit α]

/-- What is kept of work that was handed over, if it was. -/
def notedPriorities : Handover → List Priority
  | none => []
  | some (scheduler, priority) => scheduler.noted priority

namespace World

/-! ## Reading -/

/-- Appends to the buffer in a register, which is made if there is none. -/
def readIntoSink (w : World α) (r : Reader α) (delimiter : α) (sink : String) :
    Reader α × World α × Except Fault ReadOutcome :=
  let taken := match w.take? sink with
    | some (.buffer b, rest) => some (b, rest)
    | some _ => none
    | none => some ({}, w)
  match taken with
  | none => (r, w, .ok .malformed)
  | some (b, rest) =>
      let (r, poured) := r.readUntil delimiter rest.surroundings b rest.store
      (r, (rest.withStore poured.store).put sink (.buffer poured.object),
        poured.answer.map .found)

/-- Fills a destination of the given size from a reader. -/
def readDestination (w : World α) (r : Reader α) (size : Nat) :
    Reader α × Except Fault ReadOutcome :=
  match emptyDestination size with
  | .error fault => (r, .error fault)
  | .ok destination =>
      match r.readInto destination w.store with
      | (.ok count, destination, r) => (r, .ok (.filled (TextUnit.textOf destination) count))
      | (.error signal, _, r) => (r, .ok (.endOfData signal))

/-- One use of a reader. -/
def readOne (w : World α) (r : Reader α) :
    ReadAction → Reader α × World α × Except Fault ReadOutcome
  | .read _ =>
      match r.read w.store with
      | (.ok u, r) => (r, w, .ok (.unit (unitText u)))
      | (.error signal, r) => (r, w, .ok (.endOfData signal))
  | .readInto size _ =>
      let (r, outcome) := w.readDestination r size
      (r, w, outcome)
  | .back c => (r.back (TextUnit.ofChar c), w, .ok .done)
  | .remaining => (r, w, .ok (.number r.remaining))
  | .sizeHint => (r, w, .ok (.hint r.sizeHint.1 r.sizeHint.2))
  | .take count =>
      let (units, r) := r.take w.store count
      (r, w, .ok (.text (TextUnit.textOf units)))
  | .rest =>
      let (units, r) := r.rest w.store
      (r, w, .ok (.text (TextUnit.textOf units)))
  | .readUntil c sink _ => w.readIntoSink r (TextUnit.ofChar c) sink

/-- The priorities that one use of a reader hands over. -/
def notedBy : ReadAction → List Priority
  | .read handover | .readInto _ handover | .readUntil _ _ handover => notedPriorities handover
  | _ => []

/-- Uses a reader several times.  A use that is refused is the last one, and nothing is told of
those before it. -/
def readAll (w : World α) (r : Reader α) :
    List ReadAction → World α × Except Fault (List Priority × List ReadOutcome)
  | [] => (w, .ok ([], []))
  | action :: rest =>
      match w.readOne r action with
      | (_, w, .error fault) => (w, .error fault)
      | (r, w, .ok outcome) =>
          let (w, told) := w.readAll r rest
          (w, told.map fun (priorities, outcomes) =>
            (notedBy action ++ priorities, outcome :: outcomes))

/-- Reads the object in a register, which does not get it back when a use is refused. -/
def read (w : World α) (source : String) (actions : List ReadAction) : World α × Answer :=
  match w.take? source with
  | none => (w, .malformed)
  | some (object, rest) =>
      match object.buffer? with
      | none => (w, .malformed)
      | some b =>
          let (used, told) :=
            { rest with aside := object.segments ++ rest.aside }.readAll (.ofBuffer b) actions
          let left := { used with aside := rest.aside }
          match told with
          | .ok (priorities, outcomes) => (left.put source object, .reading priorities outcomes)
          | .error fault => (left, .fault fault)

/-! ## Writing -/

/-- One use of a writer; nothing comes of one that names no object. -/
def writeOne (w : World α) (writer : Writer) (st : Store α) :
    WriteAction → Option (Edited Writer α Unit)
  | .write c => some (writer.write w.surroundings (TextUnit.ofChar c) st)
  | .writeSlice text => some (writer.writeSlice w.surroundings (TextUnit.unitsOf text) st)
  | .writeText text => some (writer.writeText w.surroundings text st)
  | .flush => some ⟨writer.flush, st, .ok ()⟩
  | .showObject source => do
      let o ← w.get? source
      return writer.showSegments w.surroundings o.segments st
  | .writeObjectChars source => do
      let o ← w.get? source
      return writer.writeChars w.surroundings ((o.content st).map TextUnit.toChar) st
  | .writeChars text => some (writer.writeChars w.surroundings text.toList st)

/-- Uses a writer several times: the numbers of units written after each use.  A use that is
refused, or that names no object, is the last one and gives the answer. -/
def writeAll (w : World α) (writer : Writer) (st : Store α) :
    List WriteAction → Writer × Store α × Except Answer (List Nat)
  | [] => (writer, st, .ok [])
  | action :: rest =>
      match w.writeOne writer st action with
      | none => (writer, st, .error .malformed)
      | some r =>
          match r.answer with
          | .error fault => (r.object, r.store, .error (.fault fault))
          | .ok () =>
              let (writer, st, counts) := w.writeAll r.object r.store rest
              (writer, st, counts.map (r.object.written :: ·))

/-- Writes to the buffer in a register, which does not get it back when a use is refused. -/
def write (w : World α) (target : String) (actions : List WriteAction) : World α × Answer :=
  match w.take? target with
  | some (.buffer b, rest) =>
      let (writer, st, counts) := rest.writeAll ⟨b, 0⟩ rest.store actions
      let left := rest.withStore st
      match counts with
      | .ok counts => (left.put target (.buffer writer.buffer), .writing counts)
      | .error (.fault fault) => (left, .fault fault)
      | .error answer => (left.put target (.buffer writer.buffer), answer)
  | _ => (w, .malformed)

/-! ## Draining -/

/-- The outcome of a run, given the wording of the sink's errors. -/
def drainOutcome {ε : Type} (describe : ε → String) :
    Except (DrainError ε) Nat → DrainOutcome
  | .ok bytes => .written bytes
  | .error (.encoding error) => .encodingFailed ((DrainError.encoding error).message describe)
  | .error (.sink error) => .sinkFailed ((DrainError.sink error).message describe)

/-- Drains a buffer several times with the same encoder and sink. -/
def drainTimes {σ κ ε : Type} (encoder : Encoder α σ) (sink : Sink κ ε) (describe : ε → String)
    (job : DrainJob) (b : Buffer) (st : Store α) :
    Nat → σ → κ → σ × κ × List Priority × List DrainOutcome
  | 0, state, kept => (state, kept, [], [])
  | times + 1, state, kept =>
      let run := drain encoder sink job.priority b st state kept
      let noted := run.priorities.flatMap job.scheduler.noted
      let (state, kept, priorities, outcomes) :=
        drainTimes encoder sink describe job b st times run.encoder run.sink
      (state, kept, noted ++ priorities, drainOutcome describe run.result :: outcomes)

/-- Drains a buffer with a given encoder; `trace` reads a record off the state of the encoder. -/
def drainWith {σ : Type} (encoder : Encoder α σ)
    (trace : σ → Option (List (List α × Bool))) (job : DrainJob) (b : Buffer) (st : Store α) :
    Answer :=
  let shown (state : σ) : Option (List (String × Bool)) :=
    (trace state).map fun windows =>
      windows.map fun entry => (TextUnit.textOf entry.1, entry.2)
  match job.budget with
  | none =>
      let (state, kept, priorities, outcomes) :=
        drainTimes encoder .collecting (fun e => nomatch e) job b st job.times encoder.fresh {}
      .draining priorities outcomes (.collected kept) (shown state)
  | some budget =>
      let (state, kept, priorities, outcomes) :=
        drainTimes encoder (.limited budget) SinkFull.message job b st job.times encoder.fresh []
      .draining priorities outcomes (.chunks kept) (shown state)

/-- Drains the object in a register. -/
def drainObject (w : World α) (source : String) (job : DrainJob) : Answer :=
  match (w.get? source).bind Object.buffer? with
  | none => .malformed
  | some b =>
      match job.encoder with
      | .utf8 => drainWith Encoder.utf8 (fun _ => none) job b w.store
      | .single charset strict =>
          drainWith (Encoder.singleByte charset strict) (fun _ => none) job b w.store
      | .traced => drainWith Encoder.utf8.traced (fun state => some state.2) job b w.store

end World
end SegmentedText
