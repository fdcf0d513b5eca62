import SegmentedText.World.Changing
import SegmentedText.World.Making
import SegmentedText.World.Streaming

/-!
# Running steps

A step takes a world to the next and gives an answer.  A run takes a list of steps
one after the other.

While a window is lent out, the object it belongs to is out of the table and its
windows are set aside; they are alive, and their arrays are not written in place.
-/

set_option autoImplicit false

namespace SegmentedText
namespace World

variable {α : Type} [TextUnit α]

/-- Removes a register. -/
def drop (w : World α) (target : String) : World α × Answer :=
  match w.get? target with
  | some _ => (w.erase target, .done)
  | none => (w, .malformed)

/-- Runs one step. -/
def step (w : World α) : Step → World α × Answer
  | .make dest what => w.make dest what
  | .ofSegment dest source move => w.ofSegment dest source move
  | .bound dest source maxSize => w.bound dest source maxSize
  | .unbound source dest => w.unbound source dest
  | .ofJson dest json => w.putRead dest .jsonFault (Buffer.ofJson .standard json w.store)
  | .ofValue dest value => w.putRead dest .serialError (Buffer.ofValue value w.store)
  | .ask source query => (w, w.ask source query)
  | .derive source dest what => w.derive source dest what
  | .split source c dest => w.split source c dest
  | .change target change => w.change target change
  | .drop target => w.drop target
  | .read source actions => w.read source actions
  | .write target actions => w.write target actions
  | .drain source job => (w, w.drainObject source job)
  | .lend source i inner =>
      match w.take? source with
      | none => (w, .malformed)
      | some (object, rest) =>
          match object.segmentAt? i with
          | none => (w, .malformed)
          | some s =>
              let (after, answer) := { rest with
                aside := object.segments ++ rest.aside
                lent := s.storage :: rest.lent }.step inner
              ({ after with aside := rest.aside, lent := rest.lent }.put source object, answer)

/-- Runs steps one after the other: the answers, each with the registers that have changed. -/
def run (w : World α) : List Step → List (Answer × List (String × Option Dump))
  | [] => []
  | s :: rest =>
      let before := w.dump
      let (w, answer) := w.step s
      (answer, dumpChanges before w.dump) :: w.run rest

end World
end SegmentedText
