import SegmentedText.World.Query

/-!
# Making and deriving objects

New objects are put into registers.  What a register held before lives until the
new object is there.
-/

set_option autoImplicit false

namespace SegmentedText

/-- Seen as an object. -/
def asObject {β α : Type} (f : β → Object) (r : β × Store α) : Object × Store α := (f r.1, r.2)

variable {α : Type} [TextUnit α]

/-- Appends segments of their own for the given parts; a part without text is left out. -/
def appendParts (b : Buffer) : List String → Store α → Except Fault (Buffer × Store α)
  | [], st => .ok (b, st)
  | part :: rest, st =>
      let (s, st) := Segment.ofUnits (TextUnit.unitsOf part) st
      match b.appendSegment s with
      | .ok b => appendParts b rest st
      | .error fault => .error fault

/-- Makes an object from its arguments alone. -/
def Make.run (st : Store α) : Make → Except Fault (Object × Store α)
  | .segment => .ok (asObject .segment (Segment.empty st))
  | .segmentWithCapacity capacity =>
      (Segment.withCapacity capacity st).map (asObject .segment)
  | .segmentOfUnits text => .ok (asObject .segment (Segment.ofUnits (TextUnit.unitsOf text) st))
  | .segmentOfArray text capacity =>
      (Segment.withRoom (TextUnit.unitsOf text) capacity st).map (asObject .segment)
  | .segmentOfText text => .ok (asObject .segment (Segment.ofText text st))
  | .buffer layout => .ok (.buffer (Buffer.ofLayout layout), st)
  | .bufferWithCapacity capacity => (Buffer.withCapacity capacity st).map (asObject .buffer)
  | .bufferOfUnits text => .ok (asObject .buffer (Buffer.ofUnits (TextUnit.unitsOf text) st))
  | .bufferOfArray text capacity =>
      (Buffer.withRoom (TextUnit.unitsOf text) capacity st).map (asObject .buffer)
  | .bufferOfText text => .ok (asObject .buffer (Buffer.ofText text st))
  | .bufferOfEach text =>
      let r := Buffer.ofEach (TextUnit.unitsOf text) st
      r.answer.map fun _ => (.buffer r.object, r.store)
  | .bufferOfParts parts layout =>
      (appendParts (Buffer.ofLayout layout) parts st).map (asObject .buffer)
  | .bounded maxSize layout => .ok (.bounded (Bounded.ofLayout layout maxSize), st)

/-- Derives an object from another.  A place that the object does not have gives none. -/
def Derive.run (st : Store α) (o : Object) : Derive → Option (Except Fault (Object × Store α))
  | .substring start stop =>
      match o with
      | .segment s => some ((s.substring start stop st).map (asObject .segment))
      | .buffer b | .bounded ⟨b, _, _⟩ =>
          some ((b.substring start stop).map fun part => (.buffer part, st))
  | .substringFrom start =>
      match o with
      | .segment s => some ((s.substringFrom start st).map (asObject .segment))
      | .buffer b | .bounded ⟨b, _, _⟩ =>
          some ((b.substringFrom start).map fun part => (.buffer part, st))
  | .copy =>
      match o with
      | .segment s => some (.ok (asObject .segment (s.compact st)))
      | .buffer b | .bounded ⟨b, _, _⟩ => some (.ok (asObject .buffer (b.copy st)))
  | .shared => some (.ok (o.shared, st))
  | .segmentAt i => (o.segmentAt? i).map fun s => .ok (.segment s.shared, st)

/-- The pieces of an object between separators. -/
def Object.split (o : Object) (c : Char) (st : Store α) : List Object × Store α :=
  match o with
  | .segment s =>
      let (pieces, st) := s.split (TextUnit.ofChar c) st
      (pieces.map .segment, st)
  | .buffer b | .bounded ⟨b, _, _⟩ => ((b.split (TextUnit.ofChar c) st).map .buffer, st)

namespace World

/-- Puts pieces into numbered registers. -/
def putPieces (w : World α) (name : String) : Nat → List Object → World α
  | _, [] => w
  | i, piece :: rest => (w.put (name ++ toString i) piece).putPieces name (i + 1) rest

/-- Makes an object in a register. -/
def make (w : World α) (dest : String) (what : Make) : World α × Answer :=
  match what.run w.store with
  | .ok (object, st) => ((w.withStore st).put dest object, .done)
  | .error fault => (w, .fault fault)

/-- Makes a buffer of a segment in another register. -/
def ofSegment (w : World α) (dest source : String) (move : Bool) : World α × Answer :=
  match w.takeSegment? source move with
  | some (s, w) => (w.put dest (.buffer (Buffer.ofSegment s)), .done)
  | none => (w, .malformed)

/-- Turns a buffer into a bounded one. -/
def bound (w : World α) (dest source : String) (maxSize : Nat) : World α × Answer :=
  match w.takeBuffer? source true with
  | some (b, rest) =>
      (rest.put dest (.bounded (Bounded.ofBuffer b maxSize rest.surroundings)), .done)
  | none => (w, .malformed)

/-- Turns a bounded buffer into the buffer that it holds. -/
def unbound (w : World α) (source dest : String) : World α × Answer :=
  match w.take? source with
  | some (.bounded b, rest) => (rest.put dest (.buffer b.inner), .done)
  | _ => (w, .malformed)

/-- Puts a buffer that has been read into a register, or answers why it has not. -/
def putRead {ε : Type} (w : World α) (dest : String) (refuse : ε → Answer)
    (r : Except ε (Buffer × Store α)) : World α × Answer :=
  match r with
  | .ok (b, st) => ((w.withStore st).put dest (.buffer b), .done)
  | .error e => (w, refuse e)

/-- Derives an object from the one in a register. -/
def derive (w : World α) (source dest : String) (what : Derive) : World α × Answer :=
  match (w.get? source).bind (what.run w.store) with
  | some (.ok (object, st)) => ((w.withStore st).put dest object, .done)
  | some (.error fault) => (w, .fault fault)
  | none => (w, .malformed)

/-- Splits the object in a register; the pieces are kept if a name is given for them. -/
def split (w : World α) (source : String) (c : Char) (dest : Option String) : World α × Answer :=
  match w.get? source with
  | none => (w, .malformed)
  | some object =>
      let (pieces, st) := object.split c w.store
      let w := w.withStore st
      let answer := Answer.dumps (pieces.map (·.dump st))
      match dest with
      | some name => (w.putPieces name 0 pieces, answer)
      | none => (w, answer)

end World
end SegmentedText
