import SegmentedText.World.Step

/-!
# Answering questions

A question is answered from the object and the store, and leaves both as they are.
A bounded buffer answers as the buffer that it holds, but is inspected under its own
name and knows its budget.
-/

set_option autoImplicit false

namespace SegmentedText

/-- The answer of an operation that may be refused. -/
def Answer.ofExcept {β : Type} (answer : β → Answer) : Except Fault β → Answer
  | .ok value => answer value
  | .error refusal => .fault refusal

namespace World

variable {α : Type} [TextUnit α]

/-- The text of one unit. -/
def unitText (u : α) : String := TextUnit.textOf [u]

/-- A destination of the given size that nothing has been copied to. -/
def emptyDestination (size : Nat) : Except Fault (List α) :=
  if fitsMemory (TextUnit.kind α).width size then .ok (List.replicate size (TextUnit.ofChar '-'))
  else .error .roomExceeded

/-- The answer to a copy into an empty destination. -/
def fillAnswer (size : Nat) (fill : List α → Except Fault (List α × Nat)) : Answer :=
  .ofExcept (fun r => .filled (TextUnit.textOf r.1) r.2) ((emptyDestination size).bind fill)

/-- The dump of a segment after its conversion to another kind of unit. -/
def convertedDump (s : Segment) (st : Store α) : UnitKind → Dump
  | .text =>
      let (t, target) : Segment × Store Char := s.convert st {}
      .segment (t.dump target)
  | .latin1 =>
      let (t, target) : Segment × Store UInt8 := s.convert st {}
      .segment (t.dump target)

/-- Answers a question about one of the segments of an object. -/
def askPlace (w : World α) (o : Object) : Query → Answer
  | .capacity i =>
      match o.segmentAt? i with
      | some s => .number s.capacity
      | none => .malformed
  | .spare i =>
      match o.segmentAt? i with
      | some s => .number s.spare
      | none => .malformed
  | .sharesStorage i other j =>
      match o.segmentAt? i, (w.get? other).bind (·.segmentAt? j) with
      | some s, some t => .flag (s.sharesStorage t)
      | _, _ => .malformed
  | _ => .malformed

/-- Answers a question about a segment. -/
def askSegment (w : World α) (s : Segment) (query : Query) : Answer :=
  let st := w.store
  match query with
  | .length => .number s.length
  | .isEmpty => .flag s.isEmpty
  | .unitAt i => .ofExcept (fun u => .unit (some (unitText u))) (s.unitAt i st)
  | .first => .unit ((s.first? st).map unitText)
  | .last => .unit ((s.last? st).map unitText)
  | .indexOf c start => .place (s.indexOf (TextUnit.ofChar c) start st)
  | .indexOfSlice text start => .place (s.indexOfSlice (TextUnit.unitsOf text) start st)
  | .contains text => .flag (s.contains (TextUnit.unitsOf text) st)
  | .startsWith text => .flag (s.startsWith (TextUnit.unitsOf text) st)
  | .endsWith text => .flag (s.endsWith (TextUnit.unitsOf text) st)
  | .toUnits => .text (TextUnit.textOf (s.content st))
  | .display => .text (s.display st)
  | .inspect _ => .text (s.inspect st)
  | .fill size => fillAnswer size (s.fill · st)
  | .equalsText text => .flag (s.showsText text st)
  | .equals other =>
      match (w.get? other).bind Object.segment? with
      | some t => .flag (s.sameContent t st)
      | none => .malformed
  | .converted target => .dump (convertedDump s st target)
  | .findBytes text start => .place (s.findBytes (TextUnit.unitsOf text) start st)
  | .asBytes => .text (TextUnit.textOf (s.content st))
  | query => w.askPlace (.segment s) query

/-- Answers a question about a buffer. -/
def askBuffer (w : World α) (b : Buffer) (query : Query) : Answer :=
  let st := w.store
  match query with
  | .length => .number b.length
  | .isEmpty => .flag b.isEmpty
  | .unitAt i => .ofExcept (fun u => .unit (some (unitText u))) (b.unitAt i st)
  | .first => .unit ((b.first? st).map unitText)
  | .last => .unit ((b.last? st).map unitText)
  | .indexOf c start => .place (b.indexOf (TextUnit.ofChar c) start st)
  | .indexOfSlice text start => .place (b.indexOfSlice (TextUnit.unitsOf text) start st)
  | .contains text => .flag (b.contains (TextUnit.unitsOf text) st)
  | .startsWith text => .flag (b.startsWith (TextUnit.unitsOf text) st)
  | .endsWith text => .flag (b.endsWith (TextUnit.unitsOf text) st)
  | .toUnits => .text (TextUnit.textOf (b.toUnits st))
  | .display => .text (b.display st)
  | .inspect tall =>
      .text (if tall then String.intercalate "\n" (b.inspectLines st) else b.inspect st)
  | .fill size => fillAnswer size (b.fill · st)
  | .equalsText text => .flag (b.showsText text st)
  | .equals other =>
      match (w.get? other).bind Object.buffer? with
      | some c => .flag (b.sameContent c st)
      | none => .malformed
  | .segmentCount => .number b.segmentCount
  | .hasNoSegments => .flag b.hasNoSegments
  | .units => .text (TextUnit.textOf (b.units st))
  | .windows => .texts ((b.windows st).map TextUnit.textOf)
  | .layout => .layout b.layout
  | .json => .text (b.toJson .standard st)
  | query => w.askPlace (.buffer b) query

/-- Answers a question about a bounded buffer. -/
def askBounded (w : World α) (b : Bounded) : Query → Answer
  | .inspect tall =>
      .text (if tall then String.intercalate "\n" (b.inspectLines w.store) else b.inspect w.store)
  | .budget =>
      .ofExcept (fun remaining => .budget b.isFull b.maxSize remaining b.size) b.remaining
  | query => w.askBuffer b.inner query

/-- Answers a question about the object in a register. -/
def ask (w : World α) (source : String) (query : Query) : Answer :=
  match w.get? source with
  | none => .malformed
  | some (.segment s) => w.askSegment s query
  | some (.buffer b) => w.askBuffer b query
  | some (.bounded b) => w.askBounded b query

end World
end SegmentedText
