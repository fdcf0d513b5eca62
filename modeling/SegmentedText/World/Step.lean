import SegmentedText.Serial
import SegmentedText.Stream.Charset
import SegmentedText.Stream.Priority
import SegmentedText.Stream.Sink
import SegmentedText.World.Basic

/-!
# Steps and answers

A step is one request to a world, with registers named and texts given as text.
The kinds of step are making objects, asking about them, deriving new objects from
them, changing them, and using them as streams; and any step can be run while a
window is lent out.

Every step has an answer.  A step that does not fit the registers, for want of an
object or of one of the right kind, is malformed and changes nothing.
-/

set_option autoImplicit false

namespace SegmentedText

/-! ## Making -/

/-- What is made from nothing but its arguments. -/
inductive Make where
  | segment
  | segmentWithCapacity (capacity : Nat)
  | segmentOfUnits (text : String)
  | segmentOfArray (text : String) (capacity : Nat)
  | segmentOfText (text : String)
  | buffer (layout : Layout)
  | bufferWithCapacity (capacity : Nat)
  | bufferOfUnits (text : String)
  | bufferOfArray (text : String) (capacity : Nat)
  | bufferOfText (text : String)
  | bufferOfEach (text : String)
  | bufferOfParts (parts : List String) (layout : Layout)
  | bounded (maxSize : Nat) (layout : Layout)
  deriving Repr, DecidableEq

/-! ## Asking -/

/-- A question that changes nothing.  Those about one of several segments give its place. -/
inductive Query where
  | length
  | isEmpty
  | unitAt (i : Nat)
  | first
  | last
  | indexOf (c : Char) (start : Nat)
  | indexOfSlice (text : String) (start : Nat)
  | contains (text : String)
  | startsWith (text : String)
  | endsWith (text : String)
  | toUnits
  | display
  | inspect (tall : Bool)
  | fill (size : Nat)
  | equalsText (text : String)
  | equals (other : String)
  | sharesStorage (i : Nat) (other : String) (j : Nat)
  | capacity (i : Nat)
  | spare (i : Nat)
  | segmentCount
  | hasNoSegments
  | units
  | windows
  | layout
  | json
  | budget
  | converted (target : UnitKind)
  | findBytes (text : String) (start : Nat)
  | asBytes
  deriving Repr, DecidableEq

/-! ## Deriving -/

/-- A new object over the cells of another, or a copy of them. -/
inductive Derive where
  | substring (start stop : Nat)
  | substringFrom (start : Nat)
  | copy
  | shared
  | segmentAt (i : Nat)
  deriving Repr, DecidableEq

/-! ## Changing -/

/-- The way in which a text becomes a buffer. -/
inductive TextForm where
  | text
  | units
  deriving Repr, DecidableEq

/-- What is put into a range: the buffer of a register, or a text. -/
inductive Replacement where
  | register (name : String) (move : Bool)
  | text (text : String) (form : TextForm)
  deriving Repr, DecidableEq

/-- Where the values of a substitution come from. -/
inductive Values where
  /-- The value of the table for the enclosed text, or else a pattern around that. -/
  | table (entries : List (String × String)) (fallback : String) (form : TextForm)
  /-- The enclosed text itself. -/
  | same
  /-- The buffer of a register. -/
  | register (name : String)
  deriving Repr, DecidableEq

/-- A change of an object. -/
inductive Change where
  | append (c : Char)
  | appendSlice (text : String)
  | appendText (text : String)
  | extend (text : String)
  | appendSegment (source : String) (move : Bool)
  | appendBuffer (source : String)
  | appendOwned (source : String)
  | appendWindow (source : String) (i : Nat)
  | prepend (c : Char)
  | prependSegment (source : String) (move : Bool)
  | setAt (i : Nat) (c : Char)
  | replaceUnit (old new : Char)
  | lowerCase
  | upperCase
  | removeStart (count : Nat)
  | removeEnd (count : Nat)
  | moveForward (count : Nat)
  | trimStart
  | trimEnd
  | trim
  | compact
  | reserve (additional : Nat)
  | clear
  | replaceRange (start stop : Nat) (replacement : Replacement)
  | replaceAll (search text : String)
  | substitute (opening closing : String) (values : Values)
  deriving Repr, DecidableEq

/-! ## Streams -/

/-- How a read is handed over: at once, or as work with a priority. -/
abbrev Handover := Option (Scheduler × Priority)

/-- A use of a reader. -/
inductive ReadAction where
  | read (handover : Handover)
  | readInto (size : Nat) (handover : Handover)
  | back (c : Char)
  | remaining
  | sizeHint
  | take (count : Nat)
  | rest
  | readUntil (c : Char) (sink : String) (handover : Handover)
  deriving Repr, DecidableEq

/-- A use of a writer. -/
inductive WriteAction where
  | write (c : Char)
  | writeSlice (text : String)
  | writeText (text : String)
  | flush
  /-- Shows the object of a register into the buffer. -/
  | showObject (source : String)
  /-- Shows the object of a register as a text first, and writes that character by character. -/
  | writeObjectChars (source : String)
  | writeChars (text : String)
  deriving Repr, DecidableEq

/-- Which encoder drains a buffer. -/
inductive EncoderChoice where
  | utf8
  | single (charset : Charset) (strict : Bool)
  /-- UTF-8, with a record of what the encoder was given. -/
  | traced
  deriving Repr, DecidableEq

/-- How a buffer is drained. -/
structure DrainJob where
  encoder : EncoderChoice
  /-- The number of runs with the same encoder and sink. -/
  times : Nat := 1
  priority : Priority := .normal
  scheduler : Scheduler := .recording
  /-- The number of chunks that the sink takes, if it is limited. -/
  budget : Option Nat := none
  deriving Repr, DecidableEq

/-! ## Steps -/

/-- One request to a world. -/
inductive Step where
  | make (dest : String) (what : Make)
  | ofSegment (dest source : String) (move : Bool)
  | bound (dest source : String) (maxSize : Nat)
  | unbound (source dest : String)
  | ofJson (dest json : String)
  | ofValue (dest : String) (value : SerialValue)
  | ask (source : String) (query : Query)
  | derive (source dest : String) (what : Derive)
  | split (source : String) (c : Char) (dest : Option String)
  | change (target : String) (change : Change)
  | drop (target : String)
  | read (source : String) (actions : List ReadAction)
  | write (target : String) (actions : List WriteAction)
  | drain (source : String) (job : DrainJob)
  /-- Runs a step while a window of an object is lent out. -/
  | lend (source : String) (i : Nat) (step : Step)
  deriving Repr, DecidableEq

/-! ## Answers -/

/-- What became of the bytes of a drained buffer. -/
inductive SinkDump where
  | collected (kept : Collected)
  | chunks (kept : List (List UInt8))
  deriving Repr, DecidableEq

/-- The outcome of one run that drains a buffer. -/
inductive DrainOutcome where
  | written (bytes : Nat)
  | encodingFailed (message : String)
  | sinkFailed (message : String)
  deriving Repr, DecidableEq

/-- The outcome of one use of a reader. -/
inductive ReadOutcome where
  | done
  | unit (text : String)
  | filled (text : String) (count : Nat)
  | number (n : Nat)
  | hint (low : Nat) (high : Option Nat)
  | text (text : String)
  | found (found : Bool)
  | endOfData (signal : EndOfData)
  | malformed
  deriving Repr, DecidableEq

/-- The answer to a step. -/
inductive Answer where
  | done
  | flag (b : Bool)
  | number (n : Nat)
  | place (n : Option Nat)
  | text (text : String)
  | unit (text : Option String)
  | texts (texts : List String)
  | layout (layout : Layout)
  | budget (full : Bool) (maxSize remaining size : Nat)
  | filled (text : String) (count : Nat)
  | dump (shown : Dump)
  | dumps (shown : List Dump)
  | reading (priorities : List Priority) (results : List ReadOutcome)
  | writing (written : List Nat)
  | draining (priorities : List Priority) (results : List DrainOutcome) (sink : SinkDump)
      (trace : Option (List (String × Bool)))
  | fault (fault : Fault)
  | jsonFault (fault : JsonFault)
  | serialError (error : SerialError)
  | malformed
  deriving Repr, DecidableEq

end SegmentedText
