import SegmentedText.Edit
import SegmentedText.Proofs.Flat.Distinct
import SegmentedText.Proofs.Flat.Questions
import SegmentedText.Proofs.Flat.Replacement
import SegmentedText.Proofs.Flat.Substitution

/-!
# Requests to a buffer and to a flat text

A request is an order, which changes a buffer, or a question about what it shows.  All
text that an order brings along is its own: chunks that are put into new arrays when the
order is carried out (`Chunk.makeAll`).  So the same request can be made of buffers in
different stores.

`Request.run` carries a request out on a buffer, and `Request.onText` says what it comes
to on a list of units, which has no segments and no layout.  Both give what is shown
afterwards and what is told.
-/

set_option autoImplicit false

namespace SegmentedText

variable {α : Type}

/-! ## Text that is brought along -/

/-- Units to be put into an array of their own, with room for as many as the capacity says. -/
structure Chunk (α : Type) where
  units : List α
  capacity : Nat := 0
  deriving Repr, DecidableEq

namespace Chunk

/-- The units of several chunks. -/
def text (chunks : List (Chunk α)) : List α := chunks.flatMap Chunk.units

variable [TextUnit α]

/-- A window over a new array for a chunk. -/
def make (chunk : Chunk α) (st : Store α) : Segment × Store α :=
  Segment.allocate chunk.units chunk.capacity st

/-- Windows over new arrays for several chunks, one after the other. -/
def makeAll : List (Chunk α) → Store α → List Segment × Store α
  | [], st => ([], st)
  | chunk :: chunks, st =>
      let (s, st) := chunk.make st
      let (others, st) := makeAll chunks st
      (s :: others, st)

/-- A buffer of chunks, each in a segment of its own. -/
def buffer (chunks : List (Chunk α)) (st : Store α) : Buffer × Store α :=
  let (segments, st) := makeAll chunks st
  ({ segmentList := .held segments }, st)

variable {st : Store α} {others : List Segment}

theorem undisturbed_makeAll (chunks : List (Chunk α)) (hosts : st.Hosts others) :
    Undisturbed others st (makeAll chunks st).1 (makeAll chunks st).2 := by
  induction chunks generalizing st others with
  | nil => exact .refl hosts
  | cons chunk chunks ih =>
      have first := undisturbed_allocate chunk.units chunk.capacity hosts
      exact first.trans ((ih first.hosts).frame.perm List.perm_append_comm)

theorem contentOf_makeAll (chunks : List (Chunk α)) (st : Store α) :
    contentOf (makeAll chunks st).1 (makeAll chunks st).2 = text chunks := by
  induction chunks generalizing st with
  | nil => rfl
  | cons chunk chunks ih =>
      have first := undisturbed_allocate chunk.units chunk.capacity (.nil st)
      have kept := (undisturbed_makeAll chunks first.hosts).content_eq List.mem_cons_self
      have shown := Segment.content_allocate chunk.units chunk.capacity st
      exact congr (congrArg _ (kept.trans shown)) (ih _)

theorem fresh_makeAll (chunks : List (Chunk α)) (st : Store α) : Fresh st (makeAll chunks st).1 := by
  induction chunks generalizing st with
  | nil => exact .nil st
  | cons chunk chunks ih => exact .cons_allocate (ih _)

end Chunk

/-! ## Orders and questions -/

/-- A change of a buffer that brings its own text along. -/
inductive Order (α : Type) where
  | append (u : α)
  | appendSlice (units : List α)
  | appendText (text : String)
  | extend (units : List α)
  | appendSegment (chunk : Chunk α)
  /-- Appends a buffer that is shared. -/
  | appendBuffer (chunks : List (Chunk α))
  /-- Appends a buffer that is used up. -/
  | appendOwned (chunks : List (Chunk α))
  | prepend (u : α)
  | prependSegment (chunk : Chunk α)
  | setAt (i : Nat) (u : α)
  | replaceUnit (old new : α)
  | lowerCase
  | upperCase
  | removeStart (count : Nat)
  | removeEnd (count : Nat)
  | trimStart
  | trimEnd
  | trim
  | compact
  | clear
  | replaceRange (start stop : Nat) (chunks : List (Chunk α))
  | replaceAll (search replacement : List α)
  /-- Substitutes values that are told by the number of the call and the enclosed text. -/
  | substitute (opening closing : List α) (values : Nat → List α → List (Chunk α))

/-- A question about the content of a buffer. -/
inductive Question (α : Type) where
  | unitAt (i : Nat)
  | indexOf (u : α) (start : Nat)
  | indexOfSlice (pattern : List α) (start : Nat)
  | startsWith (pattern : List α)
  | endsWith (pattern : List α)
  | contains (pattern : List α)
  | substring (start stop : Nat)
  | substringFrom (start : Nat)
  | split (separator : α)
  deriving Repr, DecidableEq

/-- An order or a question. -/
inductive Request (α : Type) where
  | order (order : Order α)
  | ask (question : Question α)

/-- What a request comes to.  Buffers are told by what they show. -/
inductive Told (α : Type) where
  | done
  | count (n : Nat)
  | unit (u : α)
  | place (place : Option Nat)
  | flag (b : Bool)
  | text (units : List α)
  | texts (texts : List (List α))
  deriving Repr, DecidableEq

/-- The reply to an edit, with buffers told by what they show. -/
def Reply.told (st : Store α) : Reply → Told α
  | .done => .done
  | .count n => .count n
  | .enclosed texts => .texts (texts.map (·.content st))

section

variable [TextUnit α]

/-- The provider of values that are made of chunks. -/
def chunkProvider (values : Nat → List α → List (Chunk α)) : Provider α :=
  fun n inner st => Chunk.buffer (values n (inner.content st)) st

theorem fair_chunkProvider (values : Nat → List α → List (Chunk α)) :
    (chunkProvider values).Fair [] := fun n inner st _ _ hosts =>
  Chunk.undisturbed_makeAll (values n (inner.content st)) hosts.right

theorem tells_chunkProvider (values : Nat → List α → List (Chunk α)) (origin : Store α) :
    (chunkProvider values).Tells origin [] fun n inner => Chunk.text (values n inner) :=
  fun n inner st _ _ _ _ => Chunk.contentOf_makeAll (values n (inner.content st)) st

/-! ## On a buffer -/

/-- The result of an edit, with what comes of it told. -/
def Edited.told (r : Edited Buffer α Reply) : Edited Buffer α (Told α) :=
  r.mapAnswer (Reply.told r.store)

/-- Carries an order out on a buffer. -/
def Order.run (b : Buffer) (around : Surroundings) (st : Store α) :
    Order α → Edited Buffer α (Told α)
  | .append u => (b.apply around st (.append u)).told
  | .appendSlice units => (b.apply around st (.appendSlice units)).told
  | .appendText text => (b.apply around st (.appendText text)).told
  | .extend units => (b.apply around st (.extend units)).told
  | .appendSegment chunk =>
      let (s, st) := chunk.make st
      (b.apply around st (.appendSegment s)).told
  | .appendBuffer chunks =>
      let (other, st) := Chunk.buffer chunks st
      (b.apply around st (.appendBuffer other)).told
  | .appendOwned chunks =>
      let (other, st) := Chunk.buffer chunks st
      (Edited.wholeObject b st (b.appendOwned other)).silent.told
  | .prepend u => (b.apply around st (.prepend u)).told
  | .prependSegment chunk =>
      let (s, st) := chunk.make st
      (b.apply around st (.prependSegment s)).told
  | .setAt i u => (b.apply around st (.setAt i u)).told
  | .replaceUnit old new => (b.apply around st (.replaceUnit old new)).told
  | .lowerCase => (b.apply around st .lowerCase).told
  | .upperCase => (b.apply around st .upperCase).told
  | .removeStart count => (b.apply around st (.removeStart count)).told
  | .removeEnd count => (b.apply around st (.removeEnd count)).told
  | .trimStart => (b.apply around st .trimStart).told
  | .trimEnd => (b.apply around st .trimEnd).told
  | .trim => (b.apply around st .trim).told
  | .compact => (b.apply around st .compact).told
  | .clear => (b.apply around st .clear).told
  | .replaceRange start stop chunks =>
      let (other, st) := Chunk.buffer chunks st
      (b.apply around st (.replaceRange start stop other)).told
  | .replaceAll search replacement => (b.apply around st (.replaceAll search replacement)).told
  | .substitute opening closing values =>
      (b.apply around st (.substitute opening closing (chunkProvider values))).told

/-- Answers a question about a buffer. -/
def Question.answer (b : Buffer) (st : Store α) : Question α → Except Fault (Told α)
  | .unitAt i => (b.unitAt i st).map .unit
  | .indexOf u start => .ok (.place (b.indexOf u start st))
  | .indexOfSlice pattern start => .ok (.place (b.indexOfSlice pattern start st))
  | .startsWith pattern => .ok (.flag (b.startsWith pattern st))
  | .endsWith pattern => .ok (.flag (b.endsWith pattern st))
  | .contains pattern => .ok (.flag (b.contains pattern st))
  | .substring start stop => (b.substring start stop).map fun part => .text (part.content st)
  | .substringFrom start => (b.substringFrom start).map fun part => .text (part.content st)
  | .split separator => .ok (.texts ((b.split separator st).map (·.content st)))

/-- Carries a request out. -/
def Request.run (b : Buffer) (around : Surroundings) (st : Store α) :
    Request α → Edited Buffer α (Told α)
  | .order given => given.run b around st
  | .ask asked => ⟨b, st, asked.answer b st⟩

/-- What is shown and what is told after each of several requests. -/
def Request.trace (around : Surroundings) :
    List (Request α) → Buffer → Store α → List (List α × Except Fault (Told α))
  | [], _, _ => []
  | request :: rest, b, st =>
      let r := request.run b around st
      (r.object.content r.store, r.answer) :: trace around rest r.object r.store

/-! ## On flat text -/

/-- The outcome of an order on flat text that cannot be refused. -/
def changed (text : List α) : List α × Except Fault (Told α) := (text, .ok .done)

/-- Carries an order out on flat text. -/
def Order.onText (text : List α) : Order α → List α × Except Fault (Told α)
  | .append u => changed (text ++ [u])
  | .appendSlice units | .extend units => changed (text ++ units)
  | .appendText more => changed (text ++ TextUnit.unitsOf more)
  | .appendSegment chunk => changed (text ++ chunk.units)
  | .appendBuffer chunks | .appendOwned chunks => changed (text ++ Chunk.text chunks)
  | .prepend u => changed ([u] ++ text)
  | .prependSegment chunk => changed (chunk.units ++ text)
  | .setAt i u =>
      if i < text.length then changed (text.set i u)
      else (text, .error (.bufferIndex i text.length))
  | .replaceUnit old new => changed (text.map (replacing old new))
  | .lowerCase => changed (text.map TextUnit.toLower)
  | .upperCase => changed (text.map TextUnit.toUpper)
  | .removeStart count => changed (text.drop count)
  | .removeEnd count => changed (text.take (text.length - count))
  | .trimStart => changed (text.dropWhile TextUnit.isWhitespace)
  | .trimEnd => changed (text.rdropWhile TextUnit.isWhitespace)
  | .trim => changed ((text.dropWhile TextUnit.isWhitespace).rdropWhile TextUnit.isWhitespace)
  | .compact => changed text
  | .clear => changed []
  | .replaceRange start stop chunks =>
      if start ≤ stop ∧ stop ≤ text.length then
        changed (text.take start ++ Chunk.text chunks ++ text.drop stop)
      else (text, .error (.replaceRange start stop text.length))
  | .replaceAll search replacement =>
      let (text, count) := replaceOccurrences search replacement text
      (text, .ok (.count count))
  | .substitute opening closing values =>
      let found := spans opening closing text
      let texts := enclosedBy found text
      (exchanged text found (valuesFor (fun n inner => Chunk.text (values n inner)) 0 texts),
        .ok (.texts texts))

/-- Answers a question about flat text. -/
def Question.onText (text : List α) : Question α → Except Fault (Told α)
  | .unitAt i =>
      match text[i]? with
      | some u => .ok (.unit u)
      | none => .error (.bufferIndex i text.length)
  | .indexOf u start => .ok (.place (((text.drop start).findIdx? (· == u)).map (start + ·)))
  | .indexOfSlice pattern start => .ok (.place (placeOf pattern start text))
  | .startsWith pattern => .ok (.flag (pattern.isPrefixOf text))
  | .endsWith pattern => .ok (.flag (pattern.isSuffixOf text))
  | .contains pattern => .ok (.flag (firstOccurrence pattern text).isSome)
  | .substring start stop =>
      if start < stop ∧ text.length < stop then .error (.substringEnd stop text.length)
      else .ok (.text ((text.take stop).drop start))
  | .substringFrom start =>
      if text.length < start then .error (.substringStart start text.length)
      else .ok (.text (text.drop start))
  | .split separator => .ok (.texts (text.splitOn separator))

/-- Carries a request out on flat text. -/
def Request.onText (text : List α) : Request α → List α × Except Fault (Told α)
  | .order given => given.onText text
  | .ask asked => (text, asked.onText text)

/-- What flat text is and what is told of it after each of several requests. -/
def Request.textTrace : List (Request α) → List α → List (List α × Except Fault (Told α))
  | [], _ => []
  | request :: rest, text =>
      let r := request.onText text
      r :: textTrace rest r.1

end

/-- The number of units for which a segment may have to be opened. -/
def Request.pending [TextUnit α] : Request α → Nat
  | .order (.append _) | .order (.extend _) => 1
  | .order (.appendSlice units) => units.length
  | .order (.appendText text) => (TextUnit.unitsOf text : List α).length
  | _ => 0

end SegmentedText
