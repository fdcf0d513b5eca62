import SegmentedText.Proofs.Layouts.Independence
import SegmentedText.Proofs.Serial.RoundTrip
import SegmentedText.Proofs.Streams.Reads

/-!
# Calls by text

A call on a buffer whose arguments are texts, characters and places means the same for
every kind of unit: the buffer stores what it is given in units of its own kind, and every
unit is stored for some character.  So one list of calls can be made of a buffer of bytes and
of one of characters, and what comes of it can be told in characters (`Report`).

`TextCall.run` makes a call of a buffer, and `TextCall.onText` says what it comes to on a
flat text.  The two agree, call by call, until one is refused for want of room
(`TextCall.trace_eq_textTrace`).
-/

set_option autoImplicit false

namespace SegmentedText

/-! ## Calls -/

/-- A change of a buffer by texts, characters and places. -/
inductive TextOrder where
  | append (c : Char)
  | appendSlice (text : String)
  | appendText (text : String)
  | extend (text : String)
  | prepend (c : Char)
  | setAt (i : Nat) (c : Char)
  | replaceUnit (old new : Char)
  | lowerCase
  | removeStart (count : Nat)
  | removeEnd (count : Nat)
  | trimStart
  | trimEnd
  | trim
  | compact
  | clear
  | replaceRange (start stop : Nat) (text : String) (form : TextForm)
  | replaceAll (search text : String)
  /-- Substitutes texts that are told by the number of the call and the enclosed text. -/
  | substitute (opening closing : String) (values : Nat → String → String) (form : TextForm)

/-- A call on a buffer: a change, a question, or several uses of a reader that begins at the front.
The sinks of the reader are buffers of their own, of which none has been filled before. -/
inductive TextCall where
  | order (order : TextOrder)
  | ask (question : Question Char)
  | read (actions : List ReadAction)

/-- What a call comes to, told in characters; of a reader, with the texts of the sinks that lines
went to, one for each line. -/
inductive Report where
  | told (told : Told Char)
  | read (outcomes : List ReadOutcome) (lines : List (Option (List Char)))
  deriving Repr, DecidableEq

/-- The sink of a use of a reader. -/
def ReadAction.sink? : ReadAction → Option String
  | .readUntil _ sink _ => some sink
  | _ => none

section

variable {α β : Type}

/-- A question with its units renamed. -/
def Question.map (f : α → β) : Question α → Question β
  | .unitAt i => .unitAt i
  | .indexOf u start => .indexOf (f u) start
  | .indexOfSlice pattern start => .indexOfSlice (pattern.map f) start
  | .startsWith pattern => .startsWith (pattern.map f)
  | .endsWith pattern => .endsWith (pattern.map f)
  | .contains pattern => .contains (pattern.map f)
  | .substring start stop => .substring start stop
  | .substringFrom start => .substringFrom start
  | .split separator => .split (f separator)

/-- What is told, with its units renamed. -/
def Told.map (f : α → β) : Told α → Told β
  | .done => .done
  | .count n => .count n
  | .unit u => .unit (f u)
  | .place found => .place found
  | .flag b => .flag b
  | .text units => .text (units.map f)
  | .texts parts => .texts (parts.map (List.map f))

end

/-! ## On a buffer -/

variable {α : Type} [TextUnit α]

/-- The provider of texts. -/
def textProvider (values : Nat → String → String) (form : TextForm) : Provider α :=
  fun n inner st => form.buffer (values n (inner.display st)) st

/-- The report of what is told. -/
def Report.ofTold (told : Except Fault (Told α)) : Except Fault Report :=
  told.map fun told => .told (told.map TextUnit.toChar)

/-- The report of what a reader and its sinks come to. -/
def Report.ofReading (actions : List ReadAction) (outcomes : List ReadOutcome)
    (sinks : String → Option (List α)) : Report :=
  .read outcomes ((actions.filterMap ReadAction.sink?).map fun name =>
    (sinks name).map (List.map TextUnit.toChar))

namespace TextOrder

/-- The edit of an order, and the store with the text in it that is put into a range. -/
def edit (st : Store α) : TextOrder → Edit α × Store α
  | .append c => (.append (TextUnit.ofChar c), st)
  | .appendSlice text => (.appendSlice (TextUnit.unitsOf text), st)
  | .appendText text => (.appendText text, st)
  | .extend text => (.extend (TextUnit.unitsOf text), st)
  | .prepend c => (.prepend (TextUnit.ofChar c), st)
  | .setAt i c => (.setAt i (TextUnit.ofChar c), st)
  | .replaceUnit old new => (.replaceUnit (TextUnit.ofChar old) (TextUnit.ofChar new), st)
  | .lowerCase => (.lowerCase, st)
  | .removeStart count => (.removeStart count, st)
  | .removeEnd count => (.removeEnd count, st)
  | .trimStart => (.trimStart, st)
  | .trimEnd => (.trimEnd, st)
  | .trim => (.trim, st)
  | .compact => (.compact, st)
  | .clear => (.clear, st)
  | .replaceRange start stop text form =>
      let (other, st) := form.buffer text st
      (.replaceRange start stop other, st)
  | .replaceAll search text => (.replaceAll (TextUnit.unitsOf search) (TextUnit.unitsOf text), st)
  | .substitute opening closing values form =>
      (.substitute (TextUnit.unitsOf opening) (TextUnit.unitsOf closing)
        (textProvider values form), st)

/-- Carries an order out on a buffer that is alone in its store. -/
def run (b : Buffer) (st : Store α) (order : TextOrder) : Edited Buffer α (Told α) :=
  (b.apply {} (order.edit st).2 (order.edit st).1).told

/-- The order with its text in units. -/
def stored : TextOrder → Order α
  | .append c => .append (TextUnit.ofChar c)
  | .appendSlice text => .appendSlice (TextUnit.unitsOf text)
  | .appendText text => .appendText text
  | .extend text => .extend (TextUnit.unitsOf text)
  | .prepend c => .prepend (TextUnit.ofChar c)
  | .setAt i c => .setAt i (TextUnit.ofChar c)
  | .replaceUnit old new => .replaceUnit (TextUnit.ofChar old) (TextUnit.ofChar new)
  | .lowerCase => .lowerCase
  | .removeStart count => .removeStart count
  | .removeEnd count => .removeEnd count
  | .trimStart => .trimStart
  | .trimEnd => .trimEnd
  | .trim => .trim
  | .compact => .compact
  | .clear => .clear
  | .replaceRange start stop text _ => .replaceRange start stop [⟨TextUnit.unitsOf text, 0⟩]
  | .replaceAll search text => .replaceAll (TextUnit.unitsOf search) (TextUnit.unitsOf text)
  | .substitute opening closing values _ =>
      .substitute (TextUnit.unitsOf opening) (TextUnit.unitsOf closing) fun n inner =>
        [⟨TextUnit.unitsOf (values n (TextUnit.textOf inner)), 0⟩]

end TextOrder

namespace TextCall

/-- Makes a call of a buffer that is alone in its store. -/
def run (b : Buffer) (st : Store α) : TextCall → Edited Buffer α Report
  | .order given =>
      let r := given.run b st
      ⟨r.object, r.store, Report.ofTold r.answer⟩
  | .ask asked => ⟨b, st, Report.ofTold ((asked.map TextUnit.ofChar).answer b st)⟩
  | .read actions =>
      let used := ({ store := st, aside := b.segments } : World α).readAll (.ofBuffer b) actions
      ⟨b, used.1.store, used.2.map fun told => Report.ofReading actions told.2 used.1.sinkText?⟩

/-- What is shown, and what is reported, after each of several calls. -/
def trace : List TextCall → Buffer → Store α → List (List Char × Except Fault Report)
  | [], _, _ => []
  | call :: rest, b, st =>
      let r := call.run b st
      ((r.object.content r.store).map TextUnit.toChar, r.answer) :: trace rest r.object r.store

/-- Fewer calls are reported on as more are. -/
theorem trace_take (calls : List TextCall) (count : Nat) (b : Buffer) (st : Store α) :
    trace (calls.take count) b st = (trace calls b st).take count := by
  induction calls generalizing count b st with
  | nil => rw [List.take_nil, trace, List.take_nil]
  | cons call rest ih =>
      cases count with
      | zero => rfl
      | succ count => rw [List.take_succ_cons, trace, trace, List.take_succ_cons, ih]

end TextCall

/-! ## On flat text -/

/-- The tape that a text is to its readers, where no sink has been filled. -/
def Tape.ofText (text : List α) : Tape α := ⟨none, text, fun _ => some []⟩

namespace TextCall

/-- Makes a call of a flat text. -/
def onText (text : List α) : TextCall → List α × Except Fault Report
  | .order given =>
      let r := given.stored.onText text
      (r.1, Report.ofTold r.2)
  | .ask asked => (text, Report.ofTold ((asked.map TextUnit.ofChar).onText text))
  | .read actions =>
      let told := (Tape.ofText text).run actions
      (text, .ok (Report.ofReading actions told.2 told.1.sinks))

/-- What a flat text shows, and what is reported, after each of several calls. -/
def textTrace : List TextCall → List α → List (List Char × Except Fault Report)
  | [], _ => []
  | call :: rest, text =>
      let r := call.onText text
      (r.1.map TextUnit.toChar, r.2) :: textTrace rest r.1

end TextCall

/-! ## One call -/

variable {b : Buffer} {st : Store α} {others : List Segment}

theorem TextForm.undisturbed_buffer (form : TextForm) (text : String) (hosts : st.Hosts others) :
    Undisturbed others st (form.buffer text st).1.segments (form.buffer text st).2 := by
  cases form with
  | text => exact Buffer.undisturbed_ofText hosts text
  | units => exact Buffer.undisturbed_ofUnits hosts _

theorem TextForm.fresh_buffer (form : TextForm) (text : String) (st : Store α) :
    Fresh st (form.buffer text st).1.segments := by
  cases form with
  | text => exact Fresh.ofText text st
  | units => exact Fresh.ofUnits _ st

theorem TextForm.content_buffer (form : TextForm) (text : String) (st : Store α) :
    (form.buffer text st).1.content (form.buffer text st).2 = TextUnit.unitsOf text := by
  cases form with
  | text => exact (Buffer.whole_ofText st text).content
  | units => exact (Buffer.whole_ofUnits st _).content

theorem fair_textProvider (values : Nat → String → String) (form : TextForm) :
    (textProvider values form : Provider α).Fair [] := fun _ _ _ _ _ hosts =>
  form.undisturbed_buffer _ hosts.right

theorem tells_textProvider (values : Nat → String → String) (form : TextForm) (origin : Store α) :
    (textProvider values form).Tells origin [] fun n inner =>
      TextUnit.unitsOf (values n (TextUnit.textOf inner)) := by
  intro n inner st _ _ _ _
  show _ = TextUnit.unitsOf (values n (TextUnit.textOf (inner.content st)))
  rw [← inner.display_eq st]
  exact form.content_buffer _ st

omit [TextUnit α] in
/-- The text of one chunk. -/
theorem Chunk.text_singleton (units : List α) (capacity : Nat) :
    Chunk.text [⟨units, capacity⟩] = units := by
  rw [Chunk.text, List.flatMap_cons, List.flatMap_nil, List.append_nil]

/-- An order by text comes to what it comes to in units, or is refused for want of room. -/
theorem TextOrder.tells_or_lacks (alone : b.Alone {} others st) (order : TextOrder) :
    (order.run b st).TellsOrLacks others b.layout (Request.order (order.stored : Order α)).pending
      (order.stored.onText (b.content st)) := by
  -- Apart from a text that is put into a range or for a span, the buffer makes the same edit.
  have units := Order.tells_or_lacks alone (order.stored : Order α)
  cases order with
  | replaceRange start stop text form =>
      have told := Order.tells_replaceRange alone start stop
        (form.undisturbed_buffer text alone.hosts) (form.fresh_buffer text st)
      rw [form.content_buffer text st] at told
      rw [stored, Order.onText, Chunk.text_singleton]
      exact told
  | substitute opening closing values form =>
      have told := Order.tells_substitute alone (TextUnit.unitsOf opening)
        (TextUnit.unitsOf closing) (fair_textProvider values form)
        (tells_textProvider values form st) fun n inner st => form.fresh_buffer _ st
      rw [stored, Order.onText]
      simp only [Chunk.text_singleton]
      exact .inl told
  | _ => exact units

namespace TextCall

/-- What is left of a buffer that is alone shows and reports what is given, and is alone again. -/
structure Leaves (r : Edited Buffer α Report) (told : List α × Except Fault Report) : Prop where
  alone : r.object.Alone {} [] r.store
  content_eq : r.object.content r.store = told.1
  answer_eq : r.answer = told.2

/-- A buffer stays as it is while it is read. -/
theorem leaves_read (alone : b.Alone {} [] st) {actions : List ReadAction}
    (room : (run b st (.read actions)).answer ≠ .error .roomExceeded) :
    Leaves (run b st (.read actions)) (onText (b.content st) (.read actions)) := by
  let w : World α := { store := st, aside := b.segments }
  have hosts : st.Hosts b.segments := by
    have hosts := alone.hosts
    rwa [List.append_nil] at hosts
  have sound : w.Sound := hosts
  have tapes : w.Tapes (.ofBuffer b) b.segments (Tape.ofText (b.content st)) :=
    ⟨sound, World.lendsMade_of_lent_eq rfl, List.Subset.refl _, b.follows_ofBuffer st _, rfl⟩
  have u : World.Underway (fun name => ∃ action ∈ actions, action.Fills name) True w []
      (w.readAll (.ofBuffer b) actions).1 :=
    (World.confined_readAll (.of_underway (.refl sound)) _ fun _ fills => fills).toUnderway
  have aside : b.segments.Subperm (w.readAll (.ofBuffer b) actions).1.alive :=
    u.aside.trans (List.sublist_append_right _ _).subperm
  refine ⟨⟨?_, alone.distinct, alone.covers, rfl⟩, ?_, ?_⟩
  · rw [List.append_nil]
    exact u.hosts.subperm aside
  · exact contentOf_congr fun s here => u.content_eq trivial sound (.inl here)
  · rcases World.told_readAll tapes actions with ⟨full, -⟩ | ⟨well, sinks⟩
    · exact absurd (congrArg (Except.map _) full) room
    · refine (congrArg (Except.map _) well).trans (congrArg Except.ok ?_)
      exact congrArg (Report.ofReading actions _) sinks

/-- A call that is not refused room comes to what it comes to on the flat text. -/
theorem leaves_run (alone : b.Alone {} [] st) {call : TextCall}
    (room : (call.run b st).answer ≠ .error .roomExceeded) :
    Leaves (call.run b st) (call.onText (b.content st)) := by
  cases call with
  | order given =>
      have told := (given.tells_or_lacks alone).resolve_right fun lacks =>
        room (congrArg Report.ofTold lacks.1)
      exact ⟨⟨told.hosts, told.distinct, alone.covers, rfl⟩, told.content_eq,
        congrArg Report.ofTold told.answer_eq⟩
  | ask asked =>
      exact ⟨alone, rfl, congrArg Report.ofTold ((asked.map _).answer_eq alone.hosts)⟩
  | read actions => exact leaves_read alone room

/-! ## Many calls -/

/-- The trace of a buffer is the trace of the flat text, as long as no call is refused room. -/
theorem trace_eq_textTrace (alone : b.Alone {} [] st) {calls : List TextCall}
    (room : ∀ entry ∈ trace calls b st, entry.2 ≠ .error .roomExceeded) :
    trace calls b st = textTrace calls (b.content st) := by
  induction calls generalizing b st with
  | nil => rfl
  | cons call rest ih =>
      have left := leaves_run alone (room _ List.mem_cons_self)
      have later := ih left.alone fun entry here => room entry (List.mem_cons_of_mem _ here)
      rw [trace, textTrace, later, left.content_eq, left.answer_eq]

end TextCall

end SegmentedText
