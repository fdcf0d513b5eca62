import SegmentedText.Proofs.Bounded.Counts

/-!
# What holds of every buffer

A property of buffers is lasting (`Buffer.Lasting`) if new buffers have it and what is done to a
buffer by itself keeps it.  Bounded buffers, readers and writers do nothing else to the buffers that
they work on: their changes come down to edits (`Buffer.Lasting.bounded_apply`,
`Buffer.Lasting.readUntil`, `Buffer.Lasting.showSegments`).

So a lasting property holds of every buffer in every reached world (`World.Reached.each`).
-/

set_option autoImplicit false

namespace SegmentedText

/-- What new buffers have and no operation on a buffer takes away. -/
structure Buffer.Lasting (α : Type) [TextUnit α] (P : Buffer → Prop) : Prop where
  ofLayout : ∀ layout, P (ofLayout layout)
  withCapacity : ∀ {capacity : Nat} {st : Store α} {made : Buffer × Store α},
    withCapacity capacity st = .ok made → P made.1
  apply : ∀ {b : Buffer} (around : Surroundings) (st : Store α) (edit : Edit α), P b →
    P (b.apply around st edit).object
  appendOwned : ∀ {b b' other : Buffer}, P b → b.appendOwned other = .ok b' → P b'
  shared : ∀ {b : Buffer}, P b → P b.shared
  part : ∀ {b : Buffer} (start stop : Nat), P b → P (b.part start stop)
  copy : ∀ {b : Buffer} (st : Store α), P b → P (b.copy st).1
  split : ∀ {b : Buffer} (separator : α) (st : Store α), P b →
    ∀ piece ∈ b.split separator st, P piece

namespace Buffer.Lasting

variable {α : Type} {P : Buffer → Prop} {b b' : Buffer} {bounded : Bounded} {writer : Writer}
  {st : Store α} {around : Surroundings} [TextUnit α] (lasting : Lasting α P)
include lasting

/-! ## Buffers -/

theorem appendSegment (old : P b) {s : Segment} (done : b.appendSegment s = .ok b') : P b' := by
  have kept := lasting.apply {} {} (.appendSegment s) old
  rw [Buffer.apply, done] at kept
  exact kept

theorem append (old : P b) {u : α} {made : Buffer × Store α}
    (done : b.append around u st = .ok made) : P made.1 := by
  have kept := lasting.apply around st (.append u) old
  rw [Buffer.apply, done] at kept
  exact kept

/-- The layout of such a buffer opens a list. -/
theorem ofSegment (s : Segment) : P (ofSegment s) :=
  lasting.appendSegment (lasting.ofLayout {}) (appendSegment_eq_push s rfl)

theorem substring (old : P b) {part : Buffer} {start stop : Nat}
    (done : b.substring start stop = .ok part) : P part := by
  unfold Buffer.substring at done
  split at done
  · cases done
  · cases done
    exact lasting.part start stop old

theorem substringFrom (old : P b) {part : Buffer} {start : Nat}
    (done : b.substringFrom start = .ok part) : P part := by
  unfold Buffer.substringFrom at done
  split at done
  · cases done
  · exact lasting.substring old done

theorem appendParts (old : P b) {parts : List String} {made : Buffer × Store α}
    (done : SegmentedText.appendParts b parts st = .ok made) : P made.1 := by
  induction parts generalizing b st with
  | nil =>
      cases done
      exact old
  | cons part rest ih =>
      rw [SegmentedText.appendParts] at done
      dsimp only at done
      split at done
      next b' appended => exact ih (lasting.appendSegment old appended) done
      next => cases done

theorem ofJson {codec : JsonCodec} {json : String} {made : Buffer × Store α}
    (done : ofJson codec json st = .ok made) : P made.1 := by
  unfold Buffer.ofJson at done
  split at done
  · obtain ⟨cs, -, rfl⟩ := eq_ok_of_map done
    exact lasting.ofSegment _
  · obtain ⟨value, -, rfl⟩ := eq_ok_of_map done
    cases value <;> exact lasting.ofSegment _

theorem ofValue {value : SerialValue} {made : Buffer × Store α}
    (done : ofValue value st = .ok made) : P made.1 := by
  unfold Buffer.ofValue at done
  split at done
  · cases value <;> cases done <;> exact lasting.ofSegment _
  · cases value
    case sequence elements =>
      obtain ⟨bytes, -, rfl⟩ := eq_ok_of_map done
      exact lasting.ofSegment _
    case text | ownedText | character | bytes | ownedBytes =>
      cases done
      exact lasting.ofSegment _
    all_goals cases done

/-! ## Bounded buffers -/

theorem truncate (bounded : Bounded) (old : P bounded.inner) :
    P (bounded.truncate around).inner := by
  unfold Bounded.truncate
  split
  next => exact lasting.apply around {} (.removeEnd _) old
  next => exact old

theorem truncating {r : Edited Bounded α Unit} (kept : P r.object.inner) :
    P (Bounded.truncating around r).object.inner := by
  unfold Bounded.truncating
  split
  next => exact lasting.truncate _ kept
  next => exact kept

theorem bounded_append (old : P bounded.inner) (u : α) :
    P (bounded.append around u st).object.inner := by
  unfold Bounded.append
  split
  next => exact old
  next => exact Bounded.inner_counting (lasting.apply around st (.append u) old)

theorem appendEach (old : P bounded.inner) (units : List α) :
    P (bounded.appendEach around units st).object.inner := by
  induction units generalizing bounded st with
  | nil => exact old
  | cons u us ih =>
      have first : P (bounded.append around u st).object.inner := lasting.bounded_append old u
      rw [Bounded.appendEach]
      split
      next => exact ih first
      next => exact first

theorem bounded_apply (old : P bounded.inner) (around : Surroundings) (st : Store α)
    (edit : Edit α) : P (bounded.apply around st edit).object.inner := by
  have inner := fun change => lasting.apply around st change old
  cases edit with
  | append u => exact lasting.bounded_append old u
  | appendSlice units =>
      exact Bounded.inner_admitting old fun budget =>
        Bounded.inner_counting (inner (.appendSlice _))
  | appendText text =>
      exact Bounded.inner_admitting old fun budget =>
        Bounded.inner_counting (inner (.appendText _))
  | extend units => exact Bounded.inner_admitting old fun budget => lasting.appendEach old _
  | appendSegment s =>
      refine Bounded.inner_admitting old fun budget => ?_
      dsimp only
      split
      next changed done => exact lasting.appendSegment old done
      next => exact old
  | appendBuffer other =>
      refine Bounded.inner_admitting old fun budget => ?_
      split
      next => exact Bounded.inner_counting (inner (.appendBuffer other))
      next => exact Bounded.inner_counting (inner (.appendBuffer (other.part 0 budget)))
  | prepend u =>
      show P (bounded.prepend around u st).object.inner
      unfold Bounded.prepend
      split
      next => exact old
      next => exact lasting.truncating (Bounded.inner_counting (inner (.prepend u)))
  | prependSegment s =>
      exact lasting.truncating (Bounded.inner_counting (inner (.prependSegment s)))
  | setAt =>
      rw [Bounded.apply, Edited.object_written]
      exact old
  | replaceUnit | lowerCase | upperCase =>
      rw [Bounded.apply, Edited.object_mapped]
      exact old
  | removeStart count => exact inner (.removeStart count)
  | removeEnd count => exact inner (.removeEnd count)
  | trimStart => exact inner .trimStart
  | trimEnd => exact inner .trimEnd
  | trim => exact inner .trim
  | compact => exact inner .compact
  | clear => exact inner .clear
  | replaceRange start stop r =>
      have changed := inner (.replaceRange start stop r)
      show P (bounded.replaceRange around start stop r st).object.inner
      unfold Bounded.replaceRange
      dsimp only
      split
      next =>
        split
        next => exact changed
        next => exact lasting.truncate ⟨_, _, _⟩ changed
      next => exact changed
  | replaceAll search replacement =>
      have changed := inner (.replaceAll search replacement)
      show P (bounded.replaceAll around search replacement st).object.inner
      unfold Bounded.replaceAll
      dsimp only
      split
      next =>
        split
        next => exact changed
        next => exact lasting.truncate ⟨_, _, _⟩ changed
      next => exact changed
  | substitute opening closing provider =>
      have changed := inner (.substitute opening closing provider)
      show P (bounded.substitute around opening closing provider st).object.inner
      unfold Bounded.substitute
      dsimp only
      split
      next => exact lasting.truncate ⟨_, _, _⟩ changed
      next => exact changed

/-! ## Readers and writers -/

theorem pour {segments : List Segment} {delimiter : α} {c : Cursor} (old : P b) :
    P (c.pour segments delimiter around b st).2.object := by
  fun_induction Cursor.pour segments delimiter around c b st with
  | case1 => exact old
  | case2 | case3 | case5 => exact lasting.apply _ _ (.appendSlice _) old
  | case4 c b st s here absent r done ih => exact ih (lasting.apply _ _ (.appendSlice _) old)

theorem readUntil {r : Reader α} {delimiter : α} (old : P b) :
    P (r.readUntil delimiter around b st).2.object := by
  unfold Reader.readUntil
  split
  next => exact lasting.pour old
  next =>
    dsimp only
    split
    next => exact old
    next =>
      split
      next done => exact lasting.pour (lasting.append old done)
      next => exact old

theorem writeChars (old : P writer.buffer) (cs : List Char) :
    P (writer.writeChars around cs st).object.buffer := by
  induction cs generalizing writer st with
  | nil => exact old
  | cons c cs ih =>
      have first : P (writer.write around (TextUnit.ofChar c) st).object.buffer :=
        Writer.buffer_counting (lasting.apply around st (.append (TextUnit.ofChar c)) old)
      rw [Writer.writeChars]
      split
      next => exact ih first
      next => exact first

theorem showSegments (old : P writer.buffer) (segments : List Segment) :
    P (writer.showSegments around segments st).object.buffer := by
  induction segments generalizing writer st with
  | nil => exact old
  | cons s rest ih =>
      have first : P (writer.writeChars (around.lending s.storage)
          ((s.content st).map TextUnit.toChar) st).object.buffer := lasting.writeChars old _
      rw [Writer.showSegments]
      split
      next => exact ih first
      next => exact first

end Buffer.Lasting

/-! ## Objects -/

/-- What holds of the buffer that an object is or holds, if it is not a segment. -/
def Object.Each (P : Buffer → Prop) (o : Object) : Prop := ∀ b, o.buffer? = some b → P b

namespace Object

variable {α : Type} [TextUnit α] {P : Buffer → Prop} {st : Store α}

theorem each_segment (s : Segment) : (Object.segment s).Each P := nofun

theorem each_buffer {b : Buffer} (holds : P b) : (Object.buffer b).Each P :=
  fun _ same => Option.some.inj same ▸ holds

theorem each_bounded {b : Bounded} (holds : P b.inner) : (Object.bounded b).Each P :=
  fun _ same => Option.some.inj same ▸ holds

variable (lasting : Buffer.Lasting α P)
include lasting

theorem each_make {what : Make} {made : Object × Store α} (done : what.run st = .ok made) :
    made.1.Each P := by
  cases what with
  | segment | segmentOfUnits | segmentOfText =>
      cases done
      exact each_segment _
  | segmentWithCapacity | segmentOfArray =>
      obtain ⟨fresh, -, rfl⟩ := eq_ok_of_map done
      exact each_segment _
  | buffer layout =>
      cases done
      exact each_buffer (lasting.ofLayout layout)
  | bufferWithCapacity capacity =>
      obtain ⟨fresh, made, rfl⟩ := eq_ok_of_map done
      exact each_buffer (lasting.withCapacity made)
  | bufferOfUnits | bufferOfText =>
      cases done
      exact each_buffer (lasting.ofSegment _)
  | bufferOfArray text capacity =>
      obtain ⟨fresh, made, rfl⟩ := eq_ok_of_map done
      obtain ⟨room, -, rfl⟩ := eq_ok_of_map made
      exact each_buffer (lasting.ofSegment _)
  | bufferOfEach text =>
      obtain ⟨_, -, rfl⟩ := eq_ok_of_map done
      exact each_buffer (lasting.apply {} st (.extend _) (lasting.ofLayout {}))
  | bufferOfParts parts layout =>
      obtain ⟨fresh, made, rfl⟩ := eq_ok_of_map done
      exact each_buffer (lasting.appendParts (lasting.ofLayout layout) made)
  | bounded maxSize layout =>
      cases done
      exact each_bounded (lasting.ofLayout layout)

theorem each_derive {what : Derive} {o : Object} {made : Object × Store α} (holds : o.Each P)
    (done : what.run st o = some (.ok made)) : made.1.Each P := by
  cases what with
  | substring start stop =>
      cases o with
      | segment s =>
          obtain ⟨part, -, rfl⟩ := eq_ok_of_map (Option.some.inj done)
          exact each_segment _
      | buffer b | bounded b =>
          obtain ⟨part, cut, rfl⟩ := eq_ok_of_map (Option.some.inj done)
          exact each_buffer (lasting.substring (holds _ rfl) cut)
  | substringFrom start =>
      cases o with
      | segment s =>
          obtain ⟨part, -, rfl⟩ := eq_ok_of_map (Option.some.inj done)
          exact each_segment _
      | buffer b | bounded b =>
          obtain ⟨part, cut, rfl⟩ := eq_ok_of_map (Option.some.inj done)
          exact each_buffer (lasting.substringFrom (holds _ rfl) cut)
  | copy =>
      cases o with
      | segment s =>
          cases done
          exact each_segment _
      | buffer b | bounded b =>
          cases done
          exact each_buffer (lasting.copy st (holds _ rfl))
  | shared =>
      cases done
      cases o with
      | segment s => exact each_segment _
      | buffer b | bounded b => exact each_buffer (lasting.shared (holds _ rfl))
  | segmentAt i =>
      obtain ⟨s, -, same⟩ := Option.map_eq_some_iff.1 done
      obtain rfl := Except.ok.inj same
      exact each_segment _

theorem each_split {o : Object} (holds : o.Each P) (c : Char) (st : Store α) :
    ∀ piece ∈ (o.split c st).1, piece.Each P := by
  intro piece here
  cases o with
  | segment s =>
      obtain ⟨t, -, rfl⟩ := List.mem_map.1 here
      exact each_segment t
  | buffer b | bounded b =>
      obtain ⟨cut, found, rfl⟩ := List.mem_map.1 here
      exact each_buffer (lasting.split (TextUnit.ofChar c) st (holds _ rfl) cut found)

theorem each_apply {o : Object} {around : Surroundings} {edit : Edit α} {r : Edited Object α Reply}
    (holds : o.Each P) (applied : o.apply around st edit = some r) : r.object.Each P := by
  cases o with
  | segment s =>
      obtain ⟨_, -, rfl⟩ := Option.map_eq_some_iff.1 applied
      exact each_segment _
  | buffer b =>
      cases applied
      exact each_buffer (lasting.apply around st edit (holds b rfl))
  | bounded b =>
      cases applied
      exact each_bounded (lasting.bounded_apply (holds b.inner rfl) around st edit)

end Object

/-! ## Worlds -/

namespace World

variable {α : Type} {P : Buffer → Prop} {w w' : World α}

/-- What holds of the buffer in every register. -/
def Each (P : Buffer → Prop) (w : World α) : Prop :=
  ∀ name o, w.get? name = some o → o.Each P

/-- What is left of the registers is as it was. -/
theorem Each.fewer (each : w.Each P)
    (left : ∀ name o, w'.get? name = some o → w.get? name = some o) : w'.Each P :=
  fun name o there => each name o (left name o there)

theorem Each.erase (each : w.Each P) (source : String) : (w.erase source).Each P :=
  each.fewer fun _ _ there => (get?_of_erase there).1

theorem Each.put (each : w.Each P) (target : String) {o : Object} (holds : o.Each P) :
    (w.put target o).Each P := by
  intro name o' there
  rw [get?_put] at there
  split at there
  next =>
    obtain rfl := Option.some.inj there
    exact holds
  next => exact each name o' there

theorem Each.of_takeBuffer? (each : w.Each P) {source : String} {b : Buffer} {rest : World α}
    (taken : w.takeBuffer? source true = some (b, rest)) : P b := by
  obtain ⟨o, there, taken⟩ := Option.bind_eq_some_iff.1 taken
  obtain ⟨inner, plain, taken⟩ := Option.bind_eq_some_iff.1 taken
  obtain ⟨rfl, -⟩ := Prod.mk.inj (Option.some.inj taken)
  refine each source o there inner ?_
  cases o with
  | buffer b => exact plain
  | segment s | bounded b => cases plain

/-- A buffer that has been read. -/
theorem each_putRead {ε : Type} {refuse : ε → Answer} {r : Except ε (Buffer × Store α)}
    (each : w.Each P) (dest : String) (fresh : ∀ made, r = .ok made → P made.1) :
    (w.putRead dest refuse r).1.Each P := by
  unfold putRead
  split
  next b st => exact Each.put (w := w.withStore st) each dest (Object.each_buffer (fresh _ rfl))
  next => exact each

theorem each_putPieces {pieces : List Object} (holds : ∀ piece ∈ pieces, piece.Each P)
    (each : w.Each P) (dest : String) (i : Nat) : (w.putPieces dest i pieces).Each P := by
  induction pieces generalizing i w with
  | nil => exact each
  | cons piece rest ih =>
      exact ih (fun other here => holds other (List.mem_cons_of_mem _ here))
        (each.put _ (holds piece List.mem_cons_self)) (i + 1)

variable [TextUnit α] (lasting : Buffer.Lasting α P)
include lasting

/-! ### Making and deriving -/

theorem each_split (each : w.Each P) (source : String) (c : Char) (dest : Option String) :
    (w.split source c dest).1.Each P := by
  unfold split
  split
  next => exact each
  next o there =>
    cases dest with
    | none => exact each
    | some dest =>
        exact each_putPieces (w := w.withStore (o.split c w.store).2)
          (Object.each_split lasting (each source o there) c w.store) each dest 0

theorem each_bound (each : w.Each P) (dest source : String) (maxSize : Nat) :
    (w.bound dest source maxSize).1.Each P := by
  unfold bound
  split
  next b rest taken =>
    have left : rest.Each P := each.fewer fun _ _ there => (get?_of_takeBuffer? taken there).1
    exact left.put dest (Object.each_bounded
      (lasting.truncate ⟨b, maxSize, b.length⟩ (each.of_takeBuffer? taken)))
  next => exact each

/-! ### Changing -/

theorem each_applyEdit {target : String} {edit : Edit α} {after : World α} {answer : Answer}
    (each : w.Each P) (done : w.applyEdit target edit = some (after, answer)) : after.Each P := by
  obtain ⟨⟨o, rest⟩, taken, done⟩ := Option.bind_eq_some_iff.1 done
  obtain ⟨r, applied, done⟩ := Option.bind_eq_some_iff.1 done
  obtain ⟨rfl, -⟩ := Prod.mk.inj (Option.some.inj done)
  obtain ⟨there, rfl⟩ := eq_of_take? taken
  exact Each.put (w := (w.erase target).withStore r.store) (each.erase target) target
    (Object.each_apply lasting (each target o there) applied)

theorem each_changeSpecial {target : String} {o : Object} {change : Change} (each : w.Each P)
    (holds : o.Each P) : (w.changeSpecial target o change).1.Each P := by
  unfold changeSpecial
  split
  next =>
    split
    next => exact each.put target (Object.each_segment _)
    next => exact each.put target holds
  next =>
    split
    next st _ => exact Each.put (w := w.withStore st) each target (Object.each_segment _)
    next => exact each.put target holds
  next source b =>
    split
    next => exact each.put target holds
    next other rest taken =>
      have left : rest.Each P := each.fewer fun _ _ there => (get?_of_takeBuffer? taken there).1
      split
      next b' done =>
        exact left.put target (Object.each_buffer (lasting.appendOwned (holds b rfl) done))
      next => exact left.put target holds
  next => exact each.put target holds

theorem each_change (each : w.Each P) (target : String) (change : Change) :
    (w.change target change).1.Each P := by
  unfold World.change
  split
  next => exact each
  next o rest taken =>
    obtain ⟨there, rfl⟩ := eq_of_take? taken
    split
    next => exact each_changeSpecial lasting (each.erase target) (each target o there)
    next edit resolved found =>
      have left : resolved.Each P := each.fewer fun _ _ there => (get?_of_edit? found there).1
      split
      next => exact each
      next after answer done =>
        have edited := each_applyEdit lasting left done
        exact edited

/-! ### Reading and writing -/

/-- Reading may fill a buffer, which is made if there is none. -/
theorem each_readOne (each : w.Each P) (r : Reader α) (action : ReadAction) :
    (w.readOne r action).2.1.Each P := by
  cases action with
  | readUntil c sink handover =>
      simp only [readOne, readIntoSink]
      cases taken : w.take? sink with
      | none =>
          exact Each.put (w := w.withStore _) each sink
            (Object.each_buffer (lasting.readUntil (lasting.ofLayout {})))
      | some entry =>
          obtain ⟨o, rest⟩ := entry
          obtain ⟨there, rfl⟩ := eq_of_take? taken
          cases o with
          | buffer b =>
              exact Each.put (w := (w.erase sink).withStore _) (each.erase sink) sink
                (Object.each_buffer (lasting.readUntil (each sink _ there b rfl)))
          | segment s | bounded b => exact each
  | read handover =>
      simp only [readOne]
      split <;> exact each
  | readInto | back | remaining | sizeHint | take | rest => exact each

theorem each_readAll (each : w.Each P) (r : Reader α) (actions : List ReadAction) :
    (w.readAll r actions).1.Each P := by
  induction actions generalizing w r with
  | nil => exact each
  | cons action rest ih =>
      have first := each_readOne lasting each r action
      rw [readAll]
      split
      next done =>
        rw [done] at first
        exact first
      next r' w' outcome done =>
        rw [done] at first
        exact ih first r'

theorem each_read (each : w.Each P) (source : String) (actions : List ReadAction) :
    (w.read source actions).1.Each P := by
  unfold read
  split
  next => exact each
  next o rest taken =>
    obtain ⟨there, rfl⟩ := eq_of_take? taken
    split
    next => exact each
    next b shown =>
      have aside : (w.settingAside source o w.lent).Each P := each.erase source
      have used := each_readAll lasting aside (.ofBuffer b) actions
      dsimp only
      split
      next => exact used.put source (each source o there)
      next => exact used

theorem holds_writeOne {writer : Writer} {st : Store α} {action : WriteAction}
    {r : Edited Writer α Unit} (old : P writer.buffer)
    (done : w.writeOne writer st action = some r) : P r.object.buffer := by
  have inner := fun around change => lasting.apply around st change old
  cases action with
  | write c =>
      cases done
      exact Writer.buffer_counting (inner _ (.append _))
  | writeSlice text =>
      cases done
      exact Writer.buffer_counting (inner _ (.appendSlice _))
  | writeText text =>
      cases done
      exact Writer.buffer_counting (inner _ (.appendText _))
  | flush =>
      cases done
      exact old
  | showObject source =>
      obtain ⟨o, -, done⟩ := Option.bind_eq_some_iff.1 done
      cases done
      exact lasting.showSegments old _
  | writeObjectChars source =>
      obtain ⟨o, -, done⟩ := Option.bind_eq_some_iff.1 done
      cases done
      exact lasting.writeChars old _
  | writeChars text =>
      cases done
      exact lasting.writeChars old _

theorem holds_writeAll {writer : Writer} {st : Store α} {actions : List WriteAction}
    (old : P writer.buffer) : P (w.writeAll writer st actions).1.buffer := by
  induction actions generalizing writer st with
  | nil => exact old
  | cons action rest ih =>
      rw [writeAll]
      split
      next => exact old
      next r done =>
        have first := holds_writeOne lasting old done
        split
        next => exact first
        next => exact ih first

theorem each_write (each : w.Each P) (target : String) (actions : List WriteAction) :
    (w.write target actions).1.Each P := by
  unfold write
  split
  next b rest taken =>
    obtain ⟨there, rfl⟩ := eq_of_take? taken
    have left := each.erase target
    have written : P ((w.erase target).writeAll ⟨b, 0⟩ (w.erase target).store actions).1.buffer :=
      holds_writeAll lasting (each target _ there b rfl)
    have back := fun st => Each.put (w := (w.erase target).withStore st) left target
      (Object.each_buffer written)
    dsimp only
    split
    next => exact back _
    next => exact left
    next => exact back _
  next => exact each

/-! ### All steps -/

theorem each_step (each : w.Each P) (step : Step) : (w.step step).1.Each P := by
  induction step generalizing w with
  | make dest what =>
      unfold World.step make
      split
      next o st done =>
        exact Each.put (w := w.withStore st) each dest (Object.each_make lasting done)
      next => exact each
  | ofSegment dest source move =>
      unfold World.step World.ofSegment
      split
      next s rest taken =>
        have left : rest.Each P := each.fewer fun _ _ there => (get?_of_takeSegment? taken there).1
        exact left.put dest (Object.each_buffer (lasting.ofSegment s))
      next => exact each
  | bound dest source maxSize => exact each_bound lasting each dest source maxSize
  | unbound source dest =>
      unfold World.step unbound
      split
      next b rest taken =>
        obtain ⟨there, rfl⟩ := eq_of_take? taken
        exact (each.erase source).put dest (Object.each_buffer (each source _ there b.inner rfl))
      next => exact each
  | ofJson dest json => exact each_putRead each dest fun made done => lasting.ofJson done
  | ofValue dest value => exact each_putRead each dest fun made done => lasting.ofValue done
  | ask source query => exact each
  | derive source dest what =>
      unfold World.step derive
      split
      next object st done =>
        obtain ⟨o, there, derived⟩ := Option.bind_eq_some_iff.1 done
        exact Each.put (w := w.withStore st) each dest
          (Object.each_derive lasting (each source o there) derived)
      next => exact each
      next => exact each
  | split source c dest => exact each_split lasting each source c dest
  | change target change => exact each_change lasting each target change
  | drop target =>
      unfold World.step drop
      split
      next => exact each.erase target
      next => exact each
  | read source actions => exact each_read lasting each source actions
  | write target actions => exact each_write lasting each target actions
  | drain source job => exact each
  | lend source i inner ih =>
      cases there : w.get? source with
      | none =>
          rw [step_lend_of_none (by rw [there]; rfl)]
          exact each
      | some o =>
          cases found : o.segmentAt? i with
          | none =>
              rw [step_lend_of_none (by rw [there]; exact found)]
              exact each
          | some s =>
              rw [step_lend inner there found]
              have within : ((w.settingAside source o (s.storage :: w.lent)).step inner).1.Each P :=
                ih (each.erase source)
              have back : ({ ((w.settingAside source o (s.storage :: w.lent)).step inner).1 with
                  aside := w.aside, lent := w.lent } : World α).Each P := within
              exact back.put source (each source o there)

theorem each_act (each : w.Each P) (action : Action α) : (w.act action).1.Each P := by
  cases action with
  | step step => exact each_step lasting each step
  | edit target edit relied =>
      rw [act]
      split
      next after answer done =>
        have edited := each_applyEdit lasting (w := { w with aside := relied ++ w.aside }) each done
        exact edited
      next => exact each

/-- **A lasting property holds of every buffer in every reached world.** -/
theorem Reached.each {barred : World α → Action α → Prop} (reached : Reached barred w) :
    w.Each P := by
  induction reached with
  | start => exact nofun
  | act _ _ _ ih => exact each_act lasting ih _

end World

end SegmentedText
