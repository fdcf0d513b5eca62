import SegmentedText.Proofs.Flat.Allotments
import SegmentedText.Proofs.Layouts.Requests
import SegmentedText.Proofs.Ownership.Reached

/-!
# Independence of the layout

How a buffer is cut into segments, and by which rule it opens new ones, shows in nothing
that it is asked.  Every request to a buffer whose cells are distinct comes to what it
comes to on the flat text (`Request.tells`), and leaves a buffer whose cells are distinct.
So two buffers that show the same text go on showing the same text and telling the same,
request by request (`Request.trace_eq_trace`).

Room is not a matter of the text: a layout may ask for more than there can be, and then
an append is refused in one buffer and carried out in another.  There is no other way for
a buffer to differ from the flat text (`Order.tells_or_lacks`), and `Layout.Allots` leaves
that one out.
-/

set_option autoImplicit false

namespace SegmentedText

variable {α : Type}

/-- A buffer that shows no cell twice, beside the windows that its surroundings know of. -/
structure Buffer.Alone (b : Buffer) (around : Surroundings) (others : List Segment)
    (st : Store α) : Prop where
  hosts : st.Hosts (b.segments ++ others)
  distinct : b.cells.Nodup
  covers : around.Covers others
  free : around.lent = []

variable {b : Buffer} {around : Surroundings} {others : List Segment} {st st' : Store α}

namespace Buffer.Alone

theorem valid (alone : b.Alone around others st) : b.Valid st :=
  valid_of_hosts alone.hosts (List.subset_append_left _ _)

theorem unlent (alone : b.Alone around others st) (id : StorageId) : around.lends id = false := by
  rw [Surroundings.lends, alone.free]
  rfl

theorem lendsMade (alone : b.Alone around others st) : around.LendsMade st := by
  intro id here
  rw [alone.free] at here
  cases here

theorem fills [TextUnit α] (alone : b.Alone around others st) : b.fills α around = true :=
  Buffer.fills_of_unlent fun s _ => alone.unlent s.storage

/-- A buffer is as it was where everything that was alive is undisturbed. -/
theorem kept {made : List Segment} (alone : b.Alone around others st)
    (fresh : Undisturbed (b.segments ++ others) st made st') : b.Alone around others st' :=
  ⟨fresh.hosts.right, alone.distinct, alone.covers, alone.free⟩

end Buffer.Alone

/-- Where nothing is lent out, a buffer that is taken out of its register is beside all others. -/
theorem World.Sound.alone {w : World α} {name : String} (sound : w.Sound)
    (found : w.get? name = some (.buffer b)) (distinct : b.cells.Nodup) (free : w.lent = []) :
    b.Alone (w.erase name).surroundings (w.erase name).alive w.store := by
  have all : w.store.Hosts ([] ++ w.alive) := sound
  exact ⟨hosts_taken all found, distinct, Surroundings.covers_of_alive (List.Subset.refl _), free⟩

variable [TextUnit α]

omit [TextUnit α] in
/-- Windows that were made leave a buffer as it is. -/
theorem Buffer.Alone.beside_made {made : List Segment} (alone : b.Alone around others st)
    (new : Undisturbed (b.segments ++ others) st made st') :
    st'.Hosts (made ++ (b.segments ++ others)) ∧ st'.Reads b.cells (b.content st) ∧
      st'.Reads (cellsOf made) (contentOf made st') := by
  have shown : b.content st' = b.content st :=
    new.content_buffer_eq (List.subset_append_left _ _)
  refine ⟨new.hosts, ?_, reads_cellsOf fun s here => ?_⟩
  · rw [← shown]
    exact (alone.kept new).valid.reads
  · exact (new.hosts.placed s (List.mem_append_left _ here)).valid

/-- New arrays leave a buffer as it is and show the chunks that they were made of. -/
theorem Buffer.Alone.beside_chunks (alone : b.Alone around others st) (chunks : List (Chunk α)) :
    (Chunk.makeAll chunks st).2.Hosts ((Chunk.makeAll chunks st).1 ++ (b.segments ++ others)) ∧
      (Chunk.makeAll chunks st).2.Reads b.cells (b.content st) ∧
      (Chunk.makeAll chunks st).2.Reads (cellsOf (Chunk.makeAll chunks st).1)
        (Chunk.text chunks) := by
  rw [← Chunk.contentOf_makeAll chunks st]
  exact alone.beside_made (Chunk.undisturbed_makeAll chunks alone.hosts)

/-- A buffer of new chunks shows no cell twice, whatever its layout. -/
theorem Chunk.alone_makeAll (chunks : List (Chunk α)) (layout : Layout) (hosts : st.Hosts others) :
    Buffer.Alone ⟨.held (makeAll chunks st).1, layout⟩ ⟨others, []⟩ others (makeAll chunks st).2 where
  hosts := (undisturbed_makeAll chunks hosts).hosts
  distinct := (fresh_makeAll chunks st).distinct
  covers := Surroundings.covers_of_alive (List.Subset.refl _)
  free := rfl

/-! ## One order -/

/-- What is left of a buffer shows the given text and tells what is given, and the buffer can be
asked again. -/
structure Edited.Tells (r : Edited Buffer α (Told α)) (others : List Segment) (layout : Layout)
    (told : List α × Except Fault (Told α)) : Prop where
  hosts : r.store.Hosts (r.object.segments ++ others)
  distinct : r.object.cells.Nodup
  layout_eq : r.object.layout = layout
  content_eq : r.object.content r.store = told.1
  answer_eq : r.answer = told.2

/-- What is told, unless there was no room for `pending` units in the layout. -/
def Edited.TellsOrLacks (r : Edited Buffer α (Told α)) (others : List Segment) (layout : Layout)
    (pending : Nat) (told : List α × Except Fault (Told α)) : Prop :=
  r.Tells others layout told ∨ r.answer = .error .roomExceeded ∧ ¬layout.Allots α pending

omit [TextUnit α] in
/-- A change that takes segments in is refused only where a list of them cannot be opened. -/
theorem Buffer.taking_or_lacks (nothing : Bool) (changed : Buffer) :
    b.taking nothing changed = .ok changed ∨
      b.taking nothing changed = .error .roomExceeded ∧ ¬b.layout.opensList = true := by
  by_cases held : (nothing || b.canHold) = true
  · exact .inl (if_pos held)
  · refine .inr ⟨if_neg held, fun there => held ?_⟩
    rw [canHold_of_opensList there, Bool.or_true]

namespace Order

omit [TextUnit α] in
/-- What is done as a whole. -/
theorem tells_of_done {b' : Buffer} {text : List α} {r : Edited Buffer α Reply}
    (done : r = ⟨b', st', .ok .done⟩) (hosts : st'.Hosts (b'.segments ++ others))
    (distinct : b'.cells.Nodup) (layout : b'.layout = b.layout) (shown : b'.content st' = text) :
    r.told.Tells others b.layout (changed text) := by
  subst done
  exact ⟨hosts, distinct, layout, shown, rfl⟩

omit [TextUnit α] in
/-- What is done as a whole and shows given cells. -/
theorem tells_of_shown {b' : Buffer} {cells : List Cell} {text : List α}
    {r : Edited Buffer α Reply} (done : r = ⟨b', st', .ok .done⟩)
    (hosts : st'.Hosts (b'.segments ++ others)) (shows : b'.cells = cells) (distinct : cells.Nodup)
    (layout : b'.layout = b.layout) (reads : st'.Reads cells text) :
    r.told.Tells others b.layout (changed text) := by
  have valid : b'.Valid st' := Buffer.valid_of_hosts hosts (List.subset_append_left _ _)
  exact tells_of_done done hosts (shows ▸ distinct) layout (valid.content_eq shows reads)

omit [TextUnit α] in
/-- What is refused as a whole. -/
theorem tells_of_refused {text : List α} {r : Edited Buffer α Reply} {fault : Fault}
    (alone : b.Alone around others st') (refused : r = ⟨b, st', .error fault⟩)
    (shown : b.content st' = text) : r.told.Tells others b.layout (text, .error fault) := by
  subst refused
  exact ⟨alone.hosts, alone.distinct, rfl, shown, rfl⟩

/-- An append that leaves everything else as it is, and is not refused where there is room. -/
theorem tells_or_lacks_of_leaves {r : Edited Buffer α Unit} {text : List α} {pending : Nat}
    (undisturbed : Undisturbed others st r.object.segments r.store)
    (distinct : r.object.cells.Nodup) (layout : r.object.layout = b.layout)
    (leaves : r.Leaves text) (done : b.layout.Allots α pending → r.answer = .ok ()) :
    r.silent.told.TellsOrLacks others b.layout pending (changed text) := by
  obtain ⟨b', st', answer⟩ := r
  rcases leaves with ⟨⟨_, rfl⟩, shown⟩ | full
  · exact .inl (tells_of_done rfl undisturbed.hosts distinct layout shown)
  · obtain rfl : answer = .error .roomExceeded := full
    exact .inr ⟨rfl, fun allots => nomatch done allots⟩

section

variable (alone : b.Alone around others st)
include alone

/-! ### Appending and prepending -/

theorem tells_append (u : α) :
    (b.apply around st (.append u)).told.TellsOrLacks others b.layout 1
      (changed (b.content st ++ [u])) := by
  cases appended : b.append around u st with
  | ok made =>
      have whole : b.apply around st (.append u) = ⟨made.1, made.2, .ok .done⟩ := by
        rw [Buffer.apply, appended]
        rfl
      exact .inl (tells_of_done whole (Buffer.undisturbed_append around alone.hosts appended).hosts
        (Buffer.nodup_append around alone.hosts alone.distinct appended)
        (Buffer.layout_of_append appended) (Buffer.content_append around alone.hosts appended))
  | error fault =>
      obtain rfl := Buffer.refused_append around appended
      refine .inr ⟨by rw [Buffer.apply, appended]; rfl, fun allots => ?_⟩
      have admits : b.Admits α around 1 := ⟨alone.fills, allots⟩
      obtain ⟨made, done⟩ := Buffer.append_of_admits alone.hosts alone.lendsMade admits u
      cases appended.symm.trans done

/-- Both kinds of prepending end with the new window before all others. -/
theorem tells_pushFront (chunk : Chunk α) {r : Edited Buffer α Reply}
    (taken : b.prependSegment (chunk.make st).1 = .ok (b.pushFront (chunk.make st).1))
    (done : r = ⟨b.pushFront (chunk.make st).1, (chunk.make st).2, .ok .done⟩) :
    r.told.Tells others b.layout (changed (chunk.units ++ b.content st)) := by
  obtain ⟨hosts, own, new⟩ := alone.beside_chunks [chunk]
  have pushed := Buffer.hosts_prependSegment (s := (chunk.make st).1) hosts taken
  have cells : (b.pushFront (chunk.make st).1).cells =
      cellsOf (Chunk.makeAll [chunk] st).1 ++ b.cells := by
    rw [Buffer.cells_pushFront]
    exact congrArg (· ++ b.cells) (List.append_nil _).symm
  have shown := tells_of_shown (b := b) done pushed cells
    (Buffer.nodup_fresh_append alone.hosts alone.distinct (Chunk.fresh_makeAll [chunk] st))
    (Buffer.layout_pushFront _) (new.append own)
  rwa [Chunk.text, List.flatMap_cons, List.flatMap_nil, List.append_nil] at shown

theorem tells_appendSegment {chunk : Chunk α}
    (taken : b.appendSegment (chunk.make st).1 = .ok (b.push (chunk.make st).1)) :
    (b.apply around (chunk.make st).2 (.appendSegment (chunk.make st).1)).told.Tells others b.layout
      (changed (b.content st ++ chunk.units)) := by
  obtain ⟨hosts, own, new⟩ := alone.beside_chunks [chunk]
  have cells : (b.push (chunk.make st).1).cells =
      b.cells ++ cellsOf (Chunk.makeAll [chunk] st).1 := by
    rw [Buffer.cells_push]
    exact congrArg (b.cells ++ ·) (List.append_nil _).symm
  have done : b.apply around (chunk.make st).2 (.appendSegment (chunk.make st).1) =
      ⟨b.push (chunk.make st).1, (chunk.make st).2, .ok .done⟩ := by
    rw [Buffer.apply, taken]
    rfl
  have shown := tells_of_shown (b := b) done (Buffer.hosts_appendSegment hosts taken) cells
    (Buffer.nodup_append_fresh alone.hosts alone.distinct (Chunk.fresh_makeAll [chunk] st))
    (Buffer.layout_push _) (own.append new)
  rwa [Chunk.text, List.flatMap_cons, List.flatMap_nil, List.append_nil] at shown

theorem tells_appendOwned {chunks : List (Chunk α)}
    (taken : b.appendOwned (Chunk.buffer chunks st).1 =
      .ok (b.pushAll (Chunk.makeAll chunks st).1)) :
    (Edited.wholeObject b (Chunk.makeAll chunks st).2
      (b.appendOwned (Chunk.buffer chunks st).1)).silent.told.Tells others b.layout
      (changed (b.content st ++ Chunk.text chunks)) := by
  obtain ⟨hosts, own, new⟩ := alone.beside_chunks chunks
  refine tells_of_shown (b := b) ?_ (Buffer.hosts_appendOwned hosts taken)
    (Buffer.cells_of_appendOwned taken)
    (Buffer.nodup_append_fresh alone.hosts alone.distinct (Chunk.fresh_makeAll chunks st)) rfl
    (own.append new)
  rw [taken]
  rfl

theorem tells_appendBuffer {chunks : List (Chunk α)}
    (taken : b.appendBuffer (Chunk.buffer chunks st).1 =
      .ok (b.pushAll ((Chunk.makeAll chunks st).1.map Segment.shared))) :
    (b.apply around (Chunk.makeAll chunks st).2
      (.appendBuffer (Chunk.buffer chunks st).1)).told.Tells others b.layout
      (changed (b.content st ++ Chunk.text chunks)) := by
  obtain ⟨hosts, own, new⟩ := alone.beside_chunks chunks
  have views := Buffer.views_shared (b := (Chunk.buffer chunks st).1) hosts
    (List.subset_append_left _ _)
  have arranged : (Chunk.makeAll chunks st).2.Hosts
      (b.segments ++ ((Chunk.makeAll chunks st).1 ++ others)) := by
    refine hosts.perm ?_
    rw [← List.append_assoc, ← List.append_assoc]
    exact List.perm_append_comm.append_right others
  have pushed := Buffer.hosts_appendBuffer arranged (fun t found => ?_) taken
  · have kept := pushed.subperm
      ((List.subperm_append_left _).2 (List.sublist_append_right _ others).subperm)
    have done : b.apply around (Chunk.makeAll chunks st).2
        (.appendBuffer (Chunk.buffer chunks st).1) =
        ⟨b.pushAll ((Chunk.makeAll chunks st).1.map Segment.shared), (Chunk.makeAll chunks st).2,
          .ok .done⟩ := by
      rw [Buffer.apply, taken]
      rfl
    exact tells_of_shown (b := b) done kept (Buffer.cells_of_appendBuffer taken)
      (Buffer.nodup_append_fresh alone.hosts alone.distinct (Chunk.fresh_makeAll chunks st)) rfl
      (own.append new)
  · obtain ⟨s, here, view⟩ := views t found
    refine ⟨s, ?_, view⟩
    simpa only [List.mem_append, or_left_comm] using here

/-! ### Changing in place -/

theorem tells_setAt (i : Nat) (u : α) :
    (b.apply around st (.setAt i u)).told.Tells others b.layout (onText (b.content st) (.setAt i u))
    := by
  have total : (b.content st).length = b.length := alone.valid.length_content
  rw [onText]
  split
  next inside =>
    obtain ⟨st', done, shown⟩ := Buffer.content_setAt alone.hosts alone.distinct
      (fun s _ => alone.unlent s.storage) (total ▸ inside) u
    have whole : b.apply around st (.setAt i u) = ⟨b, st', .ok .done⟩ := by
      rw [Buffer.apply, done]
      rfl
    exact tells_of_done whole (Buffer.hosts_setAt alone.hosts done) alone.distinct rfl shown
  next outside =>
    refine tells_of_refused alone ?_ rfl
    rw [Buffer.apply, Buffer.setAt_of_le (by omega), total]
    rfl

omit [TextUnit α] in
theorem tells_mapUnits (f : α → α) :
    (Edited.mapped b (b.mapUnits around f st)).told.Tells others b.layout
      (changed ((b.content st).map f)) := by
  obtain ⟨done, shown⟩ := Buffer.content_mapUnits alone.hosts alone.distinct
    (fun s _ => alone.unlent s.storage) f
  have hosts : (b.mapUnits around f st).1.Hosts (b.segments ++ others) :=
    Buffer.hosts_mapEachSegment alone.hosts b.segments
  generalize b.mapUnits around f st = mapped at done shown hosts
  obtain ⟨st', answer⟩ := mapped
  obtain rfl : answer = none := done
  exact tells_of_done rfl hosts alone.distinct rfl shown

/-! ### Shortening -/

theorem tells_removeStart (count : Nat) :
    (b.apply around st (.removeStart count)).told.Tells others b.layout
      (changed ((b.content st).drop count)) :=
  tells_of_shown rfl (Buffer.hosts_removeStart alone.hosts count) (b.cells_removeStart count)
    (alone.distinct.sublist (List.drop_sublist _ _)) (Buffer.layout_mapSegments _)
    (alone.valid.reads.drop count)

theorem tells_removeEnd (count : Nat) :
    (b.apply around st (.removeEnd count)).told.Tells others b.layout
      (changed ((b.content st).take ((b.content st).length - count))) := by
  rw [alone.valid.length_content]
  exact tells_of_shown rfl (Buffer.hosts_removeEnd alone.covers alone.hosts count)
    (b.cells_removeEnd around count) (alone.distinct.sublist (List.take_sublist _ _))
    (Buffer.layout_mapSegments _) (alone.valid.reads.take _)

theorem tells_compact :
    (b.apply around st .compact).told.Tells others b.layout (changed (b.content st)) :=
  tells_of_done rfl (Buffer.undisturbed_compact alone.hosts).hosts (b.nodup_compact st)
    (Buffer.layout_mapSegments _) (Buffer.content_compact alone.hosts)

/-! ### Exchanging -/

theorem tells_replaceRange (start stop : Nat) {r : Buffer}
    (made : Undisturbed (b.segments ++ others) st r.segments st') (fresh : Fresh st r.segments) :
    (b.apply around st' (.replaceRange start stop r)).told.TellsOrLacks others b.layout 0
      (if start ≤ stop ∧ stop ≤ (b.content st).length then
        changed ((b.content st).take start ++ r.content st' ++ (b.content st).drop stop)
      else (b.content st, .error (.replaceRange start stop (b.content st).length))) := by
  obtain ⟨hosts, own, new⟩ := alone.beside_made made
  have total : (b.content st).length = b.length := alone.valid.length_content
  rw [total]
  split
  next inside =>
    by_cases held : b.canHold = true
    · obtain ⟨⟨b', c⟩, done⟩ := Buffer.splice_of_inside (r := r) held inside
      have whole : b.apply around st' (.replaceRange start stop r) = ⟨b', st', .ok .done⟩ := by
        rw [Buffer.apply, Buffer.replaceRange, done]
        rfl
      have distinct := Buffer.nodup_splice alone.hosts alone.distinct fresh done
      rw [Buffer.cells_splice done] at distinct
      exact .inl (tells_of_shown whole (Buffer.hosts_splice hosts done) (Buffer.cells_splice done)
        distinct (Buffer.layout_of_splice done)
        (((own.take start).append new).append (own.drop stop)))
    · have refused : b.splice start stop r = .error .roomExceeded := by
        rw [Buffer.splice, if_neg (not_not_intro inside), Bool.eq_false_iff.2 held]
        rfl
      refine .inr ⟨?_, fun allots => held (Buffer.canHold_of_opensList allots.list)⟩
      rw [Buffer.apply, Buffer.replaceRange, refused]
      rfl
  next outside =>
    refine .inl (tells_of_refused (alone.kept made) ?_
      (made.content_buffer_eq (List.subset_append_left _ _)))
    rw [Buffer.apply, Buffer.replaceRange, Buffer.splice_of_outside outside]
    rfl

theorem tells_replaceAll (search replacement : List α) :
    (b.apply around st (.replaceAll search replacement)).told.Tells others b.layout
      (onText (b.content st) (.replaceAll search replacement)) := by
  obtain ⟨answer, shown⟩ := Buffer.content_replaceAll search replacement alone.hosts
  refine ⟨(Buffer.undisturbed_replaceAll alone.hosts search replacement).hosts,
    Buffer.nodup_replaceAll alone.hosts alone.distinct search replacement,
    Buffer.layout_replaceFrom, shown, ?_⟩
  show (((b.replaceAll search replacement st).answer.map Reply.count).map _) = _
  rw [answer]
  rfl

/-- Values that are told by the number of the call and the enclosed text, each in new arrays. -/
theorem tells_substitute (opening closing : List α) {provider : Provider α}
    {value : Nat → List α → List α} (fair : provider.Fair []) (tells : provider.Tells st [] value)
    (makes : ∀ n inner st, Fresh st (provider n inner st).1.segments) :
    let found := spans opening closing (b.content st)
    let texts := enclosedBy found (b.content st)
    (b.apply around st (.substitute opening closing provider)).told.Tells others b.layout
      (exchanged (b.content st) found (valuesFor value 0 texts), .ok (.texts texts)) := by
  obtain ⟨asked, _, answer, exchanges⟩ := Buffer.exchanges_substitute b opening closing
    fair.serves tells.presents (List.nil_subset _) alone.hosts
  refine ⟨(Buffer.undisturbed_substitute opening closing fair (List.nil_subset _) alone.hosts).hosts,
    Buffer.nodup_substitute fair (List.nil_subset _) makes alone.hosts alone.distinct,
    Buffer.layout_substitute opening closing _, exchanges.content, ?_⟩
  show (((b.substitute opening closing provider st).answer.map Reply.enclosed).map _) = _
  rw [answer]
  exact congrArg (fun texts => Except.ok (Told.texts texts)) exchanges.texts

end

/-! ### All orders -/

/-- An order that takes segments in. -/
theorem tells_or_lacks_of_taking (nothing : Bool) (taken : Buffer) {pending : Nat}
    {r : Edited Buffer α Reply} {told : List α × Except Fault (Told α)}
    (done : b.taking nothing taken = .ok taken → r.told.Tells others b.layout told)
    (refused : b.taking nothing taken = .error .roomExceeded → r.answer = .error .roomExceeded) :
    r.told.TellsOrLacks others b.layout pending told := by
  rcases Buffer.taking_or_lacks (b := b) nothing taken with ok | ⟨full, lacks⟩
  · exact .inl (done ok)
  · exact .inr ⟨congrArg (Except.map _) (refused full), fun allots => lacks allots.list⟩

/-- **An order comes to what it comes to on the flat text**, whatever the layout, or is refused for
want of room in the layout. -/
theorem tells_or_lacks (alone : b.Alone around others st) (order : Order α) :
    (order.run b around st).TellsOrLacks others b.layout (Request.order order).pending
      (order.onText (b.content st)) := by
  have hosts := alone.hosts
  have distinct := alone.distinct
  cases order with
  | append u => exact tells_append alone u
  | appendSlice units =>
      exact tells_or_lacks_of_leaves (Buffer.undisturbed_appendSlice around hosts units)
        (Buffer.nodup_appendSlice around hosts distinct units) (Buffer.layout_appendSlice units)
        (Buffer.leaves_appendSlice around hosts units) fun allots =>
          Buffer.appendSlice_of_admits hosts alone.lendsMade ⟨alone.fills, allots⟩
  | appendText text =>
      exact tells_or_lacks_of_leaves (Buffer.undisturbed_appendText around hosts text)
        (Buffer.nodup_appendText around hosts distinct text) (Buffer.layout_appendText text)
        (Buffer.leaves_appendText around hosts text) fun allots =>
          Buffer.appendText_of_admits hosts alone.lendsMade ⟨alone.fills, allots⟩
  | extend units =>
      exact tells_or_lacks_of_leaves (Buffer.undisturbed_extend around hosts units)
        (Buffer.nodup_extend around hosts distinct units) (Buffer.layout_extend units)
        (Buffer.leaves_extend around hosts units) fun allots =>
          Buffer.extend_of_admits hosts alone.lendsMade ⟨alone.fills, allots⟩ units
  | appendSegment chunk =>
      exact tells_or_lacks_of_taking _ _ (tells_appendSegment alone) fun full =>
        congrArg (fun r => (Edited.wholeObject b _ r).silent.answer) full
  | appendBuffer chunks =>
      exact tells_or_lacks_of_taking _ _ (tells_appendBuffer alone) fun full =>
        congrArg (fun r => (Edited.wholeObject b _ r).silent.answer) full
  | appendOwned chunks =>
      exact tells_or_lacks_of_taking _ _ (tells_appendOwned alone) fun full =>
        congrArg (fun r => (Edited.wholeObject b _ r).silent.answer) full
  | prepend u =>
      have made : b.prepend u st = (b.prependSegment (Segment.ofUnits [u] st).1).map
          fun b => (b, (Segment.ofUnits [u] st).2) := rfl
      let s := (Segment.ofUnits [u] st).1
      refine tells_or_lacks_of_taking s.isEmpty (b.pushFront s) (fun taken => ?_) fun full => ?_
      · refine tells_pushFront alone ⟨[u], 1⟩ taken ?_
        rw [Buffer.apply, made, Buffer.prependSegment, taken]
        rfl
      · rw [Buffer.apply, made, Buffer.prependSegment, full]
        rfl
  | prependSegment chunk =>
      exact tells_or_lacks_of_taking _ _
        (fun taken => tells_pushFront alone chunk taken
          (congrArg (fun r => (Edited.wholeObject b _ r).silent) taken))
        fun full => congrArg (fun r => (Edited.wholeObject b _ r).silent.answer) full
  | setAt i u => exact .inl (tells_setAt alone i u)
  | replaceUnit old new => exact .inl (tells_mapUnits alone (replacing old new))
  | lowerCase => exact .inl (tells_mapUnits alone TextUnit.toLower)
  | upperCase => exact .inl (tells_mapUnits alone TextUnit.toUpper)
  | removeStart count => exact .inl (tells_removeStart alone count)
  | removeEnd count => exact .inl (tells_removeEnd alone count)
  | trimStart =>
      exact .inl (tells_of_done rfl (Buffer.hosts_trimStart hosts)
        (distinct.sublist (b.cells_trimStart st)) (Buffer.layout_mapSegments _)
        (Buffer.content_trimStart alone.valid))
  | trimEnd =>
      exact .inl (tells_of_done rfl (Buffer.hosts_trimEnd alone.covers hosts)
        (distinct.sublist (b.cells_trimEnd around st)) (Buffer.layout_mapSegments _)
        (Buffer.content_trimEnd alone.valid))
  | trim =>
      have layout : (b.trim around st).layout = b.layout :=
        (Buffer.layout_mapSegments _).trans (Buffer.layout_mapSegments _)
      exact .inl (tells_of_done rfl (Buffer.hosts_trim alone.covers hosts)
        (distinct.sublist (b.cells_trim around st)) layout (Buffer.content_trim alone.valid))
  | compact => exact .inl (tells_compact alone)
  | clear => exact .inl (tells_of_done rfl (Store.Hosts.right hosts) .nil rfl rfl)
  | replaceRange start stop chunks =>
      have told := tells_replaceRange (r := (Chunk.buffer chunks st).1) alone start stop
        (Chunk.undisturbed_makeAll chunks hosts) (Chunk.fresh_makeAll chunks st)
      have shown : (Chunk.buffer chunks st).1.content (Chunk.makeAll chunks st).2 =
          Chunk.text chunks := Chunk.contentOf_makeAll chunks st
      rwa [shown] at told
  | replaceAll search replacement => exact .inl (tells_replaceAll alone search replacement)
  | substitute opening closing values =>
      exact .inl (tells_substitute alone opening closing (fair_chunkProvider values)
        (tells_chunkProvider values st) fun n inner st => Chunk.fresh_makeAll _ st)

/-- Where there is room, an order comes to what it comes to on the flat text. -/
protected theorem tells (alone : b.Alone around others st) {order : Order α}
    (allots : b.layout.Allots α (Request.order order).pending) :
    (order.run b around st).Tells others b.layout (order.onText (b.content st)) :=
  (tells_or_lacks alone order).resolve_right fun lacks => lacks.2 allots

end Order

/-! ## One question -/

/-- **A question is answered as it is on the flat text**, whatever the layout. -/
theorem Question.answer_eq (hosts : st.Hosts (b.segments ++ others)) (asked : Question α) :
    asked.answer b st = asked.onText (b.content st) := by
  have valid : b.Valid st := Buffer.valid_of_hosts hosts (List.subset_append_left _ _)
  cases asked with
  | unitAt i =>
      rw [answer, onText, Buffer.unitAt_eq valid]
      cases (b.content st)[i]? <;> rfl
  | indexOf u start => rw [answer, onText, Buffer.indexOf_eq valid]
  | indexOfSlice pattern start => rw [answer, onText, Buffer.indexOfSlice_eq valid]
  | startsWith pattern => rw [answer, onText, Buffer.startsWith_eq valid]
  | endsWith pattern => rw [answer, onText, Buffer.endsWith_eq valid]
  | contains pattern => rw [answer, onText, Buffer.contains_eq valid]
  | substring start stop =>
      have cut := Buffer.substring_spec hosts start stop
      rw [answer, onText]
      split at cut
      next outside =>
        rw [cut, if_pos outside]
        rfl
      next inside =>
        obtain ⟨part, done, shown⟩ := cut
        rw [done, if_neg inside, ← shown]
        rfl
  | substringFrom start =>
      have cut := Buffer.substringFrom_spec hosts start
      rw [answer, onText]
      split at cut
      next outside =>
        rw [cut, if_pos outside]
        rfl
      next inside =>
        obtain ⟨part, done, shown⟩ := cut
        rw [done, if_neg inside, ← shown]
        rfl
  | split separator => rw [answer, onText, Buffer.content_split]

/-! ## Many requests -/

namespace Request

theorem tells (alone : b.Alone around others st) {request : Request α}
    (allots : b.layout.Allots α request.pending) :
    (request.run b around st).Tells others b.layout (request.onText (b.content st)) := by
  cases request with
  | order given => exact given.tells alone allots
  | ask asked => exact ⟨alone.hosts, alone.distinct, rfl, rfl, asked.answer_eq alone.hosts⟩

/-- The trace of a buffer is the trace of the flat text. -/
theorem trace_eq_textTrace {requests : List (Request α)} (alone : b.Alone around others st)
    (allots : ∀ request ∈ requests, b.layout.Allots α request.pending) :
    trace around requests b st = textTrace requests (b.content st) := by
  induction requests generalizing b st with
  | nil => rfl
  | cons request rest ih =>
      have told := tells alone (allots request List.mem_cons_self)
      have again : (request.run b around st).object.Alone around others
          (request.run b around st).store := ⟨told.hosts, told.distinct, alone.covers, alone.free⟩
      have later : ∀ request' ∈ rest,
          (request.run b around st).object.layout.Allots α request'.pending := fun request' here =>
        told.layout_eq ▸ allots request' (List.mem_cons_of_mem _ here)
      rw [trace, textTrace, ih again later, told.content_eq, told.answer_eq]

/-- **Neither segmentation nor layout shows.**  Of two buffers that show the same text, each of
which shows no cell twice and has its cells to itself, the same requests make buffers that show the
same text after every step, with the same answer, count, list of enclosed texts or fault at every
step. -/
theorem trace_eq_trace {b b' : Buffer} {around around' : Surroundings}
    {others others' : List Segment} {st st' : Store α} {requests : List (Request α)}
    (alone : b.Alone around others st) (alone' : b'.Alone around' others' st')
    (same : b.content st = b'.content st')
    (allots : ∀ request ∈ requests, b.layout.Allots α request.pending)
    (allots' : ∀ request ∈ requests, b'.layout.Allots α request.pending) :
    trace around requests b st = trace around' requests b' st' := by
  rw [trace_eq_textTrace alone allots, trace_eq_textTrace alone' allots', same]

/-- One text, in three segments of which one shows nothing, and in one segment of a buffer that
opens small segments. -/
theorem trace_eq_trace_pieces :
    let cut : List (Chunk Char) := [⟨['a', 'b'], 4⟩, ⟨[], 0⟩, ⟨['c', 'a', 'b'], 0⟩]
    let whole : List (Chunk Char) := [⟨['a', 'b', 'c', 'a', 'b'], 0⟩]
    let requests : List (Request Char) := [.order (.replaceRange 1 3 [⟨['x', 'y'], 0⟩]),
      .order (.append 'c'), .order (.setAt 6 'z'), .ask (.substring 2 7), .ask (.split 'y'),
      .order .upperCase]
    let run (chunks : List (Chunk Char)) (layout : Layout) :=
      trace {} requests ⟨.held (Chunk.makeAll chunks {}).1, layout⟩ (Chunk.makeAll chunks {}).2
    run cut {} = run whole ⟨1, 0, 1⟩ ∧
      run whole ⟨1, 0, 1⟩ = [(['a', 'x', 'y', 'a', 'b'], .ok .done),
        (['a', 'x', 'y', 'a', 'b', 'c'], .ok .done),
        (['a', 'x', 'y', 'a', 'b', 'c'], .error (.bufferIndex 6 6)),
        (['a', 'x', 'y', 'a', 'b', 'c'], .error (.substringEnd 7 6)),
        (['a', 'x', 'y', 'a', 'b', 'c'], .ok (.texts [['a', 'x'], ['a', 'b', 'c']])),
        (['A', 'X', 'Y', 'A', 'B', 'C'], .ok .done)] := by
  intro cut whole requests run
  have small : ∀ layout ∈ [({} : Layout), ⟨1, 0, 1⟩], ∀ request ∈ requests,
      layout.Allots Char request.pending := by
    intro layout either request here
    have few : request.pending ≤ 1 := by
      simp only [requests, List.mem_cons, List.not_mem_nil, or_false] at here
      rcases here with rfl | rfl | rfl | rfl | rfl | rfl <;> decide
    simp only [List.mem_cons, List.not_mem_nil, or_false] at either
    rcases either with rfl | rfl
    · exact Layout.Allots.mono ⟨by decide, by decide⟩ few
    · exact Layout.Allots.mono ⟨by decide, by decide⟩ few
  refine ⟨trace_eq_trace (Chunk.alone_makeAll cut {} (.nil {}))
    (Chunk.alone_makeAll whole ⟨1, 0, 1⟩ (.nil {})) (by decide) (small _ (by decide))
    (small _ (by decide)), by decide⟩

end Request

end SegmentedText
