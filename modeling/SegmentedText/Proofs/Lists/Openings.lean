import SegmentedText.Proofs.Lists.Thinning
import SegmentedText.Proofs.Ownership.Objects

/-!
# What a buffer was opened with

One way of making a buffer puts a hollow segment into it: a buffer that is made for a capacity is
opened with the segment that has the room.  A second buffer on the same cells has a view of
that segment, and no other way of making or deriving a buffer leaves a hollow segment in it
(`Object.opened_make`, `Object.opened_derive`, `Object.opened_split`).

A buffer is as it was opened (`Buffer.Opened`) if the list of its segments is not kept without a
segment in it, and no segment is hollow but the one that it was opened with.  Whatever thins a
buffer leaves it so, and edits, reading and writing do nothing else.
-/

set_option autoImplicit false

namespace SegmentedText

/-! ## Buffers with an opening -/

namespace Buffer

/-- A list that is kept is not empty, and no segment is hollow but the one that the buffer was
opened with, if there was one. -/
structure Opened (b : Buffer) (opening : Option Segment) : Prop where
  listed : b.segmentList ≠ .held []
  hollow : (hollowOf b.segments).Sublist opening.toList

variable {b b' : Buffer} {opening : Option Segment}

theorem Opened.thin (opened : b.Opened opening) (thins : b.Thins b') : b'.Opened opening :=
  ⟨thins.listed opened.listed, thins.hollow.trans opened.hollow⟩

theorem Opened.of_shows (listed : b.segmentList ≠ .held [])
    (shows : ∀ s ∈ b.segments, s.isEmpty = false) : b.Opened none := by
  refine ⟨listed, ?_⟩
  have none : hollowOf b.segments = [] :=
    List.filter_eq_nil_iff.2 fun s here => by simp [shows s here]
  rw [none]
  exact .refl _

theorem opened_ofLayout (layout : Layout) : (ofLayout layout).Opened none := ⟨nofun, .refl _⟩

/-- A buffer that came about from one without segments. -/
theorem opened_of_empty (thins : ({} : Buffer).Thins b) : b.Opened none :=
  (opened_ofLayout {}).thin thins

theorem opened_ofSegment (s : Segment) : (ofSegment s).Opened none :=
  opened_of_empty (thins_push s)

/-- A second buffer on the same cells has a view of the opening. -/
theorem Opened.shared (opened : b.Opened opening) :
    b.shared.Opened (opening.map Segment.shared) := by
  refine ⟨?_, ?_⟩
  · unfold Buffer.shared
    split
    next vacant => exact opened.listed
    next segments held =>
      intro same
      refine opened.listed ?_
      rw [held, List.map_eq_nil_iff.1 (SegmentList.held.inj same)]
  · rw [segments_shared, hollowOf_shared, Option.toList_map]
    exact opened.hollow.map Segment.shared

/-! ### Parts and pieces -/

/-- No segment of a part shows nothing. -/
theorem opened_part (b : Buffer) (start stop : Nat) : (b.part start stop).Opened none := by
  unfold part
  split
  next => exact opened_ofLayout _
  next proper =>
    dsimp only
    split
    next front back first last =>
      have front_inside := Cursor.offset_lt_of_locate first
      split
      next same =>
        have le : (Cursor.locate b.segments start).offset ≤
            (Cursor.locate b.segments (stop - 1)).offset := by
          rcases Cursor.locate_mono b.segments (show start ≤ stop - 1 by omega)
            with less | ⟨-, le⟩
          · omega
          · exact le
        refine .of_shows nofun fun s here => ?_
        obtain rfl := List.mem_singleton.1 here
        exact Segment.isEmpty_window _ (by omega)
      next =>
        refine .of_shows nofun fun s here => ?_
        rcases List.mem_append.1 here with most | final
        · rcases List.mem_append.1 most with initial | between
          · obtain rfl := List.mem_singleton.1 initial
            exact Segment.isEmpty_window _ front_inside
          · have shows := (List.mem_filter.1 between).2
            simpa using shows
        · obtain rfl := List.mem_singleton.1 final
          exact Segment.isEmpty_window _ (Nat.succ_pos _)
    next => exact opened_ofLayout _

theorem opened_substring {part : Buffer} {start stop : Nat}
    (done : b.substring start stop = .ok part) : part.Opened none := by
  unfold substring at done
  split at done
  · cases done
  · cases done
    exact opened_part b start stop

theorem opened_substringFrom {part : Buffer} {start : Nat}
    (done : b.substringFrom start = .ok part) : part.Opened none := by
  unfold substringFrom at done
  split at done
  · cases done
  · exact opened_substring done

theorem opened_cutSegment (layout : Layout) (s : Segment) (bounds : List (Nat × Nat))
    {current : Buffer} (opened : current.Opened none) :
    (∀ piece ∈ (cutSegment layout s bounds current).1, piece.Opened none) ∧
      (cutSegment layout s bounds current).2.Opened none := by
  induction bounds generalizing current with
  | nil => exact ⟨nofun, opened⟩
  | cons bound rest ih =>
      have first := opened.thin (thins_push (s.window bound.1 bound.2))
      cases rest with
      | nil => exact ⟨nofun, first⟩
      | cons next more =>
          obtain ⟨others, final⟩ := ih (opened_ofLayout layout)
          refine ⟨fun piece here => ?_, final⟩
          rcases List.mem_cons.1 here with rfl | later
          · exact first
          · exact others piece later

variable {α : Type} [TextUnit α]

theorem opened_splitSegments (layout : Layout) (separator : α) (st : Store α)
    (segments : List Segment) {current : Buffer} (opened : current.Opened none) :
    ∀ piece ∈ splitSegments layout separator st segments current, piece.Opened none := by
  induction segments generalizing current with
  | nil =>
      intro piece here
      obtain rfl := List.mem_singleton.1 here
      exact opened
  | cons s rest ih =>
      obtain ⟨pieces, last⟩ :=
        opened_cutSegment layout s (pieceBounds separator (s.content st) 0 0) opened
      intro piece here
      rcases List.mem_append.1 here with first | later
      · exact pieces piece first
      · exact ih last piece later

/-! ### Making -/

theorem opened_withCapacity {capacity : Nat} {st : Store α} {made : Buffer × Store α}
    (done : withCapacity capacity st = .ok made) :
    made.1.Opened ((Segment.withCapacity capacity st).toOption.map Prod.fst) := by
  obtain ⟨⟨s, st'⟩, room, rfl⟩ := eq_ok_of_map done
  rw [room]
  exact ⟨nofun, List.filter_sublist⟩

theorem opened_withRoom {units : List α} {capacity : Nat} {st : Store α} {made : Buffer × Store α}
    (done : withRoom units capacity st = .ok made) : made.1.Opened none := by
  obtain ⟨⟨s, st'⟩, -, rfl⟩ := eq_ok_of_map done
  exact opened_ofSegment s

theorem opened_appendParts {parts : List String} {st : Store α} {made : Buffer × Store α}
    (opened : b.Opened opening) (done : appendParts b parts st = .ok made) :
    made.1.Opened opening := by
  induction parts generalizing b st with
  | nil =>
      cases done
      exact opened
  | cons part rest ih =>
      rw [appendParts] at done
      dsimp only at done
      split at done
      next b' appended => exact ih (opened.thin (thins_appendSegment appended)) done
      next => cases done

theorem opened_ofJson {codec : JsonCodec} {json : String} {st : Store α} {made : Buffer × Store α}
    (done : ofJson codec json st = .ok made) : made.1.Opened none := by
  unfold ofJson at done
  split at done
  · obtain ⟨cs, -, rfl⟩ := eq_ok_of_map done
    exact opened_ofSegment _
  · obtain ⟨value, -, rfl⟩ := eq_ok_of_map done
    cases value <;> exact opened_ofSegment _

theorem opened_ofValue {value : SerialValue} {st : Store α} {made : Buffer × Store α}
    (done : ofValue value st = .ok made) : made.1.Opened none := by
  unfold ofValue at done
  split at done
  · cases value <;> cases done <;> exact opened_ofSegment _
  · cases value
    case sequence elements =>
      obtain ⟨bytes, -, rfl⟩ := eq_ok_of_map done
      exact opened_ofSegment _
    case text | ownedText | character | bytes | ownedBytes =>
      cases done
      exact opened_ofSegment _
    all_goals cases done

end Buffer

/-! ## Objects with an opening -/

/-- What a new object is opened with. -/
def Make.opening? {α : Type} [TextUnit α] (st : Store α) : Make → Option Segment
  | .bufferWithCapacity capacity => (Segment.withCapacity capacity st).toOption.map Prod.fst
  | _ => none

/-- What a derived object is opened with, given the opening of the one that it is derived from. -/
def Derive.opening? (what : Derive) (source : Option Segment) : Option Segment :=
  match what with
  | .shared => source.map Segment.shared
  | _ => none

namespace Object

/-- The buffer that an object is or holds is as it was opened. -/
def Opened (o : Object) (opening : Option Segment) : Prop :=
  ∀ b, o.buffer? = some b → b.Opened opening

variable {opening : Option Segment}

theorem opened_segment (s : Segment) : (Object.segment s).Opened opening := nofun

theorem opened_buffer {b : Buffer} (opened : b.Opened opening) : (Object.buffer b).Opened opening :=
  fun _ same => Option.some.inj same ▸ opened

theorem opened_bounded {b : Bounded} (opened : b.inner.Opened opening) :
    (Object.bounded b).Opened opening := fun _ same => Option.some.inj same ▸ opened

variable {α : Type} [TextUnit α] {st : Store α} {live : List Segment}

theorem opened_make {what : Make} {made : Object × Store α} (hosts : st.Hosts live)
    (done : what.run st = .ok made) : made.1.Opened (what.opening? st) := by
  cases what with
  | segment | segmentOfUnits | segmentOfText =>
      cases done
      exact opened_segment _
  | segmentWithCapacity | segmentOfArray =>
      obtain ⟨fresh, -, rfl⟩ := eq_ok_of_map done
      exact opened_segment _
  | buffer layout =>
      cases done
      exact opened_buffer (Buffer.opened_ofLayout layout)
  | bufferWithCapacity capacity =>
      obtain ⟨fresh, made, rfl⟩ := eq_ok_of_map done
      exact opened_buffer (Buffer.opened_withCapacity made)
  | bufferOfUnits | bufferOfText =>
      cases done
      exact opened_buffer (Buffer.opened_ofSegment _)
  | bufferOfArray text capacity =>
      obtain ⟨fresh, made, rfl⟩ := eq_ok_of_map done
      exact opened_buffer (Buffer.opened_withRoom made)
  | bufferOfEach text =>
      obtain ⟨_, -, rfl⟩ := eq_ok_of_map done
      exact opened_buffer (Buffer.opened_of_empty (Buffer.thins_extend (b := {}) {} hosts _))
  | bufferOfParts parts layout =>
      obtain ⟨fresh, made, rfl⟩ := eq_ok_of_map done
      exact opened_buffer (Buffer.opened_appendParts (Buffer.opened_ofLayout layout) made)
  | bounded maxSize layout =>
      cases done
      exact opened_bounded (Buffer.opened_ofLayout layout)

theorem Opened.shared {o : Object} (opened : o.Opened opening) :
    o.shared.Opened (opening.map Segment.shared) := by
  cases o with
  | segment s => exact opened_segment _
  | buffer b => exact opened_buffer (opened b rfl).shared
  | bounded b => exact opened_buffer (opened b.inner rfl).shared

theorem opened_derive {what : Derive} {o : Object} {made : Object × Store α}
    (opened : o.Opened opening) (done : what.run st o = some (.ok made)) :
    made.1.Opened (what.opening? opening) := by
  cases what with
  | substring start stop =>
      cases o with
      | segment s =>
          obtain ⟨part, -, rfl⟩ := eq_ok_of_map (Option.some.inj done)
          exact opened_segment _
      | buffer b | bounded b =>
          obtain ⟨part, cut, rfl⟩ := eq_ok_of_map (Option.some.inj done)
          exact opened_buffer (Buffer.opened_substring cut)
  | substringFrom start =>
      cases o with
      | segment s =>
          obtain ⟨part, -, rfl⟩ := eq_ok_of_map (Option.some.inj done)
          exact opened_segment _
      | buffer b | bounded b =>
          obtain ⟨part, cut, rfl⟩ := eq_ok_of_map (Option.some.inj done)
          exact opened_buffer (Buffer.opened_substringFrom cut)
  | copy =>
      cases o with
      | segment s =>
          cases done
          exact opened_segment _
      | buffer b | bounded b =>
          cases done
          exact opened_buffer ((Buffer.opened_ofLayout _).thin (Buffer.thins_push _))
  | shared =>
      cases done
      exact opened.shared
  | segmentAt i =>
      obtain ⟨s, -, same⟩ := Option.map_eq_some_iff.1 done
      obtain rfl := Except.ok.inj same
      exact opened_segment _

theorem opened_split (o : Object) (c : Char) (st : Store α) :
    ∀ piece ∈ (o.split c st).1, piece.Opened none := by
  intro piece here
  cases o with
  | segment s =>
      obtain ⟨t, -, rfl⟩ := List.mem_map.1 here
      exact opened_segment t
  | buffer b | bounded b =>
      obtain ⟨cut, found, rfl⟩ := List.mem_map.1 here
      exact opened_buffer (Buffer.opened_splitSegments _ _ st _ (Buffer.opened_ofLayout _) cut found)

/-- Edits thin. -/
theorem opened_apply {o : Object} {others : List Segment} {around : Surroundings} {edit : Edit α}
    {r : Edited Object α Reply} (hosts : st.Hosts (o.segments ++ others))
    (opened : o.Opened opening) (applied : o.apply around st edit = some r) :
    r.object.Opened opening := by
  cases o with
  | segment s =>
      obtain ⟨_, -, rfl⟩ := Option.map_eq_some_iff.1 applied
      exact opened_segment _
  | buffer b =>
      cases applied
      exact opened_buffer ((opened b rfl).thin (Buffer.thins_apply hosts around edit))
  | bounded b =>
      cases applied
      exact opened_bounded ((opened b.inner rfl).thin (Bounded.thins_apply hosts around edit))

end Object

/-! ## Streams -/

section

variable {α : Type} [TextUnit α] {st : Store α} {live : List Segment}

theorem thins_cursor_pour {segments : List Segment} {delimiter : α} {around : Surroundings}
    {c : Cursor} {sink : Buffer} (hosts : st.Hosts (sink.segments ++ live)) :
    sink.Thins (c.pour segments delimiter around sink st).2.object := by
  fun_induction Cursor.pour segments delimiter around c sink st with
  | case1 => exact .refl _
  | case2 => exact Buffer.thins_appendSlice around hosts _
  | case3 => exact Buffer.thins_appendSlice around hosts _
  | case4 c sink st s here absent r done ih =>
      have first : Undisturbed live st r.object.segments r.store :=
        Buffer.undisturbed_appendSlice around hosts _
      exact (Buffer.thins_appendSlice around hosts _).trans (ih first.hosts)
  | case5 => exact Buffer.thins_appendSlice around hosts _

theorem thins_readUntil {r : Reader α} {delimiter : α} {around : Surroundings} {sink : Buffer}
    (hosts : st.Hosts (sink.segments ++ live)) :
    sink.Thins (r.readUntil delimiter around sink st).2.object := by
  unfold Reader.readUntil
  split
  next => exact thins_cursor_pour hosts
  next u back =>
    dsimp only
    split
    next => exact .refl _
    next =>
      split
      next sink' st' done =>
        have first := Buffer.undisturbed_append around hosts done
        exact (Buffer.thins_append around hosts done).trans (thins_cursor_pour first.hosts)
      next => exact .refl _

namespace Writer

variable {w : Writer} (around : Surroundings)

theorem thins_write (hosts : st.Hosts (w.buffer.segments ++ live)) (u : α) :
    w.buffer.Thins (w.write around u st).object.buffer :=
  buffer_counting (Edited.object_whole (.refl _) fun _ done => Buffer.thins_append around hosts done)

theorem thins_writeChars (hosts : st.Hosts (w.buffer.segments ++ live)) (cs : List Char) :
    w.buffer.Thins (w.writeChars around cs st).object.buffer := by
  induction cs generalizing w st with
  | nil => exact .refl _
  | cons c cs ih =>
      have first := thins_write around hosts (TextUnit.ofChar c : α)
      rw [writeChars]
      split
      next =>
        exact first.trans (ih (undisturbed_write around hosts (TextUnit.ofChar c : α)).hosts)
      next => exact first

theorem thins_showSegments (hosts : st.Hosts (w.buffer.segments ++ live))
    (segments : List Segment) :
    w.buffer.Thins (w.showSegments around segments st).object.buffer := by
  induction segments generalizing w st with
  | nil => exact .refl _
  | cons s rest ih =>
      have first := thins_writeChars (around.lending s.storage) hosts
        ((s.content st).map TextUnit.toChar)
      rw [showSegments]
      split
      next =>
        exact first.trans (ih (undisturbed_writeChars (around.lending s.storage) hosts
          ((s.content st).map TextUnit.toChar)).hosts)
      next => exact first

end Writer

end

end SegmentedText
