import SegmentedText.Proofs.Ownership.Edits
import SegmentedText.World.Making
import SegmentedText.World.Streaming

/-!
# New objects and streams beside other windows

Objects that are made have their windows to themselves (`undisturbed_make`).  Objects
that are derived from others, and the pieces of an object, show cells of it through
views, or cells of their own (`undisturbed_derive`, `undisturbed_split`).  What a
reader pours into a sink and what a writer writes are appends, one after the other
(`undisturbed_readUntil`, `Writer.undisturbed_showSegments`).
-/

set_option autoImplicit false

namespace SegmentedText

variable {α : Type} [TextUnit α] {st : Store α} {live : List Segment}

/-! ## Making and deriving -/

theorem eq_ok_of_map {ε β γ : Type} {f : β → γ} {r : Except ε β} {made : γ}
    (done : r.map f = .ok made) : ∃ value, r = .ok value ∧ f value = made := by
  cases r with
  | ok value => exact ⟨value, rfl, Except.ok.inj done⟩
  | error e => cases done

theorem undisturbed_appendParts {b : Buffer} {parts : List String} {made : Buffer × Store α}
    (hosts : st.Hosts (b.segments ++ live)) (done : appendParts b parts st = .ok made) :
    Undisturbed live st made.1.segments made.2 := by
  induction parts generalizing b st with
  | nil =>
      cases done
      exact .refl hosts
  | cons part rest ih =>
      have fresh := undisturbed_allocate (TextUnit.unitsOf part)
        (TextUnit.unitsOf part : List α).length hosts
      rw [appendParts] at done
      dsimp only at done
      split at done
      next b' appended =>
        have taken : Undisturbed live st b'.segments
            (Segment.ofUnits (TextUnit.unitsOf part) st).2 :=
          ⟨Buffer.hosts_appendSegment fresh.hosts appended,
            fresh.keeps.subset (List.subset_append_right _ _), fresh.size_le⟩
        exact taken.trans (ih taken.hosts done)
      next => cases done

/-- A new object has its windows to itself. -/
theorem undisturbed_make {what : Make} {made : Object × Store α} (hosts : st.Hosts live)
    (done : what.run st = .ok made) : Undisturbed live st made.1.segments made.2 := by
  cases what with
  | segment =>
      cases done
      exact undisturbed_allocate [] 0 hosts
  | segmentWithCapacity capacity =>
      obtain ⟨fresh, filled, rfl⟩ := eq_ok_of_map done
      exact Segment.undisturbed_withRoom hosts filled
  | segmentOfUnits text =>
      cases done
      exact undisturbed_allocate _ _ hosts
  | segmentOfArray text capacity =>
      obtain ⟨fresh, filled, rfl⟩ := eq_ok_of_map done
      exact Segment.undisturbed_withRoom hosts filled
  | segmentOfText text =>
      cases done
      exact undisturbed_allocate _ _ hosts
  | buffer layout =>
      cases done
      exact .refl hosts
  | bufferWithCapacity capacity =>
      obtain ⟨fresh, filled, rfl⟩ := eq_ok_of_map done
      exact Buffer.undisturbed_withCapacity hosts filled
  | bufferOfUnits text =>
      cases done
      exact Buffer.undisturbed_ofUnits hosts _
  | bufferOfArray text capacity =>
      obtain ⟨fresh, filled, rfl⟩ := eq_ok_of_map done
      exact Buffer.undisturbed_withRoom hosts filled
  | bufferOfText text =>
      cases done
      exact Buffer.undisturbed_ofText hosts text
  | bufferOfEach text =>
      obtain ⟨_, _, rfl⟩ := eq_ok_of_map done
      exact Buffer.undisturbed_extend (b := {}) {} hosts _
  | bufferOfParts parts layout =>
      obtain ⟨fresh, filled, rfl⟩ := eq_ok_of_map done
      exact undisturbed_appendParts (b := Buffer.ofLayout layout) hosts filled
  | bounded maxSize layout =>
      cases done
      exact .refl hosts

omit [TextUnit α] in
/-- Views of what is alive are hosted beside it. -/
theorem undisturbed_views {views : List Segment} (hosts : st.Hosts live)
    (shown : ∀ t ∈ views, ∃ s ∈ live, t.Views s) : Undisturbed live st views st :=
  .refl (hosts.views shown)

theorem mem_of_segmentAt? {o : Object} {i : Nat} {s : Segment} (found : o.segmentAt? i = some s) :
    s ∈ o.segments := by
  cases o with
  | segment t =>
      obtain rfl := Option.some.inj found
      exact List.mem_cons_self
  | buffer b | bounded b => exact List.mem_of_getElem? found

/-- A copy shows cells of its own. -/
theorem undisturbed_copied {o : Object} {made : Object × Store α} (hosts : st.Hosts live)
    (done : Derive.copy.run st o = some (.ok made)) :
    Undisturbed live st made.1.segments made.2 := by
  cases o with
  | segment s =>
      cases done
      exact undisturbed_allocate _ _ hosts
  | buffer b | bounded b =>
      cases done
      exact Buffer.undisturbed_copy hosts _

/-- A derived object shows cells of the object that it was derived from, or cells of its own. -/
theorem undisturbed_derive {what : Derive} {o : Object} {made : Object × Store α}
    (hosts : st.Hosts live) (alive : o.segments ⊆ live) (done : what.run st o = some (.ok made)) :
    Undisturbed live st made.1.segments made.2 := by
  have viewed : ∀ {b part : Buffer}, b.segments ⊆ live →
      (∀ t ∈ part.segments, ∃ s ∈ b.segments, t.Views s) → Undisturbed live st part.segments st :=
    fun alive shown => undisturbed_views hosts fun t found =>
      let ⟨s, here, view⟩ := shown t found
      ⟨s, alive here, view⟩
  cases what with
  | substring start stop =>
      cases o with
      | segment s =>
          obtain ⟨part, cut, rfl⟩ := eq_ok_of_map (Option.some.inj done)
          exact Segment.undisturbed_substring hosts (alive List.mem_cons_self) cut
      | buffer b | bounded b =>
          obtain ⟨part, cut, rfl⟩ := eq_ok_of_map (Option.some.inj done)
          exact viewed alive (Buffer.views_substring (Buffer.ordered_of_hosts hosts alive) cut)
  | substringFrom start =>
      cases o with
      | segment s =>
          obtain ⟨part, cut, rfl⟩ := eq_ok_of_map (Option.some.inj done)
          exact Segment.undisturbed_substringFrom hosts (alive List.mem_cons_self) cut
      | buffer b | bounded b =>
          obtain ⟨part, cut, rfl⟩ := eq_ok_of_map (Option.some.inj done)
          exact viewed alive (Buffer.views_substringFrom (Buffer.ordered_of_hosts hosts alive) cut)
  | copy => exact undisturbed_copied hosts done
  | shared =>
      cases done
      cases o with
      | segment s =>
          refine undisturbed_views hosts fun t found => ?_
          obtain rfl := List.mem_singleton.1 found
          have here := alive List.mem_cons_self
          exact ⟨s, here, Segment.views_shared (hosts.placed s here).valid.start_le_stop⟩
      | buffer b | bounded b => exact undisturbed_views hosts (Buffer.views_shared hosts alive)
  | segmentAt i =>
      obtain ⟨s, found, same⟩ := Option.map_eq_some_iff.1 done
      obtain rfl := Except.ok.inj same
      have here := alive (mem_of_segmentAt? found)
      refine undisturbed_views hosts fun t shown => ?_
      obtain rfl := List.mem_singleton.1 shown
      exact ⟨s, here, Segment.views_shared (hosts.placed s here).valid.start_le_stop⟩

/-- The pieces of an object show cells of it, or no cells. -/
theorem undisturbed_split {o : Object} (hosts : st.Hosts live) (alive : o.segments ⊆ live)
    (c : Char) : Undisturbed live st ((o.split c st).1.flatMap Object.segments) (o.split c st).2 := by
  have pieces : ∀ {b : Buffer}, b.segments ⊆ live →
      Undisturbed live st ((b.split (TextUnit.ofChar c) st).flatMap Buffer.segments) st := by
    intro b alive
    refine undisturbed_views hosts fun t found => ?_
    obtain ⟨piece, cut, shown⟩ := List.mem_flatMap.1 found
    obtain ⟨s, here, view⟩ := Buffer.views_split (Buffer.ordered_of_hosts hosts alive) piece cut t
      shown
    exact ⟨s, alive here, view⟩
  cases o with
  | segment s =>
      have cut := Segment.undisturbed_split hosts (alive List.mem_cons_self) (TextUnit.ofChar c : α)
      have shown : ((Object.segment s).split c st).1.flatMap Object.segments =
          (s.split (TextUnit.ofChar c : α) st).1 := by
        simp [Object.split, List.flatMap_map, Object.segments]
      rw [shown]
      exact cut
  | buffer b =>
      have cut := pieces alive
      have shown : ((Object.buffer b).split c st).1.flatMap Object.segments =
          (b.split (TextUnit.ofChar c) st).flatMap Buffer.segments := by
        simp only [Object.split, List.flatMap_map]
        rfl
      rw [shown]
      exact cut
  | bounded b =>
      have cut := pieces alive
      have shown : ((Object.bounded b).split c st).1.flatMap Object.segments =
          (b.inner.split (TextUnit.ofChar c) st).flatMap Buffer.segments := by
        simp only [Object.split, List.flatMap_map]
        rfl
      rw [shown]
      exact cut

/-! ## Serial forms -/

theorem Buffer.undisturbed_ofJson {codec : JsonCodec} {json : String} {made : Buffer × Store α}
    (hosts : st.Hosts live) (done : Buffer.ofJson codec json st = .ok made) :
    Undisturbed live st made.1.segments made.2 := by
  unfold Buffer.ofJson at done
  split at done
  · obtain ⟨cs, _, rfl⟩ := eq_ok_of_map done
    exact undisturbed_ofText hosts _
  · obtain ⟨value, _, rfl⟩ := eq_ok_of_map done
    cases value with
    | string bytes => exact undisturbed_ofUnits hosts _
    | array bytes => exact undisturbed_ofArray hosts _ _

theorem Buffer.undisturbed_ofTextValue {value : SerialValue} {made : Buffer × Store α}
    (hosts : st.Hosts live) (done : Buffer.ofTextValue value st = .ok made) :
    Undisturbed live st made.1.segments made.2 := by
  cases value <;> cases done <;> exact undisturbed_ofText hosts _

theorem Buffer.undisturbed_ofBytesValue {value : SerialValue} {made : Buffer × Store α}
    (hosts : st.Hosts live) (done : Buffer.ofBytesValue value st = .ok made) :
    Undisturbed live st made.1.segments made.2 := by
  cases value
  case sequence elements =>
    obtain ⟨bytes, _, rfl⟩ := eq_ok_of_map done
    exact undisturbed_ofUnits hosts _
  case text | ownedText | character =>
    cases done
    exact undisturbed_ofText hosts _
  case bytes | ownedBytes =>
    cases done
    exact undisturbed_ofUnits hosts _
  all_goals cases done

theorem Buffer.undisturbed_ofValue {value : SerialValue} {made : Buffer × Store α}
    (hosts : st.Hosts live) (done : Buffer.ofValue value st = .ok made) :
    Undisturbed live st made.1.segments made.2 := by
  unfold Buffer.ofValue at done
  split at done
  · exact undisturbed_ofTextValue hosts done
  · exact undisturbed_ofBytesValue hosts done

/-! ## Streams -/

theorem undisturbed_cursor_pour {segments : List Segment} {delimiter : α} {around : Surroundings}
    {c : Cursor} {sink : Buffer} (hosts : st.Hosts (sink.segments ++ live)) :
    Undisturbed live st (c.pour segments delimiter around sink st).2.object.segments
      (c.pour segments delimiter around sink st).2.store := by
  fun_induction Cursor.pour segments delimiter around c sink st with
  | case1 => exact .refl hosts
  | case2 => exact Buffer.undisturbed_appendSlice around hosts _
  | case3 => exact Buffer.undisturbed_appendSlice around hosts _
  | case4 c sink st s here absent r done ih =>
      have first : Undisturbed live st r.object.segments r.store :=
        Buffer.undisturbed_appendSlice around hosts _
      exact first.trans (ih first.hosts)
  | case5 => exact Buffer.undisturbed_appendSlice around hosts _

theorem undisturbed_readUntil {r : Reader α} {delimiter : α} {around : Surroundings}
    {sink : Buffer} (hosts : st.Hosts (sink.segments ++ live)) :
    Undisturbed live st (r.readUntil delimiter around sink st).2.object.segments
      (r.readUntil delimiter around sink st).2.store := by
  unfold Reader.readUntil
  split
  next => exact undisturbed_cursor_pour hosts
  next u back =>
    dsimp only
    split
    next => exact .refl hosts
    next =>
      split
      next sink' st' done =>
        have first := Buffer.undisturbed_append around hosts done
        exact first.trans (undisturbed_cursor_pour first.hosts)
      next => exact .refl hosts

namespace Writer

variable {w : Writer} (around : Surroundings)

omit [TextUnit α] in
/-- Counting what was written leaves the result of the append as it is. -/
theorem undisturbed_counting {count : Nat} {r : Edited Buffer α Unit}
    (written : Undisturbed live st r.object.segments r.store) :
    Undisturbed live st (w.counting count r).object.buffer.segments (w.counting count r).store := by
  unfold counting
  split <;> exact written

theorem undisturbed_write (hosts : st.Hosts (w.buffer.segments ++ live)) (u : α) :
    Undisturbed live st (w.write around u st).object.buffer.segments (w.write around u st).store :=
  undisturbed_counting (Buffer.undisturbed_whole hosts fun _ done =>
    Buffer.undisturbed_append around hosts done)

theorem undisturbed_writeChars (hosts : st.Hosts (w.buffer.segments ++ live)) (cs : List Char) :
    Undisturbed live st (w.writeChars around cs st).object.buffer.segments
      (w.writeChars around cs st).store := by
  induction cs generalizing w st with
  | nil => exact .refl hosts
  | cons c cs ih =>
      have first := undisturbed_write around hosts (TextUnit.ofChar c : α)
      rw [writeChars]
      split
      next => exact first.trans (ih first.hosts)
      next => exact first

theorem undisturbed_showSegments (hosts : st.Hosts (w.buffer.segments ++ live))
    (segments : List Segment) :
    Undisturbed live st (w.showSegments around segments st).object.buffer.segments
      (w.showSegments around segments st).store := by
  induction segments generalizing w st with
  | nil => exact .refl hosts
  | cons s rest ih =>
      have first := undisturbed_writeChars (around.lending s.storage) hosts
        ((s.content st).map TextUnit.toChar)
      rw [showSegments]
      split
      next => exact first.trans (ih first.hosts)
      next => exact first

end Writer

end SegmentedText
