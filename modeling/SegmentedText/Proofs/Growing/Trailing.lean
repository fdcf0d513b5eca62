import Mathlib.Data.List.ModifyLast
import SegmentedText.Proofs.Flat.Distinct
import SegmentedText.Proofs.Flat.Appends

/-!
# Text that stays where it is

Units that are appended to a buffer go into the room behind its last segment, and what is left
over goes into new segments behind it.  While the array of the last segment is not lent out, no
segment moves: the last one has its end moved back, and all others stay as they are
(`Buffer.filled`).  A new segment is made as large as the layout of the buffer asks for, and is
filled without moving either.

What an append does to the list of segments depends on the number of units alone.  It is told by
`Buffer.Laid`, step by step: units go into the room (`Buffer.Laid.into`), a segment is opened
where there is none (`Buffer.Laid.opened`), or cannot be (`Buffer.Laid.stopped`).  In bulk
there is at most one step of each kind; one by one there are as many as there are units.
-/

set_option autoImplicit false

namespace SegmentedText

namespace Buffer

/-! ## Filling the room -/

/-- The segments when as many of `count` units as there is room for have been written behind the
last one. -/
def filled (b : Buffer) (count : Nat) : List Segment :=
  b.segments.modifyLast fun last => last.extended (min last.spare count)

section

variable {b c : Buffer}

theorem filled_of_segments {front : List Segment} {last : Segment}
    (parts : b.segments = front ++ [last]) (count : Nat) :
    b.filled count = front ++ [last.extended (min last.spare count)] := by
  rw [filled, parts, List.modifyLast_concat]

/-- A buffer has no segment, and then no room, or it has a last one. -/
theorem room_cases (b : Buffer) :
    (b.segments = [] ∧ b.room = 0 ∧ ∀ count, b.filled count = []) ∨
      ∃ front last, b.segments = front ++ [last] ∧ b.room = last.spare ∧
        ∀ count, b.filled count = front ++ [last.extended (min last.spare count)] := by
  rcases List.eq_nil_or_concat' b.segments with empty | ⟨front, last, parts⟩
  · refine .inl ⟨empty, ?_, fun count => ?_⟩
    · rw [room, empty]
      rfl
    · rw [filled, empty]
      rfl
  · exact .inr ⟨front, last, parts, room_of_segments parts, filled_of_segments parts⟩

/-- Where there is no room, or nothing to write, nothing is filled. -/
theorem filled_of_min {count : Nat} (none : min b.room count = 0) :
    b.filled count = b.segments := by
  rcases b.room_cases with ⟨empty, -, filled⟩ | ⟨front, last, parts, room, filled⟩
  · rw [filled, empty]
  · rw [filled, ← room, none, parts]
    rfl

/-- What has been filled is no longer room. -/
theorem room_of_filled {count : Nat} (parts : c.segments = b.filled count) :
    c.room = b.room - count := by
  rcases b.room_cases with ⟨-, room, filled⟩ | ⟨front, last, -, room, filled⟩
  · rw [room, Buffer.room, parts, filled]
    exact (Nat.zero_sub _).symm
  · rw [room_of_segments (parts.trans (filled count)), room, Segment.spare_extended]
    omega

theorem segments_filled {front : List Segment} {last : Segment} {count : Nat}
    (found : b.trailing? = some (front, last)) (fits : count ≤ last.spare) :
    (b.withTrailing front (last.extended count)).segments = b.filled count := by
  rw [filled_of_segments (segments_of_trailing found).1, Nat.min_eq_right fits]
  rfl

/-- Filling in two steps. -/
theorem filled_of_filled {count : Nat} (parts : c.segments = b.filled count) (more : Nat) :
    c.filled more = b.filled (count + more) := by
  rcases b.room_cases with ⟨-, -, filled⟩ | ⟨front, last, -, -, filled⟩
  · rw [Buffer.filled, parts, filled, filled]
    rfl
  · have both : min last.spare count + min (last.spare - min last.spare count) more =
        min last.spare (count + more) := by omega
    rw [filled_of_segments (parts.trans (filled count)), filled, Segment.spare_extended, ← both]
    simp only [Segment.extended, Nat.add_assoc]

/-- A segment keeps its array and its start. -/
theorem getElem?_filled {i : Nat} {s : Segment} (here : b.segments[i]? = some s) (count : Nat) :
    ∃ more, (b.filled count)[i]? = some (s.extended more) := by
  rcases b.room_cases with ⟨empty, -, -⟩ | ⟨front, last, parts, -, filled⟩
  · rw [empty] at here
    cases here
  · rw [parts, List.getElem?_append] at here
    rw [filled, List.getElem?_append]
    split at here
    next before => exact ⟨0, (if_pos before).trans here⟩
    next behind =>
      rw [List.getElem?_singleton] at here
      split at here
      next =>
        obtain rfl := Option.some.inj here
        have only : i - front.length = 0 := by assumption
        refine ⟨min last.spare count, (if_neg behind).trans ?_⟩
        rw [only]
        rfl
      next => cases here

theorem totalLength_filled (ordered : ∀ s ∈ b.segments, s.start ≤ s.stop) (count : Nat) :
    totalLength (b.filled count) = b.length + min b.room count := by
  rcases b.room_cases with ⟨empty, room, filled⟩ | ⟨front, last, parts, room, filled⟩
  · rw [filled, room, length, empty, Nat.zero_min]
    rfl
  · have inside := ordered last (by rw [parts]; exact List.mem_append_right _ List.mem_cons_self)
    rw [filled, room, length, parts]
    simp only [totalLength_append, totalLength_cons, totalLength_nil, Segment.length,
      Segment.extended]
    omega

end

/-! ## How units are laid -/

/-- What `count` units that are appended do to the segments of a buffer, when a segment is opened
for `pending` of them at a time. -/
structure Laid {α : Type} [TextUnit α] (b : Buffer) (st : Store α) (count pending : Nat)
    (r : Edited Buffer α Unit) (added : List Segment) : Prop where
  /-- The last segment has its end moved back as far as there is room for the units, and all
  others stay as they are.  New segments stand behind them. -/
  segments_eq : r.object.segments = b.filled count ++ added
  /-- Units are refused if there is no room for them and no segment can be opened. -/
  answer_eq : r.answer =
    if decide (count ≤ b.room) || b.opens α pending then .ok () else .error .roomExceeded
  /-- No segment is opened where there is room. -/
  spared : count ≤ b.room → added = []
  refused : b.opens α pending = false → added = []
  /-- No segment is opened that is not needed at once, or before the one in front of it is full. -/
  needed : ∀ s ∈ added, 0 < s.length
  full : ∀ s ∈ added.dropLast, s.spare = 0
  /-- Each is at the front of an array of its own, and has the capacity that it was made with. -/
  own : ∀ (i : Nat) (s : Segment), added[i]? = some s →
    s.storage = ⟨st.arrays.size + i⟩ ∧ s.start = 0 ∧
      s.capacity = b.layout.newSegmentCapacity pending
  /-- No other array is made. -/
  made : r.store.arrays.size = st.arrays.size + added.length

namespace Laid

variable {α : Type} [TextUnit α] {b : Buffer} {st st' : Store α} {count more pending : Nat}
  {r : Edited Buffer α Unit} {added : List Segment}

/-- Nothing is written. -/
theorem kept {answer : Except Fault Unit} (none : min b.room count = 0)
    (told : answer =
      if decide (count ≤ b.room) || b.opens α pending then .ok () else .error .roomExceeded) :
    Laid b st count pending ⟨b, st, answer⟩ [] where
  segments_eq := by rw [filled_of_min none, List.append_nil]
  answer_eq := told
  spared _ := rfl
  refused _ := rfl
  needed := nofun
  full := nofun
  own := nofun
  made := rfl

theorem nil (b : Buffer) (st : Store α) (pending : Nat) : Laid b st 0 pending ⟨b, st, .ok ()⟩ [] :=
  kept (Nat.min_zero _) (by simp)

/-- There is no room, and no segment can be opened. -/
theorem stopped (st : Store α) (none : b.room = 0) (closed : b.opens α pending = false)
    (some : 0 < count) : Laid b st count pending ⟨b, st, .error .roomExceeded⟩ [] := by
  have beyond : decide (count ≤ b.room) = false := decide_eq_false (by omega)
  exact kept (by omega) (by rw [beyond, closed]; rfl)

/-- Units go into the room first. -/
theorem into {front : List Segment} {last : Segment} (found : b.trailing? = some (front, last))
    (fits : count ≤ last.spare) (size : st'.arrays.size = st.arrays.size)
    (rest : Laid (b.withTrailing front (last.extended count)) st' more pending r added) :
    Laid b st (count + more) pending r added where
  segments_eq := by rw [rest.segments_eq, filled_of_filled (segments_filled found fits)]
  answer_eq := by
    have left := room_of_filled (segments_filled found fits)
    have room := room_of_segments (segments_of_trailing found).1
    have same : decide (more ≤ b.room - count) = decide (count + more ≤ b.room) :=
      decide_eq_decide.2 (by omega)
    rw [rest.answer_eq, left, same, opens_withTrailing found]
  spared enough := rest.spared (by rw [room_of_filled (segments_filled found fits)]; omega)
  refused closed := rest.refused ((opens_withTrailing found pending).trans closed)
  needed := rest.needed
  full := rest.full
  own := by
    rw [← size]
    exact rest.own
  made := by rw [rest.made, size]

/-- Units go into a segment that is opened for them first. -/
theorem opened {new : Segment} (fresh : new = (b.newSegment pending st).1.extended count)
    (none : b.room = 0) (may : b.opens α pending = true) (some : 0 < count)
    (size : st'.arrays.size = st.arrays.size + 1)
    (rest : Laid (b.opening pending count st) st' more pending r added) :
    Laid b st (count + more) pending r (new.extended (min new.spare more) :: added) where
  segments_eq := by
    rw [rest.segments_eq, filled_of_segments (b.segments_opening pending count st), ← fresh,
      filled_of_min (by omega), List.append_assoc]
    rfl
  answer_eq := by
    rw [rest.answer_eq, opening, opens_push may, may, Bool.or_true, Bool.or_true]
  spared := by omega
  refused closed := by cases may.symm.trans closed
  needed t here := by
    rcases List.mem_cons.1 here with rfl | behind
    · rw [fresh]
      simp only [newSegment, Segment.length, Segment.extended, Segment.allocate]
      omega
    · exact rest.needed t behind
  full t here := by
    cases added with
    | nil => cases here
    | cons next others =>
        rcases List.mem_cons.1 here with rfl | behind
        · -- A segment behind it is opened only when it is full.
          have beyond : ¬more ≤ _ := fun room => List.cons_ne_nil _ _ (rest.spared room)
          rw [room_of_segments (b.segments_opening pending count st), ← fresh] at beyond
          rw [Segment.spare_extended]
          omega
        · exact rest.full t behind
  own i t here := by
    cases i with
    | zero =>
        obtain rfl := Option.some.inj here
        rw [fresh]
        exact ⟨rfl, rfl, b.capacity_newSegment pending st⟩
    | succ i =>
        obtain ⟨same, front, large⟩ := rest.own i t here
        rw [size, Nat.add_assoc, Nat.add_comm 1] at same
        exact ⟨same, front, large⟩
  made := by
    rw [rest.made, size, List.length_cons]
    omega

end Laid

/-! ## Where nothing is lent out -/

/-- Whether the last segment is over an array that is not lent out. -/
def TrailsUnlent (b : Buffer) (around : Surroundings) : Prop :=
  ∀ last, b.segments.getLast? = some last → around.lends last.storage = false

theorem trailsUnlent_iff {b : Buffer} {around : Surroundings} {front : List Segment}
    {last : Segment} (parts : b.segments = front ++ [last]) :
    b.TrailsUnlent around ↔ around.lends last.storage = false := by
  rw [TrailsUnlent, parts, List.getLast?_concat]
  exact ⟨fun unlent => unlent last rfl, fun unlent t behind => Option.some.inj behind ▸ unlent⟩

section

variable {α : Type} [TextUnit α] {b : Buffer} {st : Store α} {around : Surroundings}

/-- A unit goes into the room, or into a segment that is opened for it, or is refused. -/
theorem laid_cases (made : around.LendsMade st) (unlent : b.TrailsUnlent around) (u : α) :
    (∃ front last st', b.trailing? = some (front, last) ∧ st'.arrays.size = st.arrays.size ∧
      b.append around u st = .ok (b.withTrailing front (last.extended 1), st')) ∨
    (b.room = 0 ∧ b.opens α 1 = true ∧ ∃ st', st'.arrays.size = st.arrays.size + 1 ∧
      b.append around u st = .ok (b.opening 1 1 st, st')) ∨
    (b.room = 0 ∧ b.opens α 1 = false ∧ b.append around u st = .error .roomExceeded) := by
  cases found : b.trailing? with
  | some entry =>
      obtain ⟨front, last⟩ := entry
      obtain ⟨parts, room⟩ := segments_of_trailing found
      have stays := Segment.append_of_unlent ((trailsUnlent_iff parts).1 unlent) room u st
      refine .inl ⟨front, last, _, rfl, st.size_writeAll last.storage last.stop [u], ?_⟩
      rw [append_of_trailing found (congrArg Edited.answer stays), stays]
      rfl
  | none =>
      have none := room_of_not_trailing found
      cases may : b.opens α 1 with
      | true =>
          exact .inr (.inl ⟨none, rfl, _, size_newSegment b 1 st [u],
            append_of_opens made found may u⟩)
      | false => exact .inr (.inr ⟨none, rfl, append_of_not_opens found may u⟩)

/-- One unit. -/
theorem laid_append (made : around.LendsMade st) (unlent : b.TrailsUnlent around) (u : α) :
    ∃ added, Laid b st 1 1 (.whole b st (b.append around u st)) added ∧ added.length ≤ 1 := by
  rcases laid_cases made unlent u with ⟨front, last, st', found, size, done⟩ |
    ⟨none, may, st', size, done⟩ | ⟨none, closed, refused⟩
  · rw [done]
    exact ⟨[], .into found (segments_of_trailing found).2 size (.nil _ st' 1), Nat.zero_le _⟩
  · rw [done]
    exact ⟨[_], .opened rfl none may Nat.one_pos size (.nil _ st' 1), Nat.le_refl 1⟩
  · rw [refused]
    exact ⟨[], .stopped st none closed Nat.one_pos, Nat.zero_le _⟩

/-- Units one by one. -/
theorem laid_extend (made : around.LendsMade st) (unlent : b.TrailsUnlent around)
    (units : List α) : ∃ added, Laid b st units.length 1 (b.extend around units st) added := by
  induction units generalizing b st with
  | nil => exact ⟨[], .nil b st 1⟩
  | cons u us ih =>
      rw [List.length_cons, Nat.add_comm, extend]
      rcases laid_cases made unlent u with ⟨front, last, st', found, size, done⟩ |
        ⟨none, may, st', size, done⟩ | ⟨none, closed, refused⟩
      · obtain ⟨parts, room⟩ := segments_of_trailing found
        have onward : (b.withTrailing front (last.extended 1)).TrailsUnlent around :=
          (trailsUnlent_iff (segments_withTrailing ..)).2 ((trailsUnlent_iff parts).1 unlent)
        obtain ⟨added, rest⟩ := ih (made.grow (Nat.le_of_eq size.symm)) onward
        rw [done]
        exact ⟨added, .into found room size rest⟩
      · have onward : (b.opening 1 1 st).TrailsUnlent around :=
          (trailsUnlent_iff (b.segments_opening 1 1 st)).2 (made.unlent_of_new (Nat.le_refl _))
        have older : st.arrays.size ≤ st'.arrays.size := by omega
        obtain ⟨added, rest⟩ := ih (made.grow older) onward
        rw [done]
        exact ⟨_ :: added, .opened rfl none may Nat.one_pos size rest⟩
      · rw [refused]
        exact ⟨[], .stopped st none closed (by omega)⟩

section

variable {write : Segment → List α → Store α → Edited Segment α Unit}
  (writes : WritesBehind around write)
include writes

theorem laid_appendRest (made : around.LendsMade st) {rest : List α}
    (full : rest = [] ∨ b.room = 0) :
    ∃ added, Laid b st rest.length rest.length (b.appendRest write rest st) added ∧
      added.length ≤ 1 := by
  unfold appendRest
  split
  next none =>
    rw [List.isEmpty_iff.1 none]
    exact ⟨[], .nil b st 0, Nat.zero_le _⟩
  next some =>
    have some : rest ≠ [] := by simpa using some
    have room := full.resolve_left some
    have some := List.length_pos_iff.2 some
    cases may : b.opens α rest.length with
    | true =>
        rw [extendBy_of_writes writes made (Nat.le_refl _) may]
        exact ⟨[_], .opened rfl room may some (size_newSegment b rest.length st rest) (.nil _ _ _),
          Nat.le_refl 1⟩
    | false =>
        rw [extendBy_of_not_opens may fun _ _ _ => writes.refused]
        exact ⟨[], .stopped st room may some, Nat.zero_le _⟩

/-- Units in bulk. -/
theorem laid_appendBy {others : List Segment} (hosts : st.Hosts (b.segments ++ others))
    (made : around.LendsMade st) (unlent : b.TrailsUnlent around) (units : List α) :
    ∃ added, Laid b st units.length (units.length - b.room) (b.appendBy write units st) added ∧
      added.length ≤ 1 := by
  unfold appendBy
  cases found : b.trailing? with
  | none =>
      have room := room_of_not_trailing found
      rw [room]
      exact laid_appendRest writes made (.inr room)
  | some entry =>
      obtain ⟨front, last⟩ := entry
      have parts := (segments_of_trailing found).1
      have here := (trailsUnlent_iff parts).1 unlent
      have room := room_of_segments parts
      let first := units.take (min last.spare units.length)
      let rest := units.drop (min last.spare units.length)
      have fits : first.length ≤ last.spare := by
        simp only [first, List.length_take]
        omega
      have counted : first.length + rest.length = units.length := by
        rw [← List.length_append, List.take_append_drop]
      have placed := (hosts_trailing hosts found).placed last List.mem_cons_self
      have stays : write last first st = last.fillBehind first st := by
        rw [writes.bulk placed made fits]
        exact Segment.appendSlice_of_unlent here fits st
      have full : rest = [] ∨ (b.withTrailing front (last.extended first.length)).room = 0 := by
        rw [room_of_segments (segments_withTrailing ..), Segment.spare_extended]
        simp only [rest, first, List.drop_eq_nil_iff, List.length_take]
        omega
      have size := st.size_writeAll last.storage last.stop first
      obtain ⟨added, laid, one⟩ := laid_appendRest writes (made.grow (Nat.le_of_eq size.symm)) full
      have left : units.length - b.room = rest.length := by
        simp only [rest, List.length_drop]
        omega
      refine ⟨added, ?_, one⟩
      show Laid b st _ _ (((write last first st).mapObject (b.withTrailing front)).andThen
        fun b st => b.appendRest write rest st) added
      rw [stays, left, ← counted]
      exact .into found fits size laid

end

end

/-! ## Text that stays -/

section

variable {α : Type} [TextUnit α] {b : Buffer} {st : Store α} {others : List Segment}
  {around : Surroundings}

/-- What an append of units does to a buffer whose text stays where it is. -/
structure Appended (b : Buffer) (st : Store α) (units : List α) (pending : Nat)
    (r : Edited Buffer α Unit) (added : List Segment) : Prop
    extends Laid b st units.length pending r added where
  /-- New segments have the room that they are opened for. -/
  ample : ∀ s ∈ added, pending ≤ s.capacity
  /-- A segment still shares its array with every window that it has shared it with. -/
  shares : ∀ (t : Segment) (i : Nat) (s : Segment), b.segments[i]? = some s →
    t.sharesStorage s = true → ∃ s', r.object.segments[i]? = some s' ∧
      t.sharesStorage s' = true ∧ s'.start = s.start
  /-- New segments show the units for which there was no room. -/
  shown : r.answer = .ok () →
    contentOf (b.filled units.length) r.store = b.content st ++ units.take b.room ∧
      contentOf added r.store = units.drop b.room

theorem Laid.appended {units : List α} {pending : Nat} {r : Edited Buffer α Unit}
    {added : List Segment} (laid : Laid b st units.length pending r added)
    (hosts : st.Hosts (b.segments ++ others))
    (after : Undisturbed others st r.object.segments r.store)
    (leaves : r.Leaves (b.content st ++ units)) : Appended b st units pending r added where
  toLaid := laid
  ample s here := by
    obtain ⟨i, found⟩ := List.getElem?_of_mem here
    rw [(laid.own i s found).2.2]
    exact b.layout.le_newSegmentCapacity pending
  shares t i s here shared := by
    obtain ⟨more, found⟩ := getElem?_filled here units.length
    refine ⟨s.extended more, ?_, shared, rfl⟩
    rw [laid.segments_eq, List.getElem?_append_left (List.getElem?_eq_some_iff.1 found).1, found]
  shown done := by
    have valid := valid_of_hosts hosts (List.subset_append_left _ _)
    have counted : (contentOf (b.filled units.length) r.store).length =
        (b.content st ++ units.take b.room).length := by
      have inside : ∀ s ∈ b.filled units.length, s.Valid r.store := fun s here =>
        (after.hosts.placed s (List.mem_append_left _ (laid.segments_eq ▸
          List.mem_append_left _ here))).valid
      rw [length_contentOf inside, totalLength_filled fun s here => (valid s here).start_le_stop,
        List.length_append, valid.length_content, List.length_take]
    have whole : r.object.content r.store = b.content st ++ units := by
      rcases leaves with ⟨-, same⟩ | refused
      · exact same
      · cases done.symm.trans refused
    have cut : b.content st ++ units = b.content st ++ units.take b.room ++ units.drop b.room := by
      rw [List.append_assoc, List.take_append_drop]
    rw [Buffer.content_eq, laid.segments_eq, contentOf_append, cut] at whole
    exact List.append_inj whole counted

/-- **Appending does not move text.** As long as the array of the last segment is not lent out, no
segment moves when units are appended to a buffer, one by one or in bulk.  All segments but the
last stay as they are, and the last one has its end moved back by as many units as there was room
for.  A segment is opened only for units for which there was no room, at most one in bulk; it is as
large as the layout asks for, and is not moved while it is filled.  So whatever shared an array
with a segment of the buffer still does. -/
theorem appends_in_place (hosts : st.Hosts (b.segments ++ others)) (made : around.LendsMade st)
    (unlent : b.TrailsUnlent around) :
    (∀ u, ∃ added, Appended b st [u] 1 (.whole b st (b.append around u st)) added ∧
      added.length ≤ 1) ∧
    (∀ units, ∃ added, Appended b st units (units.length - b.room) (b.appendSlice around units st)
      added ∧ added.length ≤ 1) ∧
    (∀ text, ∃ added, Appended b st (TextUnit.unitsOf text)
      ((TextUnit.unitsOf text : List α).length - b.room) (b.appendText around text st) added ∧
        added.length ≤ 1) ∧
    ∀ units, ∃ added, Appended b st units 1 (b.extend around units st) added := by
  refine ⟨fun u => ?_, fun units => ?_, fun text => ?_, fun units => ?_⟩
  · obtain ⟨added, laid, one⟩ := laid_append made unlent u
    have laid : Laid b st [u].length 1 _ added := laid
    exact ⟨added, laid.appended hosts
      (undisturbed_whole hosts fun _ done => undisturbed_append around hosts done)
      (leaves_append around hosts u), one⟩
  · obtain ⟨added, laid, one⟩ :=
      laid_appendBy (writesBehind_appendSlice around) hosts made unlent units
    exact ⟨added, laid.appended hosts (undisturbed_appendSlice around hosts units)
      (leaves_appendSlice around hosts units), one⟩
  · obtain ⟨added, laid, one⟩ :=
      laid_appendBy (writesBehind_appendEach around) hosts made unlent (TextUnit.unitsOf text)
    exact ⟨added, laid.appended hosts (undisturbed_appendText around hosts text)
      (leaves_appendText around hosts text), one⟩
  · obtain ⟨added, laid⟩ := laid_extend made unlent units
    exact ⟨added, laid.appended hosts (undisturbed_extend around hosts units)
      (leaves_extend around hosts units)⟩

end

/-- Two segments over arrays of their own, the second of which has room for one unit. -/
def roomForOne : Buffer × Store Char :=
  let (front, st) := Segment.ofUnits ['a'] {}
  let (last, st) := Segment.allocate ['b'] 2 st
  ({ segmentList := .held [front, last] }, st)

theorem hosts_roomForOne : roomForOne.2.Hosts (roomForOne.1.segments ++ []) := by
  have front := undisturbed_allocate ['a'] 1 (.nil ({} : Store Char))
  have last := undisturbed_allocate ['b'] 2 front.hosts
  exact last.hosts.perm (.swap ..)

/-- The first segment is lent out, which does not concern the last. -/
theorem appends_in_place_roomForOne :
    let around : Surroundings := { lent := [⟨0⟩] }
    let r := roomForOne.1.appendText around "cde" roomForOne.2
    roomForOne.2.Hosts (roomForOne.1.segments ++ []) ∧ around.LendsMade roomForOne.2 ∧
      roomForOne.1.TrailsUnlent around ∧
      ∃ added, r.object.segments = [⟨⟨0⟩, 0, 1, 1⟩, ⟨⟨1⟩, 0, 2, 2⟩] ++ added ∧
        added.length ≤ 1 ∧ contentOf added r.store = ['d', 'e'] ∧ ∀ s ∈ added, 2 ≤ s.capacity := by
  intro around r
  have made : around.LendsMade roomForOne.2 := Surroundings.lendsMade_singleton (by decide)
  have unlent : roomForOne.1.TrailsUnlent around := by
    intro last behind
    obtain rfl := Option.some.inj behind
    decide
  obtain ⟨-, -, texts, -⟩ := appends_in_place hosts_roomForOne made unlent
  obtain ⟨added, appended, one⟩ := texts "cde"
  have done : r.answer = .ok () := appended.answer_eq.trans (by decide)
  have shown : contentOf added r.store = ['d', 'e'] :=
    (appended.shown done).2.trans (by decide)
  exact ⟨hosts_roomForOne, made, unlent, added, appended.segments_eq, one, shown, appended.ample⟩

end Buffer

end SegmentedText
