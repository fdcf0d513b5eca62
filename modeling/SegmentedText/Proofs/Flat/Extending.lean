import SegmentedText.Edit
import SegmentedText.Proofs.Flat.Cells
import SegmentedText.Proofs.Growing.Room
import SegmentedText.Proofs.Ownership.Buffers

/-!
# Segments taken in and opened

A buffer takes in segments as they are, or it opens one of its own for units that find no room
behind the last.  Either can be refused for want of room only, and what is left is told by
`Edited.Leaves`.

A segment is opened unless the layout asks for more than an array can hold, or for more places
than a list of segments can have (`Buffer.opens`).  What writes units behind it has room for all
of them there, so it does not matter which of the ways of writing it is (`Buffer.WritesBehind`,
`Buffer.extendBy_of_writes`).
-/

set_option autoImplicit false

namespace SegmentedText

/-- A result that shows a given text, unless it was refused for want of room. -/
def Edited.Leaves {α ρ : Type} (r : Edited Buffer α ρ) (text : List α) : Prop :=
  (∃ answer, r.answer = .ok answer) ∧ r.object.content r.store = text ∨
    r.answer = .error .roomExceeded

/-- A result that shows a given text with a beginning of some units behind it. -/
def Edited.Begins {α ρ : Type} (r : Edited Buffer α ρ) (text units : List α) : Prop :=
  ∃ part, part <+: units ∧ r.object.content r.store = text ++ part

theorem Edited.Leaves.eq_roomExceeded {α ρ : Type} {r : Edited Buffer α ρ} {text : List α}
    {fault : Fault} (leaves : r.Leaves text) (refused : r.answer = .error fault) :
    fault = .roomExceeded := by
  rcases leaves with ⟨⟨_, done⟩, -⟩ | full
  · cases refused.symm.trans done
  · exact Except.error.inj (refused.symm.trans full)

/-- A text that has been cut has so many units. -/
theorem unitsOf_take {α : Type} [TextUnit α] (text : String) (count : Nat) :
    (TextUnit.unitsOf text : List α).take count =
      TextUnit.unitsOf (String.ofList (text.toList.take count)) := by
  rw [TextUnit.unitsOf, TextUnit.unitsOf, String.toList_ofList, List.map_take]

namespace Buffer

variable {α : Type} {st : Store α} {b : Buffer} {others : List Segment}

/-! ## Done or refused as a whole -/

theorem leaves_whole {r : Except Fault (Buffer × Store α)} {text : List α}
    (done : ∀ made, r = .ok made → made.1.content made.2 = text)
    (refused : ∀ fault, r = .error fault → fault = .roomExceeded) :
    (Edited.whole b st r).Leaves text := by
  cases r with
  | ok made => exact .inl ⟨⟨(), rfl⟩, done made rfl⟩
  | error fault => exact .inr (congrArg Except.error (refused fault rfl))

theorem leaves_wholeObject {r : Except Fault Buffer} {text : List α}
    (done : ∀ b', r = .ok b' → b'.content st = text)
    (refused : ∀ fault, r = .error fault → fault = .roomExceeded) :
    (Edited.wholeObject b st r).Leaves text := by
  cases r with
  | ok b' => exact .inl ⟨⟨(), rfl⟩, done b' rfl⟩
  | error fault => exact .inr (congrArg Except.error (refused fault rfl))

/-! ## Segments as they are -/

/-- Segments are refused only if there can be no list for them. -/
theorem refused_taking {nothing : Bool} {changed : Buffer} {fault : Fault}
    (refused : b.taking nothing changed = .error fault) : fault = .roomExceeded := by
  unfold taking at refused
  split at refused
  next => cases refused
  next => exact (Except.error.inj refused).symm

theorem content_appendSegment {b' : Buffer} {s : Segment} (valid : b.Valid st)
    (incoming : s.Valid st) (taken : b'.Valid st) (done : b.appendSegment s = .ok b') :
    b'.content st = b.content st ++ s.content st :=
  taken.content_eq (cells_of_appendSegment done) (valid.reads.append incoming.reads)

theorem content_prependSegment {b' : Buffer} {s : Segment} (valid : b.Valid st)
    (incoming : s.Valid st) (taken : b'.Valid st) (done : b.prependSegment s = .ok b') :
    b'.content st = s.content st ++ b.content st :=
  taken.content_eq (cells_of_prependSegment done) (incoming.reads.append valid.reads)

theorem content_appendBuffer {b' other : Buffer} (valid : b.Valid st) (incoming : other.Valid st)
    (taken : b'.Valid st) (done : b.appendBuffer other = .ok b') :
    b'.content st = b.content st ++ other.content st :=
  taken.content_eq (cells_of_appendBuffer done) (valid.reads.append incoming.reads)

theorem leaves_appendSegment {s : Segment} (hosts : st.Hosts (s :: (b.segments ++ others))) :
    (Edited.wholeObject b st (b.appendSegment s)).Leaves (b.content st ++ s.content st) := by
  refine leaves_wholeObject (fun b' done => ?_) fun fault refused => refused_taking refused
  have own := (Store.Hosts.cons_iff.1 hosts).2.1
  exact content_appendSegment (valid_of_hosts own (List.subset_append_left _ _))
    (hosts.placed s List.mem_cons_self).valid
    (valid_of_hosts (hosts_appendSegment hosts done) (List.subset_append_left _ _)) done

theorem leaves_prependSegment {s : Segment} (hosts : st.Hosts (s :: (b.segments ++ others))) :
    (Edited.wholeObject b st (b.prependSegment s)).Leaves (s.content st ++ b.content st) := by
  refine leaves_wholeObject (fun b' done => ?_) fun fault refused => refused_taking refused
  have own := (Store.Hosts.cons_iff.1 hosts).2.1
  exact content_prependSegment (valid_of_hosts own (List.subset_append_left _ _))
    (hosts.placed s List.mem_cons_self).valid
    (valid_of_hosts (hosts_prependSegment hosts done) (List.subset_append_left _ _)) done

theorem leaves_appendBuffer {other : Buffer} (hosts : st.Hosts (b.segments ++ others))
    (views : ∀ t ∈ other.shared.segments, ∃ s ∈ b.segments ++ others, t.Views s)
    (valid : other.Valid st) :
    (Edited.wholeObject b st (b.appendBuffer other)).Leaves (b.content st ++ other.content st) := by
  refine leaves_wholeObject (fun b' done => ?_) fun fault refused => refused_taking refused
  exact content_appendBuffer (valid_of_hosts hosts (List.subset_append_left _ _)) valid
    (valid_of_hosts (hosts_appendBuffer hosts views done) (List.subset_append_left _ _)) done

/-- Where something was taken in, what shows nothing unless that does is taken in as well. -/
theorem taking_of_taking {nothing nothing' : Bool} {changed changed' b' : Buffer}
    (less : nothing = true → nothing' = true) (done : b.taking nothing changed = .ok b') :
    b.taking nothing' changed' = .ok changed' := by
  unfold taking at done ⊢
  split at done
  next room =>
    refine if_pos ?_
    rcases Bool.or_eq_true_iff.1 room with none | held
    · rw [less none, Bool.true_or]
    · rw [held, Bool.or_true]
  next => cases done

/-- Where a buffer that shows something was taken in, every buffer is. -/
theorem appendBuffer_of_shows {b' other : Buffer} (shows : 0 < other.length)
    (done : b.appendBuffer other = .ok b') (other' : Buffer) :
    ∃ b'', b.appendBuffer other' = .ok b'' := by
  refine ⟨_, taking_of_taking (fun none => absurd shows ?_) done⟩
  have nothing : ∀ segments : List Segment,
      (segments.map Segment.shared).all Segment.isEmpty = true → totalLength segments = 0 := by
    intro segments none
    induction segments with
    | nil => rfl
    | cons s rest ih =>
        rw [List.map_cons, List.all_cons, Bool.and_eq_true] at none
        have here : s.isEmpty = true := none.1
        rw [totalLength_cons, Segment.length_eq_zero_of_isEmpty here, ih none.2]
  exact Nat.not_lt_of_le (Nat.le_of_eq (nothing other.segments none))

/-! ## Room -/

/-- The number of units for which there is room behind the last segment. -/
def room (b : Buffer) : Nat := (b.segments.getLast?.map Segment.spare).getD 0

theorem room_of_segments {front : List Segment} {last : Segment}
    (parts : b.segments = front ++ [last]) : b.room = last.spare := by
  rw [room, parts, List.getLast?_concat]
  rfl

theorem trailing?_of_segments {front : List Segment} {last : Segment}
    (parts : b.segments = front ++ [last]) :
    b.trailing? = if 0 < last.spare then some (front, last) else none := by
  rw [trailing?, parts, List.getLast?_concat, List.dropLast_concat]

theorem room_of_not_trailing (none : b.trailing? = none) : b.room = 0 := by
  rcases List.eq_nil_or_concat' b.segments with empty | ⟨front, last, parts⟩
  · rw [room, empty]
    rfl
  · rw [trailing?_of_segments parts] at none
    rw [room_of_segments parts]
    by_contra some
    exact Option.some_ne_none _ ((if_pos (Nat.pos_of_ne_zero some)).symm.trans none)

/-! ## Segments of their own -/

variable [TextUnit α]

/-- A unit is prepended in a segment of its own. -/
theorem leaves_prepend (hosts : st.Hosts (b.segments ++ others)) (u : α) :
    (Edited.whole b st (b.prepend u st)).Leaves ([u] ++ b.content st) := by
  have fresh := undisturbed_allocate [u] [u].length hosts
  have kept := fresh.content_buffer_eq (b := b) (List.subset_append_left _ _)
  have shown := Segment.content_allocate [u] [u].length st
  have taken := leaves_prependSegment fresh.hosts
  rw [shown, kept] at taken
  have made : b.prepend u st = (b.prependSegment (Segment.allocate [u] [u].length st).1).map
      fun b => (b, (Segment.allocate [u] [u].length st).2) := rfl
  rw [made]
  cases done : b.prependSegment (Segment.allocate [u] [u].length st).1 with
  | ok b' =>
      rw [done] at taken
      exact taken
  | error fault =>
      rw [done] at taken
      rcases taken with ⟨⟨_, impossible⟩, -⟩ | refused
      · cases impossible
      · exact .inr refused

/-! ## A new segment -/

/-- Whether a segment can be opened for a number of units. -/
def opens (α : Type) [TextUnit α] (b : Buffer) (pending : Nat) : Bool :=
  fitsMemory (TextUnit.kind α).width (b.layout.newSegmentCapacity pending) && b.canHold

theorem opens_of_le {less more : Nat} (le : less ≤ more) (there : b.opens α more = true) :
    b.opens α less = true := by
  simp only [opens, Bool.and_eq_true] at there ⊢
  exact ⟨fitsMemory_of_le (b.layout.newSegmentCapacity_mono le) there.1, there.2⟩

/-- Where a segment has been opened, more can be. -/
theorem opens_push {pending : Nat} (there : b.opens α pending = true) (s : Segment) :
    { b with segmentList := b.segmentList.push s }.opens α pending = true :=
  Bool.and_eq_true_iff.2 ⟨(Bool.and_eq_true_iff.1 there).1, rfl⟩

omit [TextUnit α] in
theorem canHold_of_trailing {front : List Segment} {last : Segment}
    (found : b.trailing? = some (front, last)) : b.canHold = true := by
  have parts := (segments_of_trailing found).1
  cases list : b.segmentList with
  | vacant =>
      rw [segments, list] at parts
      exact absurd parts.symm (List.append_ne_nil_of_right_ne_nil _ (List.cons_ne_nil last []))
  | held segments =>
      rw [canHold, hasNoSegments, list]
      rfl

theorem opens_withTrailing {front front' : List Segment} {last last' : Segment}
    (found : b.trailing? = some (front, last)) (pending : Nat) :
    (b.withTrailing front' last').opens α pending = b.opens α pending := by
  rw [opens, opens, canHold_of_trailing found]
  rfl

/-- The segment that is opened for a number of units, before they are written. -/
def newSegment (b : Buffer) (pending : Nat) (st : Store α) : Segment × Store α :=
  Segment.allocate [] (b.layout.newSegmentCapacity pending) st

theorem capacity_newSegment (b : Buffer) (pending : Nat) (st : Store α) :
    (b.newSegment pending st).1.capacity = b.layout.newSegmentCapacity pending :=
  (Segment.capacity_allocate [] _ st).trans (Nat.max_zero _)

section

variable {pending : Nat} {write : Segment → Store α → Edited Segment α Unit}

theorem extendBy_eq : b.extendBy pending write st =
    if fitsMemory (TextUnit.kind α).width (b.layout.newSegmentCapacity pending) then
      match (write (b.newSegment pending st).1 (b.newSegment pending st).2).outcome with
      | .error fault => .error fault
      | .ok filled =>
          if b.canHold then .ok ({ b with segmentList := b.segmentList.push filled.1 }, filled.2)
          else .error .roomExceeded
    else .error .roomExceeded := by
  unfold extendBy Segment.withCapacity Segment.withRoom
  rw [List.length_nil, Nat.max_zero]
  split
  next fault closed =>
    split at closed
    next => cases closed
    next none => rw [if_neg none, Except.error.inj closed]
  next s made fresh =>
    split at fresh
    next room =>
      have same : b.newSegment pending st = (s, made) := Except.ok.inj fresh
      rw [if_pos room, same]
      split
      next refused => rw [refused]
      next filled => rw [filled]
    next => cases fresh

/-- Where a segment can be opened, it is filled and taken in. -/
theorem extendBy_of_opens (may : b.opens α pending = true)
    (filled : (write (b.newSegment pending st).1 (b.newSegment pending st).2).answer = .ok ()) :
    b.extendBy pending write st =
      .ok ({ b with
          segmentList := b.segmentList.push
            (write (b.newSegment pending st).1 (b.newSegment pending st).2).object },
        (write (b.newSegment pending st).1 (b.newSegment pending st).2).store) := by
  obtain ⟨room, list⟩ := Bool.and_eq_true_iff.1 may
  rw [extendBy_eq, if_pos room, Edited.outcome, filled]
  exact if_pos list

theorem eq_of_extendBy {extended : Buffer × Store α}
    (done : b.extendBy pending write st = .ok extended) :
    b.opens α pending = true ∧
      (write (b.newSegment pending st).1 (b.newSegment pending st).2).answer = .ok () ∧
      extended = ({ b with
          segmentList := b.segmentList.push
            (write (b.newSegment pending st).1 (b.newSegment pending st).2).object },
        (write (b.newSegment pending st).1 (b.newSegment pending st).2).store) := by
  rw [extendBy_eq] at done
  split at done
  next room =>
    split at done
    next => cases done
    next filled written =>
      split at done
      next list =>
        obtain rfl := Edited.left_of_outcome written
        exact ⟨Bool.and_eq_true_iff.2 ⟨room, list⟩, Edited.answer_of_outcome written,
          (Except.ok.inj done).symm⟩
      next => cases done
  next => cases done

/-- Only want of room refuses a new segment. -/
theorem refused_extendBy {fault : Fault}
    (only : ∀ (s : Segment) (st : Store α) {fault : Fault},
      (write s st).answer = .error fault → fault = .roomExceeded)
    (refused : b.extendBy pending write st = .error fault) : fault = .roomExceeded := by
  rw [extendBy_eq] at refused
  split at refused
  next =>
    split at refused
    next written =>
      cases refused
      exact only _ _ (Edited.outcome_eq_error.1 written)
    next =>
      split at refused
      next => cases refused
      next => exact (Except.error.inj refused).symm
  next => exact (Except.error.inj refused).symm

/-- Where no segment can be opened, units are refused. -/
theorem extendBy_of_not_opens (closed : b.opens α pending = false)
    (only : ∀ (s : Segment) (st : Store α) {fault : Fault},
      (write s st).answer = .error fault → fault = .roomExceeded) :
    b.extendBy pending write st = .error .roomExceeded := by
  cases done : b.extendBy pending write st with
  | ok extended => cases closed.symm.trans (eq_of_extendBy done).1
  | error fault => rw [refused_extendBy only done]

/-- A new last segment shows what is written to it. -/
theorem content_extendBy {units : List α} {extended : Buffer × Store α}
    (hosts : st.Hosts (b.segments ++ others))
    (writes : ∀ (s : Segment) (st : Store α), st.Hosts (s :: (b.segments ++ others)) →
      Undisturbed (b.segments ++ others) st [(write s st).object] (write s st).store)
    (shows : ∀ (s : Segment) (st : Store α), s.Placed st → (write s st).answer = .ok () →
      (write s st).object.content (write s st).store = s.content st ++ units)
    (done : b.extendBy pending write st = .ok extended) :
    extended.1.content extended.2 = b.content st ++ units := by
  obtain ⟨-, written, rfl⟩ := eq_of_extendBy done
  have fresh := undisturbed_allocate (α := α) [] (b.layout.newSegmentCapacity pending) hosts
  have filled := fresh.trans (writes _ _ fresh.hosts)
  have kept := filled.content_buffer_eq (b := b) (List.subset_append_left _ _)
  have shown := shows _ _ (fresh.hosts.placed _ List.mem_cons_self) written
  rw [Segment.content_allocate, List.nil_append] at shown
  simp only [Buffer.content_eq, segments, SegmentList.toList_push, contentOf_append,
    contentOf_cons, contentOf_nil, List.append_nil, newSegment] at kept ⊢
  rw [kept, shown]

end

/-! ## Ways of writing behind a segment -/

/-- A way of writing units behind a segment.  Nobody else can tell; the units are shown then,
unless they are refused for want of room; and where there is room they end up where they do in
bulk. -/
structure WritesBehind (around : Surroundings)
    (write : Segment → List α → Store α → Edited Segment α Unit) : Prop where
  undisturbed : ∀ {s : Segment} {st : Store α} {others : List Segment}, st.Hosts (s :: others) →
    ∀ us, Undisturbed others st [(write s us st).object] (write s us st).store
  content : ∀ {s : Segment} {st : Store α} {us : List α}, s.Placed st →
    (write s us st).answer = .ok () →
      (write s us st).object.content (write s us st).store = s.content st ++ us
  refused : ∀ {s : Segment} {st : Store α} {us : List α} {fault : Fault},
    (write s us st).answer = .error fault → fault = .roomExceeded
  bulk : ∀ {s : Segment} {st : Store α} {us : List α}, s.Placed st → around.LendsMade st →
    us.length ≤ s.spare → write s us st = s.appendSlice around us st

theorem writesBehind_appendSlice (around : Surroundings) :
    WritesBehind (α := α) around fun s us st => s.appendSlice around us st where
  undisturbed hosts us := Segment.undisturbed_appendSlice around hosts us
  content placed done := Segment.content_appendSlice around placed done
  refused := Segment.refused_appendSlice
  bulk _ _ _ := rfl

theorem writesBehind_appendEach (around : Surroundings) :
    WritesBehind (α := α) around fun s us st => s.appendEach around us st where
  undisturbed hosts us := Segment.undisturbed_appendEach around hosts us
  content placed done := Segment.content_appendEach around placed done
  refused := Segment.refused_appendEach
  bulk placed made room := Segment.appendEach_eq_appendSlice placed made room

/-- A segment has room for the units that it is opened for. -/
theorem le_spare_newSegment {count pending : Nat} (fits : count ≤ pending) :
    count ≤ (b.newSegment pending st).1.spare :=
  Nat.le_trans (Nat.le_trans fits (b.layout.le_newSegmentCapacity pending))
    (Nat.le_of_eq (b.capacity_newSegment pending st).symm)

theorem placed_newSegment (pending : Nat) :
    (b.newSegment pending st).1.Placed (b.newSegment pending st).2 :=
  ⟨Nat.lt_of_lt_of_eq (Nat.lt_succ_self _) (Segment.size_allocate ..).symm,
    Segment.valid_allocate ..⟩

theorem size_le_newSegment (pending : Nat) :
    st.arrays.size ≤ (b.newSegment pending st).2.arrays.size :=
  Nat.le_trans (Nat.le_succ _) (Nat.le_of_eq (Segment.size_allocate ..).symm)

/-- The buffer with a new segment behind its own, in which there are `count` units. -/
def opening (b : Buffer) (pending count : Nat) (st : Store α) : Buffer :=
  { b with segmentList := b.segmentList.push ((b.newSegment pending st).1.extended count) }

theorem segments_opening (b : Buffer) (pending count : Nat) (st : Store α) :
    (b.opening pending count st).segments =
      b.segments ++ [(b.newSegment pending st).1.extended count] :=
  SegmentList.toList_push ..

/-- A new segment takes the units that it is opened for where it is. -/
theorem extendBy_of_writes {around : Surroundings}
    {write : Segment → List α → Store α → Edited Segment α Unit}
    (writes : WritesBehind around write) (made : around.LendsMade st) {units : List α}
    {pending : Nat} (fits : units.length ≤ pending) (may : b.opens α pending = true) :
    let new := b.newSegment pending st
    b.extendBy pending (fun s st => write s units st) st =
      .ok (b.opening pending units.length st,
        new.2.writeAll new.1.storage new.1.stop units) := by
  intro new
  have room : units.length ≤ new.1.spare := le_spare_newSegment fits
  have filled : write new.1 units new.2 = new.1.fillBehind units new.2 := by
    rw [writes.bulk (placed_newSegment pending) (made.grow (size_le_newSegment pending)) room]
    exact Segment.appendSlice_of_unlent (made.unlent_of_new (Nat.le_refl _)) room _
  rw [extendBy_of_opens may (congrArg Edited.answer filled), filled]
  rfl

theorem size_newSegment (b : Buffer) (pending : Nat) (st : Store α) (units : List α) :
    let new := b.newSegment pending st
    (new.2.writeAll new.1.storage new.1.stop units).arrays.size = st.arrays.size + 1 :=
  (Store.size_writeAll ..).trans (Segment.size_allocate ..)

end Buffer

end SegmentedText
