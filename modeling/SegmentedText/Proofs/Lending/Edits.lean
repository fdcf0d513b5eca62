import SegmentedText.Proofs.Bounded.Refinement
import SegmentedText.Proofs.Flat.Allotments
import SegmentedText.Proofs.Growing.Room
import SegmentedText.World.Changing

/-!
# Edits while windows are lent out

No segment is extended in an array over which a window is lent out; it moves first.  So what is
lent out has a say in where the text of an edit ends up, and in how it is cut, but in nothing
else that is seen of the object (`Object.shown`).

An edit is compared with the same edit in surroundings where more is lent out.  If it does not
overwrite text in place and neither of the two is refused room, both give the same answer and leave
the same text.  An edit that is not refused room where less is lent out is not refused it where
more is either, if what is lent out can be moved to a larger array (`Object.fills`).  Together
this is `Object.alike_apply`.

Where more is lent out, an edit may also go further than where less is: a segment that has moved has
more room, and a segment that cannot be opened may not be needed any more.
-/

set_option autoImplicit false

namespace SegmentedText

/-! ## What goes by the windows that are alive -/

section

variable {around around' : Surroundings} (alive : around'.alive = around.alive)
include alive

theorem besides_of_alive (segments : List Segment) :
    (around'.besides segments).alive = (around.besides segments).alive :=
  congrArg (segments ++ ·) alive

namespace Segment

theorem releaseTail_of_alive (s : Segment) : s.releaseTail around' = s.releaseTail around := by
  rw [releaseTail, releaseTail, Surroundings.shows, Surroundings.shows, alive]

theorem removeEnd_of_alive (s : Segment) (count : Nat) :
    s.removeEnd around' count = s.removeEnd around count := releaseTail_of_alive alive _

theorem trimEnd_of_alive {α : Type} [TextUnit α] (s : Segment) (st : Store α) :
    s.trimEnd around' st = s.trimEnd around st := releaseTail_of_alive alive _

end Segment

theorem dropLastUnits_of_alive (segments : List Segment) (count : Nat) :
    dropLastUnits around' segments count = dropLastUnits around segments count := by
  induction segments generalizing count with
  | nil => rfl
  | cons last front ih =>
      rw [dropLastUnits, dropLastUnits, ih,
        Segment.removeEnd_of_alive (besides_of_alive alive front)]

theorem trimLast_of_alive {α : Type} [TextUnit α] (st : Store α) (segments : List Segment) :
    trimLast around' st segments = trimLast around st segments := by
  induction segments with
  | nil => rfl
  | cons last front ih =>
      rw [trimLast, trimLast, ih, Segment.trimEnd_of_alive (besides_of_alive alive front)]

namespace Buffer

theorem removeEnd_of_alive (b : Buffer) (count : Nat) :
    b.removeEnd around' count = b.removeEnd around count := by
  simp only [removeEnd, dropLastUnits_of_alive alive]

theorem trimEnd_of_alive {α : Type} [TextUnit α] (b : Buffer) (st : Store α) :
    b.trimEnd around' st = b.trimEnd around st := by
  simp only [trimEnd, trimLast_of_alive alive]

end Buffer

namespace Bounded

theorem truncate_of_alive (b : Bounded) : b.truncate around' = b.truncate around := by
  rw [truncate, truncate, Buffer.removeEnd_of_alive alive]

theorem truncating_of_alive {α : Type} (r : Edited Bounded α Unit) :
    truncating around' r = truncating around r := by
  simp only [truncating, truncate_of_alive alive]

end Bounded

end

/-! ## What is seen of an object -/

/-- What is seen of an object, whichever way its text is cut. -/
inductive Shown (α : Type) where
  | segment (text : List α)
  | buffer (text : List α) (layout : Layout)
  | bounded (text : List α) (layout : Layout) (maxSize size : Nat)

/-- What is seen of an object, apart from how its text is cut and how much room it has. -/
def Object.shown {α : Type} (o : Object) (st : Store α) : Shown α :=
  match o with
  | .segment s => .segment (s.content st)
  | .buffer b => .buffer (b.content st) b.layout
  | .bounded b => .bounded (b.inner.content st) b.inner.layout b.maxSize b.size

namespace Edited

variable {ω α ρ : Type}

/-- Two edits give the same answer and leave objects that are seen as the same, unless one of them is
refused room.  Given `room`, the second is not refused it where the first is not. -/
structure Agrees (seen : ω → Object) (room : Prop) (u r : Edited ω α ρ) : Prop where
  same : u.answer ≠ .error .roomExceeded → r.answer ≠ .error .roomExceeded →
    r.answer = u.answer ∧ (seen r.object).shown r.store = (seen u.object).shown u.store
  unrefused : room → u.answer ≠ .error .roomExceeded → r.answer ≠ .error .roomExceeded

variable {seen : ω → Object} {room : Prop}

theorem Agrees.refl (u : Edited ω α ρ) : Agrees seen room u u :=
  ⟨fun _ _ => ⟨rfl, rfl⟩, fun _ unrefused => unrefused⟩

end Edited

/-- Whether the room that an object has at its end is its to fill.  It is unless the object is lent
out there and cannot be moved to a larger array. -/
def Object.fills (α : Type) [TextUnit α] (o : Object) (around : Surroundings) : Bool :=
  match o with
  | .segment s => s.canReserve α around 0
  | .buffer b => b.fills α around
  | .bounded b => b.inner.fills α around

/-- Only what is lent out can hinder an object. -/
theorem Object.fills_congr {α : Type} [TextUnit α] {o : Object} {around around' : Surroundings}
    (same : around'.lent = around.lent) : o.fills α around' = o.fills α around := by
  cases o with
  | segment s => exact Segment.canReserve_congr same 0
  | buffer b => exact Buffer.fills_congr same
  | bounded b => exact Buffer.fills_congr same

/-! ## Segments -/

namespace Segment

variable {α : Type} [TextUnit α] {s : Segment} {st : Store α} {around around' : Surroundings}

/-- Whatever is lent out, a segment that has not the room for units moves to the same array. -/
theorem canReserve_of_fills (valid : s.Valid st) (fills : s.canReserve α around' 0 = true)
    {count : Nat} (can : s.canReserve α around count = true) :
    s.canReserve α around' count = true := by
  by_cases room : count ≤ s.spare
  · exact (canReserve_of_le_spare valid room).trans fills
  · rw [canReserve, hasRoom, decide_eq_false room, Bool.false_and, Bool.false_or] at can ⊢
    exact can

end Segment

/-! ## Buffers -/

namespace Buffer

variable {α : Type} [TextUnit α] {b : Buffer} {st : Store α} {others : List Segment}
  {around around' : Surroundings}

theorem trailing?_withTrailing {front : List Segment} {last : Segment} (room : 0 < last.spare) :
    (b.withTrailing front last).trailing? = some (front, last) := by
  rw [trailing?, segments_withTrailing, List.getLast?_concat, List.dropLast_concat]
  exact if_pos room

theorem trailing?_withTrailing_of_full {front : List Segment} {last : Segment}
    (full : last.spare = 0) : (b.withTrailing front last).trailing? = none := by
  rw [trailing?, segments_withTrailing, List.getLast?_concat]
  exact if_neg (by omega)

/-- Units that find room where less is lent out find it where more is, if they can be moved. -/
theorem Finds.of_fills {count pending : Nat} (finds : b.Finds α around count pending)
    (fills : b.fills α around' = true) : b.Finds α around' count pending :=
  finds.imp_right fun taken => ⟨fills, taken.2⟩

section

variable (made : around.LendsMade st)
include made

/-- A unit that was taken had found room. -/
theorem finds_of_append {u : α} {appended : Buffer × Store α}
    (done : b.append around u st = .ok appended) : 1 ≤ b.room ∨ b.opens α 1 = true := by
  rcases append_done made done with ⟨front, last, found, -, -⟩ | ⟨-, opened, -⟩
  · exact .inl (room_of_segments (segments_of_trailing found).1 ▸ (segments_of_trailing found).2)
  · exact .inr opened

variable (hosts : st.Hosts (b.segments ++ others))
include hosts

/-- Where no segment can be opened and the last one stays where it is, no more units are taken than
there is room for. -/
theorem le_spare_of_extend {front : List Segment} {last : Segment}
    (found : b.trailing? = some (front, last)) (closed : b.opens α 1 = false)
    (unlent : around.lends last.storage = false) {units : List α}
    (done : (b.extend around units st).answer = .ok ()) : units.length ≤ last.spare := by
  induction units generalizing b st front last with
  | nil => exact Nat.zero_le _
  | cons u us ih =>
      have room := (segments_of_trailing found).2
      have less := last.spare_extended 1
      have filled : last.append around u st =
          ⟨last.extended 1, st.write last.storage last.stop u, .ok ()⟩ :=
        Segment.append_of_unlent unlent room u st
      have taken : (last.append around u st).answer = .ok () := congrArg Edited.answer filled
      have first := append_of_trailing found taken
      rw [filled] at first
      rw [extend, first] at done
      dsimp only at done
      rw [List.length_cons]
      by_cases full : last.spare = 1
      · have none : (b.withTrailing front (last.extended 1)).trailing? = none :=
          trailing?_withTrailing_of_full (by omega)
        have still : (b.withTrailing front (last.extended 1)).opens α 1 = false :=
          (opens_withTrailing found 1).trans closed
        cases us with
        | nil => simp only [List.length_nil]; omega
        | cons v vs =>
            rw [extend, append_of_not_opens none still] at done
            cases done
      · have onward : (b.withTrailing front (last.extended 1)).trailing? =
            some (front, last.extended 1) := trailing?_withTrailing (by omega)
        have beside := undisturbed_append around hosts first
        have taken := ih (made.grow beside.size_le) beside.hosts onward
          ((opens_withTrailing found 1).trans closed) unlent done
        omega

variable (made' : around'.LendsMade st)
include made'

/-- Lending more out is no reason for refusing units that come one by one, if they can be moved. -/
theorem extend_of_lent (more : around.lent ⊆ around'.lent) (fills : b.fills α around' = true)
    {units : List α} (done : (b.extend around units st).answer = .ok ()) :
    (b.extend around' units st).answer = .ok () := by
  induction units generalizing b st with
  | nil => rfl
  | cons u us ih =>
      cases opened : b.opens α 1 with
      | true => exact extend_of_finds made' hosts (.inr ⟨fills, .inr opened⟩)
      | false =>
          cases found : b.trailing? with
          | none =>
              rw [extend, append_of_not_opens found opened] at done
              cases done
          | some entry =>
              obtain ⟨front, last⟩ := entry
              cases lent : around.lends last.storage with
              | false =>
                  have room := le_spare_of_extend made hosts found opened lent done
                  rw [← room_of_segments (segments_of_trailing found).1] at room
                  exact extend_of_finds made' hosts (.inr ⟨fills, .inl room⟩)
              | true =>
                  -- The segment moves in both surroundings, and to the same place.
                  have lent' : around'.lends last.storage = true :=
                    List.contains_iff_mem.2 (more (List.contains_iff_mem.1 lent))
                  have moved : b.append around' u st = b.append around u st := by
                    simp only [append, found, Segment.append, Segment.growing, Segment.reserve,
                      Segment.canReserve, Segment.makeRoom, Segment.hasRoom, lent, lent']
                  rw [extend] at done ⊢
                  rw [moved]
                  cases first : b.append around u st with
                  | error fault =>
                      rw [first] at done
                      cases done
                  | ok appended =>
                      rw [first] at done
                      have beside := undisturbed_append around hosts first
                      exact ih (made.grow beside.size_le) beside.hosts (made'.grow beside.size_le)
                        (fills_append made hosts first made' fills) done

end

end Buffer

/-! ## Agreement -/

namespace Edited

variable {α : Type} {u r : Edited Buffer α Unit}

/-- Appends that put the same text into buffers of the same layout. -/
theorem agrees_of_leaves {text : List α} {room : Prop} (before : u.Leaves text)
    (behind : r.Leaves text) (layout : r.object.layout = u.object.layout)
    (well : room → u.answer = .ok () → r.answer = .ok ()) : Agrees .buffer room u r where
  same unrefused unrefused' := by
    obtain ⟨⟨_, done⟩, first⟩ := before.resolve_right unrefused
    obtain ⟨⟨_, done'⟩, second⟩ := behind.resolve_right unrefused'
    refine ⟨done'.trans done.symm, ?_⟩
    show Shown.buffer _ _ = Shown.buffer _ _
    rw [first, second, layout]
  unrefused roomy unrefused full := by
    obtain ⟨⟨_, done⟩, -⟩ := before.resolve_right unrefused
    cases (well roomy done).symm.trans full

end Edited

namespace Buffer

variable {α : Type} [TextUnit α] {b : Buffer} {st : Store α} {others : List Segment}
  {around around' : Surroundings} (hosts : st.Hosts (b.segments ++ others))
  (made : around.LendsMade st) (made' : around'.LendsMade st)
include hosts made made'

theorem agrees_append (u : α) :
    Edited.Agrees .buffer (b.fills α around' = true) (Edited.whole b st (b.append around u st))
      (Edited.whole b st (b.append around' u st)) := by
  have layout : ∀ around : Surroundings,
      (Edited.whole b st (b.append around u st)).object.layout = b.layout := fun around => by
    cases done : b.append around u st with
    | ok made => exact layout_of_append done
    | error fault => rfl
  refine Edited.agrees_of_leaves (leaves_append around hosts u) (leaves_append around' hosts u)
    ((layout around').trans (layout around).symm) fun fills done => ?_
  obtain ⟨appended, done⟩ := Edited.answer_whole_eq_ok.1 done
  have finds : b.Finds α around' 1 1 := .inr ⟨fills, finds_of_append made done⟩
  obtain ⟨appended', done', -⟩ := append_of_finds made' hosts (Nat.le_refl 1) finds u
  exact Edited.answer_whole_eq_ok.2 ⟨appended', done'⟩

theorem agrees_appendSlice (units : List α) :
    Edited.Agrees .buffer (b.fills α around' = true) (b.appendSlice around units st)
      (b.appendSlice around' units st) := by
  refine Edited.agrees_of_leaves (leaves_appendSlice around hosts units)
    (leaves_appendSlice around' hosts units)
    ((layout_appendSlice units).trans (layout_appendSlice units).symm) fun fills done => ?_
  have finds := (answer_appendBy (writesBehind_appendSlice around) hosts made units).1 done
  exact (answer_appendBy (writesBehind_appendSlice around') hosts made' units).2
    (finds.of_fills fills)

theorem agrees_appendText (text : String) :
    Edited.Agrees .buffer (b.fills α around' = true) (b.appendText around text st)
      (b.appendText around' text st) := by
  refine Edited.agrees_of_leaves (leaves_appendText around hosts text)
    (leaves_appendText around' hosts text)
    ((layout_appendText text).trans (layout_appendText text).symm) fun fills done => ?_
  have finds := (answer_appendBy (writesBehind_appendEach around) hosts made _).1 done
  exact (answer_appendBy (writesBehind_appendEach around') hosts made' _).2 (finds.of_fills fills)

theorem agrees_extend (more : around.lent ⊆ around'.lent) (units : List α) :
    Edited.Agrees .buffer (b.fills α around' = true) (b.extend around units st)
      (b.extend around' units st) :=
  Edited.agrees_of_leaves (leaves_extend around hosts units) (leaves_extend around' hosts units)
    ((layout_extend units).trans (layout_extend units).symm)
    fun fills => extend_of_lent made hosts made' more fills

end Buffer

namespace Bounded

variable {α : Type} [TextUnit α] {b : Bounded} {st : Store α} {others : List Segment}
  {around around' : Surroundings}

omit [TextUnit α] in
/-- What is counted is counted in both. -/
theorem agrees_counting {room : Prop} {u r : Edited Buffer α Unit}
    (agrees : Edited.Agrees .buffer room u r) (added : Nat) :
    Edited.Agrees .bounded room (b.counting added u) (b.counting added r) := by
  have answer : ∀ r : Edited Buffer α Unit, (b.counting added r).answer = r.answer := by
    intro r
    unfold counting
    split
    next done => exact done.symm
    next refused => exact refused.symm
  constructor
  · rw [answer, answer]
    intro unrefused unrefused'
    obtain ⟨told, shown⟩ := agrees.same unrefused unrefused'
    obtain ⟨text, layout⟩ := Shown.buffer.inj shown
    refine ⟨told, ?_⟩
    unfold counting
    rw [told]
    split
    · show Shown.bounded _ _ _ _ = Shown.bounded _ _ _ _
      rw [text, layout]
    · show Shown.bounded _ _ _ _ = Shown.bounded _ _ _ _
      rw [text, layout]
  · rw [answer, answer]
    exact agrees.unrefused

omit [TextUnit α] in
/-- The budget is the same in both. -/
theorem agrees_admitting {room : Prop} {change change' : Nat → Edited Bounded α Unit}
    (agrees : ∀ budget, b.size + budget ≤ b.maxSize →
      Edited.Agrees .bounded room (change budget) (change' budget)) :
    Edited.Agrees .bounded room (b.admitting st change) (b.admitting st change') := by
  unfold admitting remaining
  by_cases within : b.size ≤ b.maxSize
  · rw [if_pos within]
    exact agrees _ (by omega)
  · rw [if_neg within]
    exact .refl _

section

variable (hosts : st.Hosts (b.inner.segments ++ others)) (made : around.LendsMade st)
  (made' : around'.LendsMade st)
include hosts made made'

theorem agrees_append (u : α) :
    Edited.Agrees .bounded (b.inner.fills α around' = true) (b.append around u st)
      (b.append around' u st) := by
  unfold append
  split
  · exact .refl _
  · exact agrees_counting (Buffer.agrees_append hosts made made' u) 1

theorem agrees_appendSlice (units : List α) :
    Edited.Agrees .bounded (b.inner.fills α around' = true) (b.appendSlice around units st)
      (b.appendSlice around' units st) :=
  agrees_admitting fun _ _ => agrees_counting (Buffer.agrees_appendSlice hosts made made' _) _

theorem agrees_appendText (text : String) :
    Edited.Agrees .bounded (b.inner.fills α around' = true) (b.appendText around text st)
      (b.appendText around' text st) :=
  agrees_admitting fun _ _ => agrees_counting (Buffer.agrees_appendText hosts made made' _) _

theorem agrees_extend (more : around.lent ⊆ around'.lent) (units : List α) :
    Edited.Agrees .bounded (b.inner.fills α around' = true) (b.extend around units st)
      (b.extend around' units st) := by
  refine agrees_admitting fun budget within => ?_
  have admitted := List.length_take_le budget units
  have fits : b.size + (units.take budget).length ≤ b.maxSize := by omega
  obtain ⟨store, answer, object, maxSize, size⟩ := appendEach_eq_extend around st _ fits
  obtain ⟨store', answer', object', maxSize', size'⟩ := appendEach_eq_extend around' st _ fits
  have agrees := Buffer.agrees_extend hosts made made' more (units.take budget)
  constructor
  · rw [answer, answer']
    intro room room'
    obtain ⟨told, shown⟩ := agrees.same room room'
    obtain ⟨text, layout⟩ := Shown.buffer.inj shown
    obtain ⟨⟨_, done⟩, -⟩ := (Buffer.leaves_extend around hosts _).resolve_right room
    refine ⟨told, ?_⟩
    show Shown.bounded _ _ _ _ = Shown.bounded _ _ _ _
    rw [object, object', store, store', text, layout, maxSize, maxSize', size done,
      size' (told.trans done)]
  · rw [answer, answer']
    exact agrees.unrefused

end

end Bounded

/-! ## Edits that make no room -/

/-- Whether an edit makes room at the end of a segment. -/
def Edit.makesRoom {α : Type} : Edit α → Bool
  | .append _ | .appendSlice _ | .appendText _ | .extend _ => true
  | _ => false

section

variable {α : Type} [TextUnit α] {st : Store α} {around around' : Surroundings} {edit : Edit α}
  (alive : around'.alive = around.alive) (calm : edit.inPlace = false)
  (narrow : edit.makesRoom = false)
include alive calm narrow

theorem Segment.apply_of_alive (s : Segment) :
    s.apply around' st edit = s.apply around st edit := by
  cases edit with
  | append | appendSlice | appendText | extend => cases narrow
  | setAt | replaceUnit | lowerCase | upperCase => cases calm
  | removeEnd count => rw [apply, apply, removeEnd_of_alive alive]
  | trimEnd => rw [apply, apply, trimEnd_of_alive alive]
  | trim => rw [apply, apply, trim, trim, trimEnd_of_alive alive]
  | removeStart | trimStart | compact | appendSegment | appendBuffer | prepend | prependSegment
  | clear | replaceRange | replaceAll | substitute => rfl

theorem Buffer.apply_of_alive (b : Buffer) :
    b.apply around' st edit = b.apply around st edit := by
  cases edit with
  | append | appendSlice | appendText | extend => cases narrow
  | setAt | replaceUnit | lowerCase | upperCase => cases calm
  | removeEnd count => rw [apply, apply, removeEnd_of_alive alive]
  | trimEnd => rw [apply, apply, trimEnd_of_alive alive]
  | trim => rw [apply, apply, trim, trim, trimEnd_of_alive alive]
  | removeStart | trimStart | compact | appendSegment | appendBuffer | prepend | prependSegment
  | clear | replaceRange | replaceAll | substitute => rfl

theorem Bounded.apply_of_alive (b : Bounded) :
    b.apply around' st edit = b.apply around st edit := by
  cases edit with
  | append | appendSlice | appendText | extend => cases narrow
  | setAt | replaceUnit | lowerCase | upperCase => cases calm
  | prepend u => rw [apply, apply, prepend, prepend, truncating_of_alive alive]
  | prependSegment s =>
      rw [apply, apply, prependSegment, prependSegment, truncating_of_alive alive]
  | removeEnd count => rw [apply, apply, removeEnd, removeEnd, Buffer.removeEnd_of_alive alive]
  | trimEnd => rw [apply, apply, Buffer.trimEnd_of_alive alive]
  | trim => rw [apply, apply, Buffer.trim, Buffer.trim, Buffer.trimEnd_of_alive alive]
  | replaceRange start stop replacement =>
      simp only [apply, replaceRange, truncate_of_alive alive]
  | replaceAll search replacement => simp only [apply, replaceAll, truncate_of_alive alive]
  | substitute opening closing provider =>
      simp only [apply, substitute, truncate_of_alive alive]
  | appendSegment | appendBuffer | removeStart | trimStart | compact | clear => rfl

/-- To an edit that neither overwrites text in place nor makes room, what is lent out does not
matter. -/
theorem Object.apply_of_alive (o : Object) (st : Store α) :
    o.apply around' st edit = o.apply around st edit := by
  cases o with
  | segment s =>
      exact congrArg (Option.map fun r => r.mapObject Object.segment)
        (s.apply_of_alive alive calm narrow)
  | buffer b =>
      exact congrArg (fun r => some (r.mapObject Object.buffer))
        (b.apply_of_alive alive calm narrow)
  | bounded b =>
      exact congrArg (fun r => some (r.mapObject Object.bounded))
        (b.apply_of_alive alive calm narrow)

end

/-! ## Edits that make room -/

namespace Edited

variable {ω α : Type} [TextUnit α]

/-- Two edits tell the same of objects that are seen as the same, unless one of them is refused room.
Given `room`, the second is not refused it where the first is not. -/
structure Alike (room : Prop) (u r : Edited Object α Reply) : Prop where
  same : u.answer ≠ .error .roomExceeded → r.answer ≠ .error .roomExceeded →
    Answer.ofExcept (Reply.answer r.store) r.answer =
        Answer.ofExcept (Reply.answer u.store) u.answer ∧
      r.object.shown r.store = u.object.shown u.store
  unrefused : room → u.answer ≠ .error .roomExceeded → r.answer ≠ .error .roomExceeded

theorem Alike.refl {room : Prop} (u : Edited Object α Reply) : Alike room u u :=
  ⟨fun _ _ => ⟨rfl, rfl⟩, fun _ unrefused => unrefused⟩

/-- Where the text is all that is changed, there is no more to tell. -/
theorem alike_silent {seen : ω → Object} {room : Prop} {u r : Edited ω α Unit}
    (agrees : Agrees seen room u r) :
    Alike room (u.silent.mapObject seen) (r.silent.mapObject seen) := by
  have refused : ∀ r : Edited ω α Unit, (r.silent.mapObject seen).answer = .error .roomExceeded ↔
      r.answer = .error .roomExceeded := by
    rintro ⟨object, st, _ | _⟩ <;> simp [silent, mapAnswer, mapObject, Except.map]
  constructor
  · rw [Ne, Ne, refused, refused]
    intro unrefused unrefused'
    obtain ⟨answer, shown⟩ := agrees.same unrefused unrefused'
    refine ⟨?_, shown⟩
    show Answer.ofExcept _ (r.answer.map _) = Answer.ofExcept _ (u.answer.map _)
    rw [answer]
    cases u.answer <;> rfl
  · rw [Ne, Ne, refused, refused]
    exact agrees.unrefused

end Edited

namespace Segment

variable {α : Type} [TextUnit α] {s : Segment} {st : Store α} {around around' : Surroundings}

/-- What is appended to a segment it takes, if it can be moved. -/
theorem agrees_addition (placed : s.Placed st) (made : around.LendsMade st)
    (made' : around'.LendsMade st) (call : Addition α) :
    Edited.Agrees .segment (s.canReserve α around' 0 = true) (s.add around st call)
      (s.add around' st call) := by
  have alone : st.Hosts (s :: []) :=
    Store.Hosts.cons_iff.2 ⟨placed, .nil st, List.forall_mem_nil _⟩
  have done : ∀ {around : Surroundings}, around.LendsMade st →
      (s.add around st call).answer ≠ .error .roomExceeded →
      (s.add around st call).answer = .ok () := by
    intro around made unrefused
    cases told : (s.add around st call).answer with
    | ok _ => rfl
    | error fault =>
        rw [add_of_refused alone made told] at unrefused
        exact absurd rfl unrefused
  constructor
  · intro unrefused unrefused'
    have well := done made unrefused
    have well' := done made' unrefused'
    exact ⟨well'.trans well.symm, congrArg Shown.segment
      ((content_add placed around' well').trans (content_add placed around well).symm)⟩
  · intro fills unrefused refused
    have can : ∀ n, call.room? = some n → s.canReserve α around' n = true := by
      intro n asks
      have less : s.canReserve α around n = true := by
        by_contra cannot
        rw [add_of_not_canReserve asks cannot] at unrefused
        exact unrefused rfl
      exact canReserve_of_fills placed.valid fills less
    cases (add_of_canReserve alone made' can).symm.trans refused

theorem alike_apply (placed : s.Placed st) (made : around.LendsMade st)
    (made' : around'.LendsMade st) {edit : Edit α} (makes : edit.makesRoom = true) :
    Option.Rel (Edited.Alike (s.canReserve α around' 0 = true))
      ((s.apply around st edit).map (·.mapObject .segment))
      ((s.apply around' st edit).map (·.mapObject .segment)) := by
  have agrees := agrees_addition placed made made'
  cases edit with
  | append u => exact .some (Edited.alike_silent (agrees (.unit u)))
  | appendSlice units => exact .some (Edited.alike_silent (agrees (.slice units)))
  | appendText text => exact .some (Edited.alike_silent (agrees (.text text)))
  | extend => exact .none
  | _ => cases makes

end Segment

/-- **What is lent out does not show in what an edit leaves.**  The edit must not overwrite text in
place, and must not be refused room; and it is not refused room on account of what is lent out if
that can be moved. -/
theorem Object.alike_apply {α : Type} [TextUnit α] {o : Object} {st : Store α}
    {others : List Segment} {around around' : Surroundings} (alive : around'.alive = around.alive)
    (more : around.lent ⊆ around'.lent) (made : around.LendsMade st) (made' : around'.LendsMade st)
    (hosts : st.Hosts (o.segments ++ others)) {edit : Edit α} (calm : edit.inPlace = false) :
    Option.Rel (Edited.Alike (edit.makesRoom = true → o.fills α around' = true))
      (o.apply around st edit) (o.apply around' st edit) := by
  cases makes : edit.makesRoom with
  | false =>
      rw [o.apply_of_alive alive calm makes st]
      cases o.apply around st edit with
      | none => exact .none
      | some r => exact .some (.refl r)
  | true =>
      have roomy : (true = true → o.fills α around' = true) = (o.fills α around' = true) := by simp
      rw [roomy]
      cases o with
      | segment s => exact Segment.alike_apply (hosts.placed s List.mem_cons_self) made made' makes
      | buffer b =>
          refine .some ?_
          cases edit with
          | append u => exact Edited.alike_silent (Buffer.agrees_append hosts made made' u)
          | appendSlice units =>
              exact Edited.alike_silent (Buffer.agrees_appendSlice hosts made made' units)
          | appendText text =>
              exact Edited.alike_silent (Buffer.agrees_appendText hosts made made' text)
          | extend units =>
              exact Edited.alike_silent (Buffer.agrees_extend hosts made made' more units)
          | _ => cases makes
      | bounded b =>
          refine .some ?_
          cases edit with
          | append u => exact Edited.alike_silent (Bounded.agrees_append hosts made made' u)
          | appendSlice units =>
              exact Edited.alike_silent (Bounded.agrees_appendSlice hosts made made' units)
          | appendText text =>
              exact Edited.alike_silent (Bounded.agrees_appendText hosts made made' text)
          | extend units =>
              exact Edited.alike_silent (Bounded.agrees_extend hosts made made' more units)
          | _ => cases makes

end SegmentedText
