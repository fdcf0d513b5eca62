import SegmentedText.Proofs.Growing.Trailing

/-!
# Text and units in bulk

A text is appended unit by unit, and a list of units all at once.  A segment that has to move makes
room for one unit on the first way and for all of them on the other, but moves to the same array:
where the units fit into the room that the segment has, the larger array is as large whichever
number of them is asked for (`Segment.nextCapacity_of_le_spare`).  So both ways leave the same
segments over the same arrays (`Buffer.appendText_eq_appendSlice`).

Units that are appended one by one to a buffer may end up in other segments.  They are taken
whenever they are taken in bulk, and then the same text is shown (`Buffer.text_as_units`).  They
may also be taken where units in bulk are refused, because a segment that has moved has more room.
-/

set_option autoImplicit false

namespace SegmentedText
namespace Buffer

variable {α : Type} [TextUnit α] {b : Buffer} {st : Store α} {around : Surroundings}
  {others : List Segment}

section

variable {write write' : Segment → List α → Store α → Edited Segment α Unit}
  (writes : WritesBehind around write) (writes' : WritesBehind around write')
  (made : around.LendsMade st)
include writes writes' made

theorem appendRest_congr (rest : List α) :
    b.appendRest write rest st = b.appendRest write' rest st := by
  unfold appendRest
  cases may : b.opens α rest.length with
  | true =>
      rw [extendBy_of_writes writes made (Nat.le_refl _) may,
        extendBy_of_writes writes' made (Nat.le_refl _) may]
  | false =>
      rw [extendBy_of_not_opens may fun _ _ _ => writes.refused,
        extendBy_of_not_opens may fun _ _ _ => writes'.refused]

/-- Two ways of writing behind a segment append units in bulk to the same effect. -/
theorem appendBy_congr (hosts : st.Hosts (b.segments ++ others)) (units : List α) :
    b.appendBy write units st = b.appendBy write' units st := by
  unfold appendBy
  cases found : b.trailing? with
  | none => exact appendRest_congr writes writes' made units
  | some entry =>
      obtain ⟨front, last⟩ := entry
      let first := units.take (min last.spare units.length)
      have beside := hosts_trailing hosts found
      have placed := beside.placed last List.mem_cons_self
      have fits : first.length ≤ last.spare := by
        rw [List.length_take]
        omega
      have grown := (Segment.undisturbed_appendSlice around beside first).size_le
      dsimp only
      rw [Edited.mapObject_andThen, Edited.mapObject_andThen, writes.bulk placed made fits,
        writes'.bulk placed made fits]
      split
      next => exact appendRest_congr writes writes' (made.grow grown) _
      next => rfl

end

/-- A text and its units in bulk end up in the same segments and the same cells. -/
theorem appendText_eq_appendSlice (hosts : st.Hosts (b.segments ++ others))
    (made : around.LendsMade st) (text : String) :
    b.appendText around text st = b.appendSlice around (TextUnit.unitsOf text) st :=
  appendBy_congr (writesBehind_appendEach around) (writesBehind_appendSlice around) made hosts _

/-- **A text is appended as its units are.** A text and its units in bulk leave the same segments
over the same arrays, with the same room, whatever is lent out.  They are refused only where they
do not find room: the last segment has room and is lent out, and cannot be moved to a larger array;
or there is no room for all of them, and no segment can be opened for what is left over.  Wherever
they are not refused, the units are not refused one by one either, and all ways leave the same
text. -/
theorem text_as_units (hosts : st.Hosts (b.segments ++ others)) (made : around.LendsMade st)
    (text : String) :
    let units : List α := TextUnit.unitsOf text
    let bulk := b.appendText around text st
    let each := b.extend around units st
    bulk = b.appendSlice around units st ∧
      (bulk.answer = .error .roomExceeded ↔
        ¬b.Finds α around units.length (units.length - b.room)) ∧
      (bulk.answer ≠ .error .roomExceeded →
        bulk.answer = .ok () ∧ each.answer = .ok () ∧
          bulk.object.content bulk.store = b.content st ++ units ∧
          each.object.content each.store = b.content st ++ units) := by
  intro units bulk each
  have finds := answer_appendBy (writesBehind_appendEach around) hosts made units
  have leaves := leaves_appendText around hosts text
  refine ⟨appendText_eq_appendSlice hosts made text, ?_, fun unrefused => ?_⟩
  · rw [← finds]
    refine ⟨fun full done => ?_, fun refused => ?_⟩
    · cases full.symm.trans done
    · exact leaves.resolve_left fun ⟨⟨_, done⟩, _⟩ => refused done
  · obtain ⟨⟨_, done⟩, shown⟩ := leaves.resolve_right unrefused
    have taken : each.answer = .ok () := by
      rcases finds.1 done with none | ⟨fills, room⟩
      · exact extend_of_finds made hosts (.inl none)
      · by_cases fits : units.length ≤ b.room
        · exact extend_of_finds made hosts (.inr ⟨fills, .inl fits⟩)
        · have left : 1 ≤ units.length - b.room := by omega
          have opened := opens_of_le left (room.resolve_left fits)
          exact extend_of_finds made hosts (.inr ⟨fills, .inr opened⟩)
    obtain ⟨-, shown'⟩ := (leaves_extend around hosts units).resolve_right fun full =>
      nomatch taken.symm.trans full
    exact ⟨done, taken, shown, shown'⟩

/-- The last segment is lent out, so that it moves. -/
theorem text_as_units_roomForOne :
    let around : Surroundings := { lent := [⟨1⟩] }
    let bulk := roomForOne.1.appendText around "cde" roomForOne.2
    roomForOne.2.Hosts (roomForOne.1.segments ++ []) ∧ around.LendsMade roomForOne.2 ∧
      bulk = roomForOne.1.appendSlice around ['c', 'd', 'e'] roomForOne.2 ∧
      bulk.answer ≠ .error .roomExceeded ∧
      bulk.object.content bulk.store = ['a', 'b', 'c', 'd', 'e'] := by
  intro around bulk
  have made : around.LendsMade roomForOne.2 := Surroundings.lendsMade_singleton (by decide)
  obtain ⟨same, refused, shown⟩ := text_as_units hosts_roomForOne made "cde"
  have finds : roomForOne.1.Finds Char around 3 (3 - roomForOne.1.room) :=
    .inr ⟨by decide, .inr (by decide)⟩
  have unrefused : bulk.answer ≠ .error .roomExceeded := fun full => refused.1 full finds
  exact ⟨hosts_roomForOne, made, same, unrefused, (shown unrefused).2.2.1⟩

/-- A segment with room for three units, and a layout that asks for more than there can be. -/
def wideLayout : Buffer × Store Char :=
  let (s, st) := Segment.allocate ['a', 'b'] 5 {}
  ({ segmentList := .held [s], layout := { initialCapacity := 9223372036854775808 } }, st)

theorem hosts_wideLayout : wideLayout.2.Hosts (wideLayout.1.segments ++ []) :=
  (undisturbed_allocate ['a', 'b'] 5 (.nil ({} : Store Char))).hosts

/-- In bulk, three units are refused while the segment is lent out; one by one, all six go into the
larger array to which the segment has moved. -/
theorem bulk_refused_wideLayout :
    let around : Surroundings := { lent := [⟨0⟩] }
    let bulk := wideLayout.1.appendText around "wxyz12" wideLayout.2
    let each := wideLayout.1.extend around ['w', 'x', 'y', 'z', '1', '2'] wideLayout.2
    wideLayout.2.Hosts (wideLayout.1.segments ++ []) ∧ around.LendsMade wideLayout.2 ∧
      bulk.object.content bulk.store = ['a', 'b', 'w', 'x', 'y'] ∧
      each.object.content each.store = ['a', 'b', 'w', 'x', 'y', 'z', '1', '2'] ∧
      bulk.object.content bulk.store ≠ each.object.content each.store := by
  intro around bulk each
  have made : around.LendsMade wideLayout.2 := Surroundings.lendsMade_singleton (by decide)
  have few : bulk.object.content bulk.store = ['a', 'b', 'w', 'x', 'y'] := by decide +kernel
  have all : each.object.content each.store = ['a', 'b', 'w', 'x', 'y', 'z', '1', '2'] := by
    decide +kernel
  exact ⟨hosts_wideLayout, made, few, all, fun same => absurd (few.symm.trans (same.trans all))
    (by decide)⟩

end Buffer

end SegmentedText
