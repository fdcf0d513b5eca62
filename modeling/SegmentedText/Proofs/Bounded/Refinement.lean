import SegmentedText.Bounded
import SegmentedText.Proofs.Flat.Appends
import SegmentedText.Proofs.Flat.Replacement
import SegmentedText.Proofs.Flat.Shortenings
import SegmentedText.Proofs.Flat.Substitution
import SegmentedText.Proofs.Ownership.Edits

/-!
# Bounded buffers are unbounded ones that are cut

An edit of a bounded buffer is compared with the same edit of the buffer that it holds,
in the same store (`Bounded.Refines`).  The answers are the same and so is the text, but
that it is cut to the maximum; and the count stays what it is kept for, the number of units
shown (`Bounded.Counted`).

There are four ways to get there: units are admitted as far as the budget goes
(`Bounded.refines_appended`), what overflows is dropped afterwards (`Bounded.refines_cut`),
the count is brought up to date by the same number as the text, or it is taken anew
(`Bounded.refines_kept`).

Room is the one thing that bounds do not tell of: a segment that the unbounded buffer
would open may be more than there can be, and an append that is refused midway is not
counted.  Nothing is said of what such an append leaves.
-/

set_option autoImplicit false

namespace SegmentedText

/-- The count is the number of units shown, and no greater than the maximum. -/
structure Bounded.Counted (b : Bounded) : Prop where
  size_eq : b.size = b.inner.length
  size_le : b.size ≤ b.maxSize

/-- What an edit leaves of a bounded buffer is what it leaves of the unbounded one, cut to the
maximum. -/
structure Bounded.Refines {α ρ : Type} (maxSize : Nat) (r : Edited Bounded α ρ)
    (u : Edited Buffer α ρ) : Prop where
  maxSize_eq : r.object.maxSize = maxSize
  counted : r.answer ≠ .error .roomExceeded → r.object.Counted
  answer : u.answer ≠ .error .roomExceeded → r.answer = u.answer
  content : u.answer ≠ .error .roomExceeded →
    r.object.inner.content r.store = (u.object.content u.store).take maxSize
  countable : r.answer ≠ .error .countExceeded ∧ r.answer ≠ .error .budgetExceeded

/-! ## Refusals of changes in place -/

section

variable {α : Type} {st : Store α} {around : Surroundings} {fault : Fault}

theorem Buffer.refused_setAt {b : Buffer} {i : Nat} {u : α}
    (refused : b.setAt around i u st = .error fault) :
    (∃ i length, fault = .segmentIndex i length) ∨ (∃ i length, fault = .bufferIndex i length) ∨
      fault = .storageLent := by
  unfold setAt Segment.setAt at refused
  dsimp only at refused
  split at refused
  next =>
    split at refused
    next => exact .inl ⟨_, _, (Except.error.inj refused).symm⟩
    next =>
      split at refused
      next => exact .inr (.inr (Except.error.inj refused).symm)
      next => cases refused
  next => exact .inr (.inl ⟨_, _, (Except.error.inj refused).symm⟩)

/-- A mapping is stopped only by an array that is lent out. -/
theorem refused_mapEachSegment (f : α → α) (segments : List Segment)
    (stopped : (mapEachSegment around f segments st).2 = some fault) : fault = .storageLent := by
  induction segments generalizing st with
  | nil => cases stopped
  | cons s rest ih =>
      rw [mapEachSegment] at stopped
      split at stopped
      next => exact ih stopped
      next fault' refused =>
        obtain rfl := Option.some.inj stopped
        unfold Segment.mapUnits at refused
        split at refused
        next => exact (Except.error.inj refused).symm
        next => cases refused

end

namespace Bounded

variable {α ρ : Type} {st : Store α} {b : Bounded} {others : List Segment}
  {around : Surroundings} {maxSize : Nat}

/-! ## Ways to stay within the bounds -/

theorem Counted.remaining {b : Bounded} (counted : b.Counted) :
    b.remaining = .ok (b.maxSize - b.size) := remaining_of_le counted.size_le

theorem Counted.length_content {b : Bounded} (counted : b.Counted) (valid : b.inner.Valid st) :
    (b.inner.content st).length = b.size := by
  rw [valid.length_content, counted.size_eq]

/-- An answer can be told in other words. -/
theorem Refines.mapAnswer {ρ' : Type} {r : Edited Bounded α ρ} {u : Edited Buffer α ρ}
    (refines : Refines maxSize r u) (f : ρ → ρ') :
    Refines maxSize (r.mapAnswer f) (u.mapAnswer f) := by
  have told : ∀ {ω : Type} {e : Edited ω α ρ} {fault : Fault},
      (e.mapAnswer f).answer = .error fault ↔ e.answer = .error fault := by
    intro ω e fault
    unfold Edited.mapAnswer
    cases e.answer with
    | ok answer => simp [Except.map]
    | error refusal => simp [Except.map]
  obtain ⟨same, counted, answer, content, countable⟩ := refines
  refine ⟨same, fun room => counted (mt told.2 room), fun room => ?_,
    fun room => content (mt told.2 room), mt told.1 countable.1, mt told.1 countable.2⟩
  exact congrArg (Except.map f) (answer (mt told.2 room))

/-- A text that does not exceed the maximum is not cut. -/
theorem refines_kept {u : Edited Buffer α ρ} {size : Nat} (valid : u.object.Valid u.store)
    (size_eq : size = u.object.length) (size_le : size ≤ maxSize)
    (countable : u.answer ≠ .error .countExceeded ∧ u.answer ≠ .error .budgetExceeded) :
    Refines maxSize ⟨⟨u.object, maxSize, size⟩, u.store, u.answer⟩ u where
  maxSize_eq := rfl
  counted _ := ⟨size_eq, size_le⟩
  answer _ := rfl
  content _ := by
    refine (List.take_of_length_le ?_).symm
    rw [valid.length_content, ← size_eq]
    exact size_le
  countable := countable

/-- A cut leaves as much as the maximum, and counts it. -/
theorem counted_truncate (size_eq : b.size = b.inner.length) : (b.truncate around).Counted := by
  unfold truncate
  split
  next more =>
    refine ⟨?_, Nat.le_refl _⟩
    rw [Buffer.length_removeEnd, ← size_eq]
    exact (Nat.sub_sub_self (Nat.le_of_lt more)).symm
  next fits => exact ⟨size_eq, Nat.le_of_not_lt fits⟩

theorem maxSize_truncate (b : Bounded) (around : Surroundings) :
    (b.truncate around).maxSize = b.maxSize := by
  unfold truncate
  split <;> rfl

theorem content_truncate (hosts : st.Hosts (b.inner.segments ++ others))
    (covers : around.Covers others) (size_eq : b.size = b.inner.length) :
    (b.truncate around).inner.content st = (b.inner.content st).take b.maxSize := by
  have valid : b.inner.Valid st := Buffer.valid_of_hosts hosts (List.subset_append_left _ _)
  unfold truncate
  split
  next more =>
    have cut : (b.inner.removeEnd around (b.size - b.maxSize)).Valid st :=
      Buffer.valid_of_hosts (Buffer.hosts_removeEnd covers hosts _) (List.subset_append_left _ _)
    have cells := b.inner.cells_removeEnd around (b.size - b.maxSize)
    rw [← size_eq, Nat.sub_sub_self (Nat.le_of_lt more)] at cells
    exact cut.content_eq cells (valid.reads.take b.maxSize)
  next fits =>
    refine (List.take_of_length_le ?_).symm
    rw [valid.length_content, ← size_eq]
    exact Nat.le_of_not_lt fits

/-- What overflows is dropped when the edit is over. -/
theorem refines_cut {u : Edited Buffer α ρ} {size : Nat}
    (hosts : u.store.Hosts (u.object.segments ++ others)) (covers : around.Covers others)
    (size_eq : size = u.object.length)
    (countable : u.answer ≠ .error .countExceeded ∧ u.answer ≠ .error .budgetExceeded) :
    Refines maxSize ⟨truncate ⟨u.object, maxSize, size⟩ around, u.store, u.answer⟩ u where
  maxSize_eq := maxSize_truncate _ _
  counted _ := counted_truncate size_eq
  answer _ := rfl
  content _ := content_truncate (b := ⟨u.object, maxSize, size⟩) hosts covers size_eq
  countable := countable

/-- What has been appended is as much of the units as the budget admits. -/
theorem refines_appended {r : Edited Bounded α Unit} {u : Edited Buffer α Unit} {units : List α}
    (counted : b.Counted) (valid : b.inner.Valid st) (same : r.object.maxSize = b.maxSize)
    (appended : r.answer = .ok () ∧ r.object.inner.Valid r.store ∧
        r.object.inner.content r.store =
          b.inner.content st ++ units.take (b.maxSize - b.size) ∧
        r.object.size = b.size + (units.take (b.maxSize - b.size)).length ∨
      r.answer = .error .roomExceeded)
    (unbounded : u.Leaves (b.inner.content st ++ units))
    (room : u.answer = .ok () → r.answer = .ok ()) : Refines b.maxSize r u := by
  have before := counted.length_content valid
  have fits := counted.size_le
  have total := List.length_take_le (b.maxSize - b.size) units
  refine ⟨same, fun done => ?_, fun done => ?_, fun done => ?_, ?_⟩
  · rcases appended with ⟨-, shows, content, size⟩ | refused
    · have after := congrArg List.length content
      rw [shows.length_content, List.length_append, before] at after
      exact ⟨size.trans after.symm, by rw [size, same]; omega⟩
    · exact absurd refused done
  · rcases unbounded with ⟨⟨_, ok⟩, -⟩ | refused
    · rw [room ok, ok]
    · exact absurd refused done
  · rcases unbounded with ⟨⟨_, ok⟩, all⟩ | refused
    · rcases appended with ⟨-, -, content, -⟩ | no_room
      · rw [content, all, List.take_append, before,
          List.take_of_length_le (l := b.inner.content st) (by omega)]
      · cases (room ok).symm.trans no_room
    · exact absurd refused done
  · rcases appended with ⟨ok, -⟩ | refused
    · rw [ok]
      exact ⟨nofun, nofun⟩
    · rw [refused]
      exact ⟨nofun, nofun⟩

/-- An append of what the budget admits, counted when it is over. -/
theorem refines_counting {e u : Edited Buffer α Unit} {units admitted : List α}
    (counted : b.Counted) (hosts : st.Hosts (b.inner.segments ++ others))
    (admits : admitted = units.take (b.maxSize - b.size))
    (beside : Undisturbed others st e.object.segments e.store)
    (appended : e.Leaves (b.inner.content st ++ admitted))
    (unbounded : u.Leaves (b.inner.content st ++ units))
    (room : u.answer = .ok () → e.answer = .ok ()) :
    Refines b.maxSize (b.counting admitted.length e) u := by
  have same : (b.counting admitted.length e).answer = e.answer := by
    unfold counting
    split
    next done => exact done.symm
    next refused => exact refused.symm
  have valid : b.inner.Valid st := Buffer.valid_of_hosts hosts (List.subset_append_left _ _)
  have shows : e.object.Valid e.store :=
    Buffer.valid_of_hosts beside.hosts (List.subset_append_left _ _)
  refine refines_appended counted valid ?_ ?_ unbounded fun ok => same.trans (room ok)
  · unfold counting
    split <;> rfl
  · rcases appended with ⟨⟨_, ok⟩, content⟩ | refused
    · have done : b.counting admitted.length e =
          ⟨{ b with inner := e.object, size := b.size + admitted.length }, e.store, .ok ()⟩ := by
        unfold counting
        rw [ok]
      rw [done, ← admits]
      exact .inl ⟨rfl, shows, content, rfl⟩
    · exact .inr (same.trans refused)

/-! ## Appending -/

section

variable [TextUnit α]

/-- While there is room, units are appended one by one as if there were no bounds. -/
theorem appendEach_eq_extend (around : Surroundings) (st : Store α) (units : List α)
    (fits : b.size + units.length ≤ b.maxSize) :
    (b.appendEach around units st).store = (b.inner.extend around units st).store ∧
      (b.appendEach around units st).answer = (b.inner.extend around units st).answer ∧
      (b.appendEach around units st).object.inner = (b.inner.extend around units st).object ∧
      (b.appendEach around units st).object.maxSize = b.maxSize ∧
      ((b.inner.extend around units st).answer = .ok () →
        (b.appendEach around units st).object.size = b.size + units.length) := by
  induction units generalizing b st with
  | nil => exact ⟨rfl, rfl, rfl, rfl, fun _ => rfl⟩
  | cons u us ih =>
      rw [List.length_cons] at fits
      have room : b.isFull = false := by
        refine beq_eq_false_iff_ne.2 fun full => ?_
        omega
      rw [appendEach, append, room, Buffer.extend]
      cases first : b.inner.append around u st with
      | error fault =>
          refine ⟨rfl, rfl, rfl, rfl, ?_⟩
          rintro ⟨⟩
      | ok made =>
          obtain ⟨inner, st'⟩ := made
          have less : b.size + 1 + us.length ≤ b.maxSize := by omega
          obtain ⟨store, answer, object, same, size⟩ :=
            ih (b := { b with inner, size := b.size + 1 }) st' less
          refine ⟨store, answer, object, same, fun done => ?_⟩
          rw [List.length_cons, Nat.add_comm us.length, ← Nat.add_assoc]
          exact size done

end

section

variable [TextUnit α] (around : Surroundings) (hosts : st.Hosts (b.inner.segments ++ others))
  (counted : b.Counted)
include hosts counted

theorem refines_append (u : α) :
    Refines b.maxSize (b.append around u st)
      (Edited.whole b.inner st (b.inner.append around u st)) := by
  have valid : b.inner.Valid st := Buffer.valid_of_hosts hosts (List.subset_append_left _ _)
  have unbounded := Buffer.leaves_append around hosts u
  have beside : Undisturbed others st
      (Edited.whole b.inner st (b.inner.append around u st)).object.segments
      (Edited.whole b.inner st (b.inner.append around u st)).store :=
    Buffer.undisturbed_whole hosts fun made done => Buffer.undisturbed_append around hosts done
  unfold append
  split
  next full =>
    have none : b.maxSize - b.size = 0 := by
      rw [beq_iff_eq.1 full]
      exact Nat.sub_self _
    refine refines_appended counted valid rfl (.inl ?_) unbounded fun _ => rfl
    rw [none, List.take_zero, List.append_nil]
    exact ⟨rfl, valid, rfl, rfl⟩
  next room =>
    have some : 0 < b.maxSize - b.size := by
      have fits := counted.size_le
      have less : b.size ≠ b.maxSize := fun full => room (beq_iff_eq.2 full)
      omega
    have admits : [u] = [u].take (b.maxSize - b.size) :=
      (List.take_of_length_le (by rw [List.length_singleton]; exact some)).symm
    exact refines_counting counted hosts admits beside unbounded unbounded id

theorem refines_appendSlice (made : around.LendsMade st) (units : List α) :
    Refines b.maxSize (b.appendSlice around units st) (b.inner.appendSlice around units st) := by
  rw [appendSlice, admitting, counted.remaining]
  exact refines_counting counted hosts rfl (Buffer.undisturbed_appendSlice around hosts _)
    (Buffer.leaves_appendSlice around hosts _) (Buffer.leaves_appendSlice around hosts units)
    (Buffer.appendSlice_take around hosts made units _)

theorem refines_appendText (made : around.LendsMade st) (text : String) :
    Refines b.maxSize (b.appendText around text st) (b.inner.appendText around text st) := by
  have admits := unitsOf_take (α := α) text (b.maxSize - b.size)
  have count : (text.toList.take (b.maxSize - b.size)).length =
      (TextUnit.unitsOf (String.ofList (text.toList.take (b.maxSize - b.size))) : List α).length := by
    rw [TextUnit.unitsOf, String.toList_ofList, List.length_map]
  rw [appendText, admitting, counted.remaining]
  dsimp only
  rw [count]
  exact refines_counting counted hosts admits.symm (Buffer.undisturbed_appendText around hosts _)
    (Buffer.leaves_appendText around hosts _) (Buffer.leaves_appendText around hosts text)
    (Buffer.appendText_take around hosts made text _)

theorem refines_extend (units : List α) :
    Refines b.maxSize (b.extend around units st) (b.inner.extend around units st) := by
  have valid : b.inner.Valid st := Buffer.valid_of_hosts hosts (List.subset_append_left _ _)
  have fits : b.size + (units.take (b.maxSize - b.size)).length ≤ b.maxSize := by
    have some := counted.size_le
    have admitted := List.length_take_le (b.maxSize - b.size) units
    omega
  obtain ⟨store, answer, object, same, size⟩ := appendEach_eq_extend around st _ fits
  rw [extend, admitting, counted.remaining]
  refine refines_appended counted valid same ?_ (Buffer.leaves_extend around hosts units)
    fun done => answer.trans (Buffer.extend_take around units _ done)
  have beside := Buffer.undisturbed_extend around hosts (units.take (b.maxSize - b.size))
  rcases Buffer.leaves_extend around hosts (units.take (b.maxSize - b.size)) with
    ⟨⟨_, ok⟩, content⟩ | refused
  · refine .inl ⟨answer.trans ok, ?_, ?_, size ok⟩
    · rw [object, store]
      exact Buffer.valid_of_hosts beside.hosts (List.subset_append_left _ _)
    · rw [object, store]
      exact content
  · exact .inr (answer.trans refused)

end

section

/-- What is admitted of a segment shows as much as the budget admits. -/
theorem content_admitted {s : Segment} (hosts : st.Hosts (s :: others)) (budget : Nat) :
    (if budget < s.length then s.window 0 budget else s).content st =
      (s.content st).take budget := by
  have valid := (hosts.placed s List.mem_cons_self).valid
  have admitted := (hosts_admitted hosts budget).placed _ List.mem_cons_self
  split at admitted
  next more =>
    have cells : (s.window 0 budget).cells = (s.cells.take budget).drop 0 :=
      Segment.cells_window (Nat.le_of_lt more)
    have reads := admitted.valid.reads
    rw [cells, List.drop_zero] at reads
    rw [if_pos more]
    exact reads.unique (valid.reads.take budget)
  next fits =>
    rw [if_neg fits]
    refine (List.take_of_length_le ?_).symm
    rw [valid.length_content]
    exact Nat.le_of_not_lt fits

theorem isEmpty_admitted {s : Segment} (none : s.isEmpty = true) (budget : Nat) :
    (if budget < s.length then s.window 0 budget else s).isEmpty = true := by
  rw [Segment.length_eq_zero_of_isEmpty none, if_neg (Nat.not_lt_zero _)]
  exact none

theorem refines_appendSegment {s : Segment} (hosts : st.Hosts (s :: (b.inner.segments ++ others)))
    (counted : b.Counted) :
    Refines b.maxSize (b.appendSegment s st)
      (Edited.wholeObject b.inner st (b.inner.appendSegment s)) := by
  have own := (Store.Hosts.cons_iff.1 hosts).2.1
  have valid : b.inner.Valid st := Buffer.valid_of_hosts own (List.subset_append_left _ _)
  have clipped := hosts_admitted hosts (b.maxSize - b.size)
  have content := content_admitted hosts (b.maxSize - b.size)
  have empty := fun none => isEmpty_admitted (s := s) none (b.maxSize - b.size)
  rw [appendSegment, admitting, counted.remaining]
  dsimp only
  generalize (if b.maxSize - b.size < s.length then s.window 0 (b.maxSize - b.size) else s) =
    admitted at clipped content empty ⊢
  have count := (clipped.placed _ List.mem_cons_self).valid.length_content
  rw [content] at count
  have taken := Buffer.leaves_appendSegment clipped
  rw [content] at taken
  have unbounded := Buffer.leaves_appendSegment hosts
  cases done : b.inner.appendSegment admitted with
  | ok inner =>
      refine refines_appended counted valid rfl (.inl ?_) unbounded fun _ => rfl
      rw [done] at taken
      rcases taken with ⟨-, shown⟩ | refused
      · refine ⟨rfl, ?_, shown, congrArg (b.size + ·) count.symm⟩
        exact Buffer.valid_of_hosts (Buffer.hosts_appendSegment clipped done)
          (List.subset_append_left _ _)
      · cases refused
  | error fault =>
      refine refines_appended counted valid rfl (.inr ?_) unbounded fun ok => ?_
      · rw [Buffer.refused_taking done]
      · cases whole : b.inner.appendSegment s with
        | ok b' =>
            have taken : b.inner.appendSegment admitted = .ok (b.inner.push admitted) :=
              Buffer.taking_of_taking empty whole
            cases done.symm.trans taken
        | error fault =>
            rw [whole] at ok
            cases ok

theorem refines_appendBuffer {other : Buffer} (hosts : st.Hosts (b.inner.segments ++ others))
    (alive : other.segments ⊆ b.inner.segments ++ others) (counted : b.Counted) :
    Refines b.maxSize (b.appendBuffer other st)
      (Edited.wholeObject b.inner st (b.inner.appendBuffer other)) := by
  have incoming : other.Valid st := Buffer.valid_of_hosts hosts alive
  have views := Buffer.views_shared hosts alive
  have unbounded := Buffer.leaves_appendBuffer hosts views incoming
  rw [appendBuffer, admitting, counted.remaining]
  dsimp only
  split
  next fits =>
    have admits : other.content st = (other.content st).take (b.maxSize - b.size) :=
      (List.take_of_length_le (by rw [incoming.length_content]; exact fits)).symm
    rw [← incoming.length_content]
    exact refines_counting counted hosts admits (Buffer.undisturbed_wholeObject hosts fun b' done =>
      Buffer.hosts_appendBuffer hosts views done) unbounded unbounded id
  next more =>
    have less := Nat.le_of_lt (Nat.lt_of_not_le more)
    have parted := Buffer.views_shared_part hosts alive 0 (b.maxSize - b.size)
    have part : (other.part 0 (b.maxSize - b.size)).Valid st := by
      intro t found
      obtain ⟨s, here, view⟩ :=
        Buffer.views_part (Buffer.ordered_of_hosts hosts alive) 0 (b.maxSize - b.size) t found
      exact (view.placed (hosts.placed s (alive here))).valid
    have content : (other.part 0 (b.maxSize - b.size)).content st =
        (other.content st).take (b.maxSize - b.size) :=
      part.content_eq (Buffer.cells_part other less) (incoming.reads.take _)
    have taken := Buffer.leaves_appendBuffer hosts parted part
    rw [content] at taken
    have count : ((other.content st).take (b.maxSize - b.size)).length = b.maxSize - b.size := by
      rw [List.length_take, incoming.length_content, Nat.min_eq_left less]
    have refines := refines_counting counted hosts rfl
      (Buffer.undisturbed_wholeObject hosts fun b' done =>
        Buffer.hosts_appendBuffer hosts parted done) taken unbounded fun ok => ?_
    · rwa [count] at refines
    · cases whole : b.inner.appendBuffer other with
      | ok b' =>
          obtain ⟨b'', done⟩ := Buffer.appendBuffer_of_shows (by omega) whole
            (other.part 0 (b.maxSize - b.size))
          rw [done]
          rfl
      | error fault =>
          rw [whole] at ok
          cases ok

end

/-! ## Changes that may overflow -/

section

variable (hosts : st.Hosts (b.inner.segments ++ others)) (counted : b.Counted)
  (covers : around.Covers others)
include counted covers

/-- What has been put in front is counted, and as much drops out at the end as overflows. -/
theorem refines_truncating {e : Edited Buffer α Unit} {added : List α}
    (valid : b.inner.Valid st) (beside : Undisturbed others st e.object.segments e.store)
    (prepended : e.Leaves (added ++ b.inner.content st)) :
    Refines b.maxSize (truncating around (b.counting added.length e)) e := by
  have before := counted.length_content valid
  have shows : e.object.Valid e.store :=
    Buffer.valid_of_hosts beside.hosts (List.subset_append_left _ _)
  obtain ⟨object, store, answer⟩ := e
  rcases prepended with ⟨⟨_, ok⟩, content⟩ | refused
  · obtain rfl : answer = .ok () := ok
    have after := congrArg List.length content
    rw [shows.length_content, List.length_append, before] at after
    refine refines_cut (u := ⟨object, store, .ok ()⟩) beside.hosts covers ?_ ⟨nofun, nofun⟩
    rw [after, Nat.add_comm]
  · obtain rfl : answer = .error .roomExceeded := refused
    exact ⟨rfl, fun room => absurd rfl room, fun room => absurd rfl room,
      fun room => absurd rfl room, nofun, nofun⟩

theorem refines_prependSegment {s : Segment}
    (hosts : st.Hosts (s :: (b.inner.segments ++ others))) :
    Refines b.maxSize (b.prependSegment around s st)
      (Edited.wholeObject b.inner st (b.inner.prependSegment s)) := by
  have own := (Store.Hosts.cons_iff.1 hosts).2.1
  have count := (hosts.placed s List.mem_cons_self).valid.length_content
  rw [prependSegment, ← count]
  exact refines_truncating counted covers (Buffer.valid_of_hosts own (List.subset_append_left _ _))
    (Buffer.undisturbed_wholeObject own fun b' done => Buffer.hosts_prependSegment hosts done)
    (Buffer.leaves_prependSegment hosts)

include hosts

theorem refines_prepend [TextUnit α] (u : α) :
    Refines b.maxSize (b.prepend around u st)
      (Edited.whole b.inner st (b.inner.prepend u st)) := by
  have valid : b.inner.Valid st := Buffer.valid_of_hosts hosts (List.subset_append_left _ _)
  have unbounded := Buffer.leaves_prepend hosts u
  unfold prepend
  split
  next none =>
    have empty : b.inner.content st = [] := by
      have before := counted.length_content valid
      have fits := counted.size_le
      exact List.eq_nil_of_length_eq_zero (by omega)
    refine ⟨rfl, fun _ => counted, fun room => ?_, fun room => ?_, nofun, nofun⟩
    · rcases unbounded with ⟨⟨_, ok⟩, -⟩ | refused
      · exact ok.symm
      · exact absurd refused room
    · rw [none, List.take_zero, empty]
  next some =>
    exact refines_truncating counted covers valid (Buffer.undisturbed_whole hosts fun made done =>
      Buffer.undisturbed_prepend hosts done) unbounded

theorem refines_replaceAll [TextUnit α] (search replacement : List α) :
    Refines b.maxSize (b.replaceAll around search replacement st)
      (b.inner.replaceAll search replacement st) := by
  have beside := Buffer.undisturbed_replaceAll hosts search replacement
  obtain ⟨rounds, answer, lengths⟩ := Buffer.length_replaceAll search replacement hosts
  rw [← counted.size_eq] at lengths
  unfold replaceAll
  generalize b.inner.replaceAll search replacement st = u at beside answer lengths ⊢
  obtain ⟨object, store, told⟩ := u
  obtain rfl : told = .ok rounds := answer
  dsimp only at lengths ⊢
  rw [if_neg (by omega)]
  exact refines_cut (u := ⟨object, store, .ok rounds⟩) beside.hosts covers
    (by show _ = object.length; omega) ⟨nofun, nofun⟩

omit counted in
theorem refines_substitute [TextUnit α] (opening closing : List α) {provider : Provider α}
    {relied : List Segment} (fair : provider.Fair relied) (alive : relied ⊆ others) :
    Refines b.maxSize (b.substitute around opening closing provider st)
      (b.inner.substitute opening closing provider st) := by
  have beside := Buffer.undisturbed_substitute opening closing fair alive hosts
  obtain ⟨asked, answer⟩ := Buffer.answer_substitute opening closing fair alive hosts
  unfold substitute
  generalize b.inner.substitute opening closing provider st = u at beside answer ⊢
  obtain ⟨object, store, told⟩ := u
  obtain rfl : told = .ok asked := answer
  exact refines_cut (u := ⟨object, store, .ok asked⟩) beside.hosts covers rfl ⟨nofun, nofun⟩

omit hosts in
theorem refines_replaceRange {replacement : Buffer}
    (hosts : st.Hosts (replacement.segments ++ (b.inner.segments ++ others))) (start stop : Nat) :
    Refines b.maxSize (b.replaceRange around start stop replacement st)
      (b.inner.replaceRange start stop replacement st) := by
  have own : st.Hosts (b.inner.segments ++ others) := hosts.right
  unfold replaceRange Buffer.replaceRange
  cases done : b.inner.splice start stop replacement with
  | ok spliced =>
      obtain ⟨inner, c⟩ := spliced
      obtain ⟨ordered, inside⟩ := Buffer.le_of_splice done
      have length := Buffer.length_splice done
      rw [← counted.size_eq] at inside length
      dsimp only
      rw [if_neg (by omega)]
      exact refines_cut (u := ⟨inner, st, .ok ()⟩) (Buffer.hosts_splice hosts done) covers
        length.symm ⟨nofun, nofun⟩
  | error fault =>
      refine refines_kept (u := ⟨b.inner, st, .error fault⟩)
        (Buffer.valid_of_hosts own (List.subset_append_left _ _)) counted.size_eq counted.size_le ?_
      rcases Buffer.refused_splice done with ⟨length, rfl⟩ | rfl
      · exact ⟨nofun, nofun⟩
      · exact ⟨nofun, nofun⟩

end

/-! ## Changes in place -/

section

variable (hosts : st.Hosts (b.inner.segments ++ others)) (counted : b.Counted)
include hosts counted

theorem refines_setAt (i : Nat) (u : α) :
    Refines b.maxSize (.written b st (b.inner.setAt around i u st))
      (.written b.inner st (b.inner.setAt around i u st)) := by
  cases done : b.inner.setAt around i u st with
  | ok st' =>
      have still := Buffer.hosts_setAt hosts done
      exact refines_kept (u := ⟨b.inner, st', .ok Reply.done⟩)
        (Buffer.valid_of_hosts still (List.subset_append_left _ _)) counted.size_eq counted.size_le
        ⟨nofun, nofun⟩
  | error fault =>
      refine refines_kept (u := ⟨b.inner, st, .error fault⟩)
        (Buffer.valid_of_hosts hosts (List.subset_append_left _ _)) counted.size_eq
        counted.size_le ?_
      rcases Buffer.refused_setAt done with ⟨i, length, rfl⟩ | ⟨i, length, rfl⟩ | rfl
      · exact ⟨nofun, nofun⟩
      · exact ⟨nofun, nofun⟩
      · exact ⟨nofun, nofun⟩

theorem refines_mapUnits (f : α → α) :
    Refines b.maxSize (.mapped b (b.inner.mapUnits around f st))
      (.mapped b.inner (b.inner.mapUnits around f st)) := by
  have still : (b.inner.mapUnits around f st).1.Hosts (b.inner.segments ++ others) :=
    Buffer.hosts_mapEachSegment hosts b.inner.segments
  have stopped : ∀ fault, (mapEachSegment around f b.inner.segments st).2 = some fault →
      fault = .storageLent := fun fault => refused_mapEachSegment f b.inner.segments
  unfold Buffer.mapUnits at still ⊢
  generalize mapEachSegment around f b.inner.segments st = r at still stopped ⊢
  obtain ⟨st', none | fault⟩ := r
  · exact refines_kept (u := ⟨b.inner, st', .ok Reply.done⟩)
      (Buffer.valid_of_hosts still (List.subset_append_left _ _)) counted.size_eq counted.size_le
      ⟨nofun, nofun⟩
  · obtain rfl := stopped fault rfl
    exact refines_kept (u := ⟨b.inner, st', .error .storageLent⟩)
      (Buffer.valid_of_hosts still (List.subset_append_left _ _)) counted.size_eq counted.size_le
      ⟨nofun, nofun⟩

end

/-! ## All edits -/

/-- An edit that only moves the ends of the segments. -/
theorem refines_moved {inner : Buffer} {size : Nat} (hosts : st.Hosts (inner.segments ++ others))
    (size_eq : size = inner.length) (size_le : size ≤ b.maxSize) :
    Refines b.maxSize (.moved (b.withInner inner size) st) (.moved inner st) :=
  refines_kept (u := .moved inner st) (Buffer.valid_of_hosts hosts (List.subset_append_left _ _))
    size_eq size_le ⟨nofun, nofun⟩

variable [TextUnit α]

/-- **An edit of a bounded buffer is that of the unbounded one, cut to the maximum.** -/
theorem refines_apply {edit : Edit α}
    (hosts : st.Hosts (edit.windows ++ (b.inner.segments ++ others)))
    (fits : edit.Fits b.inner.segments others) (covers : around.Covers others)
    (made : around.LendsMade st) (counted : b.Counted) :
    Refines b.maxSize (b.apply around st edit) (b.inner.apply around st edit) := by
  have own : st.Hosts (b.inner.segments ++ others) := hosts.right
  have valid : b.inner.Valid st := Buffer.valid_of_hosts own (List.subset_append_left _ _)
  have within : b.inner.length ≤ b.maxSize := counted.size_eq ▸ counted.size_le
  have counted_size := counted.size_le
  cases edit with
  | append u => exact (refines_append around own counted u).mapAnswer _
  | appendSlice units => exact (refines_appendSlice around own counted made units).mapAnswer _
  | appendText text => exact (refines_appendText around own counted made text).mapAnswer _
  | extend units => exact (refines_extend around own counted units).mapAnswer _
  | appendSegment s => exact (refines_appendSegment hosts counted).mapAnswer _
  | appendBuffer other => exact (refines_appendBuffer own fits counted).mapAnswer _
  | prepend u => exact (refines_prepend own counted covers u).mapAnswer _
  | prependSegment s => exact (refines_prependSegment counted covers hosts).mapAnswer _
  | setAt i u => exact refines_setAt own counted i u
  | replaceUnit old new => exact refines_mapUnits own counted _
  | lowerCase => exact refines_mapUnits own counted _
  | upperCase => exact refines_mapUnits own counted _
  | removeStart count =>
      have length := b.inner.length_removeStart count
      rw [← counted.size_eq] at length
      exact refines_moved (Buffer.hosts_removeStart own count) (by omega) (by omega)
  | removeEnd count =>
      have length := b.inner.length_removeEnd around count
      rw [← counted.size_eq] at length
      exact refines_moved (Buffer.hosts_removeEnd covers own count) (by omega) (by omega)
  | trimStart =>
      exact refines_moved (Buffer.hosts_trimStart own) rfl
        (Nat.le_trans b.inner.length_trimStart_le within)
  | trimEnd =>
      exact refines_moved (Buffer.hosts_trimEnd covers own) rfl
        (Nat.le_trans (b.inner.length_trimEnd_le around) within)
  | trim =>
      exact refines_moved (Buffer.hosts_trim covers own) rfl
        (Nat.le_trans (b.inner.length_trim_le around) within)
  | compact =>
      have beside := Buffer.undisturbed_compact own
      have moved : (b.inner.compact st).1.Valid (b.inner.compact st).2 :=
        Buffer.valid_of_hosts beside.hosts (List.subset_append_left _ _)
      have length := congrArg List.length (Buffer.content_compact own)
      rw [moved.length_content, valid.length_content, ← counted.size_eq] at length
      exact refines_kept (u := .stored (b.inner.compact st)) moved length.symm counted.size_le
        ⟨nofun, nofun⟩
  | clear => exact refines_moved own.right rfl (Nat.zero_le _)
  | replaceRange start stop r =>
      exact (refines_replaceRange counted covers hosts start stop).mapAnswer _
  | replaceAll search replacement =>
      exact (refines_replaceAll own counted covers search replacement).mapAnswer _
  | substitute opening closing provider =>
      obtain ⟨relied, alive, fair⟩ := fits
      exact (refines_substitute own covers opening closing fair alive).mapAnswer _

end Bounded

end SegmentedText
