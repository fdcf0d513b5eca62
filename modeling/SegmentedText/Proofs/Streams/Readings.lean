import SegmentedText.Proofs.Flat.Allotments
import SegmentedText.Proofs.Flat.Cursors
import SegmentedText.Proofs.Ownership.Steps

/-!
# Reading flat text

A reader is at each moment what a tape is: a unit that was pushed back, if there is one,
in front of what is still unread of a flat text (`Reader.Follows`).  Reading a unit, a
block or a line takes units from the front of the tape, whatever the segments.

A line goes to a sink, and the sink may own room in the very arrays that are read.  What
is written there shows in no window that is alive, so the text that is read stays what
it was (`Cursor.pours_locate`).
-/

set_option autoImplicit false

namespace SegmentedText

variable {α : Type}

namespace Cursor

variable {segments : List Segment} {st : Store α}

/-- What is unread at a located cursor: the rest of its segment and all segments behind that. -/
theorem drop_contentOf_locate (valid : ∀ s ∈ segments, s.Valid st) {position : Nat} {s : Segment}
    (here : segments[(locate segments position).segment]? = some s) :
    (contentOf segments st).drop position =
      (s.content st).drop (locate segments position).offset ++
        (contentOf segments st).drop
          (position + (s.length - (locate segments position).offset)) := by
  obtain ⟨front, t, back, offset, rfl, inside, rfl, found⟩ :=
    locate_eq (lt_of_segment_locate here)
  rw [found] at here ⊢
  simp only [List.getElem?_append_right (Nat.le_refl _), Nat.sub_self, List.getElem?_cons_zero,
    Option.some.injEq] at here
  subst here
  have before : (contentOf front st).length = totalLength front :=
    length_contentOf fun s early => valid s (List.mem_append_left _ early)
  have counted : (t.content st).length = t.length :=
    (valid t (List.mem_append_right _ List.mem_cons_self)).length_content
  have here : totalLength front + offset = (contentOf front st).length + offset := by omega
  have past : totalLength front + offset + (t.length - offset) =
      (contentOf front st ++ t.content st).length := by
    rw [List.length_append]
    omega
  rw [contentOf_append, contentOf_cons, past, ← List.append_assoc, List.drop_left,
    List.append_assoc, here, List.drop_length_add_append,
    List.drop_append_of_le_length (by omega)]

/-- The rest of the segment at a cursor is part of the text. -/
theorem segment_end_le {position : Nat} {s : Segment}
    (here : segments[(locate segments position).segment]? = some s) :
    position + (s.length - (locate segments position).offset) ≤ totalLength segments := by
  obtain ⟨t, there, -, place⟩ := locate_inside (lt_of_segment_locate here)
  obtain rfl := Option.some.inj (here.symm.trans there)
  have around := totalLength_around here
  have inside := offset_lt_of_locate here
  omega

/-! ## Blocks -/

/-- A block takes the units from its position on, and the cursor stands behind them. -/
theorem gather_locate (valid : ∀ s ∈ segments, s.Valid st) (position room : Nat) :
    (locate segments position).gather segments st room =
      (((contentOf segments st).drop position).take room,
        locate segments (position + min room (totalLength segments - position))) := by
  generalize located : locate segments position = c
  fun_induction gather segments st c room generalizing position with
  | case1 c room absent =>
      subst located
      have behind := le_of_locate_none absent
      have nothing : (contentOf segments st).drop position = [] :=
        List.drop_eq_nil_of_le (by rw [length_contentOf valid]; exact behind)
      rw [nothing, List.take_nil, Nat.sub_eq_zero_of_le behind, Nat.min_zero, Nat.add_zero]
  | case2 c s here =>
      subst located
      rw [List.take_zero, Nat.zero_min, Nat.add_zero]
  | case3 c room s here some_room count block others behind rest ih =>
      subst located
      have inside := lt_of_segment_locate here
      have offset_lt := offset_lt_of_locate here
      have counted := (valid s (List.mem_of_getElem? here)).length_content
      have jumped := jumpTo_locate inside
        (Nat.le_add_right (locate segments position).offset count)
      rw [Nat.add_sub_cancel_left] at jumped
      obtain ⟨rfl, rfl⟩ := Prod.mk.inj (rest.symm.trans (ih _ jumped.symm))
      have unread := drop_contentOf_locate valid here
      have left := segment_end_le here
      have split : room = count + (room - count) := by omega
      refine Prod.ext ?_ ?_
      · show block ++ _ = _
        rw [split, List.take_add, List.drop_drop, Nat.add_sub_cancel_left]
        refine congrArg (· ++ _) ?_
        rw [unread, List.take_append_of_le_length (by rw [List.length_drop]; omega)]
      · show locate segments _ = locate segments _
        congr 1
        omega

end Cursor

/-! ## Lines -/

section

variable [TextUnit α]

/-- What comes before the first delimiter. -/
def lineOf (delimiter : α) (unread : List α) : List α := unread.takeWhile (· != delimiter)

/-- The delimiter and what comes behind it, or nothing if there is none. -/
def fromDelimiter (delimiter : α) (unread : List α) : List α := unread.dropWhile (· != delimiter)

theorem lineOf_append_fromDelimiter (delimiter : α) (unread : List α) :
    lineOf delimiter unread ++ fromDelimiter delimiter unread = unread :=
  List.takeWhile_append_dropWhile

theorem line_cons_self (delimiter : α) (unread : List α) :
    lineOf delimiter (delimiter :: unread) = [] ∧
      fromDelimiter delimiter (delimiter :: unread) = delimiter :: unread := by
  simp [lineOf, fromDelimiter]

theorem line_cons_of_ne {u delimiter : α} (differs : u ≠ delimiter) (unread : List α) :
    lineOf delimiter (u :: unread) = u :: lineOf delimiter unread ∧
      fromDelimiter delimiter (u :: unread) = fromDelimiter delimiter unread := by
  simp [lineOf, fromDelimiter, differs]

/-- Behind a line and its delimiter comes the rest of the text. -/
theorem drop_behind_line (delimiter : α) (unread : List α) :
    let past := (lineOf delimiter unread).length +
      if (fromDelimiter delimiter unread).isEmpty then 0 else 1
    past ≤ unread.length ∧ unread.drop past = (fromDelimiter delimiter unread).tail := by
  have parts := lineOf_append_fromDelimiter delimiter unread
  generalize lineOf delimiter unread = line at parts ⊢
  generalize fromDelimiter delimiter unread = behind at parts ⊢
  subst parts
  dsimp only
  rw [List.length_append, List.drop_length_add_append]
  cases behind with
  | nil => exact ⟨Nat.le_refl _, rfl⟩
  | cons u us => exact ⟨Nat.add_le_add_left (Nat.succ_pos _) _, rfl⟩

/-- Text without a delimiter is all of a line. -/
theorem line_of_absent {delimiter : α} {front : List α}
    (absent : front.findIdx? (· == delimiter) = none) (back : List α) :
    lineOf delimiter (front ++ back) = front ++ lineOf delimiter back ∧
      fromDelimiter delimiter (front ++ back) = fromDelimiter delimiter back := by
  have differ : ∀ u ∈ front, (u != delimiter) = true := by
    intro u here
    rw [bne, List.findIdx?_eq_none_iff.1 absent u here]
    rfl
  exact ⟨List.takeWhile_append_of_pos differ, List.dropWhile_append_of_pos differ⟩

/-- The first delimiter ends the line. -/
theorem line_of_found {delimiter : α} {front : List α} {k : Nat}
    (found : front.findIdx? (· == delimiter) = some k) (back : List α) :
    lineOf delimiter (front ++ back) = front.take k ∧
      fromDelimiter delimiter (front ++ back) = delimiter :: (front.drop (k + 1) ++ back) := by
  obtain ⟨inside, here, before⟩ := List.findIdx?_eq_some_iff_getElem.1 found
  have differ : ∀ u ∈ front.take k, (u != delimiter) = true := by
    intro u early
    obtain ⟨j, less, rfl⟩ := List.mem_take_iff_getElem.1 early
    have other := before j (by omega)
    rw [Bool.not_eq_true] at other
    rw [bne, other]
    rfl
  have parts : front ++ back = front.take k ++ delimiter :: (front.drop (k + 1) ++ back) := by
    have delimited : front[k] = delimiter := beq_iff_eq.1 here
    rw [← List.cons_append, ← delimited, ← List.drop_eq_getElem_cons inside, ← List.append_assoc,
      List.take_append_drop]
  rw [parts, lineOf, fromDelimiter, List.takeWhile_append_of_pos differ,
    List.dropWhile_append_of_pos differ, List.takeWhile_cons_of_neg (by simp),
    List.dropWhile_cons_of_neg (by simp), List.append_nil]
  exact ⟨rfl, rfl⟩

/-- What a pour leaves: the line is in the sink and the cursor stands behind the delimiter, unless
the line did not find room; then it has been begun at most, and the cursor stands somewhere in the
text. -/
def Pours (segments : List Segment) (delimiter : α) (unread : List α) (position : Nat)
    (around : Surroundings) (sink : Buffer) (st : Store α) (r : Cursor × Edited Buffer α Bool) :
    Prop :=
  (r.2.answer = .error .roomExceeded ∧
    ¬sink.Finds α around (lineOf delimiter unread).length (lineOf delimiter unread).length ∧
      r.2.Begins (sink.content st) (lineOf delimiter unread) ∧
        ∃ place ≤ totalLength segments, r.1 = .locate segments place) ∨
    r.2.answer = .ok (!(fromDelimiter delimiter unread).isEmpty) ∧
      r.1 = .locate segments (position + (lineOf delimiter unread).length +
        if (fromDelimiter delimiter unread).isEmpty then 0 else 1) ∧
      r.2.object.content r.2.store = sink.content st ++ lineOf delimiter unread

omit [TextUnit α] in
theorem valid_of_alive {segments live : List Segment} {st : Store α} (hosts : st.Hosts live)
    (alive : segments ⊆ live) : ∀ s ∈ segments, s.Valid st :=
  fun s here => (hosts.placed s (alive here)).valid

/-- An append that was carried out has put its units behind the text. -/
theorem Buffer.content_appendSlice {b : Buffer} {st : Store α} {others : List Segment}
    (around : Surroundings) (hosts : st.Hosts (b.segments ++ others)) {units : List α}
    (done : (b.appendSlice around units st).answer = .ok ()) :
    (b.appendSlice around units st).object.content (b.appendSlice around units st).store =
      b.content st ++ units := by
  rcases Buffer.leaves_appendSlice around hosts units with ⟨-, shown⟩ | refused
  · exact shown
  · rw [done] at refused
    cases refused

/-- The line at a located cursor, where its segment has a delimiter: it ends there. -/
theorem Cursor.line_of_place {segments : List Segment} {st : Store α} {delimiter : α}
    (valid : ∀ s ∈ segments, s.Valid st) {position place : Nat} {s : Segment}
    (here : segments[(locate segments position).segment]? = some s)
    (found : s.indexOf delimiter (locate segments position).offset st = some place) :
    let unread := (contentOf segments st).drop position
    lineOf delimiter unread =
        ((s.content st).take place).drop (locate segments position).offset ∧
      (locate segments position).offset + (lineOf delimiter unread).length = place ∧
      (fromDelimiter delimiter unread).isEmpty = false := by
  obtain ⟨k, first, rfl⟩ := Option.map_eq_some_iff.1 found
  obtain ⟨line, behind⟩ := line_of_found first ((contentOf segments st).drop
    (position + (s.length - (locate segments position).offset)))
  rw [← drop_contentOf_locate valid here] at line behind
  have inside := (List.findIdx?_eq_some_iff_getElem.1 first).1
  have poured : ((s.content st).take (k + (locate segments position).offset)).drop
      (locate segments position).offset =
        ((s.content st).drop (locate segments position).offset).take k := by
    rw [List.drop_take, Nat.add_sub_cancel]
  refine ⟨line.trans poured.symm, ?_, ?_⟩
  · rw [line, List.length_take]
    omega
  · rw [behind, List.isEmpty_cons]

/-- The line at a located cursor, where its segment has no delimiter: it goes on behind that. -/
theorem Cursor.line_of_no_place {segments : List Segment} {st : Store α} {delimiter : α}
    (valid : ∀ s ∈ segments, s.Valid st) {position : Nat} {s : Segment}
    (here : segments[(locate segments position).segment]? = some s)
    (absent : s.indexOf delimiter (locate segments position).offset st = none) :
    let unread := (contentOf segments st).drop position
    let beyond := (contentOf segments st).drop
      (position + (s.length - (locate segments position).offset))
    lineOf delimiter unread =
        (s.content st).drop (locate segments position).offset ++ lineOf delimiter beyond ∧
      fromDelimiter delimiter unread = fromDelimiter delimiter beyond := by
  dsimp only
  rw [drop_contentOf_locate valid here]
  exact line_of_absent (Option.map_eq_none_iff.1 absent) _

/-- What begins a line that finds room is taken, and the rest of the line still finds room. -/
theorem Buffer.appendSlice_of_finds {b : Buffer} {around : Surroundings} {st : Store α}
    {others : List Segment} (hosts : st.Hosts (b.segments ++ others)) (made : around.LendsMade st)
    (units : List α) {rest : Nat}
    (finds : b.Finds α around (units.length + rest) (units.length + rest)) :
    (b.appendSlice around units st).answer = .ok () ∧
      (b.appendSlice around units st).object.Finds α around rest rest :=
  have taken := Buffer.appendBy_of_finds (Buffer.writesBehind_appendSlice around) hosts made
    (Nat.le_add_right units.length rest) finds
  ⟨taken.1, taken.2.mono (Nat.le_add_left rest _)⟩

/-- Where the first part of a line is refused, the line does not find room and has been begun at
most. -/
theorem Buffer.begins_of_refused {b : Buffer} {around : Surroundings} {st : Store α}
    {others : List Segment} (hosts : st.Hosts (b.segments ++ others)) (made : around.LendsMade st)
    {units : List α} {fault : Fault} (refused : (b.appendSlice around units st).answer = .error fault)
    (rest : List α) :
    ¬b.Finds α around (units ++ rest).length (units ++ rest).length ∧
      (b.appendSlice around units st).Begins (b.content st) (units ++ rest) := by
  constructor
  · intro finds
    rw [List.length_append] at finds
    cases refused.symm.trans (Buffer.appendSlice_of_finds hosts made units finds).1
  · obtain ⟨part, begun, shown⟩ :=
      Buffer.begins_appendBy (Buffer.writesBehind_appendSlice around) hosts made units
    exact ⟨part, begun.trans (List.prefix_append units rest), shown⟩

/-- The line from a position on goes to the sink. -/
theorem Cursor.pours_locate {segments live : List Segment} (alive : segments ⊆ live)
    (delimiter : α) {around : Surroundings} {sink : Buffer} {st : Store α}
    (hosts : st.Hosts (sink.segments ++ live)) (made : around.LendsMade st) {position : Nat}
    (within : position ≤ totalLength segments) :
    Pours segments delimiter ((contentOf segments st).drop position) position around sink st
      ((Cursor.locate segments position).pour segments delimiter around sink st) := by
  generalize located : locate segments position = c
  fun_induction pour segments delimiter around c sink st generalizing position with
  | case1 c sink st absent =>
      subst located
      have valid := valid_of_alive hosts.right alive
      have nothing : (contentOf segments st).drop position = [] :=
        List.drop_eq_nil_of_le (by rw [length_contentOf valid]; exact le_of_locate_none absent)
      rw [nothing]
      exact .inr ⟨rfl, rfl, (List.append_nil _).symm⟩
  | case2 c sink st s here place found r done =>
      subst located
      obtain ⟨line, stop, behind⟩ := line_of_place (valid_of_alive hosts.right alive) here found
      refine .inr ⟨?_, ?_, ?_⟩
      · rw [behind]
        exact congrArg (Except.map fun _ => true) done
      · show jumpTo _ segments _ = _
        rw [jumpTo_locate (lt_of_segment_locate here) (by omega), behind]
        congr 1
        simp only [Bool.false_eq_true, if_false]
        omega
      · rw [line]
        exact Buffer.content_appendSlice around hosts done
  | case3 c sink st s here place found r fault refused =>
      subst located
      obtain rfl := (Buffer.leaves_appendSlice around hosts _).eq_roomExceeded refused
      obtain ⟨line, -, -⟩ := line_of_place (valid_of_alive hosts.right alive) here found
      have begun := Buffer.begins_of_refused hosts made refused []
      rw [List.append_nil] at begun
      refine .inl ⟨rfl, ?_, ?_, position, within, rfl⟩
      · rw [line]
        exact begun.1
      · rw [line]
        exact begun.2
  | case4 c sink st s here absent r done ih =>
      subst located
      have valid := valid_of_alive hosts.right alive
      have offset_lt := offset_lt_of_locate here
      have counted := (valid s (List.mem_of_getElem? here)).length_content
      obtain ⟨line, behind⟩ := line_of_no_place valid here absent
      have first : Undisturbed live st r.object.segments r.store :=
        Buffer.undisturbed_appendSlice around hosts _
      have kept : contentOf segments r.store = contentOf segments st :=
        contentOf_congr fun s here => first.content_eq (alive here)
      have jumped := jumpTo_locate (lt_of_segment_locate here) (Nat.le_of_lt offset_lt)
      have rest := ih first.hosts (made.grow first.size_le) (segment_end_le here) jumped.symm
      unfold Pours at rest ⊢
      rw [kept, Buffer.content_appendSlice around hosts done] at rest
      rw [line, behind]
      rcases rest with ⟨full, closed, ⟨part, begun, shown⟩, there⟩ | ⟨answer, cursor, shown⟩
      · refine .inl ⟨full, fun finds => closed ?_,
          ⟨(s.content st).drop (locate segments position).offset ++ part, ?_, ?_⟩, there⟩
        · rw [List.length_append] at finds
          exact (Buffer.appendSlice_of_finds hosts made _ finds).2
        · exact (List.prefix_append_right_inj _).2 begun
        · rw [shown, List.append_assoc]
      · refine .inr ⟨answer, ?_, ?_⟩
        · rw [cursor, List.length_append, List.length_drop, counted]
          congr 1
          omega
        · rw [shown, List.append_assoc]
  | case5 c sink st s here absent r fault refused =>
      subst located
      obtain rfl := (Buffer.leaves_appendSlice around hosts _).eq_roomExceeded refused
      obtain ⟨line, -⟩ := line_of_no_place (valid_of_alive hosts.right alive) here absent
      have begun := Buffer.begins_of_refused hosts made refused
        (lineOf delimiter ((contentOf segments st).drop
          (position + (s.length - (locate segments position).offset))))
      refine .inl ⟨rfl, ?_, ?_, position, within, rfl⟩
      · rw [line]
        exact begun.1
      · rw [line]
        exact begun.2

theorem Cursor.layout_pour {segments : List Segment} {delimiter : α} {around : Surroundings}
    {c : Cursor} {sink : Buffer} {st : Store α} :
    (c.pour segments delimiter around sink st).2.object.layout = sink.layout := by
  fun_induction Cursor.pour segments delimiter around c sink st
  case case1 => rfl
  case case4 ih => exact ih.trans (Buffer.layout_appendSlice _)
  all_goals exact Buffer.layout_appendSlice _

/-- A line that is read does not hinder what comes after it, whatever is lent out then. -/
theorem Cursor.admits_pour {segments live : List Segment} {delimiter : α}
    {around around' : Surroundings} {c : Cursor} {sink : Buffer} {st : Store α} {pending : Nat}
    (hosts : st.Hosts (sink.segments ++ live)) (made : around.LendsMade st)
    (made' : around'.LendsMade st) (admits : sink.Admits α around' pending) :
    (c.pour segments delimiter around sink st).2.object.Admits α around' pending := by
  have taken : ∀ {sink : Buffer} {st : Store α}, st.Hosts (sink.segments ++ live) →
      around.LendsMade st → around'.LendsMade st → sink.Admits α around' pending →
        ∀ units, (sink.appendSlice around units st).object.Admits α around' pending :=
    fun hosts made made' admits units =>
      Buffer.admits_appendBy hosts made made' admits (Buffer.writesBehind_appendSlice around) units
  fun_induction Cursor.pour segments delimiter around c sink st with
  | case1 => exact admits
  | case2 | case3 | case5 => exact taken hosts made made' admits _
  | case4 c sink st s here absent r done ih =>
      have first : Undisturbed live st r.object.segments r.store :=
        Buffer.undisturbed_appendSlice around hosts _
      exact ih first.hosts (made.grow first.size_le) (made'.grow first.size_le)
        (taken hosts made made' admits _)

end
end SegmentedText
