import SegmentedText.Proofs.Flat.Search
import SegmentedText.Proofs.Flat.Splices
import SegmentedText.Proofs.Ownership.Splices

/-!
# Replacement on flat text

Replacing every occurrence of a pattern always ends with an answer, and the answer counts
the rounds: each takes one occurrence out and puts one replacement in
(`Buffer.length_replaceAll`).

What comes out is told by the flat text alone: its occurrences, taken from the front on
and without overlap, are exchanged (`replaceOccurrences`, `Buffer.content_replaceAll`).
-/

set_option autoImplicit false

namespace SegmentedText

/-! ## Occurrences in a list -/

section

variable {α : Type} [DecidableEq α]

/-- A text with every occurrence of a pattern replaced, from the front on, and their number.  The
empty pattern does not occur. -/
def replaceOccurrences (search replacement text : List α) : List α × Nat :=
  if _empty : search.isEmpty then (text, 0)
  else
    match _found : firstOccurrence search text with
    | none => (text, 0)
    | some lead =>
        let (rest, count) :=
          replaceOccurrences search replacement (text.drop (lead + search.length))
        (text.take lead ++ replacement ++ rest, count + 1)
  termination_by text.length
  decreasing_by
    have := le_of_firstOccurrence _found
    have : 0 < search.length := List.length_pos_iff.2 fun none => _empty (List.isEmpty_iff.2 none)
    rw [List.length_drop]
    omega

variable {search replacement text : List α}

theorem replaceOccurrences_of_absent (absent : search ≠ [] → firstOccurrence search text = none) :
    replaceOccurrences search replacement text = (text, 0) := by
  rw [replaceOccurrences]
  split
  next => rfl
  next some =>
    split
    next => rfl
    next found =>
      have nowhere := absent fun none => some (List.isEmpty_iff.2 none)
      cases nowhere.symm.trans found

theorem replaceOccurrences_of_found {lead : Nat} (some_search : search ≠ [])
    (found : firstOccurrence search text = some lead) :
    replaceOccurrences search replacement text =
      (text.take lead ++ replacement ++
        (replaceOccurrences search replacement (text.drop (lead + search.length))).1,
        (replaceOccurrences search replacement (text.drop (lead + search.length))).2 + 1) := by
  rw [replaceOccurrences, dif_neg (by simpa using some_search)]
  split
  next nowhere => cases nowhere.symm.trans found
  next there =>
    obtain rfl := Option.some.inj (there.symm.trans found)
    rfl

/-- Occurrences that do not overlap are together no longer than the text. -/
theorem replaceOccurrences_count_le (search replacement text : List α) :
    (replaceOccurrences search replacement text).2 * search.length ≤ text.length := by
  fun_induction replaceOccurrences search replacement text with
  | case1 text none => simp
  | case2 text some_search absent => simp
  | case3 text some_search lead found rest count later ih =>
      have inside := le_of_firstOccurrence found
      rw [later, List.length_drop] at ih
      dsimp only at ih ⊢
      rw [Nat.succ_mul]
      omega

end

namespace Buffer

variable {α : Type} [TextUnit α] {st : Store α} {b : Buffer} {others : List Segment}

theorem length_ofUnits (units : List α) (st : Store α) :
    (ofUnits units st).1.length = units.length := by
  have shown : (ofUnits units st).1.cells = (Segment.ofUnits units st).1.cells :=
    cells_push {} _
  rw [← length_cells, shown, Segment.length_cells]
  exact Segment.length_allocate units units.length st

/-- What is found can be exchanged. -/
theorem splice_found {pattern : List α} {position : Nat} {first past : Cursor} {r : Buffer}
    {fault : Fault} (valid : b.Valid st)
    (found : Cursor.findPattern b.segments pattern st (Cursor.locate b.segments position) =
      some (first, past)) : b.splice first.position past.position r ≠ .error fault := by
  obtain ⟨lead, -, start, rfl, inside⟩ := findPattern_spec valid (ne_nil_of_findPattern found) found
  have some_left : 0 < pattern.length := List.length_pos_iff.2 (ne_nil_of_findPattern found)
  have ordered : first.position ≤ position + lead + pattern.length := by omega
  exact splice_ne_error ordered inside (by omega)

/-- The lengths before and after a run of rounds differ by what each of them exchanges. -/
theorem length_replaceFrom {search replacement : List α} (count position : Nat)
    (hosts : st.Hosts (b.segments ++ others)) :
    ∃ rounds, (replaceFrom search replacement b (Cursor.locate b.segments position) count
        st).answer = .ok (count + rounds) ∧
      (replaceFrom search replacement b (Cursor.locate b.segments position) count
        st).object.length + rounds * search.length = b.length + rounds * replacement.length := by
  generalize begun : Cursor.locate b.segments position = c
  fun_induction replaceFrom search replacement b c count st generalizing position with
  | case1 b c count st absent => exact ⟨0, rfl, by simp⟩
  | case2 b c count st first past found value st' made fault refused =>
      subst begun
      have valid : b.Valid st := valid_of_hosts hosts (List.subset_append_left _ _)
      exact absurd refused (splice_found valid found)
  | case3 b c count st first past found value st' made b' c' done ih =>
      subst begun
      have value_length : value.length = replacement.length := by
        rw [← length_ofUnits replacement st, made]
      have fresh := undisturbed_of_made hosts made
      obtain ⟨rounds, answer, lengths⟩ :=
        ih _ (hosts_splice fresh.hosts done) (cursor_splice done).symm
      have one := length_splice done
      have inside := le_of_splice done
      obtain ⟨-, -, wide⟩ := Cursor.findPattern_position found
      refine ⟨rounds + 1, ?_, ?_⟩
      · rw [answer, Nat.add_assoc, Nat.add_comm 1]
      · rw [Nat.succ_mul, Nat.succ_mul]
        omega

theorem length_replaceAll (search replacement : List α) (hosts : st.Hosts (b.segments ++ others)) :
    ∃ rounds, (b.replaceAll search replacement st).answer = .ok rounds ∧
      (b.replaceAll search replacement st).object.length + rounds * search.length =
        b.length + rounds * replacement.length := by
  obtain ⟨rounds, answer, lengths⟩ := length_replaceFrom 0 0 hosts
  exact ⟨rounds, by rw [replaceAll, answer, Nat.zero_add], lengths⟩

/-! ## What comes out -/

theorem content_ofUnits (units : List α) (st : Store α) :
    (ofUnits units st).1.content (ofUnits units st).2 = units := by
  have valid : (ofUnits units st).1.Valid (ofUnits units st).2 :=
    valid_of_hosts (undisturbed_ofUnits (.nil st) units).hosts (List.subset_append_left _ _)
  have one : (Segment.ofUnits units st).1.Valid (Segment.ofUnits units st).2 :=
    Segment.valid_allocate units _ st
  have shown := valid.content_eq (cells_push {} (Segment.ofUnits units st).1) one.reads
  exact shown.trans (Segment.content_allocate units _ st)

/-- One round, from a position on: the first occurrence is exchanged, and the next round begins
behind what was put in. -/
theorem round_of_found {search replacement : List α} {position : Nat} {first past c : Cursor}
    {value b' : Buffer} {st' : Store α} (hosts : st.Hosts (b.segments ++ others))
    (found : Cursor.findPattern b.segments search st (Cursor.locate b.segments position) =
      some (first, past))
    (made : ofUnits replacement st = (value, st'))
    (done : b.splice first.position past.position value = .ok (b', c)) :
    ∃ lead, firstOccurrence search ((b.content st).drop position) = some lead ∧
      st'.Hosts (b'.segments ++ others) ∧
      Cursor.locate b'.segments (position + lead + replacement.length) = c ∧
      (b'.content st').take (position + lead + replacement.length) =
        (b.content st).take position ++ (((b.content st).drop position).take lead ++ replacement) ∧
      (b'.content st').drop (position + lead + replacement.length) =
        ((b.content st).drop position).drop (lead + search.length) := by
  have valid : b.Valid st := valid_of_hosts hosts (List.subset_append_left _ _)
  obtain ⟨lead, occurs, start, rfl, inside⟩ :=
    findPattern_spec valid (ne_nil_of_findPattern found) found
  have fresh := undisturbed_of_made hosts made
  have shown : value.content st' = replacement := by
    have written := content_ofUnits replacement st
    rwa [made] at written
  have incoming := valid_of_hosts fresh.hosts (List.subset_append_left _ _)
  have width : replacement.length = value.length := by rw [← shown, incoming.length_content]
  have kept : b.content st' = b.content st := fresh.content_buffer_eq (List.subset_append_left _ _)
  have spliced := hosts_splice fresh.hosts done
  have resumed := cursor_splice done
  have here := content_splice (valid_of_hosts fresh.hosts.right (List.subset_append_left _ _))
    incoming (valid_of_hosts spliced (List.subset_append_left _ _)) done
  rw [Cursor.position_locate, start, kept, shown] at here
  have room : position + lead ≤ (b.content st).length := by
    rw [valid.length_content]
    omega
  obtain ⟨before, behind⟩ := beside_inserted room here
  refine ⟨lead, occurs, spliced, ?_, ?_, ?_⟩
  · rw [resumed, start, width]
  · rw [before, List.take_add, List.append_assoc]
  · rw [behind, List.drop_drop, Nat.add_assoc]

/-- From a position on, the occurrences are exchanged one after the other. -/
theorem content_replaceFrom (search replacement : List α) (count position : Nat)
    (hosts : st.Hosts (b.segments ++ others)) :
    let r := replaceFrom search replacement b (Cursor.locate b.segments position) count st
    let flat := replaceOccurrences search replacement ((b.content st).drop position)
    r.answer = .ok (count + flat.2) ∧
      r.object.content r.store = (b.content st).take position ++ flat.1 := by
  dsimp only
  generalize begun : Cursor.locate b.segments position = c
  fun_induction replaceFrom search replacement b c count st generalizing position with
  | case1 b c count st absent =>
      subst begun
      have valid : b.Valid st := valid_of_hosts hosts (List.subset_append_left _ _)
      rw [replaceOccurrences_of_absent fun some_search => findPattern_none valid some_search absent]
      exact ⟨rfl, (List.take_append_drop _ _).symm⟩
  | case2 b c count st first past found value st' made fault refused =>
      subst begun
      have valid : b.Valid st := valid_of_hosts hosts (List.subset_append_left _ _)
      exact absurd refused (splice_found valid found)
  | case3 b c count st first past found value st' made b' c' done ih =>
      subst begun
      obtain ⟨lead, occurs, spliced, resumed, before, behind⟩ := round_of_found hosts found made done
      obtain ⟨answer, content⟩ := ih _ spliced resumed
      rw [behind] at answer content
      rw [before] at content
      rw [replaceOccurrences_of_found (ne_nil_of_findPattern found) occurs]
      refine ⟨?_, ?_⟩
      · rw [answer, Nat.add_assoc, Nat.add_comm 1]
      · rw [content, List.append_assoc]

theorem content_replaceAll (search replacement : List α) (hosts : st.Hosts (b.segments ++ others)) :
    (b.replaceAll search replacement st).answer =
        .ok (replaceOccurrences search replacement (b.content st)).2 ∧
      (b.replaceAll search replacement st).object.content
          (b.replaceAll search replacement st).store =
        (replaceOccurrences search replacement (b.content st)).1 := by
  have whole := content_replaceFrom search replacement 0 0 hosts
  simp only [List.drop_zero, Nat.zero_add, List.take_zero, List.nil_append] at whole
  exact whole

end Buffer
end SegmentedText
