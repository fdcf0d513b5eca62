import SegmentedText.Proofs.Cutting.Gaps
import SegmentedText.Proofs.Flat.Distinct
import SegmentedText.Proofs.Flat.Replacement
import SegmentedText.Proofs.Flat.Substitution

/-!
# Copies that are put in

Replacing every occurrence of a pattern is one exchange in the flat text.  The occurrences are
those of the text as it was, from the front on and without overlap (`occurrences`); what is put
in is never looked at again, whatever it is or makes with its neighbours.

Each occurrence gives way to a copy of its own.  A round of the scan puts one copy in, over an
array that is made for it, and the rounds after it only touch what lies behind.  So a copy that
has been put in stays as it is, and no other window comes to lie over its array
(`Copied.cons`).  Then a change in place of one copy shows in no other window, be it of
another copy, of the rest of the text or of another object (`Buffer.replaceAll_eq_exchanged`).
-/

set_option autoImplicit false

namespace SegmentedText

/-! ## Occurrences without overlap -/

section

variable {α : Type} [DecidableEq α]

/-- The occurrences of a pattern, from the front on and without overlap.  Each is a span that
encloses just the pattern.  The empty pattern has none. -/
def occurrences (search text : List α) : List Span :=
  if _empty : search.isEmpty then []
  else
    match _found : firstOccurrence search text with
    | none => []
    | some lead =>
        ⟨lead, lead, lead + search.length, lead + search.length⟩ ::
          occurrences search (text.drop (lead + search.length))
  termination_by text.length
  decreasing_by
    have := le_of_firstOccurrence _found
    have : 0 < search.length := List.length_pos_iff.2 fun none => _empty (List.isEmpty_iff.2 none)
    rw [List.length_drop]
    omega

variable {search text : List α}

theorem occurrences_of_absent (absent : search ≠ [] → firstOccurrence search text = none) :
    occurrences search text = [] := by
  rw [occurrences]
  split
  next => rfl
  next some =>
    split
    next => rfl
    next found =>
      have nowhere := absent fun none => some (List.isEmpty_iff.2 none)
      cases nowhere.symm.trans found

theorem occurrences_of_found {lead : Nat} (some_search : search ≠ [])
    (found : firstOccurrence search text = some lead) :
    occurrences search text =
      ⟨lead, lead, lead + search.length, lead + search.length⟩ ::
        occurrences search (text.drop (lead + search.length)) := by
  rw [occurrences, dif_neg (by simpa using some_search)]
  split
  next nowhere => cases nowhere.symm.trans found
  next there =>
    obtain rfl := Option.some.inj (there.symm.trans found)
    rfl

/-- Every span encloses the pattern. -/
theorem enclosedBy_occurrences (search text : List α) :
    enclosedBy (occurrences search text) text =
      List.replicate (occurrences search text).length search := by
  fun_induction occurrences search text with
  | case1 text none => rfl
  | case2 text some_search absent => rfl
  | case3 text some_search lead found ih =>
      obtain ⟨-, here, -⟩ := firstOccurrence_eq_some_iff.1 found
      rw [enclosedBy, ih, List.length_cons, List.replicate_succ, List.drop_take,
        Nat.add_sub_cancel_left, ← List.prefix_iff_eq_take.1 here]

/-- Replacing occurrence by occurrence is one exchange of them all. -/
theorem replaceOccurrences_eq_exchanged (search replacement text : List α) :
    replaceOccurrences search replacement text =
      (exchanged text (occurrences search text)
        (List.replicate (occurrences search text).length replacement),
        (occurrences search text).length) := by
  fun_induction occurrences search text with
  | case1 text none =>
      exact replaceOccurrences_of_absent fun some => absurd (List.isEmpty_iff.1 none) some
  | case2 text some_search absent => exact replaceOccurrences_of_absent fun _ => absent
  | case3 text some_search lead found ih =>
      rw [replaceOccurrences_of_found (by simpa using some_search) found, ih, List.length_cons,
        List.replicate_succ, exchanged]

end

/-! ## Windows that have an array to themselves -/

namespace Segment

variable {s t : Segment} {live : List Segment}

theorem sharesStorage_eq_true_iff : t.sharesStorage s = true ↔ t.storage = s.storage :=
  beq_iff_eq

/-- Windows over arrays that were made at another time are not counted. -/
theorem countP_eq_zero (other : ∀ t ∈ live, t.storage.index ≠ s.storage.index) :
    live.countP (·.sharesStorage s) = 0 :=
  List.countP_eq_zero.2 fun t here same =>
    other t here (congrArg StorageId.index (sharesStorage_eq_true_iff.1 same))

/-- At most one window that is counted is one. -/
theorem countP_eq_one (one : live.length ≤ 1) (here : s ∈ live) :
    live.countP (·.sharesStorage s) = 1 := by
  obtain ⟨t, rfl⟩ := List.length_eq_one_iff.1 (Nat.le_antisymm one (List.length_pos_of_mem here))
  obtain rfl := List.mem_singleton.1 here
  simp [sharesStorage]

/-- Where a window is the only one over its array, all others lie over other arrays. -/
theorem sharesStorage_eq_false {front back : List Segment}
    (single : (front ++ s :: back).countP (·.sharesStorage s) = 1) :
    ∀ t ∈ front ++ back, t.sharesStorage s = false := by
  have own : s.sharesStorage s = true := sharesStorage_eq_true_iff.2 rfl
  rw [List.countP_append, List.countP_cons, if_pos own] at single
  have none : (front ++ back).countP (·.sharesStorage s) = 0 := by
    rw [List.countP_append]
    omega
  intro t here
  exact Bool.eq_false_iff.2 (List.countP_eq_zero.1 none t here)

variable {α : Type} {st st' : Store α} {around : Surroundings}

/-- A change in place of one window shows in none over another array. -/
theorem content_setAt_of_other {i : Nat} {u : α} (other : t.sharesStorage s = false)
    (done : s.setAt around i u st = .ok st') : t.content st' = t.content st := by
  have apart : t.storage ≠ s.storage := fun same => by
    rw [sharesStorage_eq_true_iff.2 same] at other
    cases other
  unfold setAt at done
  split at done
  next => cases done
  next =>
    split at done
    next => cases done
    next =>
      cases done
      refine Store.slice_congr fun k _ _ => ?_
      rw [Store.cell?_write, if_neg fun written => apart written.1]

theorem content_mapUnits_of_other {f : α → α} (other : t.sharesStorage s = false)
    (done : s.mapUnits around f st = .ok st') : t.content st' = t.content st := by
  have apart : t.storage ≠ s.storage := fun same => by
    rw [sharesStorage_eq_true_iff.2 same] at other
    cases other
  unfold mapUnits at done
  split at done
  next => cases done
  next =>
    cases done
    refine Store.slice_congr fun k _ _ => ?_
    rw [Store.cell?_mapRange, if_neg fun written => apart written.1]

end Segment

/-! ## Copies among other segments -/

/-- The segments `rest` of the time of `st` have given way to `rest'`, and among them are the
copies.  Every segment lies over an array of one that has given way or over a new one, and a copy
lies over a new one where it is alone. -/
structure Copied {α : Type} (st : Store α) (rest copies rest' : List Segment) : Prop where
  arrays : ∀ s ∈ rest', (∃ t ∈ rest, s.storage = t.storage) ∨ st.arrays.size ≤ s.storage.index
  among : copies.Sublist rest'
  fresh : ∀ s ∈ copies, st.arrays.size ≤ s.storage.index
  single : ∀ s ∈ copies, rest'.countP (·.sharesStorage s) = 1

namespace Copied

variable {α : Type} {st st' : Store α} {rest between behind own copies rest' : List Segment}

/-- Nothing has been put in. -/
theorem none (st : Store α) (rest : List Segment) : Copied st rest [] rest where
  arrays := fun s here => .inl ⟨s, here, rfl⟩
  among := List.nil_sublist _
  fresh := nofun
  single := nofun

/-- One copy is put in, and then those behind it.  Their arrays are made after that of the first,
so neither finds anything over its own. -/
theorem cons (made : ∀ s ∈ rest, s.storage.index < st.arrays.size)
    (views : ∀ s ∈ between ++ behind, ∃ t ∈ rest, s.storage = t.storage)
    (grown : st'.arrays.size = st.arrays.size + 1)
    (new : ∀ s ∈ own, s.storage.index = st.arrays.size) (one : own.length ≤ 1)
    (later : Copied st' behind copies rest') :
    Copied st rest (own ++ copies) (between ++ own ++ rest') := by
  have old : ∀ s ∈ between ++ behind, s.storage.index < st.arrays.size := by
    intro s here
    obtain ⟨t, there, same⟩ := views s here
    exact same ▸ made t there
  -- What is put in later lies over arrays of what was there, or over arrays made later still.
  have apart : ∀ s ∈ rest', s.storage.index ≠ st.arrays.size := by
    intro s here
    rcases later.arrays s here with ⟨t, there, same⟩ | beyond
    · have := old t (List.mem_append_right _ there)
      rw [same]
      omega
    · omega
  refine ⟨?_, ?_, ?_, ?_⟩
  · intro s here
    simp only [List.mem_append] at here
    rcases here with (before | copy) | after
    · exact .inl (views s (List.mem_append_left _ before))
    · exact .inr (Nat.le_of_eq (new s copy).symm)
    · rcases later.arrays s after with ⟨t, there, same⟩ | beyond
      · obtain ⟨u, origin, among⟩ := views t (List.mem_append_right _ there)
        exact .inl ⟨u, origin, same.trans among⟩
      · exact .inr (by omega)
  · exact (List.sublist_append_right between own).append later.among
  · intro s here
    rcases List.mem_append.1 here with copy | after
    · exact Nat.le_of_eq (new s copy).symm
    · exact Nat.le_trans (by omega) (later.fresh s after)
  · intro s here
    rw [List.countP_append, List.countP_append]
    rcases List.mem_append.1 here with copy | after
    · have index := new s copy
      have before : between.countP (·.sharesStorage s) = 0 := Segment.countP_eq_zero
        fun t there => by
          have := old t (List.mem_append_left _ there)
          omega
      have behind : rest'.countP (·.sharesStorage s) = 0 := Segment.countP_eq_zero
        fun t there => index ▸ apart t there
      rw [before, behind, Segment.countP_eq_one one copy]
    · have index := later.fresh s after
      have before : between.countP (·.sharesStorage s) = 0 := Segment.countP_eq_zero
        fun t there => by
          have := old t (List.mem_append_left _ there)
          omega
      have copy : own.countP (·.sharesStorage s) = 0 := Segment.countP_eq_zero
        fun t there => by
          have := new t there
          omega
      rw [before, copy, later.single s after]

/-- Beside windows that were there before, a copy is still alone over its array. -/
theorem single_beside {others : List Segment} (copied : Copied st rest copies rest')
    (made : ∀ s ∈ others, s.storage.index < st.arrays.size) {s : Segment} (here : s ∈ copies) :
    (rest' ++ others).countP (·.sharesStorage s) = 1 := by
  have beside : others.countP (·.sharesStorage s) = 0 := Segment.countP_eq_zero fun t there =>
    Nat.ne_of_lt (Nat.lt_of_lt_of_le (made t there) (copied.fresh s here))
  rw [List.countP_append, copied.single s here, beside]

end Copied

/-! ## One round -/

namespace Buffer

variable {α : Type} [TextUnit α] {st st' : Store α} {b b' value : Buffer} {others : List Segment}
  {search replacement : List α}

/-- A buffer that is made of units has at most one segment, over the array that is made for it. -/
theorem segments_of_made (made : ofUnits replacement st = (value, st')) :
    (∀ s ∈ value.segments, s.storage.index = st.arrays.size) ∧ value.segments.length ≤ 1 ∧
      value.segments.filter (!·.isEmpty) = value.segments ∧
      st'.arrays.size = st.arrays.size + 1 := by
  have fresh : (Segment.ofUnits replacement st).1.storage.index = st.arrays.size := rfl
  have grown : (Segment.ofUnits replacement st).2.arrays.size = st.arrays.size + 1 :=
    Segment.size_allocate replacement replacement.length st
  obtain ⟨rfl, rfl⟩ := Prod.mk.inj made
  refine ⟨?_, ?_, ?_, grown⟩
  all_goals
    unfold ofSegment push
    split
  · exact nofun
  · intro s here
    obtain rfl := List.mem_singleton.1 here
    exact fresh
  · exact Nat.zero_le _
  · exact Nat.le_refl _
  · rfl
  next shows => exact List.filter_cons_of_pos (by simpa using shows)

omit [TextUnit α] in
/-- A splice behind some segments keeps them; and what is left of the others, on both sides of what
is put in, lies over their arrays. -/
theorem splice_behind {r : Buffer} {start stop : Nat} {c : Cursor} {kept rest : List Segment}
    (done : b.splice start stop r = .ok (b', c)) (parted : b.segments = kept ++ rest)
    (ordered : Ordered rest) (le : totalLength kept ≤ start) :
    ∃ between behind,
      b'.segments = kept ++ (between ++ r.segments.filter (!·.isEmpty)) ++ behind ∧
      totalLength (kept ++ between) = start ∧
      ∀ s ∈ between ++ behind, ∃ t ∈ rest, s.storage = t.storage := by
  obtain ⟨before, inside⟩ := le_of_splice done
  have after := segments_splice_behind done parted le
  have total : b.length = totalLength kept + totalLength rest := by
    rw [length, parted, totalLength_append]
  have shorter : start - totalLength kept ≤ stop - totalLength kept := by omega
  have within : stop - totalLength kept ≤ totalLength rest := by omega
  have reached := totalLength_before_gap shorter within
  have ends := Gap.views_ends ordered (start - totalLength kept) (stop - totalLength kept)
  generalize Gap.ofRange rest (start - totalLength kept) (stop - totalLength kept) = gap
    at after reached ends
  refine ⟨rest.take gap.before ++ gap.front, gap.back ++ rest.drop gap.past, ?_, ?_, ?_⟩
  · rw [after, Gap.filled]
    simp only [List.append_assoc]
  · rw [totalLength_append, reached]
    omega
  · intro s here
    simp only [List.mem_append] at here
    rcases here with (outside | front) | (back | outside)
    · exact ⟨s, List.mem_of_mem_take outside, rfl⟩
    · obtain ⟨t, there, view⟩ := ends s (List.mem_append_left _ front)
      exact ⟨t, there, view.storage⟩
    · obtain ⟨t, there, view⟩ := ends s (List.mem_append_right _ back)
      exact ⟨t, there, view.storage⟩
    · exact ⟨s, List.mem_of_mem_drop outside, rfl⟩

theorem content_of_made (made : ofUnits replacement st = (value, st')) :
    value.content st' = replacement := by
  have written := content_ofUnits replacement st
  rwa [made] at written

theorem length_of_made (made : ofUnits replacement st = (value, st')) :
    value.length = replacement.length := by
  have nothing : st.Hosts [] := .nil st
  have fresh := (undisturbed_of_made nothing made).hosts
  have valid : value.Valid st' := valid_of_hosts fresh (List.subset_append_left _ _)
  rw [← content_of_made made, valid.length_content]

/-- A copy is put in behind segments that end before it.  They are kept, and the copy ends where the
next round begins. -/
theorem copy_behind {kept rest : List Segment} {position start stop : Nat} {c : Cursor}
    (made : ofUnits replacement st = (value, st')) (done : b.splice start stop value = .ok (b', c))
    (parted : b.segments = kept ++ rest) (ordered : Ordered rest)
    (le : totalLength kept ≤ position) (behind_position : position ≤ start) :
    ∃ between behind, b'.segments = kept ++ (between ++ value.segments) ++ behind ∧
      totalLength (kept ++ (between ++ value.segments)) = start + replacement.length ∧
      ∀ s ∈ between ++ behind, ∃ t ∈ rest, s.storage = t.storage := by
  obtain ⟨between, behind, regrouped, reached, views⟩ :=
    splice_behind done parted ordered (Nat.le_trans le behind_position)
  obtain ⟨-, -, shows, -⟩ := segments_of_made made
  refine ⟨between, behind, shows ▸ regrouped, ?_, views⟩
  have own : totalLength value.segments = value.length := rfl
  rw [← List.append_assoc, totalLength_append, reached, own, length_of_made made]

omit [TextUnit α] in
/-- The cells before and behind what is put in, counted from a position on. -/
theorem cells_beside_value {r : Buffer} {position lead width : Nat} {c : Cursor}
    (done : b.splice (position + lead) (position + lead + width) r = .ok (b', c)) :
    b'.cells.take (position + lead + r.length) =
        b.cells.take position ++ ((b.cells.drop position).take lead ++ r.cells) ∧
      b'.cells.drop (position + lead + r.length) =
        (b.cells.drop position).drop (lead + width) := by
  have inside := (le_of_splice done).2
  have room : position + lead ≤ b.cells.length := by
    rw [length_cells]
    omega
  obtain ⟨before, behind⟩ := beside_inserted room (cells_splice done)
  rw [length_cells] at before behind
  refine ⟨?_, ?_⟩
  · rw [before, List.take_add, List.append_assoc]
  · rw [behind, List.drop_drop, Nat.add_assoc]

/-- Replacing makes arrays and writes none, so a window that was there shows what it showed. -/
theorem content_replaceFrom_of_placed {c : Cursor} {count : Nat} {s : Segment}
    (placed : s.Placed st) :
    s.content (replaceFrom search replacement b c count st).store = s.content st := by
  have alone : ∀ {s : Segment} {st : Store α}, s.Placed st → st.Hosts [s] := fun placed =>
    Store.Hosts.cons_iff.2 ⟨placed, .nil _, nofun⟩
  fun_induction replaceFrom search replacement b c count st with
  | case1 => rfl
  | case2 b c count st first past found value st' made fault refused =>
      exact (undisturbed_of_made (alone placed) made).content_eq List.mem_cons_self
  | case3 b c count st first past found value st' made b' c' done ih =>
      have beside := undisturbed_of_made (alone placed) made
      have kept := beside.content_eq List.mem_cons_self
      exact (ih (beside.hosts.placed s (List.mem_append_right _ List.mem_cons_self))).trans kept

/-! ## All rounds -/

/-- From a position on, every occurrence has given way to a copy, behind the segments that end
there. -/
theorem copied_replaceFrom (search replacement : List α) {kept rest : List Segment}
    (count position : Nat) (hosts : st.Hosts (b.segments ++ others))
    (parted : b.segments = kept ++ rest) (le : totalLength kept ≤ position) :
    let r := replaceFrom search replacement b (Cursor.locate b.segments position) count st
    let found := occurrences search ((b.content st).drop position)
    ∃ (copies : List Buffer) (rest' : List Segment), r.object.segments = kept ++ rest' ∧
      Copied st rest (copies.flatMap segments) rest' ∧ copies.length = found.length ∧
      (∀ copy ∈ copies, copy.content r.store = replacement) ∧
      r.object.cells = b.cells.take position ++
        exchanged (b.cells.drop position) found (copies.map cells) := by
  dsimp only
  generalize begun : Cursor.locate b.segments position = c
  fun_induction replaceFrom search replacement b c count st generalizing position kept rest with
  | case1 b c count st absent =>
      subst begun
      have valid : b.Valid st := valid_of_hosts hosts (List.subset_append_left _ _)
      have nowhere : occurrences search ((b.content st).drop position) = [] :=
        occurrences_of_absent fun some_search => findPattern_none valid some_search absent
      rw [nowhere]
      exact ⟨[], rest, parted, .none st rest, rfl, fun copy none => absurd none List.not_mem_nil,
        (List.take_append_drop _ _).symm⟩
  | case2 b c count st first past found value st' made fault refused =>
      subst begun
      have valid : b.Valid st := valid_of_hosts hosts (List.subset_append_left _ _)
      exact absurd refused (splice_found valid found)
  | case3 b c count st first past found value st' made b' c' done ih =>
      subst begun
      have valid : b.Valid st := valid_of_hosts hosts (List.subset_append_left _ _)
      have some_search := ne_nil_of_findPattern found
      obtain ⟨lead, occurs, spliced, resumed, -, behind_units⟩ :=
        round_of_found hosts found made done
      obtain ⟨lead', occurs', start, rfl, inside⟩ := findPattern_spec valid some_search found
      obtain rfl : lead = lead' := Option.some.inj (occurs.symm.trans occurs')
      rw [start, Cursor.position_locate] at done
      have width := length_of_made made
      have fresh := undisturbed_of_made hosts made
      obtain ⟨new, one, -, grown⟩ := segments_of_made made
      have ordered : Ordered rest := fun s here =>
        ordered_of_hosts hosts (List.subset_append_left _ _) s
          (parted ▸ List.mem_append_right _ here)
      -- The next round begins behind the copy, so it keeps the copy and all that is before it.
      obtain ⟨between, behind, regrouped, ends, views⟩ :=
        copy_behind made done parted ordered le (Nat.le_add_right position lead)
      obtain ⟨copies, rest', final, copied, counted, contents, cells_after⟩ :=
        ih _ spliced regrouped (Nat.le_of_eq ends) resumed
      obtain ⟨before_cells, behind_cells⟩ := cells_beside_value done
      rw [width] at before_cells behind_cells
      rw [behind_units] at counted cells_after
      rw [behind_cells, before_cells] at cells_after
      rw [occurrences_of_found some_search occurs]
      refine ⟨value :: copies, between ++ value.segments ++ rest', ?_, ?_, ?_, ?_, ?_⟩
      · rw [final, List.append_assoc]
      · rw [List.flatMap_cons]
        refine copied.cons (fun s here => ?_) views grown new one
        exact (hosts.placed s (List.mem_append_left _
          (parted ▸ List.mem_append_right _ here))).made
      · rw [List.length_cons, List.length_cons, counted]
      · intro copy here
        rcases List.mem_cons.1 here with rfl | later
        · refine Eq.trans (contentOf_congr fun s owned => ?_) (content_of_made made)
          exact content_replaceFrom_of_placed
            (fresh.hosts.placed s (List.mem_append_left _ owned))
        · exact contents copy later
      · rw [cells_after, List.map_cons, exchanged]
        simp only [List.append_assoc]

/-- **Replacing every occurrence is one exchange in the flat text, and every copy has an array to
itself.** It always ends with the number of the occurrences, each of which is the pattern; the
empty pattern has none, and nothing is done.  A change in place of a copy shows in no other window
that is alive. -/
theorem replaceAll_eq_exchanged (b : Buffer) (search replacement : List α)
    (hosts : st.Hosts (b.segments ++ others)) :
    let found := occurrences search (b.content st)
    let r := b.replaceAll search replacement st
    r.answer = .ok found.length ∧
      enclosedBy found (b.content st) = List.replicate found.length search ∧
      r.object.content r.store =
        exchanged (b.content st) found (List.replicate found.length replacement) ∧
      (search = [] → r = ⟨b, st, .ok 0⟩) ∧
      ∃ copies : List Buffer, copies.length = found.length ∧
        (∀ copy ∈ copies, copy.content r.store = replacement) ∧
        r.object.cells = exchanged b.cells found (copies.map cells) ∧
        (copies.flatMap segments).Sublist r.object.segments ∧
        ∀ s ∈ copies.flatMap segments, ∀ front back,
          r.object.segments ++ others = front ++ s :: back → ∀ t ∈ front ++ back,
            t.sharesStorage s = false ∧
            (∀ around i u st', s.setAt around i u r.store = .ok st' →
              t.content st' = t.content r.store) ∧
            (∀ around f st', s.mapUnits around f r.store = .ok st' →
              t.content st' = t.content r.store) := by
  intro found r
  obtain ⟨answer, content⟩ := content_replaceAll search replacement hosts
  rw [replaceOccurrences_eq_exchanged] at answer content
  refine ⟨answer, enclosedBy_occurrences search _, content, ?_, ?_⟩
  · rintro rfl
    show replaceFrom [] replacement b _ 0 st = _
    rw [replaceFrom]
    split
    next => rfl
    next occurs => exact absurd rfl (ne_nil_of_findPattern occurs)
  · have all := copied_replaceFrom search replacement 0 0 hosts
      (List.nil_append b.segments).symm (Nat.le_refl 0)
    obtain ⟨copies, rest', segments_after, copied, counted, contents, cells_after⟩ := all
    have own : r.object.segments = rest' := segments_after
    refine ⟨copies, counted, contents, ?_, own ▸ copied.among, ?_⟩
    · simp only [List.take_zero, List.nil_append, List.drop_zero] at cells_after
      exact cells_after
    · intro s here front back parted t there
      have alone := copied.single_beside (fun t there =>
        (hosts.placed t (List.mem_append_right _ there)).made) here
      rw [← own, parted] at alone
      have other := Segment.sharesStorage_eq_false alone t there
      exact ⟨other, fun around i u st' done => Segment.content_setAt_of_other other done,
        fun around f st' done => Segment.content_mapUnits_of_other other done⟩

theorem occurrences_twoPieces :
    occurrences ['[', '['] (twoPieces.1.content twoPieces.2) = [⟨1, 1, 3, 3⟩, ⟨4, 4, 6, 6⟩] := by
  have shown : twoPieces.1.content twoPieces.2 = ['a', '[', '[', 'b', ']', ']', 'c', '[', '['] := by
    decide
  have first : firstOccurrence ['[', '['] ['a', '[', '[', 'b', ']', ']', 'c', '[', '['] = some 1 := by
    decide
  have second : firstOccurrence ['[', '['] ['b', ']', ']', 'c', '[', '['] = some 4 := by decide
  have none : firstOccurrence ['[', '['] ([] : List Char) = none := by decide
  rw [shown, occurrences_of_found (List.cons_ne_nil _ _) first]
  show _ :: occurrences ['[', '['] ['b', ']', ']', 'c', '[', '['] = _
  rw [occurrences_of_found (List.cons_ne_nil _ _) second]
  show _ :: _ :: occurrences ['[', '['] [] = _
  rw [occurrences_of_absent fun _ => none]
  rfl

/-- The copies contain the pattern, and make another one with what lies between the pieces. -/
theorem replaceAll_eq_exchanged_twoPieces :
    twoPieces.2.Hosts (twoPieces.1.segments ++ []) ∧
      (twoPieces.1.replaceAll ['[', '['] ['[', '[', '['] twoPieces.2).answer = .ok 2 ∧
      (twoPieces.1.replaceAll ['[', '['] ['[', '[', '['] twoPieces.2).object.content
          (twoPieces.1.replaceAll ['[', '['] ['[', '[', '['] twoPieces.2).store =
        ['a', '[', '[', '[', 'b', ']', ']', 'c', '[', '[', '['] := by
  obtain ⟨answer, -, content, -⟩ :=
    replaceAll_eq_exchanged twoPieces.1 ['[', '['] ['[', '[', '['] hosts_twoPieces
  rw [occurrences_twoPieces] at answer content
  exact ⟨hosts_twoPieces, answer, content⟩

end Buffer

end SegmentedText
