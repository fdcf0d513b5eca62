import SegmentedText.Proofs.Flat.Search
import SegmentedText.Proofs.Flat.Splices
import SegmentedText.Proofs.Ownership.Splices

/-!
# Substitution on flat text

What a substitution does can be told from the flat text alone.  The scan of the text
(`spans`) takes the leftmost opening marker, then the leftmost closing marker behind it,
and goes on behind that; where one of them is missing, it stops.  Each span is
exchanged for the value of the text that it encloses (`exchanged`), so no value is
ever looked at again, and what is not in a span stays where it is.

The main statement is that substitution across segments always ends with an answer, asks
for exactly the enclosed texts, one after the other, and shows the flat text with its
spans exchanged; and that the same exchange gives its cells, so that every cell outside
the spans is kept (`Buffer.substitute_eq_exchanged`).

Values are told by the number of the call and the enclosed text (`Provider.Presents`).
They may share cells with the text, be the enclosed text itself, or be buffers that were
made before and are handed over, spare cells included.
-/

set_option autoImplicit false

namespace SegmentedText

/-! ## The flat scan -/

/-- A span between markers, its places counted from where the scan stands. -/
structure Span where
  /-- The number of units before the opening marker. -/
  lead : Nat
  /-- The place behind the opening marker. -/
  body : Nat
  /-- The place of the closing marker. -/
  last : Nat
  /-- The place behind the closing marker, where the scan goes on. -/
  width : Nat
  deriving Repr, DecidableEq

section

variable {α β : Type} [DecidableEq α]

/-- The spans between markers, from the front on. -/
def spans (opening closing text : List α) : List Span :=
  if _empty : opening.isEmpty || closing.isEmpty then []
  else
    match _opened : firstOccurrence opening text with
    | none => []
    | some lead =>
        match _closed : firstOccurrence closing (text.drop (lead + opening.length)) with
        | none => []
        | some inner =>
            let last := lead + opening.length + inner
            ⟨lead, lead + opening.length, last, last + closing.length⟩ ::
              spans opening closing (text.drop (last + closing.length))
  termination_by text.length
  decreasing_by
    have := le_of_firstOccurrence _opened
    have := le_of_firstOccurrence _closed
    have : 0 < opening.length := by
      rw [Bool.or_eq_true, not_or] at _empty
      exact List.length_pos_iff.2 fun none => _empty.1 (List.isEmpty_iff.2 none)
    simp only [List.length_drop] at *
    omega

/-- A list with each span exchanged for a value. -/
def exchanged : List β → List Span → List (List β) → List β
  | whole, span :: spans, value :: values =>
      whole.take span.lead ++ value ++ exchanged (whole.drop span.width) spans values
  | whole, _, _ => whole

/-- The parts of a list that the spans enclose. -/
def enclosedBy : List Span → List β → List (List β)
  | [], _ => []
  | span :: spans, whole =>
      (whole.take span.last).drop span.body :: enclosedBy spans (whole.drop span.width)

/-- The values for texts, the first of which is asked for after `n` others. -/
def valuesFor (value : Nat → List α → List α) : Nat → List (List α) → List (List α)
  | _, [] => []
  | n, text :: texts => value n text :: valuesFor value (n + 1) texts

end

section

variable {α : Type} [DecidableEq α] {opening closing text : List α}

theorem spans_of_isEmpty (empty : (opening.isEmpty || closing.isEmpty) = true) :
    spans opening closing text = [] := by
  rw [spans, dif_pos empty]

theorem spans_of_not_opened (opened : firstOccurrence opening text = none) :
    spans opening closing text = [] := by
  rw [spans]
  split
  next => rfl
  next =>
    split
    next => rfl
    next found => cases opened.symm.trans found

theorem spans_of_not_closed {lead : Nat} (opened : firstOccurrence opening text = some lead)
    (closed : firstOccurrence closing (text.drop (lead + opening.length)) = none) :
    spans opening closing text = [] := by
  rw [spans]
  split
  next => rfl
  next =>
    split
    next => rfl
    next lead' found =>
      obtain rfl := Option.some.inj (opened.symm.trans found)
      split
      next => rfl
      next there => cases closed.symm.trans there

theorem spans_eq_cons {lead inner : Nat} (some_opening : opening ≠ []) (some_closing : closing ≠ [])
    (opened : firstOccurrence opening text = some lead)
    (closed : firstOccurrence closing (text.drop (lead + opening.length)) = some inner) :
    spans opening closing text =
      ⟨lead, lead + opening.length, lead + opening.length + inner,
        lead + opening.length + inner + closing.length⟩ ::
        spans opening closing (text.drop (lead + opening.length + inner + closing.length)) := by
  rw [spans, dif_neg (by simp [some_opening, some_closing])]
  split
  next found => cases opened.symm.trans found
  next lead' found =>
    obtain rfl := Option.some.inj (opened.symm.trans found)
    split
    next there => cases closed.symm.trans there
    next inner' there =>
      obtain rfl := Option.some.inj (closed.symm.trans there)
      rfl

end

/-- A part of a list, its places counted from a position on. -/
theorem drop_take_shifted {β : Type} {whole : List β} {position start stop : Nat} :
    (whole.take (position + stop)).drop (position + start) =
      ((whole.drop position).take stop).drop start := by
  rw [List.drop_take, List.drop_take, List.drop_drop, Nat.add_sub_add_left]

/-! ## Values -/

/-- A shared buffer shows the same text. -/
theorem Buffer.content_shared {α : Type} (b : Buffer) (st : Store α) :
    b.shared.content st = b.content st := by
  rw [content_eq, segments_shared, contentOf, List.flatMap_map]
  rfl

/-- The values of a provider show what is told by the number of the call and the enclosed text, as
long as the windows that it relies on are alive and show what they show in `origin`. -/
def Provider.Tells {α : Type} (provider : Provider α) (origin : Store α) (relied : List Segment)
    (value : Nat → List α → List α) : Prop :=
  ∀ (n : Nat) (inner : Buffer) (st : Store α) (live : List Segment), relied ⊆ live →
    origin.Keeps st relied → st.Hosts (inner.segments ++ live) →
    (provider n inner st).1.content (provider n inner st).2 = value n (inner.content st)

/-- The same of a provider that gives windows away: as long as those that it has still in its hands
show what they show in `origin`, too. -/
def Provider.Presents {α : Type} (provider : Provider α) (origin : Store α) (relied : List Segment)
    (held : Nat → List Segment) (value : Nat → List α → List α) : Prop :=
  ∀ (n : Nat) (inner : Buffer) (st : Store α) (live : List Segment), relied ⊆ live →
    origin.Keeps st (relied ++ held n) → st.Hosts (inner.segments ++ (held n ++ live)) →
    (provider n inner st).1.content (provider n inner st).2 = value n (inner.content st)

theorem Provider.Tells.presents {α : Type} {provider : Provider α} {origin : Store α}
    {relied : List Segment} {value : Nat → List α → List α}
    (tells : provider.Tells origin relied value) :
    provider.Presents origin relied (fun _ => []) value :=
  fun n inner st live alive keeps hosts =>
    tells n inner st live alive (keeps.subset (List.subset_append_left _ _)) hosts

/-- The enclosed text itself is told by the enclosed text. -/
theorem Provider.tells_same {α : Type} (origin : Store α) :
    Tells (fun _ inner st => (inner.shared, st) : Provider α) origin [] fun _ text => text := by
  intro n inner st live _ _ _
  exact inner.content_shared st

/-- A buffer that shares its cells is the same value at every call. -/
theorem Provider.tells_shared {α : Type} (origin : Store α) (b : Buffer) :
    Tells (fun _ _ st => (b.shared, st) : Provider α) origin b.shared.segments
      fun _ _ => b.content origin := by
  intro n inner st live _ keeps _
  rw [← b.content_shared origin]
  refine List.flatMap_congr fun t found => keeps.content_eq found ?_
  rw [Buffer.segments_shared] at found
  obtain ⟨s, -, rfl⟩ := List.mem_map.1 found
  exact Nat.le_refl _

namespace Buffer

variable {α : Type} [TextUnit α]

/-! ## One round -/

/-- One round of a substitution, from a position on: the enclosed text is cut out and kept alive,
and a value takes the place of the span. -/
structure Round (b : Buffer) (st : Store α) (position : Nat) (span : Span) (others : List Segment)
    (inner value b' : Buffer) (st' : Store α) : Prop where
  undisturbed : Undisturbed others st (inner.segments ++ b'.segments) st'
  kept : inner.content st = inner.content st'
  enclosed : inner.content st' =
    ((b.content st).take (position + span.last)).drop (position + span.body)
  content : b'.content st' = (b.content st).take (position + span.lead) ++ value.content st' ++
    (b.content st).drop (position + span.width)
  cells : b'.cells = b.cells.take (position + span.lead) ++ value.cells ++
    b.cells.drop (position + span.width)
  width : (value.content st').length = value.length
  lead_le : position + span.lead ≤ b.length

variable {st st' st'' : Store α} {b b' inner value after : Buffer} {others : List Segment}

omit [TextUnit α] in
/-- Windows that are alive beside a round need not be told of. -/
theorem Round.release {held : List Segment} {position : Nat} {span : Span}
    (round : Round b st position span (held ++ others) inner value b' st') :
    Round b st position span others inner value b' st' :=
  { round with
    undisturbed :=
      ⟨round.undisturbed.hosts.subperm ((List.subperm_append_left _).2
        (List.sublist_append_right held others).subperm),
        round.undisturbed.keeps.subset (List.subset_append_right _ _), round.undisturbed.size_le⟩ }

omit [TextUnit α] in
/-- Cutting the enclosed text out and splicing a value in makes a round. -/
theorem round_of_splice {held kept : List Segment} {position : Nat} (span : Span) {c : Cursor}
    (hosts : st.Hosts (b.segments ++ (held ++ others)))
    (cut : b.substring (position + span.body) (position + span.last) = .ok inner)
    (made : ∀ live, others ⊆ live → st.Hosts (inner.segments ++ (held ++ live)) →
      Undisturbed (kept ++ live) st value.segments st')
    (done : b.splice (position + span.lead) (position + span.width) value = .ok (b', c))
    (ordered : span.body ≤ span.last) :
    Round b st position span (kept ++ others) inner value b' st' := by
  have views := views_substring (ordered_of_hosts hosts (List.subset_append_left _ _)) cut
  have views' : ∀ t ∈ inner.segments, ∃ s ∈ inner.segments ++ (b.segments ++ (held ++ others)),
      t.Views s := by
    intro t found
    obtain ⟨s, here, view⟩ := views t found
    exact ⟨s, List.mem_append_right _ (List.mem_append_left _ here), view⟩
  have once := hosts.views fun t found =>
    let ⟨s, here, view⟩ := views t found
    ⟨s, List.mem_append_left _ here, view⟩
  have twice : st.Hosts (inner.segments ++ (held ++ (inner.segments ++ (b.segments ++ others)))) :=
    (once.views views').perm (List.perm_iff_count.2 fun s => by
      simp only [List.count_append]
      omega)
  have alive : others ⊆ inner.segments ++ (b.segments ++ others) := fun s here =>
    List.mem_append_right _ (List.mem_append_right _ here)
  have given := made _ alive twice
  have own : b.segments ⊆ kept ++ (inner.segments ++ (b.segments ++ others)) := fun s here =>
    List.mem_append_right _ (List.mem_append_right _ (List.mem_append_left _ here))
  have asking : inner.segments ⊆ kept ++ (inner.segments ++ (b.segments ++ others)) := fun s here =>
    List.mem_append_right _ (List.mem_append_left _ here)
  have beside : kept ++ others ⊆ kept ++ (inner.segments ++ (b.segments ++ others)) := fun s here =>
    List.mem_append.2 ((List.mem_append.1 here).imp_right fun other => alive other)
  have arranged : st'.Hosts
      (value.segments ++ (b.segments ++ (inner.segments ++ (kept ++ others)))) :=
    given.hosts.perm (List.perm_iff_count.2 fun s => by
      simp only [List.count_append]
      omega)
  have spliced := hosts_splice arranged done
  have valid := valid_of_hosts hosts (List.subset_append_left _ _)
  have part := valid_of_hosts once (List.subset_append_left _ _)
  have incoming := valid_of_hosts given.hosts (List.subset_append_left _ _)
  have same : b.content st' = b.content st := given.content_buffer_eq own
  have asked : inner.content st' = inner.content st := given.content_buffer_eq asking
  obtain ⟨between, inside⟩ := le_of_splice done
  refine ⟨⟨?_, given.keeps.subset beside, given.size_le⟩, asked.symm, ?_, ?_, cells_splice done,
    incoming.length_content, Nat.le_trans between inside⟩
  · refine spliced.perm ?_
    rw [← List.append_assoc]
    exact List.perm_append_comm.append_right _
  · rw [asked, content_substring valid part (Nat.add_le_add_left ordered position) cut]
  · have shown := content_splice (valid_of_hosts given.hosts fun s here =>
      List.mem_append_right _ (own here)) incoming
      (valid_of_hosts spliced (List.subset_append_left _ _)) done
    rw [shown, same]

omit [TextUnit α] in
/-- What lies before and behind the value. -/
theorem Round.units_beside {position : Nat} {span : Span}
    (round : Round b st position span others inner value b' st') (valid : b.Valid st) :
    (b'.content st').take (position + span.lead + value.length) =
        (b.content st).take position ++
          (((b.content st).drop position).take span.lead ++ value.content st') ∧
      (b'.content st').drop (position + span.lead + value.length) =
        ((b.content st).drop position).drop span.width := by
  obtain ⟨before, behind⟩ :=
    beside_inserted (by rw [valid.length_content]; exact round.lead_le) round.content
  rw [round.width, List.take_add (l := b.content st), List.append_assoc] at before
  rw [round.width, ← List.drop_drop (l := b.content st)] at behind
  exact ⟨before, behind⟩

omit [TextUnit α] in
theorem Round.cells_beside {position : Nat} {span : Span}
    (round : Round b st position span others inner value b' st') :
    b'.cells.take (position + span.lead + value.length) =
        b.cells.take position ++ ((b.cells.drop position).take span.lead ++ value.cells) ∧
      b'.cells.drop (position + span.lead + value.length) =
        (b.cells.drop position).drop span.width := by
  obtain ⟨before, behind⟩ :=
    beside_inserted (by rw [length_cells]; exact round.lead_le) round.cells
  rw [length_cells, List.take_add (l := b.cells), List.append_assoc] at before
  rw [length_cells, ← List.drop_drop (l := b.cells)] at behind
  exact ⟨before, behind⟩

/-- Between the markers that are found from a position on, a round takes the next span.  The
cursor that the splice hands back is the one that the scan goes on at. -/
theorem round_of_marked {opening closing : List α} {held kept : List Segment} {position : Nat}
    {first body last past c : Cursor} (some_opening : opening ≠ []) (some_closing : closing ≠ [])
    (hosts : st.Hosts (b.segments ++ (held ++ others)))
    (opened : Cursor.findPattern b.segments opening st (Cursor.locate b.segments position) =
      some (first, body))
    (closed : Cursor.findPattern b.segments closing st body = some (last, past))
    (cut : b.substring body.position last.position = .ok inner)
    (made : ∀ live, others ⊆ live → st.Hosts (inner.segments ++ (held ++ live)) →
      Undisturbed (kept ++ live) st value.segments st')
    (done : b.splice first.position past.position value = .ok (b', c)) :
    ∃ span, Round b st position span (kept ++ others) inner value b' st' ∧
      spans opening closing ((b.content st).drop position) =
        span :: spans opening closing (((b.content st).drop position).drop span.width) ∧
      Cursor.locate b'.segments (position + span.lead + value.length) = c := by
  have valid : b.Valid st := valid_of_hosts hosts (List.subset_append_left _ _)
  obtain ⟨lead, occurs, start, rfl, -⟩ := findPattern_spec valid some_opening opened
  obtain ⟨width, occurs', stop, rfl, inside⟩ := findPattern_spec valid some_closing closed
  have behind : firstOccurrence closing
      (((b.content st).drop position).drop (lead + opening.length)) = some width := by
    rw [List.drop_drop, ← Nat.add_assoc]
    exact occurs'
  have resumed := cursor_splice done
  have body_place : position + lead + opening.length = position + (lead + opening.length) :=
    Nat.add_assoc ..
  have last_place : position + lead + opening.length + width =
      position + (lead + opening.length + width) := by omega
  have past_place : position + lead + opening.length + width + closing.length =
      position + (lead + opening.length + width + closing.length) := by omega
  rw [stop, last_place, Cursor.position_locate, body_place] at cut
  rw [start, Cursor.position_locate, past_place] at done
  rw [start] at resumed
  have round := round_of_splice ⟨lead, lead + opening.length, lead + opening.length + width,
    lead + opening.length + width + closing.length⟩ hosts cut made done (Nat.le_add_right _ _)
  exact ⟨_, round, spans_eq_cons some_opening some_closing occurs behind, resumed.symm⟩

omit [TextUnit α] in
/-- The value shows what is told by the enclosed text. -/
theorem content_of_presents {n : Nat} {body last : Nat} {provider : Provider α} {origin : Store α}
    {relied : List Segment} {held : Nat → List Segment} {told : Nat → List α → List α}
    (hosts : st.Hosts (b.segments ++ (held n ++ others)))
    (cut : b.substring body last = .ok inner) (presents : provider.Presents origin relied held told)
    (alive : relied ⊆ others) (kept : origin.Keeps st (relied ++ held n))
    (made : provider n inner st = (value, st')) :
    value.content st' = told n (inner.content st) := by
  have views := views_substring (ordered_of_hosts hosts (List.subset_append_left _ _)) cut
  have beside := hosts.views fun t found =>
    let ⟨s, here, view⟩ := views t found
    ⟨s, List.mem_append_left _ here, view⟩
  have arranged : st.Hosts (inner.segments ++ (held n ++ (b.segments ++ others))) :=
    beside.perm (List.perm_iff_count.2 fun s => by
      simp only [List.count_append]
      omega)
  have telling := presents n inner st (b.segments ++ others)
    (fun s here => List.mem_append_right _ (alive here)) kept arranged
  rwa [made] at telling

/-! ## The whole scan -/

/-- From a position on, the spans of a buffer have been exchanged for values.  The buffers `asked`
show the enclosed texts, and `inserted` are the cells of the values. -/
structure Exchanges (b : Buffer) (st : Store α) (position : Nat) (found : List Span)
    (values : List (List α)) (others : List Segment) (asked : List Buffer)
    (inserted : List (List Cell)) (after : Buffer) (st' : Store α) : Prop where
  undisturbed : Undisturbed others st (asked.flatMap segments ++ after.segments) st'
  texts : asked.map (·.content st') = enclosedBy found ((b.content st).drop position)
  content : after.content st' =
    (b.content st).take position ++ exchanged ((b.content st).drop position) found values
  widths : inserted.map List.length = values.map List.length
  cells : after.cells = b.cells.take position ++ exchanged (b.cells.drop position) found inserted

omit [TextUnit α] in
/-- The windows that a provider has in its hands need not be told of. -/
theorem hosts_beside {held : List Segment} (hosts : st.Hosts (b.segments ++ (held ++ others))) :
    st.Hosts (b.segments ++ others) :=
  hosts.subperm ((List.subperm_append_left _).2 (List.sublist_append_right held others).subperm)

omit [TextUnit α] in
/-- Where there is no span, nothing is exchanged. -/
theorem exchanges_none (hosts : st.Hosts (b.segments ++ others)) (position : Nat) :
    Exchanges b st position [] [] others [] [] b st where
  undisturbed := .refl hosts
  texts := rfl
  content := (List.take_append_drop _ _).symm
  widths := rfl
  cells := (List.take_append_drop _ _).symm

omit [TextUnit α] in
/-- One round, and the rest of the scan behind what it has put in. -/
theorem exchanges_cons {position : Nat} {span : Span} {found : List Span}
    {values : List (List α)} {asked : List Buffer} {inserted : List (List Cell)}
    (round : Round b st position span others inner value b' st') (valid : b.Valid st)
    (rest : Exchanges b' st' (position + span.lead + value.length) found values
      (inner.segments ++ others) asked inserted after st'') :
    Exchanges b st position (span :: found) (value.content st' :: values) others (inner :: asked)
      (value.cells :: inserted) after st'' := by
  obtain ⟨before_units, behind_units⟩ := round.units_beside valid
  obtain ⟨before_cells, behind_cells⟩ := round.cells_beside
  refine ⟨?_, ?_, ?_, ?_, ?_⟩
  · refine round.undisturbed.trans (rest.undisturbed.frame.perm ?_)
    rw [List.flatMap_cons]
    refine List.perm_append_comm.trans ?_
    rw [List.append_assoc]
  · have kept : inner.content st'' = inner.content st' :=
      rest.undisturbed.content_buffer_eq (List.subset_append_left _ _)
    rw [List.map_cons, rest.texts, behind_units, kept, round.enclosed, enclosedBy,
      drop_take_shifted]
  · rw [rest.content, behind_units, before_units, exchanged, List.append_assoc]
  · rw [List.map_cons, List.map_cons, rest.widths, round.width, length_cells]
  · rw [rest.cells, behind_cells, before_cells, exchanged, List.append_assoc]

/-- What lies between two markers can be cut out, and put something else in their place. -/
theorem ne_error_of_marked {opening closing : List α} {position : Nat}
    {first body last past : Cursor} (valid : b.Valid st)
    (opened : Cursor.findPattern b.segments opening st (Cursor.locate b.segments position) =
      some (first, body))
    (closed : Cursor.findPattern b.segments closing st body = some (last, past)) :
    (∀ fault, b.substring body.position last.position ≠ .error fault) ∧
      ∀ (value : Buffer) (fault : Fault),
        b.splice first.position past.position value ≠ .error fault := by
  have some_closing := ne_nil_of_findPattern closed
  obtain ⟨lead, -, start, rfl, -⟩ := findPattern_spec valid (ne_nil_of_findPattern opened) opened
  obtain ⟨width, -, place, rfl, inside⟩ := findPattern_spec valid some_closing closed
  have some_left : 0 < closing.length := List.length_pos_iff.2 some_closing
  have ordered : first.position ≤
      position + lead + opening.length + width + closing.length := by omega
  refine ⟨fun fault => substring_ne_error (by omega), fun value fault => ?_⟩
  exact splice_ne_error ordered inside (by omega)

/-- From a cursor on, the spans are exchanged one after the other.  The cursor that a splice hands
back is the one that the next round is located at, and what the provider has in its hands is beside
the buffer until it comes in. -/
theorem exchanges_substituteFrom {opening closing : List α} {provider : Provider α}
    {origin : Store α} {relied : List Segment} {held : Nat → List Segment}
    {value : Nat → List α → List α} (before : List Buffer) (position : Nat)
    (some_opening : opening ≠ []) (some_closing : closing ≠ [])
    (serves : provider.Serves relied held) (presents : provider.Presents origin relied held value)
    (alive : relied ⊆ others) (kept : origin.Keeps st (relied ++ held before.length))
    (hosts : st.Hosts (b.segments ++ (held before.length ++ others))) :
    ∃ asked inserted,
      (substituteFrom opening closing provider b (Cursor.locate b.segments position) before
        st).answer = .ok (before ++ asked) ∧
      Exchanges b st position (spans opening closing ((b.content st).drop position))
        (valuesFor value before.length
          (enclosedBy (spans opening closing ((b.content st).drop position))
            ((b.content st).drop position)))
        others asked inserted
        (substituteFrom opening closing provider b (Cursor.locate b.segments position) before
          st).object
        (substituteFrom opening closing provider b (Cursor.locate b.segments position) before
          st).store := by
  generalize begun : Cursor.locate b.segments position = c
  fun_induction substituteFrom opening closing provider b c before st generalizing position others
    with
  | case1 b c before st absent =>
      subst begun
      have valid : b.Valid st := valid_of_hosts hosts (List.subset_append_left _ _)
      rw [spans_of_not_opened (findPattern_none valid some_opening absent)]
      exact ⟨[], [], by rw [List.append_nil], exchanges_none (hosts_beside hosts) position⟩
  | case2 b c before st first body opened absent =>
      subst begun
      have valid : b.Valid st := valid_of_hosts hosts (List.subset_append_left _ _)
      obtain ⟨lead, occurs, -, rfl, -⟩ := findPattern_spec valid some_opening opened
      have closed := findPattern_none valid some_closing absent
      rw [Nat.add_assoc, ← List.drop_drop] at closed
      rw [spans_of_not_closed occurs closed]
      exact ⟨[], [], by rw [List.append_nil], exchanges_none (hosts_beside hosts) position⟩
  | case3 b c before st first body opened last past closed fault refused =>
      subst begun
      have valid : b.Valid st := valid_of_hosts hosts (List.subset_append_left _ _)
      exact absurd refused ((ne_error_of_marked valid opened closed).1 fault)
  | case4 b c before st first body opened last past closed inner cut value' st' made fault refused =>
      subst begun
      have valid : b.Valid st := valid_of_hosts hosts (List.subset_append_left _ _)
      exact absurd refused ((ne_error_of_marked valid opened closed).2 value' fault)
  | case5 b c before st first body opened last past closed inner cut value' st' made b' c' done ih =>
      subst begun
      have valid : b.Valid st := valid_of_hosts hosts (List.subset_append_left _ _)
      have made' : provider before.length inner st = (value', st') := made
      have given : ∀ live, others ⊆ live →
          st.Hosts (inner.segments ++ (held before.length ++ live)) →
          Undisturbed (held (before.length + 1) ++ live) st value'.segments st' := by
        intro live among beside
        have fairly :=
          serves.undisturbed before.length inner st live (List.Subset.trans alive among) beside
        rwa [made'] at fairly
      obtain ⟨span, round, next_span, resumed⟩ :=
        round_of_marked some_opening some_closing hosts opened closed cut given done
      have told : value'.content st' = value before.length (inner.content st') :=
        (content_of_presents hosts cut presents alive kept made').trans (by rw [round.kept])
      have more : (before ++ [inner]).length = before.length + 1 := by
        rw [List.length_append, List.length_singleton]
      have arranged : st'.Hosts
          (b'.segments ++ (held (before ++ [inner]).length ++ (inner.segments ++ others))) := by
        rw [more]
        exact round.undisturbed.hosts.perm (List.perm_iff_count.2 fun s => by
          simp only [List.count_append]
          omega)
      have still : origin.Keeps st' (relied ++ held (before ++ [inner]).length) := by
        rw [more]
        refine (kept.subset ?_).trans (round.undisturbed.keeps.subset ?_)
        · exact List.append_subset.2 ⟨List.subset_append_left _ _, fun s here =>
            List.mem_append_right _ (serves.fewer before.length here)⟩
        · exact List.append_subset.2 ⟨fun s here => List.mem_append_right _ (alive here),
            List.subset_append_left _ _⟩
      obtain ⟨asked, inserted, answer, exchanges⟩ := ih _
        (fun s here => List.mem_append_right inner.segments (alive here)) still arranged resumed
      rw [(round.units_beside valid).2, more] at exchanges
      refine ⟨inner :: asked, value'.cells :: inserted, ?_, ?_⟩
      · rw [answer, List.append_assoc]
        rfl
      · have whole := exchanges_cons round.release valid exchanges
        rw [told, round.enclosed, drop_take_shifted] at whole
        rw [next_span, enclosedBy, valuesFor]
        exact whole

/-- A substitution always ends with an answer, whatever its values show. -/
theorem answer_substituteFrom {opening closing : List α} {provider : Provider α}
    {relied : List Segment} (before : List Buffer) (position : Nat) (fair : provider.Fair relied)
    (alive : relied ⊆ others) (hosts : st.Hosts (b.segments ++ others)) :
    ∃ asked, (substituteFrom opening closing provider b (Cursor.locate b.segments position) before
      st).answer = .ok asked := by
  generalize begun : Cursor.locate b.segments position = c
  fun_induction substituteFrom opening closing provider b c before st generalizing position with
  | case1 b c before st absent => exact ⟨before, rfl⟩
  | case2 b c before st first body opened absent => exact ⟨before, rfl⟩
  | case3 b c before st first body opened last past closed fault refused =>
      subst begun
      have valid : b.Valid st := valid_of_hosts hosts (List.subset_append_left _ _)
      exact absurd refused ((ne_error_of_marked valid opened closed).1 fault)
  | case4 b c before st first body opened last past closed inner cut value' st' made fault refused =>
      subst begun
      have valid : b.Valid st := valid_of_hosts hosts (List.subset_append_left _ _)
      exact absurd refused ((ne_error_of_marked valid opened closed).2 value' fault)
  | case5 b c before st first body opened last past closed inner cut value' st' made b' c' done ih =>
      have given := undisturbed_asked fair alive hosts cut made
      exact ih _ (hosts_splice given.hosts done) (cursor_splice done).symm

theorem answer_substitute {provider : Provider α} {relied : List Segment}
    (opening closing : List α) (fair : provider.Fair relied) (alive : relied ⊆ others)
    (hosts : st.Hosts (b.segments ++ others)) :
    ∃ asked, (b.substitute opening closing provider st).answer = .ok asked := by
  unfold substitute
  split
  next => exact ⟨[], rfl⟩
  next => exact answer_substituteFrom [] 0 fair alive hosts

/-- A whole substitution.  Where a marker is empty, there are no spans. -/
theorem exchanges_substitute {provider : Provider α} {relied : List Segment}
    {held : Nat → List Segment} {value : Nat → List α → List α} (b : Buffer)
    (opening closing : List α) (serves : provider.Serves relied held)
    (presents : provider.Presents st relied held value) (alive : relied ⊆ others)
    (hosts : st.Hosts (b.segments ++ (held 0 ++ others))) :
    let found := spans opening closing (b.content st)
    let r := b.substitute opening closing provider st
    ∃ asked inserted, r.answer = .ok asked ∧
      Exchanges b st 0 found (valuesFor value 0 (enclosedBy found (b.content st))) others asked
        inserted r.object r.store := by
  intro found r
  by_cases empty : (opening.isEmpty || closing.isEmpty) = true
  · have unchanged : r = ⟨b, st, .ok []⟩ := if_pos empty
    have none : found = [] := spans_of_isEmpty empty
    rw [unchanged, none]
    exact ⟨[], [], rfl, exchanges_none (hosts_beside hosts) 0⟩
  · rw [Bool.or_eq_true, not_or, List.isEmpty_iff, List.isEmpty_iff] at empty
    have begun : r = substituteFrom opening closing provider b (Cursor.locate b.segments 0) [] st :=
      if_neg (by simpa using empty)
    rw [begun]
    exact exchanges_substituteFrom [] 0 empty.1 empty.2 serves presents alive (.refl _ _) hosts

/-! ## The whole text -/

/-- A text in two segments that meet inside a closing marker. -/
def twoPieces : Buffer × Store Char :=
  let (front, st) := ofUnits ['a', '[', '[', 'b', ']'] {}
  let (back, st) := ofUnits [']', 'c', '[', '['] st
  ({ segmentList := .held (front.segments ++ back.segments) }, st)

theorem hosts_twoPieces : twoPieces.2.Hosts (twoPieces.1.segments ++ []) := by
  have front := undisturbed_ofUnits (.nil ({} : Store Char)) ['a', '[', '[', 'b', ']']
  have back := undisturbed_ofUnits front.hosts [']', 'c', '[', '[']
  exact back.hosts.perm (List.append_assoc .. ▸ List.perm_append_comm.append_right [])

end Buffer

end SegmentedText
