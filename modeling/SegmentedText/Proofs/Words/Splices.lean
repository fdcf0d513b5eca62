import SegmentedText.Proofs.Flat.Replacement
import SegmentedText.Proofs.Flat.Substitution
import SegmentedText.Proofs.Words.Cursors

/-!
# Cuts, splices and scans in machine words

A cut and a splice locate both ends of a range, and reckon with segments and offsets from
there: the range of segments between the ends, the window up to and with the last unit, the
place of the cursor behind what was put in.  Those computations are exact for every range
within the text (`Buffer.cutsExactly`, `Buffer.splicesExactly`).

The scans that change a text as they go on are exact if each of their rounds is.  Such a scan
may make a text longer before it makes it shorter, so the texts on its way are not bounded by
those at its ends.  But what lies before the scan stays to the end, and what lies behind it was
there at the beginning; so each text on the way is at most as long as both together
(`Buffer.replacesExactly`, `Buffer.substitutesExactly`).
-/

set_option autoImplicit false

namespace SegmentedText

namespace Gap

/-- The gap ends within the list of segments. -/
theorem past_le_length {segments : List Segment} {start stop : Nat} (ordered : start ≤ stop)
    (inside : stop ≤ totalLength segments) :
    (ofRange segments start stop).past ≤ segments.length := by
  have located : (Cursor.locate segments start).segment ≤ segments.length := by
    simp only [Cursor.locate, Cursor.normalized, List.drop_zero, Nat.zero_add]
    exact Cursor.carry_le_length segments start
  unfold ofRange
  dsimp only
  split
  next => exact located
  next cut =>
    split
    next same =>
      have within : (Cursor.locate segments start).isEnd segments = false := by
        simp only [Bool.or_eq_true, not_or, Bool.not_eq_true] at cut
        exact cut.1
      simp only [Cursor.isEnd, decide_eq_false_iff_not, Nat.not_le] at within
      exact within
    next less =>
      obtain ⟨s, there, -, -⟩ :=
        Cursor.locate_inside (show stop - 1 < totalLength segments by omega)
      exact (List.getElem?_eq_some_iff.1 there).1

end Gap

namespace Buffer

variable {b r : Buffer} {start stop : Nat}

/-! ## Ranges -/

/-- Cutting a range out is exact: the units at its ends lie in segments of the buffer, the first
not behind the last, and the offset beyond the last is still one of its segment. -/
structure CutsExactly (b : Buffer) (start stop : Nat) : Prop where
  length : b.length < wordSize
  ends : start < stop → ∃ front back,
    b.segments[(Cursor.locate b.segments start).segment]? = some front ∧
    b.segments[(Cursor.locate b.segments (stop - 1)).segment]? = some back ∧
    (Cursor.locate b.segments start).offset < front.length ∧
    (Cursor.locate b.segments (stop - 1)).offset < back.length
  ordered : start < stop →
    (Cursor.locate b.segments start).segment < (Cursor.locate b.segments (stop - 1)).segment ∨
    (Cursor.locate b.segments start).segment = (Cursor.locate b.segments (stop - 1)).segment ∧
      (Cursor.locate b.segments start).offset ≤ (Cursor.locate b.segments (stop - 1)).offset

theorem cutsExactly (short : b.length < wordSize) (inside : start < stop → stop ≤ b.length) :
    b.CutsExactly start stop where
  length := short
  ends := by
    intro less
    have within : stop ≤ totalLength b.segments := inside less
    obtain ⟨front, first, front_lt, -⟩ :=
      Cursor.locate_inside (show start < totalLength b.segments by omega)
    obtain ⟨back, last, back_lt, -⟩ :=
      Cursor.locate_inside (show stop - 1 < totalLength b.segments by omega)
    exact ⟨front, back, first, last, front_lt, back_lt⟩
  ordered := fun less => Cursor.locate_mono b.segments (by omega)

/-- Exchanging a range is exact: so is cutting it out, the gap lies in order within the list of
segments, and the cursor behind what is put in stands within the new list, at a position that is a
word. -/
structure SplicesExactly (b r : Buffer) (start stop : Nat) : Prop where
  cuts : b.CutsExactly start stop
  begins : (Cursor.locate b.segments start).Exact b.segments
  ordered : (Gap.ofRange b.segments start stop).before ≤ (Gap.ofRange b.segments start stop).past
  inside : (Gap.ofRange b.segments start stop).past ≤ b.segments.length
  resumes : (Gap.ofRange b.segments start stop).before +
      (Gap.ofRange b.segments start stop).front.length +
      (r.segments.filter (!·.isEmpty)).length ≤
    ((Gap.ofRange b.segments start stop).filled b.segments
      (r.segments.filter (!·.isEmpty))).length
  position : start + r.length < wordSize

theorem splicesExactly (short : b.length < 2 * textLimit) (ordered : start ≤ stop)
    (inside : stop ≤ b.length) (position : start + r.length < wordSize) :
    b.SplicesExactly r start stop where
  cuts := by
    refine cutsExactly (Nat.lt_trans short ?_) fun _ => inside
    have quarter := four_mul_textLimit
    omega
  begins := Cursor.exact_locate short start
  ordered := Gap.before_le_past b.segments ordered
  inside := Gap.past_le_length ordered inside
  resumes := by
    have before := before_le_length b.segments start stop
    simp only [Gap.filled, List.length_append, List.length_take, Nat.min_eq_left before]
    omega
  position := position

/-! ## Every occurrence -/

variable {α : Type} [TextUnit α] {st : Store α} {others : List Segment}

/-- Going on to replace from a cursor is exact: each round finds, splices and counts exactly. -/
inductive ReplacesExactly (search replacement : List α) : Buffer → Cursor → Nat → Store α → Prop
    where
  | round {b : Buffer} {c : Cursor} {count : Nat} {st : Store α}
      (finds : Cursor.FindsExactly b.segments search st c)
      (splices : ∀ first past, Cursor.findPattern b.segments search st c = some (first, past) →
        b.SplicesExactly (ofUnits replacement st).1 first.position past.position)
      (counts : ∀ first past, Cursor.findPattern b.segments search st c = some (first, past) →
        count + 1 < wordSize)
      (onward : ∀ first past b' c',
        Cursor.findPattern b.segments search st c = some (first, past) →
        b.splice first.position past.position (ofUnits replacement st).1 = .ok (b', c') →
          ReplacesExactly search replacement b' c' (count + 1) (ofUnits replacement st).2) :
      ReplacesExactly search replacement b c count st

/-- What lies before the scan stays. -/
theorem le_length_replaceFrom {search replacement : List α} {c : Cursor} {count : Nat}
    (le : c.position ≤ b.length) :
    c.position ≤ (replaceFrom search replacement b c count st).object.length := by
  fun_induction replaceFrom search replacement b c count st with
  | case1 b c count st absent => exact le
  | case2 b c count st first past found value st' made fault refused => exact le
  | case3 b c count st first past found value st' made b' c' done ih =>
      have onward := Cursor.findPattern_position found
      have inside := le_of_splice done
      have longer := length_splice done
      have resumed := position_splice done
      have later := ih (by omega)
      omega

theorem replacesExactly {search replacement : List α} (count position : Nat)
    (hosts : st.Hosts (b.segments ++ others)) (le : position ≤ b.length)
    (left : count + (b.length - position) < textLimit) :
    (replaceFrom search replacement b (Cursor.locate b.segments position) count
      st).object.length < textLimit →
    ReplacesExactly search replacement b (Cursor.locate b.segments position) count st := by
  generalize begun : Cursor.locate b.segments position = c
  fun_induction replaceFrom search replacement b c count st generalizing position with
  | case1 b c count st absent =>
      subst begun
      intro ended
      have valid : b.Valid st := valid_of_hosts hosts (List.subset_append_left _ _)
      have short : totalLength b.segments < 2 * textLimit := Nat.lt_of_lt_of_le ended (by omega)
      refine .round (Cursor.findsExactly_locate valid short search position) ?_ ?_ ?_
      · intro first past found
        cases absent.symm.trans found
      · intro first past found
        cases absent.symm.trans found
      · intro first past b' c' found
        cases absent.symm.trans found
  | case2 b c count st first past found value st' made fault refused =>
      subst begun
      have valid : b.Valid st := valid_of_hosts hosts (List.subset_append_left _ _)
      exact absurd refused (splice_found valid found)
  | case3 b c count st first past found value st' made b' c' done ih =>
      subst begun
      intro ended
      have valid : b.Valid st := valid_of_hosts hosts (List.subset_append_left _ _)
      obtain ⟨begins, less, wide⟩ := Cursor.findPattern_position found
      rw [Cursor.position_locate] at begins
      have inside := le_of_splice done
      have longer := length_splice done
      have resumed := position_splice done
      have resumes : c'.position ≤ b'.length := by omega
      have kept := Nat.lt_of_le_of_lt (le_length_replaceFrom resumes) ended
      have short : b.length < 2 * textLimit := by omega
      refine .round (Cursor.findsExactly_locate valid short search position) ?_ ?_ ?_
      · intro first' past' found'
        obtain ⟨rfl, rfl⟩ := Prod.mk.inj (Option.some.inj (found.symm.trans found'))
        rw [made]
        refine splicesExactly short inside.1 inside.2 ?_
        rw [← resumed]
        exact Nat.lt_trans kept (by decide)
      · intro first' past' _
        exact Nat.lt_of_le_of_lt (by omega) (Nat.lt_trans left (by decide))
      · intro first' past' b'' c'' found' done'
        obtain ⟨rfl, rfl⟩ := Prod.mk.inj (Option.some.inj (found.symm.trans found'))
        rw [made] at done' ⊢
        obtain ⟨rfl, rfl⟩ := Prod.mk.inj (Except.ok.inj (done.symm.trans done'))
        have fresh := undisturbed_of_made hosts made
        exact ih _ (hosts_splice fresh.hosts done) (by omega) (by omega) (cursor_splice done).symm
          ended

/-- Replacing every occurrence is exact in a text that is short before and after. -/
theorem replacesExactly_replaceAll {search replacement : List α}
    (hosts : st.Hosts (b.segments ++ others)) (short : b.length < textLimit)
    (ended : (b.replaceAll search replacement st).object.length < textLimit) :
    ReplacesExactly search replacement b (Cursor.locate b.segments 0) 0 st :=
  replacesExactly 0 0 hosts (Nat.zero_le _) (by omega) ended

/-! ## Every span between markers -/

/-- The next span between markers, and the value that is given for the text that it encloses. -/
structure Marked (opening closing : List α) (provider : Provider α) (b : Buffer) (c : Cursor)
    (enclosed : List Buffer) (st : Store α) (first body last past : Cursor)
    (inner value : Buffer) (st' : Store α) : Prop where
  opened : Cursor.findPattern b.segments opening st c = some (first, body)
  closed : Cursor.findPattern b.segments closing st body = some (last, past)
  cut : b.substring body.position last.position = .ok inner
  made : provider enclosed.length inner st = (value, st')

/-- The next span and its value are determined. -/
theorem Marked.unique {opening closing : List α} {provider : Provider α} {c : Cursor}
    {enclosed : List Buffer} {first body last past first' body' last' past' : Cursor}
    {inner value inner' value' : Buffer} {st' st'' : Store α}
    (marked : Marked opening closing provider b c enclosed st first body last past inner value st')
    (other : Marked opening closing provider b c enclosed st first' body' last' past' inner' value'
      st'') :
    first = first' ∧ past = past' ∧ inner = inner' ∧ value = value' ∧ st' = st'' := by
  obtain ⟨rfl, rfl⟩ := Prod.mk.inj (Option.some.inj (marked.opened.symm.trans other.opened))
  obtain ⟨rfl, rfl⟩ := Prod.mk.inj (Option.some.inj (marked.closed.symm.trans other.closed))
  obtain rfl := Except.ok.inj (marked.cut.symm.trans other.cut)
  obtain ⟨rfl, rfl⟩ := Prod.mk.inj (marked.made.symm.trans other.made)
  exact ⟨rfl, rfl, rfl, rfl, rfl⟩

/-- Going on to substitute from a cursor is exact: each round finds both markers, cuts the text
between them out and splices its value in exactly. -/
inductive SubstitutesExactly (opening closing : List α) (provider : Provider α) :
    Buffer → Cursor → List Buffer → Store α → Prop where
  | round {b : Buffer} {c : Cursor} {enclosed : List Buffer} {st : Store α}
      (opens : Cursor.FindsExactly b.segments opening st c)
      (closes : ∀ first body, Cursor.findPattern b.segments opening st c = some (first, body) →
        Cursor.FindsExactly b.segments closing st body)
      (cuts : ∀ first body last past,
        Cursor.findPattern b.segments opening st c = some (first, body) →
        Cursor.findPattern b.segments closing st body = some (last, past) →
          b.CutsExactly body.position last.position)
      (splices : ∀ first body last past inner value st',
        Marked opening closing provider b c enclosed st first body last past inner value st' →
          b.SplicesExactly value first.position past.position)
      (onward : ∀ first body last past inner value st' b' c',
        Marked opening closing provider b c enclosed st first body last past inner value st' →
        b.splice first.position past.position value = .ok (b', c') →
          SubstitutesExactly opening closing provider b' c' (enclosed ++ [inner]) st') :
      SubstitutesExactly opening closing provider b c enclosed st

/-- What lies before the scan stays. -/
theorem le_length_substituteFrom {opening closing : List α} {provider : Provider α} {c : Cursor}
    {enclosed : List Buffer} (le : c.position ≤ b.length) :
    c.position ≤
      (substituteFrom opening closing provider b c enclosed st).object.length := by
  fun_induction substituteFrom opening closing provider b c enclosed st with
  | case5 b c enclosed st first body opened last past closed inner cut value st' made b' c' done ih =>
      have begins := Cursor.findPattern_position opened
      have ends := Cursor.findPattern_position closed
      have inside := le_of_splice done
      have longer := length_splice done
      have resumed := position_splice done
      have later := ih (by omega)
      omega
  | case1 | case2 | case3 | case4 => exact le

/-- The searches and the cut of a round are exact in a text of less than half a word's range. -/
theorem marksExactly (opening closing : List α) (position : Nat) (valid : b.Valid st)
    (short : b.length < 2 * textLimit) :
    Cursor.FindsExactly b.segments opening st (Cursor.locate b.segments position) ∧
    (∀ first body, Cursor.findPattern b.segments opening st (Cursor.locate b.segments position) =
        some (first, body) → Cursor.FindsExactly b.segments closing st body) ∧
    ∀ first body last past,
      Cursor.findPattern b.segments opening st (Cursor.locate b.segments position) =
        some (first, body) →
      Cursor.findPattern b.segments closing st body = some (last, past) →
        b.CutsExactly body.position last.position := by
  have located : ∀ {first body : Cursor},
      Cursor.findPattern b.segments opening st (Cursor.locate b.segments position) =
        some (first, body) → ∃ place, body = Cursor.locate b.segments place := by
    intro first body opened
    obtain ⟨lead, -, -, same, -⟩ := findPattern_spec valid (ne_nil_of_findPattern opened) opened
    exact ⟨_, same⟩
  refine ⟨Cursor.findsExactly_locate valid short opening position, ?_, ?_⟩
  · intro first body opened
    obtain ⟨place, rfl⟩ := located opened
    exact Cursor.findsExactly_locate valid short closing place
  · intro first body last past opened closed
    obtain ⟨place, rfl⟩ := located opened
    obtain ⟨width, -, begins, -, inside⟩ :=
      findPattern_spec valid (ne_nil_of_findPattern closed) closed
    refine cutsExactly (Nat.lt_trans short (by decide)) fun _ => ?_
    omega

/-- Where there is no span any more, the searches are all there is. -/
theorem substitutesExactly_of_unmarked {opening closing : List α} {provider : Provider α}
    {position : Nat} {enclosed : List Buffer} (valid : b.Valid st)
    (short : b.length < 2 * textLimit)
    (unmarked : ∀ first body last past inner value st', ¬Marked opening closing provider b
      (Cursor.locate b.segments position) enclosed st first body last past inner value st') :
    SubstitutesExactly opening closing provider b (Cursor.locate b.segments position) enclosed
      st := by
  obtain ⟨opens, closes, cuts⟩ := marksExactly opening closing position valid short
  refine .round opens closes cuts ?_ ?_
  · intro first body last past inner value st' marked
    exact absurd marked (unmarked _ _ _ _ _ _ _)
  · intro first body last past inner value st' b' c' marked
    exact absurd marked (unmarked _ _ _ _ _ _ _)

theorem substitutesExactly {opening closing : List α} {provider : Provider α}
    {relied : List Segment} (enclosed : List Buffer) (position : Nat) (fair : provider.Fair relied)
    (alive : relied ⊆ others) (hosts : st.Hosts (b.segments ++ others)) (le : position ≤ b.length)
    (left : b.length - position < textLimit) :
    (substituteFrom opening closing provider b (Cursor.locate b.segments position) enclosed
      st).object.length < textLimit →
    SubstitutesExactly opening closing provider b (Cursor.locate b.segments position) enclosed
      st := by
  generalize begun : Cursor.locate b.segments position = c
  fun_induction substituteFrom opening closing provider b c enclosed st generalizing position with
  | case1 b c enclosed st absent =>
      subst begun
      intro ended
      have valid : b.Valid st := valid_of_hosts hosts (List.subset_append_left _ _)
      refine substitutesExactly_of_unmarked valid (Nat.lt_of_lt_of_le ended (by omega)) ?_
      intro first body last past inner value st' marked
      cases absent.symm.trans marked.opened
  | case2 b c enclosed st first body opened absent =>
      subst begun
      intro ended
      have valid : b.Valid st := valid_of_hosts hosts (List.subset_append_left _ _)
      refine substitutesExactly_of_unmarked valid (Nat.lt_of_lt_of_le ended (by omega)) ?_
      intro first' body' last past inner value st' marked
      obtain ⟨rfl, rfl⟩ := Prod.mk.inj (Option.some.inj (opened.symm.trans marked.opened))
      cases absent.symm.trans marked.closed
  | case3 b c enclosed st first body opened last past closed fault refused =>
      subst begun
      have valid : b.Valid st := valid_of_hosts hosts (List.subset_append_left _ _)
      exact absurd refused ((ne_error_of_marked valid opened closed).1 fault)
  | case4 b c enclosed st first body opened last past closed inner cut value st' made fault refused =>
      subst begun
      have valid : b.Valid st := valid_of_hosts hosts (List.subset_append_left _ _)
      exact absurd refused ((ne_error_of_marked valid opened closed).2 value fault)
  | case5 b c enclosed st first body opened last past closed inner cut value st' made b' c' done ih =>
      subst begun
      intro ended
      have valid : b.Valid st := valid_of_hosts hosts (List.subset_append_left _ _)
      have begins := Cursor.findPattern_position opened
      have ends := Cursor.findPattern_position closed
      rw [Cursor.position_locate] at begins
      have inside := le_of_splice done
      have longer := length_splice done
      have resumed := position_splice done
      have resumes : c'.position ≤ b'.length := by omega
      have kept := Nat.lt_of_le_of_lt (le_length_substituteFrom resumes) ended
      have short : b.length < 2 * textLimit := by omega
      obtain ⟨opens, closes, cuts⟩ := marksExactly opening closing position valid short
      have marked : Marked opening closing provider b (Cursor.locate b.segments position) enclosed st
          first body last past inner value st' := ⟨opened, closed, cut, made⟩
      refine .round opens closes cuts ?_ ?_
      · intro first' body' last' past' inner' value' st'' other
        obtain ⟨rfl, rfl, rfl, rfl, rfl⟩ := marked.unique other
        refine splicesExactly short inside.1 inside.2 ?_
        rw [← resumed]
        exact Nat.lt_trans kept (by decide)
      · intro first' body' last' past' inner' value' st'' b'' c'' other done'
        obtain ⟨rfl, rfl, rfl, rfl, rfl⟩ := marked.unique other
        obtain ⟨rfl, rfl⟩ := Prod.mk.inj (Except.ok.inj (done.symm.trans done'))
        have given := undisturbed_asked fair alive hosts cut made
        exact ih _ (hosts_splice given.hosts done) (by omega) (by omega) (cursor_splice done).symm
          ended

/-- Substituting every span is exact in a text that is short before and after. -/
theorem substitutesExactly_substitute {opening closing : List α} {provider : Provider α}
    {relied : List Segment} (fair : provider.Fair relied) (alive : relied ⊆ others)
    (hosts : st.Hosts (b.segments ++ others)) (short : b.length < textLimit)
    (some_markers : (opening.isEmpty || closing.isEmpty) = false)
    (ended : (b.substitute opening closing provider st).object.length < textLimit) :
    SubstitutesExactly opening closing provider b (Cursor.locate b.segments 0) [] st := by
  have begun : b.substitute opening closing provider st =
      substituteFrom opening closing provider b (Cursor.locate b.segments 0) [] st :=
    if_neg (by rw [some_markers]; exact Bool.false_ne_true)
  rw [begun] at ended
  exact substitutesExactly [] 0 fair alive hosts (Nat.zero_le _) (by omega) ended

end Buffer
end SegmentedText
