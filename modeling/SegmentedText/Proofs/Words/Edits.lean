import SegmentedText.Proofs.Refusals.Bounds
import SegmentedText.Proofs.Words.Splices

/-!
# Questions and edits in machine words

What is asked of a buffer comes down to one located cursor and a search from there, and what is
done to it to a cut, a splice or a scan.  So a question, a derivation and an edit are exact
where these are: in every text that is short, with every index and count
(`Query.exact`, `Derive.exact`, `Edit.exact`).

A bounded buffer reckons with its count besides.  It adds what comes in before it takes away
what goes out, and cuts itself to its maximum last; so the count is exact if the text is short
before the edit, and before it is cut (`Bounded.countsExactly`).
-/

set_option autoImplicit false

namespace SegmentedText

variable {α : Type} [TextUnit α] {st : Store α} {others : List Segment}

/-! ## Questions -/

/-- A question about a segment is answered exactly: a place that is found there, counted from the
start of the segment, is at most its end. -/
def Query.ExactInSegment (s : Segment) (st : Store α) : Query → Prop
  | .indexOf c start => ∀ place, s.indexOf (TextUnit.ofChar c) start st = some place →
      place ≤ s.length
  | .indexOfSlice text start => ∀ place,
      s.indexOfSlice (TextUnit.unitsOf text) start st = some place → place ≤ s.length
  | .contains text => ∀ place,
      s.indexOfSlice (TextUnit.unitsOf text) 0 st = some place → place ≤ s.length
  | .findBytes text start => ∀ place, s.findBytes (TextUnit.unitsOf text) start st = some place →
      place ≤ s.length
  | _ => True

/-- A question about a buffer is answered exactly: so is every cursor that the answer comes to. -/
def Query.ExactInBuffer (b : Buffer) (st : Store α) : Query → Prop
  | .unitAt i => (Cursor.locate b.segments i).Exact b.segments
  | .indexOf c start =>
      Cursor.ScansExactly (TextUnit.ofChar c) st
        (b.segments.drop (Cursor.locate b.segments start).segment) (Cursor.locate b.segments start)
  | .indexOfSlice text start =>
      Cursor.FindsExactly b.segments (TextUnit.unitsOf text) st (Cursor.locate b.segments start)
  | .contains text =>
      Cursor.FindsExactly b.segments (TextUnit.unitsOf text) st (Cursor.locate b.segments 0)
  | .startsWith text =>
      Cursor.MatchesExactly b.segments st (TextUnit.unitsOf text) (Cursor.locate b.segments 0)
  | .endsWith text =>
      (TextUnit.unitsOf text : List α).length ≤ b.length →
        Cursor.MatchesExactly b.segments st (TextUnit.unitsOf text)
          (Cursor.locate b.segments (b.length - (TextUnit.unitsOf text : List α).length))
  | _ => True

/-- A question about an object is answered exactly.  A bounded buffer tells its budget by taking its
count from its maximum. -/
def Query.Exact (o : Object) (st : Store α) (query : Query) : Prop :=
  match o with
  | .segment s => query.ExactInSegment s st
  | .buffer b => query.ExactInBuffer b st
  | .bounded b => query.ExactInBuffer b.inner st ∧ (query = .budget → b.size ≤ b.maxSize)

theorem Segment.le_of_indexOfSlice {s : Segment} {pattern : List α} {start place : Nat}
    (found : s.indexOfSlice pattern start st = some place) : place ≤ s.length := by
  have shown := s.length_content_le st
  rw [indexOfSlice] at found
  split at found
  next => cases found
  next inside =>
    split at found
    next =>
      obtain rfl := Option.some.inj found
      omega
    next =>
      obtain ⟨distance, there, rfl⟩ := Option.map_eq_some_iff.1 found
      have within := List.mem_range.1 (List.mem_of_find?_eq_some there)
      rw [List.length_drop] at within
      omega

theorem Segment.le_of_findBytes {s : Segment} {needle : List α} {start place : Nat}
    (found : s.findBytes needle start st = some place) : place ≤ s.length := by
  have shown := s.length_content_le st
  rw [findBytes, findBytesBy] at found
  split at found
  next => cases found
  next inside =>
    obtain ⟨distance, there, rfl⟩ := Option.map_eq_some_iff.1 found
    have within := le_of_firstOccurrence there
    rw [List.length_drop] at within
    omega

theorem Query.exactInSegment (s : Segment) (query : Query) : query.ExactInSegment s st := by
  cases query with
  | indexOf c start => exact fun place found => Nat.le_of_lt (Cursor.indexOf_bounds found).2
  | indexOfSlice text start => exact fun place => Segment.le_of_indexOfSlice
  | contains text => exact fun place => Segment.le_of_indexOfSlice
  | findBytes text start => exact fun place => Segment.le_of_findBytes
  | _ => trivial

theorem Query.exactInBuffer {b : Buffer} (valid : b.Valid st) (short : b.length < 2 * textLimit)
    (query : Query) : query.ExactInBuffer b st := by
  cases query with
  | unitAt i => exact Cursor.exact_locate short i
  | indexOf c start => exact Cursor.scansExactly_locate short _ start
  | indexOfSlice text start => exact Cursor.findsExactly_locate valid short _ start
  | contains text => exact Cursor.findsExactly_locate valid short _ 0
  | startsWith text => exact Cursor.matchesExactly_locate short _ 0
  | endsWith text => exact fun _ => Cursor.matchesExactly_locate short _ _
  | _ => trivial

theorem Query.exact {o : Object} (valid : ∀ s ∈ o.segments, s.Valid st)
    (short : o.length < 2 * textLimit) (counted : ∀ b, o = .bounded b → b.Counted)
    (query : Query) : query.Exact o st := by
  cases o with
  | segment s => exact query.exactInSegment s
  | buffer b => exact query.exactInBuffer valid short
  | bounded b => exact ⟨query.exactInBuffer valid short, fun _ => (counted b rfl).size_le⟩

/-! ## Parts and pieces -/

/-- Deriving an object is exact: a range that is not refused is cut out exactly. -/
def Derive.Exact (o : Object) : Derive → Prop
  | .substring start stop => ∀ b, o.buffer? = some b → (start < stop → stop ≤ b.length) →
      b.CutsExactly start stop
  | .substringFrom start => ∀ b, o.buffer? = some b → b.CutsExactly start b.length
  | _ => True

/-- Splitting an object is exact: every piece of a segment lies in order within it. -/
def Object.SplitsExactly (o : Object) (c : Char) (st : Store α) : Prop :=
  ∀ s ∈ o.segments, ∀ bound ∈ pieceBounds (TextUnit.ofChar c) (s.content st) 0 0,
    bound.1 ≤ bound.2 ∧ bound.2 ≤ s.length

theorem Object.length_of_buffer? {o : Object} {b : Buffer} (shown : o.buffer? = some b) :
    b.length = o.length := by
  cases o with
  | segment s => cases shown
  | buffer b | bounded b =>
      obtain rfl := Option.some.inj shown
      rfl

theorem Derive.exact {o : Object} (short : o.length < wordSize) (what : Derive) :
    what.Exact o := by
  cases what with
  | substring start stop =>
      intro b shown
      exact Buffer.cutsExactly (Object.length_of_buffer? shown ▸ short)
  | substringFrom start =>
      intro b shown
      exact Buffer.cutsExactly (Object.length_of_buffer? shown ▸ short) fun _ => Nat.le_refl _
  | copy | shared | segmentAt => trivial

theorem Object.splitsExactly (o : Object) (c : Char) (st : Store α) : o.SplitsExactly c st := by
  intro s _ bound found
  exact ⟨Segment.pieceBounds_ordered _ _ (Nat.le_refl _) bound found,
    Segment.bound_le_length _ s st bound found⟩

/-! ## Edits of a buffer -/

/-- The number of units in the segments that come with an edit. -/
def Edit.brought : Edit α → Nat
  | .appendSegment s | .prependSegment s => s.length
  | .appendBuffer other | .replaceRange _ _ other => other.length
  | _ => 0

/-- What a scan that changes a buffer as it goes on makes of it in the end. -/
def Edit.scanned (b : Buffer) (st : Store α) : Edit α → Buffer
  | .replaceAll search replacement => (b.replaceAll search replacement st).object
  | .substitute opening closing provider => (b.substitute opening closing provider st).object
  | _ => b

/-- The texts that come with an edit and that a scan leaves are short. -/
structure Edit.Brief (b : Buffer) (st : Store α) (edit : Edit α) : Prop where
  brought : edit.brought < textLimit
  scanned : (edit.scanned b st).length < textLimit

/-- An edit of a buffer is exact: so is each cursor, splice and scan that it comes to. -/
def Edit.ExactInBuffer (b : Buffer) (st : Store α) : Edit α → Prop
  | .setAt i _ => (Cursor.locate b.segments i).Exact b.segments
  | .replaceRange start stop replacement =>
      start ≤ stop → stop ≤ b.length → b.SplicesExactly replacement start stop
  | .replaceAll search replacement =>
      Buffer.ReplacesExactly search replacement b (Cursor.locate b.segments 0) 0 st
  | .substitute opening closing provider =>
      (opening.isEmpty || closing.isEmpty) = false →
        Buffer.SubstitutesExactly opening closing provider b (Cursor.locate b.segments 0) [] st
  | _ => True

theorem Edit.exactInBuffer {b : Buffer} {edit : Edit α} (hosts : st.Hosts (b.segments ++ others))
    (fits : edit.Fits b.segments others) (short : b.length < textLimit)
    (brief : edit.Brief b st) : edit.ExactInBuffer b st := by
  have twice : b.length < 2 * textLimit := by omega
  cases edit with
  | setAt i u => exact Cursor.exact_locate twice i
  | replaceRange start stop replacement =>
      intro ordered inside
      have brought : replacement.length < textLimit := brief.brought
      refine Buffer.splicesExactly twice ordered inside ?_
      have quarter := four_mul_textLimit
      omega
  | replaceAll search replacement =>
      exact Buffer.replacesExactly_replaceAll hosts short brief.scanned
  | substitute opening closing provider =>
      intro some_markers
      obtain ⟨relied, alive, fair⟩ := fits
      exact Buffer.substitutesExactly_substitute fair alive hosts short some_markers brief.scanned
  | _ => trivial

/-! ## Edits of a bounded buffer -/

namespace Bounded

/-- What a bounded buffer computes with its count besides the final one: the part that the budget
admits, what would be too many before it is cut, and what is left of what comes in and goes out. -/
def Reckons (b : Bounded) (st : Store α) : Edit α → Prop
  | .appendBuffer other => b.maxSize - b.size < other.length →
      other.CutsExactly 0 (b.maxSize - b.size)
  | .prepend _ => b.size + 1 < wordSize
  | .prependSegment s => b.size + s.length < wordSize
  | .replaceRange start stop replacement => start ≤ stop → stop ≤ b.inner.length →
      stop - start ≤ b.size ∧ b.size - (stop - start) + replacement.length < wordSize
  | .replaceAll search replacement => ∀ count,
      (b.inner.replaceAll search replacement st).answer = .ok count →
        b.size + count * replacement.length < wordSize ∧
          count * search.length ≤ b.size + count * replacement.length
  | .substitute opening closing provider =>
      (b.inner.substitute opening closing provider st).object.length < wordSize
  | _ => True

/-- A bounded buffer counts exactly: it has a budget to tell, all that it computes on the way to
its new count is a word, and so is that. -/
structure CountsExactly (b : Bounded) (around : Surroundings) (st : Store α) (edit : Edit α) :
    Prop where
  budget : b.size ≤ b.maxSize
  reckons : b.Reckons st edit
  size : (b.apply around st edit).object.size < wordSize

variable {b : Bounded} {edit : Edit α}

theorem reckons (hosts : st.Hosts (b.inner.segments ++ others)) (counted : b.Counted)
    (short : b.inner.length < textLimit) (brief : edit.Brief b.inner st) :
    b.Reckons st edit := by
  have size_lt : b.size < textLimit := counted.size_eq ▸ short
  have brought := brief.brought
  have scanned := brief.scanned
  cases edit with
  | appendBuffer other =>
      intro more
      have whole : other.length < wordSize := Nat.lt_trans brought (by decide)
      exact Buffer.cutsExactly whole fun _ => Nat.le_of_lt more
  | prepend u =>
      show b.size + 1 < wordSize
      have quarter := four_mul_textLimit
      omega
  | prependSegment s =>
      have added : s.length < textLimit := brought
      show b.size + s.length < wordSize
      have quarter := four_mul_textLimit
      omega
  | replaceRange start stop replacement =>
      intro ordered inside
      have inserted : replacement.length < textLimit := brought
      have size_eq := counted.size_eq
      have quarter := four_mul_textLimit
      omega
  | replaceAll search replacement =>
      intro count answered
      have valid : b.inner.Valid st := Buffer.valid_of_hosts hosts (List.subset_append_left _ _)
      obtain ⟨rounds, answer, lengths⟩ := Buffer.length_replaceAll search replacement hosts
      obtain rfl := Except.ok.inj (answered.symm.trans answer)
      obtain rfl := Except.ok.inj
        (answered.symm.trans (Buffer.content_replaceAll search replacement hosts).1)
      -- What goes out was there before, and what is there afterwards is short.
      have taken := replaceOccurrences_count_le search replacement (b.inner.content st)
      have left : (b.inner.replaceAll search replacement st).object.length < textLimit := scanned
      rw [counted.length_content valid] at taken
      rw [← counted.size_eq] at lengths
      have quarter := four_mul_textLimit
      omega
  | substitute opening closing provider =>
      have left : (b.inner.substitute opening closing provider st).object.length < textLimit :=
        scanned
      exact Nat.lt_trans left (by decide)
  | _ => trivial

theorem countsExactly {around : Surroundings} (hosts : st.Hosts (b.inner.segments ++ others))
    (counted : b.Counted) (short : b.inner.length < textLimit) (brief : edit.Brief b.inner st)
    (ended : (b.apply around st edit).object.size < textLimit) :
    b.CountsExactly around st edit where
  budget := counted.size_le
  reckons := reckons hosts counted short brief
  size := Nat.lt_trans ended (by decide)

end Bounded

/-! ## Edits of an object -/

/-- An edit of an object is exact: so is that of its buffer, and a bounded buffer counts exactly. -/
def Edit.Exact (o : Object) (around : Surroundings) (st : Store α) (edit : Edit α) : Prop :=
  match o with
  | .segment _ => True
  | .buffer b => edit.ExactInBuffer b st
  | .bounded b => edit.ExactInBuffer b.inner st ∧ b.CountsExactly around st edit

/-- **Every edit is exact**, with whatever indices and counts, if the texts before and after it are
short. -/
theorem Edit.exact {o : Object} {around : Surroundings} {edit : Edit α}
    (hosts : st.Hosts (o.segments ++ others)) (fits : edit.Fits o.segments others)
    (counted : ∀ b, o = .bounded b → b.Counted) (short : o.length < textLimit)
    (brief : ∀ b, o.buffer? = some b → edit.Brief b st)
    (ended : ∀ b, o = .bounded b → (b.apply around st edit).object.size < textLimit) :
    edit.Exact o around st := by
  cases o with
  | segment s => trivial
  | buffer b => exact Edit.exactInBuffer hosts fits short (brief b rfl)
  | bounded b =>
      exact ⟨Edit.exactInBuffer hosts fits short (brief b.inner rfl),
        Bounded.countsExactly hosts (counted b rfl) short (brief b.inner rfl) (ended b rfl)⟩

end SegmentedText
