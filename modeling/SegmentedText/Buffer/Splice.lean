import SegmentedText.Buffer.Growth
import SegmentedText.Buffer.Search

/-!
# Splicing

A range of a buffer is replaced by exchanging segments:

    before:  [ s0 ][ s1 ..|xx ][ s2 xxxx ][ xx|.. s3 ][ s4 ]
    after:   [ s0 ][ s1 ..][ r0 ][ r1 ][ .. s3 ][ s4 ]

The segments at the ends of the range are cut, and what is left of them are
windows without room over the same cells.  What is left is kept only if it shows
something, so a splice at the edge of a segment leaves nothing empty behind; and
an insertion between two segments cuts neither.

The cursor that a splice returns stands behind the inserted segments.  The main
statement is that the length changes by exactly what was taken out and put in
(`Buffer.length_splice`).
-/

set_option autoImplicit false

namespace SegmentedText

/-! ## The gap -/

/-- What a splice takes out of a list of segments. -/
structure Gap where
  /-- The number of segments before the gap. -/
  before : Nat
  /-- The number of segments up to the end of the gap. -/
  past : Nat
  /-- What is left of the segment at the start of the gap. -/
  front : List Segment
  /-- What is left of the segment at the end of the gap. -/
  back : List Segment

namespace Gap

/-- What lies before a cursor in its own segment. -/
def frontOf (segments : List Segment) (c : Cursor) : List Segment :=
  match segments[c.segment]? with
  | some s => if 0 < c.offset then [s.window 0 c.offset] else []
  | none => []

/-- What lies from an offset on in one of the segments. -/
def backOf (segments : List Segment) (i start : Nat) : List Segment :=
  match segments[i]? with
  | some s => if start < s.length then [s.window start s.length] else []
  | none => []

/-- The gap for the range from `start` up to `stop`. -/
def ofRange (segments : List Segment) (start stop : Nat) : Gap :=
  let first := Cursor.locate segments start
  if first.isEnd segments || (start == stop && first.offset == 0) then
    ⟨first.segment, first.segment, [], []⟩
  else if start = stop then
    ⟨first.segment, first.segment + 1, frontOf segments first,
      backOf segments first.segment first.offset⟩
  else
    let last := Cursor.locate segments (stop - 1)
    ⟨first.segment, last.segment + 1, frontOf segments first,
      backOf segments last.segment (last.offset + 1)⟩

/-- The segments with others put into the gap. -/
def filled (gap : Gap) (segments incoming : List Segment) : List Segment :=
  segments.take gap.before ++ (gap.front ++ incoming ++ gap.back) ++ segments.drop gap.past

end Gap

namespace Buffer

/-- Replaces the range from `start` up to `stop` by the segments of `replacement`, which change
hands.  The cursor stands on the first unit behind them.  A list of segments is needed even where
nothing is put in. -/
def splice (b : Buffer) (start stop : Nat) (replacement : Buffer) :
    Except Fault (Buffer × Cursor) :=
  if ¬(start ≤ stop ∧ stop ≤ b.length) then .error (.replaceRange start stop b.length)
  else if !b.canHold then .error .roomExceeded
  else
    let incoming := replacement.segments.filter (!·.isEmpty)
    let gap := Gap.ofRange b.segments start stop
    let segments := gap.filled b.segments incoming
    let behind : Cursor :=
      { segment := gap.before + gap.front.length + incoming.length
        offset := 0
        position := start + replacement.length }
    .ok ({ b with segmentList := (SegmentList.held segments).settle }, behind.normalized segments)

end Buffer

/-! ## Lengths -/

theorem totalLength_take_add_drop (segments : List Segment) (i : Nat) :
    totalLength (segments.take i) + totalLength (segments.drop i) = totalLength segments := by
  rw [← totalLength_append, List.take_append_drop]

theorem totalLength_around {segments : List Segment} {i : Nat} {s : Segment}
    (here : segments[i]? = some s) :
    totalLength (segments.take i) + s.length + totalLength (segments.drop (i + 1)) =
      totalLength segments := by
  obtain ⟨inside, rfl⟩ := List.getElem?_eq_some_iff.1 here
  have := totalLength_take_add_drop segments i
  rw [List.drop_eq_getElem_cons inside, totalLength_cons] at this
  omega

theorem totalLength_filter (segments : List Segment) :
    totalLength (segments.filter (!·.isEmpty)) = totalLength segments := by
  induction segments with
  | nil => rfl
  | cons s rest ih =>
      by_cases none : s.isEmpty = true
      · rw [List.filter_cons_of_neg (by simp [none]), ih, totalLength_cons]
        simp only [Segment.isEmpty, beq_iff_eq] at none
        simp [Segment.length, none]
      · rw [List.filter_cons_of_pos (by simpa using none), totalLength_cons, totalLength_cons, ih]

namespace Gap

theorem totalLength_frontOf {segments : List Segment} {c : Cursor} {s : Segment}
    (here : segments[c.segment]? = some s) : totalLength (frontOf segments c) = c.offset := by
  rw [frontOf, here]
  dsimp only
  split
  · simp [Segment.window, Segment.length]
  · simp only [totalLength_nil]
    omega

theorem totalLength_backOf {segments : List Segment} {i start : Nat} {s : Segment}
    (here : segments[i]? = some s) : totalLength (backOf segments i start) = s.length - start := by
  rw [backOf, here]
  dsimp only
  split
  · simp only [Segment.window, Segment.length, totalLength_cons, totalLength_nil]
    omega
  · simp only [totalLength_nil]
    omega

/-- A cursor that is not behind the last segment was located within the text. -/
theorem lt_of_locate {segments : List Segment} {position : Nat}
    (within : (Cursor.locate segments position).isEnd segments = false) :
    position < totalLength segments := by
  simp only [Cursor.isEnd, decide_eq_false_iff_not, Nat.not_le] at within
  have here := List.getElem?_eq_getElem within
  simp only [Cursor.locate, Cursor.normalized, List.drop_zero, Nat.zero_add] at here
  have inside := Cursor.carry_inside here
  have left := Cursor.totalLength_drop_carry segments position
  have := totalLength_around here
  have := totalLength_take_add_drop segments (Cursor.carry segments position).1
  omega

/-- Outside the gap lies what the range does not cover. -/
theorem totalLength_outside {segments : List Segment} {start stop : Nat} (ordered : start ≤ stop)
    (inside : stop ≤ totalLength segments) :
    let gap := ofRange segments start stop
    totalLength (segments.take gap.before) + totalLength gap.front + totalLength gap.back +
      totalLength (segments.drop gap.past) = totalLength segments - (stop - start) := by
  unfold ofRange
  dsimp only
  split
  next between =>
    have same : start = stop := by
      simp only [Bool.or_eq_true, Bool.and_eq_true, beq_iff_eq] at between
      rcases between with behind | ⟨same, _⟩
      · by_cases less : start < totalLength segments
        · obtain ⟨s, here, _, _⟩ := Cursor.locate_inside less
          have := (List.getElem?_eq_some_iff.1 here).1
          simp only [Cursor.isEnd, decide_eq_true_eq] at behind
          omega
        · omega
      · exact same
    have := totalLength_take_add_drop segments (Cursor.locate segments start).segment
    simp only [totalLength_nil]
    omega
  next cut =>
    have within : (Cursor.locate segments start).isEnd segments = false := by
      simp only [Bool.or_eq_true, not_or, Bool.not_eq_true] at cut
      exact cut.1
    obtain ⟨s, here, offset_lt, place⟩ := Cursor.locate_inside (lt_of_locate within)
    have around := totalLength_around here
    split
    next same =>
      simp only [totalLength_frontOf here, totalLength_backOf here]
      omega
    next less =>
      have last_inside : stop - 1 < totalLength segments := by omega
      obtain ⟨t, there, last_lt, last_place⟩ := Cursor.locate_inside last_inside
      have beyond := totalLength_around there
      simp only [totalLength_frontOf here, totalLength_backOf there]
      omega

end Gap

namespace Buffer

/-- A splice that succeeds lies within the buffer. -/
theorem le_of_splice {b r b' : Buffer} {start stop : Nat} {c : Cursor}
    (done : b.splice start stop r = .ok (b', c)) : start ≤ stop ∧ stop ≤ b.length := by
  unfold splice at done
  split at done
  next => cases done
  next inside => exact Decidable.not_not.1 inside

/-- What a splice that succeeds gives. -/
theorem eq_of_splice {b r b' : Buffer} {start stop : Nat} {c : Cursor}
    (done : b.splice start stop r = .ok (b', c)) :
    let incoming := r.segments.filter (!·.isEmpty)
    let gap := Gap.ofRange b.segments start stop
    b' = { b with
      segmentList := (SegmentList.held (gap.filled b.segments incoming)).settle } ∧
    c = Cursor.normalized
      { segment := gap.before + gap.front.length + incoming.length
        offset := 0
        position := start + r.length }
      (gap.filled b.segments incoming) := by
  have inside := le_of_splice done
  rw [splice, if_neg (not_not_intro inside)] at done
  split at done
  next => cases done
  next =>
    obtain ⟨rfl, rfl⟩ := Prod.mk.inj (Except.ok.inj done)
    exact ⟨rfl, rfl⟩

/-- A splice changes the length by what it takes out and puts in. -/
theorem length_splice {b r b' : Buffer} {start stop : Nat} {c : Cursor}
    (done : b.splice start stop r = .ok (b', c)) :
    b'.length = b.length - (stop - start) + r.length := by
  have inside := le_of_splice done
  obtain ⟨rfl, rfl⟩ := eq_of_splice done
  have outside := Gap.totalLength_outside inside.1 inside.2
  have incoming := totalLength_filter r.segments
  simp only [length, segments, SegmentList.toList_settle, SegmentList.toList_held, Gap.filled,
    totalLength_append] at outside incoming ⊢
  omega

/-- The cursor of a splice stands behind what was put in. -/
theorem position_splice {b r b' : Buffer} {start stop : Nat} {c : Cursor}
    (done : b.splice start stop r = .ok (b', c)) : c.position = start + r.length := by
  obtain ⟨rfl, rfl⟩ := eq_of_splice done
  rfl

end Buffer
end SegmentedText
