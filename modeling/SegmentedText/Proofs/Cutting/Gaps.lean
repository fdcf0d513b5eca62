import SegmentedText.Proofs.Flat.Splices
import SegmentedText.Proofs.Lists.Thinning

/-!
# What a splice takes out

A segment that begins at some position reaches into a range if it ends behind the start of the
range and begins before its end (`Segment.Meets`).  The gap of a range is made of exactly the
segments that reach into it: each of them is covered by the range, or cut where the range
starts or stops (`Gap.meets_of_between`).  All others stay in the list as they are.

The main statement tells a splice as a whole: which cells are shown, which segments are there,
and where the cursor stands (`Buffer.splice_exchanges`).  It asks nothing of the segments: they may
share arrays with each other and with those of the replacement, and any of them may show
nothing.  What it does ask for is a place to put segments.  A buffer without a list, and with a
layout that asks for more places in one than there can be, is given nothing
(`Buffer.splice_not_held`).
-/

set_option autoImplicit false

namespace SegmentedText

/-! ## Segments and ranges -/

namespace Segment

/-- The range covers the segment that begins at a position. -/
def CoveredBy (s : Segment) (position start stop : Nat) : Prop :=
  start ≤ position ∧ position + s.length ≤ stop

/-- The segment that begins at a position has units on both sides of a place. -/
def CutAt (s : Segment) (position place : Nat) : Prop :=
  position < place ∧ place < position + s.length

/-- The segment that begins at a position ends behind the start of the range and begins before its
end. -/
def Meets (s : Segment) (position start stop : Nat) : Prop :=
  position < stop ∧ start < position + s.length

/-- A segment that reaches into a range is covered by it or cut by one of its ends. -/
theorem Meets.covered_or_cut {s : Segment} {position start stop : Nat}
    (meets : s.Meets position start stop) :
    s.CoveredBy position start stop ∨ s.CutAt position start ∨ s.CutAt position stop := by
  obtain ⟨begins, ends⟩ := meets
  by_cases front : position < start
  · exact .inr (.inl ⟨front, ends⟩)
  · by_cases back : stop < position + s.length
    · exact .inr (.inr ⟨begins, back⟩)
    · exact .inl ⟨Nat.le_of_not_lt front, Nat.le_of_not_lt back⟩

end Segment

/-! ## Segments in a gap -/

theorem totalLength_take_mono (segments : List Segment) {i j : Nat} (le : i ≤ j) :
    totalLength (segments.take i) ≤ totalLength (segments.take j) := by
  have more : segments.take j = segments.take i ++ (segments.drop i).take (j - i) := by
    rw [← List.take_add, Nat.add_sub_cancel' le]
  rw [more, totalLength_append]
  exact Nat.le_add_right _ _

theorem totalLength_take_succ {segments : List Segment} {i : Nat} {s : Segment}
    (here : segments[i]? = some s) :
    totalLength (segments.take (i + 1)) = totalLength (segments.take i) + s.length := by
  rw [List.take_add_one, here, totalLength_append]
  rfl

namespace Gap

variable {segments : List Segment} {start stop : Nat}

/-- Every segment of the gap reaches into the range. -/
theorem meets_of_between (ordered : start ≤ stop) (inside : stop ≤ totalLength segments) {i : Nat}
    {s : Segment} (here : segments[i]? = some s)
    (first : (ofRange segments start stop).before ≤ i)
    (last : i < (ofRange segments start stop).past) :
    s.Meets (totalLength (segments.take i)) start stop := by
  rw [ofRange] at first last
  dsimp only at first last
  by_cases between : ((Cursor.locate segments start).isEnd segments ||
      (start == stop && (Cursor.locate segments start).offset == 0)) = true
  -- Nothing lies in a gap between two segments.
  · rw [if_pos between] at first last
    exact absurd last (Nat.not_lt_of_le first)
  · rw [if_neg between] at first last
    have within : (Cursor.locate segments start).isEnd segments = false := by
      simp only [Bool.or_eq_true, not_or, Bool.not_eq_true] at between
      exact between.1
    obtain ⟨t, there, offset_lt, place⟩ := Cursor.locate_inside (lt_of_locate within)
    have opened := totalLength_take_succ there
    have later := totalLength_take_succ here
    by_cases same : start = stop
    · rw [if_pos same] at first last
      obtain rfl : (Cursor.locate segments start).segment = i :=
        Nat.le_antisymm first (Nat.le_of_lt_succ last)
      obtain rfl : t = s := Option.some.inj (there.symm.trans here)
      have offset_pos : 0 < (Cursor.locate segments start).offset := by
        refine Nat.pos_of_ne_zero fun none => between ?_
        rw [Bool.or_eq_true, Bool.and_eq_true]
        exact .inr ⟨beq_iff_eq.2 same, beq_iff_eq.2 none⟩
      exact ⟨by omega, by omega⟩
    · rw [if_neg same] at first last
      dsimp only at first last
      obtain ⟨u, beyond, last_lt, last_place⟩ :=
        Cursor.locate_inside (show stop - 1 < totalLength segments by omega)
      have begins := totalLength_take_mono segments (Nat.le_of_lt_succ last)
      have ends : totalLength (segments.take ((Cursor.locate segments start).segment + 1)) ≤
          totalLength (segments.take (i + 1)) :=
        totalLength_take_mono segments (Nat.succ_le_succ first)
      exact ⟨by omega, by omega⟩

end Gap

/-! ## Gaps behind other segments -/

/-- A position behind some segments is located as if they were not there. -/
theorem Cursor.locate_append (front back : List Segment) (position : Nat) :
    locate (front ++ back) (totalLength front + position) =
      ⟨front.length + (locate back position).segment, (locate back position).offset,
        totalLength front + position⟩ := by
  simp only [locate, normalized, List.drop_zero, Nat.zero_add, carry_append]

namespace Gap

/-- The gap with other segments before all. -/
def shifted (gap : Gap) (count : Nat) : Gap :=
  { gap with before := count + gap.before, past := count + gap.past }

theorem getElem?_behind (front back : List Segment) (i : Nat) :
    (front ++ back)[front.length + i]? = back[i]? := by
  rw [List.getElem?_append_right (Nat.le_add_right _ _), Nat.add_sub_cancel_left]

theorem frontOf_append (front back : List Segment) (i offset position position' : Nat) :
    frontOf (front ++ back) ⟨front.length + i, offset, position⟩ =
      frontOf back ⟨i, offset, position'⟩ := by
  rw [frontOf, frontOf, getElem?_behind]

theorem backOf_append (front back : List Segment) (i start : Nat) :
    backOf (front ++ back) (front.length + i) start = backOf back i start := by
  rw [backOf, backOf, getElem?_behind]

theorem ofRange_append (front back : List Segment) {start stop : Nat} (ordered : start ≤ stop) :
    ofRange (front ++ back) (totalLength front + start) (totalLength front + stop) =
      (ofRange back start stop).shifted front.length := by
  have not_end : (Cursor.locate (front ++ back) (totalLength front + start)).isEnd (front ++ back) =
      (Cursor.locate back start).isEnd back := by
    simp [Cursor.isEnd, Cursor.locate_append]
  have same : (totalLength front + start == totalLength front + stop) = (start == stop) := by
    simp
  unfold ofRange
  dsimp only
  rw [not_end, same, Cursor.locate_append]
  dsimp only
  split
  next => rfl
  next =>
    rw [frontOf_append front back _ _ _ start, backOf_append]
    by_cases one : start = stop
    · rw [if_pos one, if_pos (by omega)]
      rfl
    · have last : totalLength front + stop - 1 = totalLength front + (stop - 1) := by omega
      rw [if_neg one, if_neg (by omega), last, Cursor.locate_append, backOf_append]
      rfl

theorem filled_shifted (gap : Gap) (front back incoming : List Segment) :
    (gap.shifted front.length).filled (front ++ back) incoming =
      front ++ gap.filled back incoming := by
  simp [filled, shifted, List.take_length_add_append, List.drop_length_add_append]

end Gap

/-! ## Splices as a whole -/

/-- The place of a segment in the middle of three parts of a list. -/
theorem getElem?_between {segments before gone behind front back : List Segment} {s : Segment}
    (parted : segments = before ++ gone ++ behind) (within : gone = front ++ s :: back) :
    segments[(before ++ front).length]? = some s ∧
      segments.take (before ++ front).length = before ++ front := by
  have around : segments = (before ++ front) ++ s :: (back ++ behind) := by
    simp [parted, within]
  rw [around]
  exact ⟨getElem?_front, take_front⟩

namespace Buffer

variable {b r : Buffer} {start stop : Nat}

/-- A buffer that can hold no segments is spliced at no range. -/
theorem splice_not_held (ordered : start ≤ stop) (inside : stop ≤ b.length)
    (refused : b.canHold = false) : b.splice start stop r = .error .roomExceeded := by
  rw [splice, if_neg (not_not_intro ⟨ordered, inside⟩), refused]
  rfl

/-- What lies before a range is no part of its splice. -/
theorem segments_splice_behind {b' : Buffer} {c : Cursor} {kept rest : List Segment}
    (done : b.splice start stop r = .ok (b', c)) (parted : b.segments = kept ++ rest)
    (le : totalLength kept ≤ start) :
    b'.segments = kept ++ (Gap.ofRange rest (start - totalLength kept)
      (stop - totalLength kept)).filled rest (r.segments.filter (!·.isEmpty)) := by
  have ordered := (le_of_splice done).1
  obtain ⟨rfl, -⟩ := eq_of_splice done
  have shifted := Gap.ofRange_append kept rest (Nat.sub_le_sub_right ordered (totalLength kept))
  rw [Nat.add_sub_cancel' le, Nat.add_sub_cancel' (Nat.le_trans le ordered)] at shifted
  rw [segments, SegmentList.toList_settle, SegmentList.toList_held, parted, shifted,
    Gap.filled_shifted]

/-- **A splice exchanges the cells of its range, and nothing else.** The segments that the range
neither covers nor cuts stay as they are, on both sides of what is put in; nothing that is put in
is without units; and the cursor stands behind the replacement. -/
theorem splice_exchanges (b r : Buffer) {start stop : Nat} (ordered : start ≤ stop)
    (inside : stop ≤ b.length) :
    (b.canHold = true → ∃ b' c, b.splice start stop r = .ok (b', c) ∧
      b'.cells = b.cells.take start ++ r.cells ++ b.cells.drop stop ∧
      (∃ before gone behind put, b.segments = before ++ gone ++ behind ∧
        b'.segments = before ++ put ++ behind ∧
        (∀ front s back, gone = front ++ s :: back →
          let position := totalLength (before ++ front)
          s.CoveredBy position start stop ∨ s.CutAt position start ∨ s.CutAt position stop) ∧
        (∀ s ∈ put, s.isEmpty = false) ∧
        ∃ head tail, put = head ++ r.segments.filter (!·.isEmpty) ++ tail) ∧
      c = Cursor.locate b'.segments (start + r.length)) ∧
    (b.canHold = false → b.splice start stop r = .error .roomExceeded) := by
  refine ⟨fun held => ?_, splice_not_held ordered inside⟩
  obtain ⟨⟨b', c⟩, done⟩ := splice_of_inside (r := r) held ⟨ordered, inside⟩
  refine ⟨b', c, done, cells_splice done, ?_, cursor_splice done⟩
  obtain ⟨rfl, -⟩ := eq_of_splice done
  have le := Gap.before_le_past b.segments ordered
  obtain ⟨front, back⟩ := hollowOf_ends b.segments start stop
  have meets := fun {i s} => Gap.meets_of_between ordered inside (i := i) (s := s)
  generalize Gap.ofRange b.segments start stop = gap at le front back meets
  have before_gap : (b.segments.take gap.past).take gap.before = b.segments.take gap.before := by
    rw [List.take_take, Nat.min_eq_left le]
  have parted : b.segments = b.segments.take gap.before ++
      (b.segments.take gap.past).drop gap.before ++ b.segments.drop gap.past := by
    rw [← before_gap, List.take_append_drop, List.take_append_drop]
  refine ⟨b.segments.take gap.before, (b.segments.take gap.past).drop gap.before,
    b.segments.drop gap.past, _, parted, SegmentList.toList_settle _, ?_, ?_, gap.front, gap.back,
    rfl⟩
  · intro initial s final gone
    have count := congrArg List.length gone
    rw [List.length_drop, List.length_take, List.length_append, List.length_cons] at count
    have place : (b.segments.take gap.before ++ initial).length = gap.before + initial.length := by
      rw [List.length_append, List.length_take, Nat.min_eq_left (by omega)]
    obtain ⟨here, shown⟩ := getElem?_between parted gone
    have within := meets here (by omega) (by omega)
    rw [shown] at within
    exact within.covered_or_cut
  · intro s here
    have none : hollowOf (gap.front ++ r.segments.filter (!·.isEmpty) ++ gap.back) = [] := by
      simp [front, back]
    exact Bool.eq_false_iff.2 fun empty => List.filter_eq_nil_iff.1 none s here empty

/-- A buffer with a hollow segment behind its only unit, and a replacement of two segments. -/
theorem splice_exchanges_behindHollow :
    let b : Buffer := { segmentList := .held [⟨⟨0⟩, 0, 1, 1⟩, ⟨⟨1⟩, 0, 0, 4⟩] }
    let r : Buffer := { segmentList := .held [⟨⟨0⟩, 0, 1, 1⟩, ⟨⟨2⟩, 3, 5, 5⟩] }
    1 ≤ 1 ∧ 1 ≤ b.length ∧ ∃ b' c, b.splice 1 1 r = .ok (b', c) ∧
      b'.cells = b.cells.take 1 ++ r.cells ++ b.cells.drop 1 ∧
        c = Cursor.locate b'.segments (1 + r.length) := by
  intro b r
  have inside : 1 ≤ b.length := by decide
  obtain ⟨b', c, done, cells, -, stands⟩ :=
    (splice_exchanges b r (Nat.le_refl 1) inside).1 rfl
  exact ⟨Nat.le_refl 1, inside, b', c, done, cells, stands⟩

/-- There are buffers without a list that no list can be made for; nothing can be put into
them. -/
theorem splice_roomless :
    ¬∀ (b r : Buffer) (start stop : Nat), start ≤ stop → stop ≤ b.length →
      ∃ b' c, b.splice start stop r = .ok (b', c) ∧
        b'.cells = b.cells.take start ++ r.cells ++ b.cells.drop stop := by
  intro all
  have refused : (ofLayout { slotIncrement := 4611686018427387904 }).splice 0 0
      { segmentList := .held [⟨⟨0⟩, 0, 1, 1⟩] } = .error .roomExceeded := by decide
  obtain ⟨b', c, done, -⟩ := all (ofLayout { slotIncrement := 4611686018427387904 })
    { segmentList := .held [⟨⟨0⟩, 0, 1, 1⟩] } 0 0 (Nat.le_refl 0) (Nat.zero_le _)
  cases refused.symm.trans done

end Buffer

end SegmentedText
