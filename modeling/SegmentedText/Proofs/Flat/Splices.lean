import SegmentedText.Buffer.Cut
import SegmentedText.Buffer.Splice
import SegmentedText.Proofs.Flat.Cursors

/-!
# Cutting and splicing flat text

A part of a buffer shows the cells of its range (`Buffer.cells_part`).  A splice takes
the cells of its range out and puts those of the replacement in their place; all
others stay, in their order (`Buffer.cells_splice`), and the cursor that comes back is
the one located behind what was put in (`Buffer.cursor_splice`).
-/

set_option autoImplicit false

namespace SegmentedText

/-! ## Cells up to a place in a segment, and from there on -/

section

variable {front back : List Segment} {s : Segment} {offset : Nat}

theorem take_cellsOf (inside : offset ≤ s.length) :
    (cellsOf (front ++ s :: back)).take (totalLength front + offset) =
      cellsOf front ++ s.cells.take offset := by
  rw [cellsOf_append, cellsOf_cons, ← length_cellsOf, List.take_length_add_append,
    List.take_append_of_le_length (by rw [Segment.length_cells]; exact inside)]

theorem drop_cellsOf (inside : offset ≤ s.length) :
    (cellsOf (front ++ s :: back)).drop (totalLength front + offset) =
      s.cells.drop offset ++ cellsOf back := by
  rw [cellsOf_append, cellsOf_cons, ← length_cellsOf, List.drop_length_add_append,
    List.drop_append_of_le_length (by rw [Segment.length_cells]; exact inside)]

theorem take_front : (front ++ s :: back).take front.length = front := List.take_left' rfl

theorem drop_front : (front ++ s :: back).drop (front.length + 1) = back := by
  rw [← List.drop_drop, List.drop_left' rfl]
  rfl

theorem getElem?_front : (front ++ s :: back)[front.length]? = some s := by simp

end

/-- Of two places in a list, the earlier one is in the front part of the later one. -/
theorem front_of_lt {front back front' back' : List Segment} {s s' : Segment}
    (same : front ++ s :: back = front' ++ s' :: back') (less : front.length < front'.length) :
    ∃ between, front' = front ++ s :: between := by
  have shown : front' = (front ++ s :: back).take front'.length := by rw [same, take_front]
  obtain ⟨more, longer⟩ : ∃ more, front'.length = front.length + (more + 1) :=
    ⟨front'.length - front.length - 1, by omega⟩
  rw [longer, List.take_length_add_append, List.take_succ_cons] at shown
  exact ⟨_, shown⟩

theorem front_of_eq {front back front' back' : List Segment} {s s' : Segment}
    (same : front ++ s :: back = front' ++ s' :: back') (eq : front.length = front'.length) :
    front = front' ∧ s = s' ∧ back = back' := by
  obtain ⟨fronts, rests⟩ := List.append_inj same eq
  obtain ⟨heads, tails⟩ := List.cons.inj rests
  exact ⟨fronts, heads, tails⟩

/-- What lies before and behind something that has been put into a list. -/
theorem beside_inserted {β : Type} {whole whole' value : List β} {start stop : Nat}
    (inside : start ≤ whole.length)
    (shown : whole' = whole.take start ++ value ++ whole.drop stop) :
    whole'.take (start + value.length) = whole.take start ++ value ∧
      whole'.drop (start + value.length) = whole.drop stop := by
  have width : (whole.take start ++ value).length = start + value.length := by
    rw [List.length_append, List.length_take, Nat.min_eq_left inside]
  rw [shown, ← width]
  exact ⟨List.take_left' rfl, List.drop_left' rfl⟩

namespace Buffer

/-! ## Parts -/

theorem cellsOf_filter (segments : List Segment) :
    cellsOf (segments.filter (!·.isEmpty)) = cellsOf segments := flatMap_cells_filter segments

theorem cellsOf_shared (segments : List Segment) :
    cellsOf (segments.map Segment.shared) = cellsOf segments := by
  simp only [cellsOf, List.flatMap_map]
  rfl

/-- A part shows the cells of its range. -/
theorem cells_part (b : Buffer) {start stop : Nat} (inside : stop ≤ b.length) :
    (b.part start stop).cells = (b.cells.take stop).drop start := by
  unfold part
  by_cases reversed : stop ≤ start
  · rw [if_pos reversed, List.drop_eq_nil_of_le (by rw [List.length_take]; omega)]
    rfl
  · rw [if_neg reversed]
    have total : b.length = totalLength b.segments := rfl
    obtain ⟨front, s, back, first, parted, first_lt, begins, located⟩ :=
      Cursor.locate_eq (show start < totalLength b.segments by omega)
    obtain ⟨front', s', back', last, parted', last_lt, ends, located'⟩ :=
      Cursor.locate_eq (show stop - 1 < totalLength b.segments by omega)
    have same : front ++ s :: back = front' ++ s' :: back' := parted.symm.trans parted'
    have range : (b.cells.take stop).drop start =
        (cellsOf front' ++ s'.cells.take (last + 1)).drop (totalLength front + first) := by
      rw [← begins, cells_eq, parted', show stop = totalLength front' + (last + 1) by omega,
        take_cellsOf last_lt]
    have here : b.segments[front.length]? = some s := parted ▸ getElem?_front
    have there : b.segments[front'.length]? = some s' := parted' ▸ getElem?_front
    simp only [located, located', here, there, range]
    split
    next one =>
      obtain ⟨rfl, rfl, rfl⟩ := front_of_eq same one
      rw [← length_cellsOf, List.drop_length_add_append]
      show (s.window first (last + 1)).cells ++ [] = _
      rw [List.append_nil, Segment.cells_window last_lt]
    next several =>
      have ordered : front.length < front'.length := by
        rcases Cursor.locate_mono b.segments (show start ≤ stop - 1 by omega) with less | ⟨eq, -⟩
        · rwa [located, located'] at less
        · rw [located, located'] at eq
          exact absurd eq several
      obtain ⟨between, rfl⟩ := front_of_lt same ordered
      have shown : ((front ++ s :: between ++ s' :: back').take
          (front ++ s :: between).length).drop (front.length + 1) = between := by
        rw [take_front, ← List.drop_drop, List.drop_left' rfl]
        rfl
      rw [← parted'] at shown
      have asked : (cellsOf (front ++ s :: between) ++ s'.cells.take (last + 1)).drop
          (totalLength front + first) =
          s.cells.drop first ++ cellsOf between ++ s'.cells.take (last + 1) := by
        have room : totalLength front + first ≤ (cellsOf (front ++ s :: between)).length := by
          rw [length_cellsOf, totalLength_append, totalLength_cons]
          omega
        rw [List.drop_append_of_le_length room, drop_cellsOf (Nat.le_of_lt first_lt)]
      have whole : s.cells.take s.length = s.cells := by
        rw [← Segment.length_cells, List.take_length]
      rw [shown, asked]
      show cellsOf ([s.window first s.length] ++ (between.map Segment.shared).filter
        (!·.isEmpty) ++ [s'.window 0 (last + 1)]) = _
      rw [cellsOf_append, cellsOf_append, cellsOf_filter, cellsOf_shared, cellsOf_cons, cellsOf_nil,
        cellsOf_cons, cellsOf_nil, Segment.cells_window (Nat.le_refl _),
        Segment.cells_window last_lt, whole, List.append_nil, List.append_nil, List.drop_zero]

/-- A part of a range that lies within the buffer can be had. -/
theorem cells_substring {b part : Buffer} {start stop : Nat} (ordered : start ≤ stop)
    (done : b.substring start stop = .ok part) : part.cells = (b.cells.take stop).drop start := by
  unfold substring at done
  split at done
  next => cases done
  next inside =>
    cases done
    by_cases proper : start < stop
    · exact cells_part b (by omega)
    · have empty : start = stop := by omega
      subst empty
      rw [part, if_pos (Nat.le_refl _), List.drop_eq_nil_of_le (by rw [List.length_take]; omega)]
      rfl

/-! ## Splices -/

theorem cells_frontOf {segments : List Segment} {c : Cursor} {s : Segment}
    (here : segments[c.segment]? = some s) (inside : c.offset ≤ s.length) :
    cellsOf (Gap.frontOf segments c) = s.cells.take c.offset := by
  rw [Gap.frontOf, here]
  dsimp only
  split
  next =>
    rw [cellsOf_cons, cellsOf_nil, List.append_nil, Segment.cells_window inside, List.drop_zero]
  next none =>
    rw [show c.offset = 0 by omega]
    rfl

theorem cells_backOf {segments : List Segment} {i start : Nat} {s : Segment}
    (here : segments[i]? = some s) : cellsOf (Gap.backOf segments i start) = s.cells.drop start := by
  rw [Gap.backOf, here]
  dsimp only
  split
  next =>
    rw [cellsOf_cons, cellsOf_nil, List.append_nil, Segment.cells_window (Nat.le_refl _),
      ← Segment.length_cells, List.take_length]
  next none =>
    rw [List.drop_eq_nil_of_le (by rw [Segment.length_cells]; omega)]
    rfl

/-- Before the gap lie the cells before the range, and behind it the cells behind the range. -/
theorem cells_beside_gap {segments : List Segment} {start stop : Nat} (ordered : start ≤ stop)
    (inside : stop ≤ totalLength segments) :
    cellsOf (segments.take (Gap.ofRange segments start stop).before ++
      (Gap.ofRange segments start stop).front) = (cellsOf segments).take start ∧
    cellsOf ((Gap.ofRange segments start stop).back ++
      segments.drop (Gap.ofRange segments start stop).past) = (cellsOf segments).drop stop := by
  have all : (cellsOf segments).length = totalLength segments := length_cellsOf segments
  by_cases within : start < totalLength segments
  · obtain ⟨front, s, back, first, parted, first_lt, begins, located⟩ := Cursor.locate_eq within
    have here : segments[front.length]? = some s := parted ▸ getElem?_front
    have not_end : (Cursor.locate segments start).isEnd segments = false := by
      rw [located, parted]
      simp [Cursor.isEnd]
    have before : (cellsOf segments).take start = cellsOf front ++ s.cells.take first := by
      rw [parted, begins, take_cellsOf (Nat.le_of_lt first_lt)]
    unfold Gap.ofRange
    dsimp only
    rw [not_end, located, Bool.false_or]
    dsimp only
    split
    next between =>
      obtain ⟨same, none⟩ : start = stop ∧ first = 0 := by simpa using between
      subst same
      subst none
      rw [before, parted, take_front, begins, drop_cellsOf (Nat.zero_le _), List.drop_left' rfl]
      simp
    next =>
      have front_cells : cellsOf (segments.take front.length ++
          Gap.frontOf segments ⟨front.length, first, start⟩) =
          (cellsOf segments).take start := by
        rw [cellsOf_append, cells_frontOf here (Nat.le_of_lt first_lt), before, parted, take_front]
      split
      next same =>
        subst same
        refine ⟨front_cells, ?_⟩
        rw [cellsOf_append, cells_backOf here, parted, begins, drop_cellsOf (Nat.le_of_lt first_lt),
          drop_front]
      next less =>
        obtain ⟨front', s', back', last, parted', last_lt, ends, located'⟩ :=
          Cursor.locate_eq (show stop - 1 < totalLength segments by omega)
        have there : segments[front'.length]? = some s' := parted' ▸ getElem?_front
        refine ⟨front_cells, ?_⟩
        rw [located']
        dsimp only
        rw [cellsOf_append, cells_backOf there, parted',
          show stop = totalLength front' + (last + 1) by omega, drop_cellsOf last_lt, drop_front]
  · have behind : totalLength segments ≤ start := Nat.le_of_not_lt within
    have at_end : (Cursor.locate segments start).isEnd segments = true := by
      rw [Cursor.locate_of_le behind]
      simp [Cursor.isEnd]
    unfold Gap.ofRange
    dsimp only
    rw [at_end, Bool.true_or, if_pos rfl, Cursor.locate_of_le behind]
    dsimp only
    rw [List.take_length, List.drop_length, List.take_of_length_le (by omega),
      List.drop_eq_nil_of_le (by omega)]
    simp

/-- What is kept before the gap ends where the range starts. -/
theorem totalLength_before_gap {segments : List Segment} {start stop : Nat} (ordered : start ≤ stop)
    (inside : stop ≤ totalLength segments) :
    totalLength (segments.take (Gap.ofRange segments start stop).before ++
      (Gap.ofRange segments start stop).front) = start := by
  have before := congrArg List.length (cells_beside_gap ordered inside).1
  rwa [length_cellsOf, List.length_take, length_cellsOf,
    Nat.min_eq_left (Nat.le_trans ordered inside)] at before

theorem before_le_length (segments : List Segment) (start stop : Nat) :
    (Gap.ofRange segments start stop).before ≤ segments.length := by
  have located : (Cursor.locate segments start).segment ≤ segments.length := by
    simp only [Cursor.locate, Cursor.normalized, List.drop_zero, Nat.zero_add]
    exact Cursor.carry_le_length segments start
  unfold Gap.ofRange
  dsimp only
  split
  next => exact located
  next => split <;> exact located

/-- A splice exchanges the cells of its range for those of the replacement. -/
theorem cells_splice {b r b' : Buffer} {start stop : Nat} {c : Cursor}
    (done : b.splice start stop r = .ok (b', c)) :
    b'.cells = b.cells.take start ++ r.cells ++ b.cells.drop stop := by
  obtain ⟨ordered, inside⟩ := le_of_splice done
  obtain ⟨rfl, -⟩ := eq_of_splice done
  obtain ⟨before, behind⟩ := cells_beside_gap ordered inside
  rw [cellsOf_append] at before behind
  simp only [cells_eq, segments, SegmentList.toList_settle, SegmentList.toList_held, Gap.filled,
    cellsOf_append, cellsOf_filter] at before behind ⊢
  rw [← before, ← behind]
  simp only [List.append_assoc]

/-- The cursor that a splice returns is located behind what was put in. -/
theorem cursor_splice {b r b' : Buffer} {start stop : Nat} {c : Cursor}
    (done : b.splice start stop r = .ok (b', c)) :
    c = Cursor.locate b'.segments (start + r.length) := by
  obtain ⟨ordered, inside⟩ := le_of_splice done
  obtain ⟨rfl, rfl⟩ := eq_of_splice done
  have before := totalLength_before_gap ordered inside
  have le := before_le_length b.segments start stop
  generalize Gap.ofRange b.segments start stop = gap at before le ⊢
  generalize incoming_eq : r.segments.filter (!·.isEmpty) = incoming
  have incoming_total : totalLength incoming = r.length :=
    incoming_eq ▸ totalLength_filter r.segments
  have shown : ({ b with
      segmentList := (SegmentList.held (gap.filled b.segments incoming)).settle } : Buffer).segments =
      gap.filled b.segments incoming := SegmentList.toList_settle _
  rw [shown]
  have parted : gap.filled b.segments incoming = (b.segments.take gap.before ++ gap.front ++
      incoming) ++ (gap.back ++ b.segments.drop gap.past) := by
    simp only [Gap.filled, List.append_assoc]
  have count : (b.segments.take gap.before ++ gap.front ++ incoming).length =
      gap.before + gap.front.length + incoming.length := by
    rw [List.length_append, List.length_append, List.length_take, Nat.min_eq_left le]
  have total : totalLength (b.segments.take gap.before ++ gap.front ++ incoming) =
      start + r.length := by
    rw [totalLength_append, before, incoming_total]
  have reaches : gap.before + gap.front.length + incoming.length ≤
      (gap.filled b.segments incoming).length := by
    rw [parted, List.length_append, count]
    exact Nat.le_add_right _ _
  have located := Cursor.normalized_eq_locate reaches 0
  rw [← count, parted, List.take_left' rfl, total, count] at located
  rw [parted]
  exact located

/-! ## Units of a part and of a splice -/

section

variable {α : Type} {st : Store α} {b b' inner r : Buffer}

theorem content_substring {start stop : Nat} (valid : b.Valid st) (part : inner.Valid st)
    (ordered : start ≤ stop) (cut : b.substring start stop = .ok inner) :
    inner.content st = ((b.content st).take stop).drop start :=
  part.content_eq (cells_substring ordered cut) ((valid.reads.take stop).drop start)

theorem content_splice {start stop : Nat} {c : Cursor} (valid : b.Valid st)
    (incoming : r.Valid st) (spliced : b'.Valid st)
    (done : b.splice start stop r = .ok (b', c)) :
    b'.content st = (b.content st).take start ++ r.content st ++ (b.content st).drop stop :=
  spliced.content_eq (cells_splice done)
    (((valid.reads.take start).append incoming.reads).append (valid.reads.drop stop))

end

/-! ## What is never refused -/

section

variable {b : Buffer}

/-- A range that lies within the buffer can be cut out. -/
theorem substring_ne_error {start stop : Nat} (inside : stop ≤ b.length) {fault : Fault} :
    b.substring start stop ≠ .error fault := by
  unfold substring
  rw [if_neg (by omega)]
  exact fun refused => nomatch refused

/-- A splice is refused for its range, or for want of room for a list. -/
theorem refused_splice {start stop : Nat} {r : Buffer} {fault : Fault}
    (refused : b.splice start stop r = .error fault) :
    (∃ length, fault = .replaceRange start stop length) ∨ fault = .roomExceeded := by
  unfold splice at refused
  split at refused
  next => exact .inl ⟨_, (Except.error.inj refused).symm⟩
  next =>
    split at refused
    next => exact .inr (Except.error.inj refused).symm
    next => cases refused

theorem splice_of_outside {start stop : Nat} {r : Buffer}
    (outside : ¬(start ≤ stop ∧ stop ≤ b.length)) :
    b.splice start stop r = .error (.replaceRange start stop b.length) := if_pos outside

/-- A range that lies within the buffer is exchanged wherever there can be a list of segments. -/
theorem splice_of_inside {start stop : Nat} {r : Buffer} (held : b.canHold = true)
    (inside : start ≤ stop ∧ stop ≤ b.length) : ∃ spliced, b.splice start stop r = .ok spliced := by
  unfold splice
  rw [if_neg (not_not_intro inside), held]
  exact ⟨_, rfl⟩

/-- A buffer that shows something has a list of segments to put others in. -/
theorem splice_ne_error {start stop : Nat} {r : Buffer} (ordered : start ≤ stop)
    (inside : stop ≤ b.length) (shows : 0 < b.length) {fault : Fault} :
    b.splice start stop r ≠ .error fault := by
  have held : b.canHold = true := by
    unfold canHold hasNoSegments
    split
    next vacant =>
      have none : b.length = 0 := by simp [length, segments, vacant]
      omega
    next => rfl
  obtain ⟨spliced, done⟩ := splice_of_inside (r := r) held ⟨ordered, inside⟩
  rw [done]
  rintro ⟨⟩

end

end Buffer
end SegmentedText
