import SegmentedText.Proofs.Lists.Foundings
import SegmentedText.Proofs.Lists.Traces

/-!
# Parts

A part of a buffer or a segment shows the cells of its range and copies none of them
(`Buffer.Parted.range`).  The ends of a range may lie anywhere: inside segments, between them, or
beside segments that show nothing.  Whatever they are, every segment of the part shows something
and none has room.

So cutting can be undone and repeated.  The two parts at any place show all cells between them
(`Buffer.Parted.joined`), and a part of a part is a part (`Buffer.Parted.nested`).  Putting a buffer
together again needs a list of segments for the front, even where the front is cut off before the
first unit; that there can be one is known of every buffer that has been reached
(`World.Reached.founded`).
-/

set_option autoImplicit false

namespace SegmentedText

/-! ## Ranges of ranges -/

/-- A range within a range, counted from the start of the outer one. -/
theorem range_range {β : Type} (units : List β) {start stop first last : Nat}
    (ordered : first ≤ last) (within : last ≤ stop - start) :
    (((units.take stop).drop start).take last).drop first =
      (units.take (start + last)).drop (start + first) := by
  by_cases proper : start ≤ stop
  · rw [List.take_drop, List.drop_drop, List.take_take, Nat.min_eq_left (by omega)]
  · obtain rfl : last = 0 := by omega
    obtain rfl : first = 0 := by omega
    rw [List.take_zero, List.drop_nil, List.drop_eq_nil_of_le]
    rw [List.length_take]
    omega

/-- What lies before a place and what lies from there on. -/
theorem range_append_range {β : Type} (units : List β) (p : Nat) :
    (units.take p).drop 0 ++ (units.take units.length).drop p = units := by
  rw [List.drop_zero, List.take_length, List.take_append_drop]

/-! ## Parts of segments -/

namespace Segment

/-- What the parts of a segment show. -/
structure Parted {α : Type} [TextUnit α] (s : Segment) (st : Store α) : Prop where
  /-- A part shows the cells of its range and has no room, and nothing is stored for it. -/
  range : ∀ start stop, start < stop → stop ≤ s.length → ∃ part,
    s.substring start stop st = .ok (part, st) ∧ part.cells = (s.cells.take stop).drop start ∧
      0 < part.length ∧ part.spare = 0
  /-- The part of an empty or reversed range shows nothing, wherever the range lies. -/
  nothing : ∀ start stop, stop ≤ start → ∃ made,
    s.substring start stop st = .ok made ∧ made.1.cells = []
  /-- The two parts at any place show all cells between them. -/
  joined : ∀ p ≤ s.length, ∃ front back,
    s.substring 0 p st = .ok front ∧ s.substringFrom p front.2 = .ok back ∧
      front.1.cells ++ back.1.cells = s.cells
  /-- A part of a part is a part. -/
  nested : ∀ start stop first last, stop ≤ s.length → first ≤ last → last ≤ stop - start →
    ∃ part inner direct, s.substring start stop st = .ok part ∧
      part.1.substring first last part.2 = .ok inner ∧
      s.substring (start + first) (start + last) st = .ok direct ∧ inner.1.cells = direct.1.cells

variable {α : Type} [TextUnit α] {s : Segment}

/-- A range that does not end beyond the segment, or is empty, can be had. -/
theorem exists_substring (st : Store α) {start stop : Nat}
    (inside : stop ≤ s.length ∨ stop ≤ start) :
    ∃ made, s.substring start stop st = .ok made ∧
      made.1.cells = (s.cells.take stop).drop start := by
  unfold substring
  split
  next reversed =>
    refine ⟨_, rfl, ?_⟩
    rw [List.drop_eq_nil_of_le (by rw [List.length_take]; omega)]
    rfl
  next proper =>
    have within : stop ≤ s.length := by omega
    rw [if_neg (by omega)]
    exact ⟨_, rfl, cells_window within⟩

omit [TextUnit α] in
theorem length_of_cells {t : Segment} {start stop : Nat}
    (shown : t.cells = (s.cells.take stop).drop start) :
    t.length = min stop s.length - start := by
  rw [← length_cells t, shown, List.length_drop, List.length_take, length_cells]

theorem parted (s : Segment) (st : Store α) : s.Parted st where
  range start stop proper inside := by
    refine ⟨s.window start stop, ?_, cells_window inside, ?_, spare_window s start stop⟩
    · rw [substring, if_neg (by omega), if_neg (by omega)]
    · rw [length_window]
      omega
  nothing start stop reversed := by
    obtain ⟨made, cut, shown⟩ := s.exists_substring st (.inr reversed)
    refine ⟨made, cut, ?_⟩
    rw [shown, List.drop_eq_nil_of_le (by rw [List.length_take]; omega)]
  joined p inside := by
    have inner : p ≤ s.length ∨ p ≤ 0 := .inl inside
    have outer : s.length ≤ s.length ∨ s.length ≤ p := .inl (Nat.le_refl _)
    obtain ⟨front, cut, first⟩ := exists_substring st inner
    obtain ⟨back, rest, second⟩ := exists_substring front.2 outer
    refine ⟨front, back, cut, ?_, ?_⟩
    · rw [substringFrom, if_neg (by omega), rest]
    · rw [first, second, ← length_cells s, range_append_range]
  nested start stop first last inside ordered within := by
    have outer : stop ≤ s.length ∨ stop ≤ start := .inl inside
    obtain ⟨part, cut, shows⟩ := exists_substring st outer
    have counted := length_of_cells shows
    have inner : last ≤ part.1.length ∨ last ≤ first := by omega
    obtain ⟨piece, again, shown⟩ := exists_substring part.2 inner
    have whole : start + last ≤ s.length ∨ start + last ≤ start + first := by omega
    obtain ⟨direct, once, same⟩ := exists_substring st whole
    refine ⟨part, piece, direct, cut, again, once, ?_⟩
    rw [shown, shows, same, range_range _ ordered within]

end Segment

/-! ## Parts of buffers -/

namespace Buffer

/-- What the parts of a buffer show. -/
structure Parted (b : Buffer) : Prop where
  /-- A part shows the cells of its range, in segments that show something and have no room. -/
  range : ∀ start stop, start < stop → stop ≤ b.length → ∃ part,
    b.substring start stop = .ok part ∧ part.cells = (b.cells.take stop).drop start ∧
      ∀ s ∈ part.segments, 0 < s.length ∧ s.spare = 0
  /-- The part of an empty or reversed range has no segment, wherever the range lies. -/
  nothing : ∀ start stop, stop ≤ start → ∃ part,
    b.substring start stop = .ok part ∧ part.segments = []
  /-- The two parts at any place, one appended to the other, show all cells. -/
  joined : ∀ p ≤ b.length, ∃ front back whole,
    b.substring 0 p = .ok front ∧ b.substringFrom p = .ok back ∧
      front.appendBuffer back = .ok whole ∧ whole.cells = b.cells
  /-- A part of a part is a part. -/
  nested : ∀ start stop first last, stop ≤ b.length → first ≤ last → last ≤ stop - start →
    ∃ part inner direct, b.substring start stop = .ok part ∧
      part.substring first last = .ok inner ∧
      b.substring (start + first) (start + last) = .ok direct ∧ inner.cells = direct.cells

variable {b : Buffer} {start stop : Nat}

/-- A range that does not end beyond the buffer, or is empty, can be had. -/
theorem exists_substring (inside : stop ≤ b.length ∨ stop ≤ start) :
    b.substring start stop = .ok (b.part start stop) ∧
      (b.part start stop).cells = (b.cells.take stop).drop start := by
  refine ⟨if_neg (by omega), ?_⟩
  rcases inside with within | reversed
  · exact cells_part b within
  · rw [part, if_pos reversed, List.drop_eq_nil_of_le (by rw [List.length_take]; omega)]
    rfl

/-- No segment of a part has room. -/
theorem spare_part (b : Buffer) (start stop : Nat) :
    ∀ s ∈ (b.part start stop).segments, s.spare = 0 := by
  unfold part
  split
  next => exact nofun
  next =>
    dsimp only
    split
    next front back _ _ =>
      split
      next =>
        intro s here
        obtain rfl := List.mem_singleton.1 here
        exact Segment.spare_window ..
      next =>
        intro s here
        rcases List.mem_append.1 here with most | final
        · rcases List.mem_append.1 most with initial | between
          · obtain rfl := List.mem_singleton.1 initial
            exact Segment.spare_window ..
          · obtain ⟨t, -, rfl⟩ := List.mem_map.1 (List.mem_filter.1 between).1
            exact Segment.spare_shared t
        · obtain rfl := List.mem_singleton.1 final
          exact Segment.spare_window ..
    next => exact nofun

/-- Every segment of a part shows something. -/
theorem length_pos_of_mem_part (ordered : Ordered b.segments) {s : Segment}
    (here : s ∈ (b.part start stop).segments) : 0 < s.length := by
  obtain ⟨t, -, view⟩ := views_part ordered start stop s here
  exact (opened_part b start stop).length_pos here view.ordered

/-- The front of a buffer takes the rest of it in again. -/
theorem appendBuffer_part (founded : b.Founded) (p : Nat) :
    ∃ whole, (b.part 0 p).appendBuffer (b.part p b.length) = .ok whole := by
  rcases founded with vacant | there
  · rw [appendBuffer, segments_of_vacant (part_of_vacant vacant p b.length)]
    exact ⟨_, rfl⟩
  · rw [appendBuffer, appendSegments, taking_of_opensList ((layout_part 0 p).symm ▸ there)]
    exact ⟨_, rfl⟩

theorem parted (ordered : Ordered b.segments) (founded : b.Founded) : b.Parted where
  range start stop proper inside := by
    have within : stop ≤ b.length ∨ stop ≤ start := .inl inside
    obtain ⟨cut, shown⟩ := exists_substring within
    exact ⟨_, cut, shown, fun s here =>
      ⟨length_pos_of_mem_part ordered here, spare_part b start stop s here⟩⟩
  nothing start stop reversed := by
    refine ⟨_, (exists_substring (.inr reversed)).1, ?_⟩
    rw [part, if_pos reversed]
    rfl
  joined p inside := by
    have inner : p ≤ b.length ∨ p ≤ 0 := .inl inside
    have outer : b.length ≤ b.length ∨ b.length ≤ p := .inl (Nat.le_refl _)
    obtain ⟨cut, first⟩ := exists_substring inner
    obtain ⟨rest, second⟩ := exists_substring outer
    obtain ⟨whole, done⟩ := appendBuffer_part founded p
    refine ⟨_, _, whole, cut, ?_, done, ?_⟩
    · rw [substringFrom, if_neg (by omega), rest]
    · rw [cells_of_appendBuffer done, first, second, ← length_cells b, range_append_range]
  nested start stop first last inside ordered within := by
    have outer : stop ≤ b.length ∨ stop ≤ start := .inl inside
    obtain ⟨cut, shows⟩ := exists_substring outer
    have counted : (b.part start stop).length = min stop b.length - start := by
      rw [← length_cells, shows, List.length_drop, List.length_take, length_cells]
    have inner : last ≤ (b.part start stop).length ∨ last ≤ first := by omega
    obtain ⟨again, shown⟩ := exists_substring inner
    have whole : start + last ≤ b.length ∨ start + last ≤ start + first := by omega
    obtain ⟨once, same⟩ := exists_substring whole
    refine ⟨_, _, _, cut, again, once, ?_⟩
    rw [shown, shows, same, range_range _ ordered within]

end Buffer

/-! ## Reached worlds -/

namespace World

variable {α : Type} [TextUnit α] {barred : World α → Action α → Prop} {w : World α}

theorem Reached.founded (reached : Reached barred w) : w.Each Buffer.Founded :=
  reached.each (Buffer.lasting_founded α)

/-- **Every buffer and every segment that has been reached shows in its parts what it shows in
their ranges.**

The parts are cut as `Buffer.Parted` and `Segment.Parted` say, whatever the object is cut into and
whatever else shows its cells. -/
theorem parts_as_cut (reached : Reached barred w) {name : String} {o : Object}
    (there : w.get? name = some o) :
    (∀ b, o.buffer? = some b → b.Parted) ∧ ∀ s ∈ o.segments, s.Parted w.store := by
  refine ⟨fun b shown => ?_, fun s _ => s.parted w.store⟩
  have alive : b.segments ⊆ w.alive := fun s here =>
    subset_alive_of_get? there (segments_of_buffer? shown ▸ here)
  have hosts : w.store.Hosts w.alive := reached.sound
  exact Buffer.parted (Buffer.ordered_of_hosts hosts alive) (reached.founded name o there b shown)

/-- A buffer with a hollow segment between two others. -/
def hollowBetweenParts : World Char :=
  (((((({} : World Char).act (.step (.make "a" (.bufferWithCapacity 4)))).1.act
    (.step (.make "front" (.segmentOfUnits "ab")))).1.act
    (.step (.make "back" (.segmentOfUnits "cde")))).1.act
    (.step (.change "a" (.prependSegment "front" true)))).1.act
    (.step (.change "a" (.appendSegment "back" true)))).1

theorem reached_hollowBetweenParts : Reached (fun _ _ => False) hollowBetweenParts :=
  .act (.act (.act (.act (.act .start trivial id) trivial id) trivial id) trivial id) trivial id

theorem parts_as_cut_hollowBetweenParts :
    Reached (fun _ _ => False) hollowBetweenParts ∧
    ∃ b : Buffer, hollowBetweenParts.get? "a" = some (.buffer b) ∧
      b.segments = [⟨⟨1⟩, 0, 2, 2⟩, ⟨⟨0⟩, 0, 0, 4⟩, ⟨⟨2⟩, 0, 3, 3⟩] ∧
      (∃ part, b.substring 1 3 = .ok part ∧ part.cells = [⟨⟨1⟩, 1⟩, ⟨⟨2⟩, 0⟩] ∧
        ∀ s ∈ part.segments, 0 < s.length ∧ s.spare = 0) ∧
      (∃ front back whole, b.substring 0 0 = .ok front ∧ b.substringFrom 0 = .ok back ∧
        front.appendBuffer back = .ok whole ∧ whole.cells = b.cells) ∧
      (⟨⟨2⟩, 0, 3, 3⟩ : Segment).Parted hollowBetweenParts.store := by
  have there : hollowBetweenParts.get? "a" =
      some (.buffer ⟨.held [⟨⟨1⟩, 0, 2, 2⟩, ⟨⟨0⟩, 0, 0, 4⟩, ⟨⟨2⟩, 0, 3, 3⟩], {}⟩) := by decide
  obtain ⟨buffers, segments⟩ := parts_as_cut reached_hollowBetweenParts there
  have parted := buffers _ rfl
  exact ⟨reached_hollowBetweenParts, _, there, rfl, parted.range 1 3 (by decide) (by decide),
    parted.joined 0 (by decide), segments _ (by decide)⟩

end World
end SegmentedText
