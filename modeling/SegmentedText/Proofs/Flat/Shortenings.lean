import Mathlib.Data.List.DropRight
import SegmentedText.Buffer.Shorten
import SegmentedText.Proofs.Flat.Cells
import SegmentedText.Proofs.Ownership.Buffers

/-!
# Shortening on flat text

Removal by count takes so many cells away from one end of what a buffer shows, and it
does not matter where the segments are cut (`Buffer.cells_removeStart`,
`Buffer.cells_removeEnd`).  Trimming drops the white space at the ends of the text, however
many segments show it (`Buffer.content_trim`), and moving the segments of a buffer to
arrays of their own shows the same text (`Buffer.content_compact`).
-/

set_option autoImplicit false

namespace SegmentedText

@[simp] theorem totalLength_reverse (segments : List Segment) :
    totalLength segments.reverse = totalLength segments := by
  induction segments with
  | nil => rfl
  | cons s rest ih =>
      rw [List.reverse_cons, totalLength_append, ih, totalLength_cons, totalLength_cons,
        totalLength_nil, Nat.add_zero, Nat.add_comm]

/-! ## Removal by count -/

theorem cellsOf_dropUnits (segments : List Segment) (count : Nat) :
    cellsOf (dropUnits segments count) = (cellsOf segments).drop count := by
  induction segments generalizing count with
  | nil => rw [dropUnits, cellsOf_nil, List.drop_nil]
  | cons s rest ih =>
      rw [dropUnits, cellsOf_cons, List.drop_append, Segment.length_cells]
      split
      next inside =>
        rw [cellsOf_cons, Segment.cells_removeStart, Nat.sub_eq_zero_of_le (Nat.le_of_lt inside),
          List.drop_zero]
      next past =>
        have gone : s.cells.drop count = [] :=
          List.drop_eq_nil_of_le (by rw [Segment.length_cells]; omega)
        rw [ih, gone, List.nil_append]

theorem cellsOf_dropLastUnits (around : Surroundings) (segments : List Segment) (count : Nat) :
    cellsOf (dropLastUnits around segments count).reverse =
      (cellsOf segments.reverse).take (totalLength segments - count) := by
  induction segments generalizing count with
  | nil => rw [dropLastUnits, List.reverse_nil, cellsOf_nil, List.take_nil]
  | cons last front ih =>
      have total : (cellsOf front.reverse).length = totalLength front := by
        rw [length_cellsOf, totalLength_reverse]
      have parted : cellsOf (last :: front).reverse = cellsOf front.reverse ++ last.cells := by
        rw [List.reverse_cons, cellsOf_append, cellsOf_cons, cellsOf_nil, List.append_nil]
      rw [dropLastUnits, totalLength_cons]
      split
      next none =>
        refine (List.take_of_length_le ?_).symm
        rw [parted, List.length_append, total, Segment.length_cells, none]
        omega
      next some =>
        rw [parted, List.take_append, total]
        split
        next inside =>
          rw [List.reverse_cons, cellsOf_append, cellsOf_cons, cellsOf_nil, List.append_nil,
            Segment.cells_removeEnd, List.take_of_length_le (l := cellsOf front.reverse) (by omega),
            show last.length + totalLength front - count - totalLength front =
              last.length - count by omega]
        next past =>
          rw [ih, show totalLength front - (count - last.length) =
              last.length + totalLength front - count by omega,
            show last.length + totalLength front - count - totalLength front = 0 by omega,
            List.take_zero, List.append_nil]

namespace Buffer

theorem cells_removeStart (b : Buffer) (count : Nat) :
    (b.removeStart count).cells = b.cells.drop count := by
  rw [cells_eq, removeStart, segments_mapSegments fun _ => rfl, cellsOf_dropUnits, cells_eq]

theorem cells_removeEnd (b : Buffer) (around : Surroundings) (count : Nat) :
    (b.removeEnd around count).cells = b.cells.take (b.length - count) := by
  rw [cells_eq, removeEnd, segments_mapSegments fun _ => rfl, cellsOf_dropLastUnits,
    List.reverse_reverse, totalLength_reverse]
  rfl

theorem length_removeStart (b : Buffer) (count : Nat) :
    (b.removeStart count).length = b.length - count := by
  rw [← length_cells, cells_removeStart, List.length_drop, length_cells]

theorem length_removeEnd (b : Buffer) (around : Surroundings) (count : Nat) :
    (b.removeEnd around count).length = b.length - count := by
  rw [← length_cells, cells_removeEnd, List.length_take, length_cells]
  omega

end Buffer

/-! ## Trimming -/

section

variable {α : Type} [TextUnit α] {st : Store α}

theorem Segment.length_trimStart_le (s : Segment) : (s.trimStart st).length ≤ s.length := by
  simp only [trimStart, length]
  omega

theorem Segment.length_trimEnd_le (s : Segment) (around : Surroundings) :
    (s.trimEnd around st).length ≤ s.length := by
  rw [← length_cells, trimEnd, cells_releaseTail, length_cells]
  simp only [length]
  omega

theorem totalLength_trimFirst_le (segments : List Segment) :
    totalLength (trimFirst st segments) ≤ totalLength segments := by
  induction segments with
  | nil => exact Nat.le_refl _
  | cons s rest ih =>
      have shorter : (s.trimStart st).length ≤ s.length := s.length_trimStart_le
      simp only [trimFirst]
      split
      next => exact Nat.le_trans ih (Nat.le_add_left _ _)
      next => exact Nat.add_le_add_right shorter _

theorem totalLength_trimLast_le (around : Surroundings) (segments : List Segment) :
    totalLength (trimLast around st segments) ≤ totalLength segments := by
  induction segments with
  | nil => exact Nat.le_refl _
  | cons last front ih =>
      have shorter : (last.trimEnd (around.besides front) st).length ≤ last.length :=
        last.length_trimEnd_le _
      simp only [trimLast]
      split
      next => exact Nat.le_trans ih (Nat.le_add_left _ _)
      next => exact Nat.add_le_add_right shorter _

theorem Buffer.length_trimStart_le (b : Buffer) : (b.trimStart st).length ≤ b.length := by
  rw [length, trimStart, segments_mapSegments fun _ => rfl]
  exact totalLength_trimFirst_le b.segments

theorem Buffer.length_trimEnd_le (b : Buffer) (around : Surroundings) :
    (b.trimEnd around st).length ≤ b.length := by
  rw [length, trimEnd, segments_mapSegments fun _ => rfl, totalLength_reverse]
  refine Nat.le_trans (totalLength_trimLast_le around b.segments.reverse) ?_
  rw [totalLength_reverse]
  exact Nat.le_refl _

theorem Buffer.length_trim_le (b : Buffer) (around : Surroundings) :
    (b.trim around st).length ≤ b.length :=
  Nat.le_trans ((b.trimStart st).length_trimEnd_le around) b.length_trimStart_le

end

/-! ## Trimming as dropping white space -/

section

variable {β : Type} (p : β → Bool)

theorem drop_length_takeWhile (text : List β) :
    text.drop (text.takeWhile p).length = text.dropWhile p := by
  have parted : text.takeWhile p ++ text.dropWhile p = text := List.takeWhile_append_dropWhile
  have rest : (text.takeWhile p ++ text.dropWhile p).drop (text.takeWhile p).length =
      text.dropWhile p := List.drop_left
  rwa [parted] at rest

theorem rdropWhile_append (front back : List β) :
    (front ++ back).rdropWhile p =
      if (back.rdropWhile p).isEmpty then front.rdropWhile p else front ++ back.rdropWhile p := by
  simp only [List.rdropWhile, List.reverse_append, List.dropWhile_append, List.isEmpty_reverse]
  split
  next => rfl
  next => rw [List.reverse_append, List.reverse_reverse]

end

namespace Segment

variable {α : Type} {st : Store α} (s : Segment)

theorem content_releaseTail (around : Surroundings) :
    (s.releaseTail around).content st = s.content st := by
  unfold releaseTail
  split <;> rfl

theorem content_removeStart {count : Nat} (le : count ≤ s.length) :
    (s.removeStart count).content st = (s.content st).drop count := by
  have begins : (s.removeStart count).start = s.start + count := by
    rw [removeStart, Nat.min_eq_left le]
  have shorter : (s.removeStart count).length = s.length - count := by
    rw [length, begins, length, ← Nat.sub_sub]
    rfl
  refine List.ext_getElem? fun k => ?_
  rw [getElem?_content, List.getElem?_drop, getElem?_content, begins, shorter, Nat.add_assoc]
  by_cases inside : count + k < s.length
  · rw [if_pos (by omega), if_pos inside]
    rfl
  · rw [if_neg (by omega), if_neg inside]

theorem content_removeEnd (around : Surroundings) {count : Nat} (le : count ≤ s.length) :
    (s.removeEnd around count).content st = (s.content st).take (s.length - count) := by
  have shorter : ({ s with stop := s.stop - min count s.length } : Segment).length =
      s.length - count := by
    rw [Nat.min_eq_left le]
    exact Nat.sub_right_comm ..
  rw [removeEnd, content_releaseTail]
  refine List.ext_getElem? fun k => ?_
  rw [getElem?_content, List.getElem?_take, getElem?_content, shorter]
  by_cases inside : k < s.length - count
  · rw [if_pos inside, if_pos inside, if_pos (by omega)]
  · rw [if_neg inside, if_neg inside]

variable {s}

/-- A window that lies within its array shows nothing only where it is empty. -/
theorem Valid.isEmpty_content (valid : s.Valid st) : (s.content st).isEmpty = s.isEmpty := by
  have ordered := valid.start_le_stop
  have counted := valid.length_content
  rw [Bool.eq_iff_iff, List.isEmpty_iff_length_eq_zero, counted, isEmpty, beq_iff_eq, length]
  omega

variable [TextUnit α]

theorem trimStart_eq (s : Segment) (st : Store α) :
    s.trimStart st =
      s.removeStart ((s.content st).takeWhile TextUnit.isWhitespace).length := by
  rw [trimStart, removeStart, Nat.min_eq_left (length_leading_le s st)]

theorem trimEnd_eq (s : Segment) (around : Surroundings) (st : Store α) :
    s.trimEnd around st =
      s.removeEnd around ((s.content st).reverse.takeWhile TextUnit.isWhitespace).length := by
  rw [trimEnd, removeEnd, Nat.min_eq_left (length_trailing_le s st)]

theorem content_trimStart (s : Segment) (st : Store α) :
    (s.trimStart st).content st = (s.content st).dropWhile TextUnit.isWhitespace := by
  rw [trimStart_eq, content_removeStart s (length_leading_le s st), drop_length_takeWhile]

theorem content_trimEnd (valid : s.Valid st) (around : Surroundings) :
    (s.trimEnd around st).content st = (s.content st).rdropWhile TextUnit.isWhitespace := by
  rw [trimEnd_eq, content_removeEnd s around (length_trailing_le s st), List.rdropWhile,
    ← drop_length_takeWhile, List.reverse_drop, List.reverse_reverse, List.length_reverse,
    valid.length_content]

theorem Valid.trimStart (valid : s.Valid st) : (s.trimStart st).Valid st where
  start_le_stop := by
    have bound := length_leading_le s st
    have ordered := valid.start_le_stop
    simp only [length] at bound
    simp only [Segment.trimStart]
    omega
  stop_le_limit := valid.stop_le_limit
  limit_le_extent := valid.limit_le_extent

omit [TextUnit α] in
theorem Valid.releaseTail (valid : s.Valid st) (around : Surroundings) :
    (s.releaseTail around).Valid st := by
  rw [Segment.releaseTail]
  split
  next =>
    exact ⟨valid.start_le_stop, Nat.le_refl _,
      Nat.le_trans valid.stop_le_limit valid.limit_le_extent⟩
  next => exact valid

theorem Valid.trimEnd (valid : s.Valid st) (around : Surroundings) :
    (s.trimEnd around st).Valid st := by
  have bound := length_trailing_le s st
  have ordered := valid.start_le_stop
  simp only [length] at bound
  have shorter : ({ s with stop :=
      s.stop - ((s.content st).reverse.takeWhile TextUnit.isWhitespace).length } : Segment).Valid
        st :=
    ⟨by simp only; omega, Nat.le_trans (Nat.sub_le _ _) valid.stop_le_limit,
      valid.limit_le_extent⟩
  exact shorter.releaseTail around

end Segment

section

variable {α : Type} [TextUnit α] {st : Store α} {around : Surroundings} {segments : List Segment}

theorem contentOf_trimFirst (valid : ∀ s ∈ segments, s.Valid st) :
    contentOf (trimFirst st segments) st =
      (contentOf segments st).dropWhile TextUnit.isWhitespace := by
  induction segments with
  | nil => rfl
  | cons s rest ih =>
      have trimmed := (valid s List.mem_cons_self).trimStart
      rw [trimFirst, contentOf_cons, List.dropWhile_append, ← s.content_trimStart st,
        trimmed.isEmpty_content]
      split
      next => exact ih fun t here => valid t (List.mem_cons_of_mem s here)
      next => rfl

theorem contentOf_trimLast (valid : ∀ s ∈ segments, s.Valid st) :
    contentOf (trimLast around st segments).reverse st =
      (contentOf segments.reverse st).rdropWhile TextUnit.isWhitespace := by
  induction segments with
  | nil => rfl
  | cons last front ih =>
      have within := valid last List.mem_cons_self
      have trimmed := within.trimEnd (around.besides front)
      rw [trimLast, List.reverse_cons, contentOf_append, contentOf_cons, contentOf_nil,
        List.append_nil, rdropWhile_append, ← Segment.content_trimEnd within (around.besides front),
        trimmed.isEmpty_content]
      split
      next => exact ih fun t here => valid t (List.mem_cons_of_mem last here)
      next =>
        rw [List.reverse_cons, contentOf_append, contentOf_cons, contentOf_nil, List.append_nil]

theorem valid_trimFirst (valid : ∀ s ∈ segments, s.Valid st) :
    ∀ s ∈ trimFirst st segments, s.Valid st := by
  induction segments with
  | nil => exact valid
  | cons s rest ih =>
      have others : ∀ t ∈ rest, t.Valid st := fun t here => valid t (List.mem_cons_of_mem s here)
      rw [trimFirst]
      split
      next => exact ih others
      next => exact List.forall_mem_cons.2 ⟨(valid s List.mem_cons_self).trimStart, others⟩

theorem valid_trimLast (valid : ∀ s ∈ segments, s.Valid st) :
    ∀ s ∈ trimLast around st segments, s.Valid st := by
  induction segments with
  | nil => exact valid
  | cons last front ih =>
      have others : ∀ t ∈ front, t.Valid st :=
        fun t here => valid t (List.mem_cons_of_mem last here)
      rw [trimLast]
      split
      next => exact ih others
      next => exact List.forall_mem_cons.2 ⟨(valid last List.mem_cons_self).trimEnd _, others⟩

/-- Trimming drops cells from the front. -/
theorem cellsOf_trimFirst (segments : List Segment) :
    (cellsOf (trimFirst st segments)).Sublist (cellsOf segments) := by
  induction segments with
  | nil => exact List.Sublist.refl _
  | cons s rest ih =>
      rw [trimFirst]
      split
      next => exact ih.trans (List.sublist_append_right _ _)
      next =>
        rw [cellsOf_cons, cellsOf_cons, Segment.trimStart_eq, Segment.cells_removeStart]
        exact (List.drop_sublist _ _).append (List.Sublist.refl _)

/-- Trimming drops cells from the end. -/
theorem cellsOf_trimLast (segments : List Segment) :
    (cellsOf (trimLast around st segments).reverse).Sublist (cellsOf segments.reverse) := by
  induction segments with
  | nil => exact List.Sublist.refl _
  | cons last front ih =>
      rw [trimLast, List.reverse_cons, cellsOf_append]
      split
      next => exact ih.trans (List.sublist_append_left _ _)
      next =>
        rw [List.reverse_cons, cellsOf_append, cellsOf_cons, cellsOf_cons, Segment.trimEnd_eq,
          Segment.cells_removeEnd]
        exact (List.Sublist.refl _).append ((List.take_sublist _ _).append (List.Sublist.refl _))

namespace Buffer

variable {b : Buffer}

omit [TextUnit α] in
theorem Valid.reversed (valid : b.Valid st) : ∀ s ∈ b.segments.reverse, s.Valid st :=
  fun s here => valid s (List.mem_reverse.1 here)

theorem Valid.trimStart (valid : b.Valid st) : (b.trimStart st).Valid st := by
  rw [Valid, Buffer.trimStart, segments_mapSegments fun _ => rfl]
  exact valid_trimFirst valid

theorem Valid.trimEnd (valid : b.Valid st) : (b.trimEnd around st).Valid st := by
  rw [Valid, Buffer.trimEnd, segments_mapSegments fun _ => rfl]
  intro s here
  exact valid_trimLast valid.reversed s (List.mem_reverse.1 here)

theorem content_trimStart (valid : b.Valid st) :
    (b.trimStart st).content st = (b.content st).dropWhile TextUnit.isWhitespace := by
  rw [content_eq, trimStart, segments_mapSegments fun _ => rfl, contentOf_trimFirst valid]
  rfl

theorem content_trimEnd (valid : b.Valid st) :
    (b.trimEnd around st).content st = (b.content st).rdropWhile TextUnit.isWhitespace := by
  rw [content_eq, trimEnd, segments_mapSegments fun _ => rfl, contentOf_trimLast valid.reversed,
    List.reverse_reverse]
  rfl

theorem content_trim (valid : b.Valid st) :
    (b.trim around st).content st =
      ((b.content st).dropWhile TextUnit.isWhitespace).rdropWhile TextUnit.isWhitespace := by
  rw [trim, content_trimEnd valid.trimStart, content_trimStart valid]

theorem cells_trimStart (b : Buffer) (st : Store α) :
    (b.trimStart st).cells.Sublist b.cells := by
  rw [cells_eq, trimStart, segments_mapSegments fun _ => rfl]
  exact cellsOf_trimFirst b.segments

theorem cells_trimEnd (b : Buffer) (around : Surroundings) (st : Store α) :
    (b.trimEnd around st).cells.Sublist b.cells := by
  rw [cells_eq, trimEnd, segments_mapSegments fun _ => rfl]
  have fewer : (cellsOf (trimLast around st b.segments.reverse).reverse).Sublist
      (cellsOf b.segments.reverse.reverse) := cellsOf_trimLast _
  rwa [List.reverse_reverse] at fewer

theorem cells_trim (b : Buffer) (around : Surroundings) (st : Store α) :
    (b.trim around st).cells.Sublist b.cells :=
  (cells_trimEnd _ around st).trans (cells_trimStart b st)

end Buffer

end

/-! ## Arrays without room -/

section

variable {α : Type} {st : Store α}

/-- Segments that show nothing can be left out. -/
theorem contentOf_filter (segments : List Segment) :
    contentOf (segments.filter (!·.isEmpty)) st = contentOf segments st := by
  induction segments with
  | nil => rfl
  | cons s rest ih =>
      cases none : s.isEmpty with
      | true =>
          have shows_nothing : s.content st = [] := by
            have fewer := s.length_content_le st
            rw [Segment.length_eq_zero_of_isEmpty none] at fewer
            exact List.eq_nil_of_length_eq_zero (Nat.le_zero.1 fewer)
          rw [List.filter_cons_of_neg (by simp [none]), ih, contentOf_cons, shows_nothing,
            List.nil_append]
      | false =>
          rw [List.filter_cons_of_pos (by simp [none]), contentOf_cons, ih, contentOf_cons]

variable [TextUnit α] {others : List Segment}

/-- Each segment shows its text in the new array while those behind it are moved. -/
theorem contentOf_compactEach {segments : List Segment} (hosts : st.Hosts (segments ++ others)) :
    contentOf (compactEach segments st).1 (compactEach segments st).2 = contentOf segments st := by
  induction segments generalizing st others with
  | nil => rfl
  | cons s rest ih =>
      have first := Segment.undisturbed_compact hosts
      have fresh : (s.compact st).2.Hosts ((s.compact st).1 :: (rest ++ others)) := first.hosts
      have moved := fresh.perm List.perm_middle.symm
      have more := Buffer.undisturbed_compactEach moved
      have shown : (s.compact st).1.content (s.compact st).2 = s.content st :=
        Segment.content_allocate _ _ _
      have kept : contentOf rest (s.compact st).2 = contentOf rest st :=
        contentOf_congr fun t here => first.content_eq (List.mem_append_left _ here)
      rw [compactEach, contentOf_cons, contentOf_cons]
      rw [ih moved, kept, more.content_eq List.mem_cons_self, shown]

theorem Buffer.content_compact {b : Buffer} (hosts : st.Hosts (b.segments ++ others)) :
    (b.compact st).1.content (b.compact st).2 = b.content st := by
  have some : (b.segments.filter (!·.isEmpty) ++ others).Sublist (b.segments ++ others) :=
    List.filter_sublist.append (List.Sublist.refl _)
  have moved := contentOf_compactEach (hosts.subperm some.subperm)
  rw [content_eq, content_eq, segments_compact, ← contentOf_filter b.segments]
  exact moved

end

end SegmentedText
