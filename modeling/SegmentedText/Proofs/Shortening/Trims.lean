import SegmentedText.Proofs.Shortening.Removals

/-!
# Trimming over segments

Trimming a buffer drops the white space at an end of its text, wherever the segments are cut.  What
is dropped are whole segments, as long as they show white space only, and then a part of the first
one that shows something else.  That segment is trimmed as it would be alone: the segments that
were dropped before are not alive around it any more.

At the front that is removal by count, of as many units as there is white space
(`trimFirst_eq_dropUnits`).  At the end it is not quite that.  Removal stops where the count is used
up, while trimming also drops segments that show nothing, and gives up the room behind the last
segment although no unit of it may go.

A text without anything but white space leaves no segment at all, from either end.  Trimming the
two ends commutes, and trimming again changes nothing (`Buffer.trimmed_over_segments`).
-/

set_option autoImplicit false

namespace SegmentedText

/-! ## Both ends of a text -/

section

variable {β : Type} {p : β → Bool}

theorem rdropWhile_cons (u : β) (rest : List β) :
    (u :: rest).rdropWhile p =
      if (rest.rdropWhile p).isEmpty then if p u then [] else [u] else u :: rest.rdropWhile p := by
  rw [← List.rdropWhile_singleton]
  exact rdropWhile_append p [u] rest

/-- What is dropped at the front does not depend on what is dropped at the end. -/
theorem dropWhile_rdropWhile (text : List β) :
    (text.rdropWhile p).dropWhile p = (text.dropWhile p).rdropWhile p := by
  induction text with
  | nil => rfl
  | cons u rest ih =>
      cases dropped : p u with
      | true =>
          rw [List.dropWhile_cons_of_pos dropped, ← ih, rdropWhile_cons, if_pos dropped]
          split
          next none => rw [List.isEmpty_iff.1 none]
          next some => rw [List.dropWhile_cons_of_pos dropped]
      | false =>
          have stays : ¬p u = true := by simp [dropped]
          rw [List.dropWhile_cons_of_neg stays, rdropWhile_cons, if_neg stays]
          split
          next none => rw [List.dropWhile_cons_of_neg stays]
          next some => rw [List.dropWhile_cons_of_neg stays]

end

section

variable {α : Type} [TextUnit α]

/-- How many units of white space a text begins with. -/
def leadingSpace (text : List α) : Nat := (text.takeWhile TextUnit.isWhitespace).length

/-- How many units of white space a text ends with. -/
def trailingSpace (text : List α) : Nat := (text.reverse.takeWhile TextUnit.isWhitespace).length

/-- A text without anything but white space. -/
def Blank (text : List α) : Prop := ∀ u ∈ text, TextUnit.isWhitespace u = true

variable {front back text : List α}

theorem Blank.reverse (blank : Blank text) : Blank text.reverse :=
  fun u here => blank u (List.mem_reverse.1 here)

theorem not_blank_reverse (shown : ¬Blank text) : ¬Blank text.reverse :=
  fun blank => shown (text.reverse_reverse ▸ blank.reverse)

theorem leadingSpace_of_blank (blank : Blank text) : leadingSpace text = text.length := by
  rw [leadingSpace, List.takeWhile_eq_self_iff.2 blank]

theorem leadingSpace_lt (shown : ¬Blank text) : leadingSpace text < text.length := by
  refine Nat.lt_of_le_of_ne (List.takeWhile_prefix _).length_le fun whole => shown ?_
  exact List.takeWhile_eq_self_iff.1 ((List.takeWhile_prefix _).eq_of_length whole)

theorem trailingSpace_of_blank (blank : Blank text) : trailingSpace text = text.length :=
  (leadingSpace_of_blank blank.reverse).trans List.length_reverse

theorem trailingSpace_lt (shown : ¬Blank text) : trailingSpace text < text.length :=
  Nat.lt_of_lt_of_eq (leadingSpace_lt (not_blank_reverse shown)) List.length_reverse

theorem leadingSpace_append_of_blank (blank : Blank front) :
    leadingSpace (front ++ back) = front.length + leadingSpace back := by
  rw [leadingSpace, List.takeWhile_append_of_pos blank, List.length_append, leadingSpace]

theorem leadingSpace_append_of_not_blank (shown : ¬Blank front) :
    leadingSpace (front ++ back) = leadingSpace front := by
  have proper := leadingSpace_lt shown
  rw [leadingSpace] at proper
  rw [leadingSpace, List.takeWhile_append, if_neg (Nat.ne_of_lt proper), leadingSpace]

theorem trailingSpace_append_of_blank (blank : Blank back) :
    trailingSpace (front ++ back) = back.length + trailingSpace front := by
  have reversed : leadingSpace (back.reverse ++ front.reverse) = _ :=
    leadingSpace_append_of_blank blank.reverse
  rwa [← List.reverse_append, List.length_reverse] at reversed

theorem trailingSpace_append_of_not_blank (shown : ¬Blank back) :
    trailingSpace (front ++ back) = trailingSpace back := by
  have same : leadingSpace (back.reverse ++ front.reverse) = _ :=
    leadingSpace_append_of_not_blank (not_blank_reverse shown)
  rwa [← List.reverse_append] at same

@[simp] theorem leadingSpace_dropWhile (text : List α) :
    leadingSpace (text.dropWhile TextUnit.isWhitespace) = 0 := by
  have counted := congrArg List.length (List.takeWhile_append_dropWhile
    (p := TextUnit.isWhitespace) (l := text.dropWhile TextUnit.isWhitespace))
  rw [List.length_append, List.dropWhile_idempotent] at counted
  exact Nat.add_eq_right.1 counted

@[simp] theorem trailingSpace_rdropWhile (text : List α) :
    trailingSpace (text.rdropWhile TextUnit.isWhitespace) = 0 := by
  have same := leadingSpace_dropWhile text.reverse
  rwa [← List.reverse_reverse (text.reverse.dropWhile _)] at same

theorem not_blank_dropWhile (shown : ¬Blank text) :
    ¬Blank (text.dropWhile TextUnit.isWhitespace) := by
  intro blank
  have none := leadingSpace_of_blank blank
  rw [leadingSpace_dropWhile] at none
  exact shown (List.dropWhile_eq_nil_iff.1 (List.eq_nil_of_length_eq_zero none.symm))

theorem not_blank_rdropWhile (shown : ¬Blank text) :
    ¬Blank (text.rdropWhile TextUnit.isWhitespace) :=
  not_blank_reverse (not_blank_dropWhile (not_blank_reverse shown))

/-- As much white space is at the end when the front has been dropped, if anything is left. -/
theorem trailingSpace_dropWhile (shown : ¬Blank text) :
    trailingSpace (text.dropWhile TextUnit.isWhitespace) = trailingSpace text := by
  have parted : text.takeWhile TextUnit.isWhitespace ++ text.dropWhile TextUnit.isWhitespace =
      text := List.takeWhile_append_dropWhile
  rw [← trailingSpace_append_of_not_blank (not_blank_dropWhile shown), parted]

/-- As much white space is at the front when the end has been dropped, if anything is left. -/
theorem leadingSpace_rdropWhile (shown : ¬Blank text) :
    leadingSpace (text.rdropWhile TextUnit.isWhitespace) = leadingSpace text :=
  (trailingSpace_dropWhile (not_blank_reverse shown)).trans
    (congrArg leadingSpace text.reverse_reverse)

end

/-! ## Segments of white space -/

namespace Segment

variable {α : Type} [TextUnit α] {s : Segment} {st : Store α}

theorem isEmpty_trimStart (valid : s.Valid st) :
    (s.trimStart st).isEmpty = true ↔ Blank (s.content st) := by
  rw [← valid.trimStart.isEmpty_content, content_trimStart, List.isEmpty_iff,
    List.dropWhile_eq_nil_iff, Blank]

theorem isEmpty_trimEnd (valid : s.Valid st) (around : Surroundings) :
    (s.trimEnd around st).isEmpty = true ↔ Blank (s.content st) := by
  rw [← (valid.trimEnd around).isEmpty_content, content_trimEnd valid, List.isEmpty_iff,
    List.rdropWhile_eq_nil_iff, Blank]

omit [TextUnit α] in
theorem releaseTail_releaseTail (s : Segment) (around : Surroundings) :
    (s.releaseTail around).releaseTail around = s.releaseTail around := by
  cases shown : around.shows s.storage with
  | true => simp only [releaseTail, shown, if_true]
  | false => simp only [releaseTail, shown, Bool.false_eq_true, if_false]

theorem trimEnd_trimEnd (valid : s.Valid st) (around : Surroundings) :
    (s.trimEnd around st).trimEnd around st = s.trimEnd around st := by
  have none : (((s.trimEnd around st).content st).reverse.takeWhile
      TextUnit.isWhitespace).length = 0 := by
    rw [content_trimEnd valid]
    exact trailingSpace_rdropWhile _
  rw [trimEnd, none, Nat.sub_zero]
  exact releaseTail_releaseTail _ around

end Segment

section

variable {α : Type} [TextUnit α] {st : Store α} {s : Segment} {segments front back : List Segment}

theorem trimFirst_of_blank (valid : s.Valid st) (blank : Blank (s.content st)) :
    trimFirst st (s :: segments) = trimFirst st segments :=
  if_pos ((Segment.isEmpty_trimStart valid).2 blank)

theorem trimFirst_of_not_blank (valid : s.Valid st) (shown : ¬Blank (s.content st)) :
    trimFirst st (s :: segments) = s.trimStart st :: segments :=
  if_neg fun none => shown ((Segment.isEmpty_trimStart valid).1 none)

/-- Segments of white space are dropped at the front. -/
theorem trimFirst_append (valid : ∀ t ∈ front, t.Valid st)
    (blank : ∀ t ∈ front, Blank (t.content st)) :
    trimFirst st (front ++ segments) = trimFirst st segments := by
  induction front with
  | nil => rfl
  | cons s rest ih =>
      rw [List.forall_mem_cons] at valid blank
      rw [List.cons_append, trimFirst_of_blank valid.1 blank.1, ih valid.2 blank.2]

/-- Trimming the front is removing as many units as there is white space. -/
theorem trimFirst_eq_dropUnits (valid : ∀ t ∈ segments, t.Valid st) :
    trimFirst st segments = dropUnits segments (leadingSpace (contentOf segments st)) := by
  induction segments with
  | nil => rfl
  | cons s rest ih =>
      rw [List.forall_mem_cons] at valid
      obtain ⟨first, others⟩ := valid
      rw [contentOf_cons]
      by_cases blank : Blank (s.content st)
      · rw [trimFirst_of_blank first blank, leadingSpace_append_of_blank blank,
          first.length_content, dropUnits_of_le rest (Nat.le_add_right _ _), Nat.add_sub_cancel_left,
          ih others]
      · have inside := leadingSpace_lt blank
        rw [first.length_content] at inside
        rw [trimFirst_of_not_blank first blank, leadingSpace_append_of_not_blank blank,
          dropUnits_of_lt rest inside, Segment.trimStart_eq, leadingSpace]

variable {around : Surroundings}

theorem trimLast_of_blank (valid : s.Valid st) (blank : Blank (s.content st)) :
    trimLast around st (s :: segments) = trimLast around st segments :=
  if_pos ((Segment.isEmpty_trimEnd valid _).2 blank)

theorem trimLast_of_not_blank (valid : s.Valid st) (shown : ¬Blank (s.content st)) :
    trimLast around st (s :: segments) = s.trimEnd (around.besides segments) st :: segments :=
  if_neg fun none => shown ((Segment.isEmpty_trimEnd valid _).1 none)

/-- Segments of white space are dropped at the end. -/
theorem trimLast_append (valid : ∀ t ∈ back, t.Valid st)
    (blank : ∀ t ∈ back, Blank (t.content st)) :
    trimLast around st (back ++ segments) = trimLast around st segments := by
  induction back with
  | nil => rfl
  | cons s rest ih =>
      rw [List.forall_mem_cons] at valid blank
      rw [List.cons_append, trimLast_of_blank valid.1 blank.1, ih valid.2 blank.2]

/-- Trimming the end takes as many cells away as there is white space. -/
theorem cellsOf_trimLast_eq (valid : ∀ t ∈ segments, t.Valid st) :
    cellsOf (trimLast around st segments).reverse =
      (cellsOf segments.reverse).take
        (totalLength segments - trailingSpace (contentOf segments.reverse st)) := by
  induction segments with
  | nil => rfl
  | cons last front ih =>
      rw [List.forall_mem_cons] at valid
      obtain ⟨first, others⟩ := valid
      have total : (cellsOf front.reverse).length = totalLength front := by
        rw [length_cellsOf, totalLength_reverse]
      rw [List.reverse_cons, contentOf_append, contentOf_cons, contentOf_nil, List.append_nil,
        cellsOf_append, cellsOf_cons, cellsOf_nil, List.append_nil, totalLength_cons]
      by_cases blank : Blank (last.content st)
      · rw [trimLast_of_blank first blank, ih others, trailingSpace_append_of_blank blank,
          first.length_content, Nat.add_sub_add_left, List.take_append_of_le_length]
        rw [total]
        exact Nat.sub_le _ _
      · have inside := trailingSpace_lt blank
        rw [first.length_content] at inside
        have within : totalLength front ≤
            last.length + totalLength front - trailingSpace (last.content st) := by omega
        have left : last.length + totalLength front - trailingSpace (last.content st) -
            totalLength front = last.length - trailingSpace (last.content st) := by omega
        rw [trimLast_of_not_blank first blank, trailingSpace_append_of_not_blank blank,
          List.reverse_cons, cellsOf_append, cellsOf_cons, cellsOf_nil, List.append_nil,
          List.take_append, total, left,
          List.take_of_length_le (l := cellsOf front.reverse) (total.symm ▸ within),
          Segment.trimEnd_eq, Segment.cells_removeEnd, trailingSpace]

theorem trimLast_trimLast (valid : ∀ t ∈ segments, t.Valid st) :
    trimLast around st (trimLast around st segments) = trimLast around st segments := by
  induction segments with
  | nil => rfl
  | cons last front ih =>
      rw [List.forall_mem_cons] at valid
      obtain ⟨first, others⟩ := valid
      by_cases blank : Blank (last.content st)
      · rw [trimLast_of_blank first blank, ih others]
      · have still : ¬Blank ((last.trimEnd (around.besides front) st).content st) := by
          rw [Segment.content_trimEnd first]
          exact not_blank_rdropWhile blank
        rw [trimLast_of_not_blank first blank, trimLast_of_not_blank (first.trimEnd _) still,
          Segment.trimEnd_trimEnd first]

/-- The first of several segments is kept at the end of the list, or is left alone and trimmed. -/
theorem trimLast_concat (around : Surroundings) (s : Segment) (valid : ∀ t ∈ segments, t.Valid st) :
    (∃ rest, trimLast around st (segments ++ [s]) = rest ++ [s]) ∨
      trimLast around st (segments ++ [s]) = trimLast around st [s] := by
  induction segments with
  | nil => exact .inr rfl
  | cons last front ih =>
      rw [List.forall_mem_cons] at valid
      rw [List.cons_append]
      by_cases blank : Blank (last.content st)
      · rw [trimLast_of_blank valid.1 blank]
        exact ih valid.2
      · rw [trimLast_of_not_blank valid.1 blank]
        exact .inl ⟨last.trimEnd (around.besides (front ++ [s])) st :: front, rfl⟩

end

/-! ## Removing nothing -/

theorem dropUnits_zero {s : Segment} (shows : 0 < s.length) (rest : List Segment) :
    dropUnits (s :: rest) 0 = s :: rest := by
  rw [dropUnits_of_lt rest shows, Segment.removeStart_of_le (Nat.zero_le _), Nat.add_zero]

theorem length_pos_of_dropUnits {s : Segment} {segments rest : List Segment} {count : Nat}
    (left : dropUnits segments count = s :: rest) : 0 < s.length := by
  induction segments generalizing count with
  | nil => cases left
  | cons t others ih =>
      rcases Nat.lt_or_ge count t.length with inside | past
      · rw [dropUnits_of_lt others inside] at left
        rw [← (List.cons.inj left).1, Segment.length_removeStart]
        omega
      · rw [dropUnits_of_le others past] at left
        exact ih left

section

variable {α : Type} [TextUnit α] {st : Store α} {around : Surroundings} {segments : List Segment}

theorem Segment.length_pos_of_not_blank {s : Segment} (valid : s.Valid st)
    (shown : ¬Blank (s.content st)) : 0 < s.length := by
  have inside := trailingSpace_lt shown
  rw [valid.length_content] at inside
  omega

/-- Trimming the end leaves a segment at the front that shows something, if there was one. -/
theorem dropUnits_zero_trimLast (valid : ∀ t ∈ segments, t.Valid st)
    (shows : ∀ s rest, segments = s :: rest → 0 < s.length) :
    dropUnits (trimLast around st segments.reverse).reverse 0 =
      (trimLast around st segments.reverse).reverse := by
  cases segments with
  | nil => rfl
  | cons s rest =>
      have first := shows s rest rfl
      rw [List.forall_mem_cons] at valid
      have reversed : ∀ t ∈ rest.reverse, t.Valid st :=
        fun t here => valid.2 t (List.mem_reverse.1 here)
      rw [List.reverse_cons]
      rcases trimLast_concat around s reversed with ⟨others, kept⟩ | alone
      · rw [kept, List.reverse_append]
        exact dropUnits_zero first _
      · rw [alone]
        by_cases blank : Blank (s.content st)
        · rw [trimLast_of_blank valid.1 blank]
          rfl
        · have still : ¬Blank ((s.trimEnd (around.besides []) st).content st) := by
            rw [Segment.content_trimEnd valid.1]
            exact not_blank_rdropWhile blank
          rw [trimLast_of_not_blank valid.1 blank]
          exact dropUnits_zero
            (Segment.length_pos_of_not_blank (valid.1.trimEnd _) still) []

end

/-! ## Trimming buffers -/

theorem Surroundings.shows_besides_reverse (around : Surroundings) (segments : List Segment)
    (id : StorageId) : (around.besides segments.reverse).shows id =
      (around.besides segments).shows id := by
  rw [shows_besides, shows_besides, List.any_reverse]

namespace Buffer

variable {α : Type} [TextUnit α] {b : Buffer} {st : Store α} {around : Surroundings}

theorem trimStart_eq_removeStart (valid : b.Valid st) :
    b.trimStart st = b.removeStart (leadingSpace (b.content st)) :=
  mapSegments_congr (trimFirst_eq_dropUnits valid)

theorem cells_trimStart_eq (valid : b.Valid st) :
    (b.trimStart st).cells = b.cells.drop (leadingSpace (b.content st)) := by
  rw [trimStart_eq_removeStart valid, cells_removeStart]

theorem cells_trimEnd_eq (valid : b.Valid st) :
    (b.trimEnd around st).cells =
      b.cells.take (b.length - trailingSpace (b.content st)) := by
  rw [cells_eq, trimEnd, segments_mapSegments fun _ => rfl, cellsOf_trimLast_eq valid.reversed,
    List.reverse_reverse, totalLength_reverse]
  rfl

/-- The cells between the white space at both ends are left. -/
theorem cells_trim_eq (valid : b.Valid st) :
    (b.trim around st).cells =
      (b.cells.take (b.length - trailingSpace (b.content st))).drop
        (leadingSpace (b.content st)) := by
  have counted := valid.length_content
  rw [trim, cells_trimEnd_eq valid.trimStart, cells_trimStart_eq valid,
    trimStart_eq_removeStart valid, length_removeStart, ← trimStart_eq_removeStart valid,
    content_trimStart valid]
  by_cases blank : Blank (b.content st)
  · rw [leadingSpace_of_blank blank, trailingSpace_of_blank blank, counted,
      List.drop_eq_nil_of_le (by rw [length_cells]), List.take_nil, Nat.sub_self, List.take_zero,
      List.drop_nil]
  · rw [trailingSpace_dropWhile blank, List.drop_take, Nat.sub_right_comm]

/-- The same cells are left when the end is trimmed first. -/
theorem cells_trimStart_trimEnd (valid : b.Valid st) :
    ((b.trimEnd around st).trimStart st).cells = (b.trim around st).cells := by
  have counted := valid.length_content
  rw [cells_trimStart_eq valid.trimEnd, cells_trimEnd_eq valid, content_trimEnd valid,
    cells_trim_eq valid]
  by_cases blank : Blank (b.content st)
  · rw [trailingSpace_of_blank blank, counted, Nat.sub_self, List.take_zero, List.drop_nil,
      List.drop_nil]
  · rw [leadingSpace_rdropWhile blank]

theorem content_trimStart_trimEnd (valid : b.Valid st) :
    ((b.trimEnd around st).trimStart st).content st = (b.trim around st).content st := by
  rw [content_trimStart valid.trimEnd, content_trimEnd valid, content_trim valid,
    dropWhile_rdropWhile]

/-! ### Segments that are dropped -/

theorem segments_trimStart {s : Segment} {front back : List Segment} (valid : b.Valid st)
    (parted : b.segments = front ++ s :: back) (blank : ∀ t ∈ front, Blank (t.content st))
    (shown : ¬Blank (s.content st)) : (b.trimStart st).segments = s.trimStart st :: back := by
  have within : ∀ t ∈ front ++ s :: back, t.Valid st := parted ▸ valid
  rw [List.forall_mem_append, List.forall_mem_cons] at within
  rw [trimStart, segments_mapSegments fun _ => rfl, parted, trimFirst_append within.1 blank,
    trimFirst_of_not_blank within.2.1 shown]

theorem segments_trimEnd {s : Segment} {front back : List Segment} (valid : b.Valid st)
    (parted : b.segments = front ++ s :: back) (blank : ∀ t ∈ back, Blank (t.content st))
    (shown : ¬Blank (s.content st)) :
    (b.trimEnd around st).segments = front ++ [s.trimEnd (around.besides front) st] := by
  have within : ∀ t ∈ front ++ s :: back, t.Valid st := parted ▸ valid
  rw [List.forall_mem_append, List.forall_mem_cons] at within
  have reversed : b.segments.reverse = back.reverse ++ s :: front.reverse := by
    rw [parted, List.reverse_append, List.reverse_cons, List.append_assoc, List.singleton_append]
  have same : s.trimEnd (around.besides front.reverse) st = s.trimEnd (around.besides front) st := by
    simp only [Segment.trimEnd, Segment.releaseTail,
      Surroundings.shows_besides_reverse]
  rw [trimEnd, segments_mapSegments fun _ => rfl, reversed,
    trimLast_append (fun t here => within.2.2 t (List.mem_reverse.1 here))
      (fun t here => blank t (List.mem_reverse.1 here)),
    trimLast_of_not_blank within.2.1 shown, same, List.reverse_cons, List.reverse_reverse]

omit [TextUnit α] in
/-- Nothing is kept of a list of segments that has become empty. -/
theorem segmentList_mapSegments {f : List Segment → List Segment} (gone : f b.segments = []) :
    (b.mapSegments f).segmentList = .vacant := by
  cases b with
  | mk segmentList layout =>
      cases segmentList with
      | vacant => rfl
      | held segments =>
          have none : f segments = [] := gone
          simp only [mapSegments, none, SegmentList.settle]

theorem blank_segments (blank : Blank (b.content st)) : ∀ s ∈ b.segments, Blank (s.content st) :=
  fun s here u shown => blank u (List.mem_flatMap.2 ⟨s, here, shown⟩)

theorem segmentList_trimStart (valid : b.Valid st) (blank : Blank (b.content st)) :
    (b.trimStart st).segmentList = .vacant := by
  refine segmentList_mapSegments ?_
  rw [← List.append_nil b.segments, trimFirst_append valid (blank_segments blank)]
  rfl

theorem segmentList_trimEnd (valid : b.Valid st) (blank : Blank (b.content st)) :
    (b.trimEnd around st).segmentList = .vacant := by
  refine segmentList_mapSegments ?_
  have reversed : ∀ s ∈ b.segments.reverse, Blank (s.content st) :=
    fun s here => blank_segments blank s (List.mem_reverse.1 here)
  rw [← List.append_nil b.segments.reverse, trimLast_append valid.reversed reversed]
  rfl

/-! ### Trimming again -/

theorem trimStart_trimStart (valid : b.Valid st) :
    (b.trimStart st).trimStart st = b.trimStart st := by
  rw [trimStart_eq_removeStart valid.trimStart, content_trimStart valid, leadingSpace_dropWhile,
    trimStart_eq_removeStart valid, removeStart_removeStart, Nat.add_zero]

theorem trimEnd_trimEnd (valid : b.Valid st) :
    (b.trimEnd around st).trimEnd around st = b.trimEnd around st := by
  rw [trimEnd, trimEnd, mapSegments_mapSegments b rfl]
  refine mapSegments_congr ?_
  rw [List.reverse_reverse, trimLast_trimLast valid.reversed]

/-- Trimming the end brings no white space and no segment that shows nothing to the front. -/
theorem trimStart_trim (valid : b.Valid st) :
    (b.trim around st).trimStart st = b.trim around st := by
  have none : leadingSpace ((b.trim around st).content st) = 0 := by
    rw [content_trim valid, ← dropWhile_rdropWhile, leadingSpace_dropWhile]
  have shows : ∀ s rest, (b.trimStart st).segments = s :: rest → 0 < s.length := by
    intro s rest left
    rw [trimStart_eq_removeStart valid, removeStart, segments_mapSegments fun _ => rfl] at left
    exact length_pos_of_dropUnits left
  have within : (b.trim around st).Valid st := valid.trimStart.trimEnd
  rw [trimStart_eq_removeStart within, none, trim, trimEnd, removeStart,
    mapSegments_mapSegments _ rfl]
  exact mapSegments_congr (dropUnits_zero_trimLast valid.trimStart shows)

theorem trim_trim (valid : b.Valid st) :
    (b.trim around st).trim around st = b.trim around st := by
  rw [trim, trimStart_trim valid, trim, trimEnd_trimEnd valid.trimStart]

/-! ### Trimming as a whole -/

/-- What is left of a buffer when the white space at its ends is trimmed. -/
structure Trimmed (b : Buffer) (around : Surroundings) (st : Store α) : Prop where
  /-- The text is left without the longest run of white space at the front. -/
  start_content : (b.trimStart st).content st = (b.content st).dropWhile TextUnit.isWhitespace
  /-- The text is left without the longest run of white space at the end. -/
  end_content : (b.trimEnd around st).content st = (b.content st).rdropWhile TextUnit.isWhitespace
  /-- The text is left without both. -/
  both_content : (b.trim around st).content st =
    ((b.content st).dropWhile TextUnit.isWhitespace).rdropWhile TextUnit.isWhitespace
  /-- What is left behind the white space at the front is shown by the same cells as before. -/
  start_cells : (b.trimStart st).cells = b.cells.drop (leadingSpace (b.content st))
  /-- What is left before the white space at the end is shown by the same cells as before. -/
  end_cells : (b.trimEnd around st).cells =
    b.cells.take (b.length - trailingSpace (b.content st))
  /-- What is left between both is shown by the same cells as before. -/
  both_cells : (b.trim around st).cells =
    (b.cells.take (b.length - trailingSpace (b.content st))).drop (leadingSpace (b.content st))
  /-- Segments of white space are dropped at the front, and the next one is trimmed alone. -/
  start_segments : ∀ front s back, b.segments = front ++ s :: back →
    (∀ t ∈ front, Blank (t.content st)) → ¬Blank (s.content st) →
      (b.trimStart st).segments = s.trimStart st :: back
  /-- Segments of white space are dropped at the end, and the last one before them is trimmed with
  only those alive that are left. -/
  end_segments : ∀ front s back, b.segments = front ++ s :: back →
    (∀ t ∈ back, Blank (t.content st)) → ¬Blank (s.content st) →
      (b.trimEnd around st).segments = front ++ [s.trimEnd (around.besides front) st]
  /-- No list of segments is left of a text of white space, from whichever end it is trimmed. -/
  nothing : Blank (b.content st) → (b.trimStart st).segmentList = .vacant ∧
    (b.trimEnd around st).segmentList = .vacant ∧ (b.trim around st).segmentList = .vacant
  /-- It does not matter which end is trimmed first. -/
  commute : ((b.trimEnd around st).trimStart st).content st = (b.trim around st).content st ∧
    ((b.trimEnd around st).trimStart st).cells = (b.trim around st).cells
  /-- Trimming again changes nothing. -/
  again : (b.trimStart st).trimStart st = b.trimStart st ∧
    (b.trimEnd around st).trimEnd around st = b.trimEnd around st ∧
      (b.trim around st).trim around st = b.trim around st
  /-- The text of a single segment is trimmed as the segment itself would be. -/
  single : ∀ s, b.segments = [s] → ∀ around',
    (b.trimStart st).content st = (s.trimStart st).content st ∧
      (b.trimEnd around st).content st = (s.trimEnd around' st).content st ∧
        (b.trim around st).content st = (s.trim around' st).content st

/-- **Trimming a buffer drops the white space at the ends of its text, however it is cut.**

The cells of what is left are those that showed it before, the segments of white space are gone, and
trimming commutes and is done once and for all, as `Buffer.Trimmed` says. -/
theorem trimmed_over_segments (valid : b.Valid st) (around : Surroundings) :
    b.Trimmed around st where
  start_content := content_trimStart valid
  end_content := content_trimEnd valid
  both_content := content_trim valid
  start_cells := cells_trimStart_eq valid
  end_cells := cells_trimEnd_eq valid
  both_cells := cells_trim_eq valid
  start_segments _ _ _ parted blank shown := segments_trimStart valid parted blank shown
  end_segments _ _ _ parted blank shown := segments_trimEnd valid parted blank shown
  nothing blank := by
    have left : Blank ((b.trimStart st).content st) := by
      rw [content_trimStart valid, List.dropWhile_eq_nil_iff.2 blank]
      exact nofun
    exact ⟨segmentList_trimStart valid blank, segmentList_trimEnd valid blank,
      segmentList_trimEnd valid.trimStart left⟩
  commute := ⟨content_trimStart_trimEnd valid, cells_trimStart_trimEnd valid⟩
  again := ⟨trimStart_trimStart valid, trimEnd_trimEnd valid, trim_trim valid⟩
  single s only around' := by
    have within : s.Valid st := valid s (only ▸ List.mem_singleton_self s)
    have shown : b.content st = s.content st := by
      rw [content_eq, only, contentOf_cons, contentOf_nil, List.append_nil]
    refine ⟨?_, ?_, ?_⟩
    · rw [content_trimStart valid, shown, Segment.content_trimStart]
    · rw [content_trimEnd valid, shown, Segment.content_trimEnd within]
    · rw [content_trim valid, shown, Segment.trim, Segment.content_trimEnd within.trimStart,
        Segment.content_trimStart]

/-- A text with white space at both ends, and a segment that shows nothing beside each. -/
def spacedOut : Buffer × Store Char :=
  let (s, st) := Segment.ofUnits [' ', ' ', 'a', ' '] {}
  let (t, st) := Segment.ofUnits ['b', ' '] st
  ({ segmentList := .held [s.window 0 1, s.window 1 1, s.window 1 4, t, t.window 2 2] }, st)

theorem valid_spacedOut : spacedOut.1.Valid spacedOut.2 := by
  intro s here
  simp only [spacedOut, segments, SegmentList.toList_held, List.mem_cons, List.not_mem_nil,
    or_false] at here
  rcases here with rfl | rfl | rfl | rfl | rfl
  all_goals exact ⟨by decide, by decide, by decide⟩

theorem trimmed_over_segments_spacedOut :
    spacedOut.1.Valid spacedOut.2 ∧
      (spacedOut.1.trim {} spacedOut.2).content spacedOut.2 = ['a', ' ', 'b'] ∧
      (spacedOut.1.trim {} spacedOut.2).segments = [⟨⟨0⟩, 2, 4, 4⟩, ⟨⟨1⟩, 0, 1, 2⟩] ∧
      (spacedOut.1.trim {} spacedOut.2).trim {} spacedOut.2 = spacedOut.1.trim {} spacedOut.2 := by
  have trimmed := trimmed_over_segments valid_spacedOut {}
  exact ⟨valid_spacedOut, trimmed.both_content.trans (by decide), by decide, trimmed.again.2.2⟩

end Buffer
end SegmentedText
