import SegmentedText.Proofs.Flat.Cells

/-!
# Cursors on flat text

A cursor that was located at a position is the one name that the position has in
normal form (`Cursor.locate_of_inside`).  The unit that it names is the unit at its
position (`Cursor.unit?_locate`), and a step forward leads to the next position
(`Cursor.advance_locate`).
-/

set_option autoImplicit false

namespace SegmentedText

theorem length_le_totalLength {segments : List Segment} {s : Segment} (here : s ∈ segments) :
    s.length ≤ totalLength segments := by
  obtain ⟨front, back, rfl⟩ := List.append_of_mem here
  rw [totalLength_append, totalLength_cons]
  omega

namespace Cursor

/-! ## Carrying over whole segments -/

/-- An offset behind some segments is carried over all of them. -/
theorem carry_append (front back : List Segment) (offset : Nat) :
    carry (front ++ back) (totalLength front + offset) =
      (front.length + (carry back offset).1, (carry back offset).2) := by
  induction front with
  | nil => simp
  | cons s rest ih =>
      have past : ¬totalLength (s :: rest) + offset < s.length := by
        rw [totalLength_cons]
        omega
      have left : totalLength (s :: rest) + offset - s.length = totalLength rest + offset := by
        rw [totalLength_cons]
        omega
      rw [List.cons_append, carry, if_neg past, left, ih]
      refine Prod.ext ?_ rfl
      show rest.length + (carry back offset).1 + 1 = rest.length + 1 + (carry back offset).1
      omega

/-- An offset behind all segments is carried over all of them, and nothing is left of it. -/
theorem carry_of_le {segments : List Segment} {offset : Nat}
    (behind : totalLength segments ≤ offset) : carry segments offset = (segments.length, 0) := by
  have carried := carry_append segments [] (offset - totalLength segments)
  rwa [List.append_nil, Nat.add_sub_cancel' behind] at carried

theorem locate_of_le {segments : List Segment} {position : Nat}
    (behind : totalLength segments ≤ position) :
    locate segments position = ⟨segments.length, 0, position⟩ := by
  simp only [locate, normalized, List.drop_zero, Nat.zero_add, carry_of_le behind]

/-- A normal form is the located cursor of its position. -/
theorem normalized_eq_locate {segments : List Segment} {i : Nat} (inside : i ≤ segments.length)
    (offset : Nat) :
    (⟨i, offset, totalLength (segments.take i) + offset⟩ : Cursor).normalized segments =
      locate segments (totalLength (segments.take i) + offset) := by
  have carried := carry_append (segments.take i) (segments.drop i) offset
  rw [List.take_append_drop, List.length_take, Nat.min_eq_left inside] at carried
  simp only [locate, normalized, List.drop_zero, Nat.zero_add, carried]

/-- The name of a position inside a segment. -/
theorem locate_of_inside {segments : List Segment} {i offset : Nat} {s : Segment}
    (here : segments[i]? = some s) (inside : offset < s.length) :
    locate segments (totalLength (segments.take i) + offset) =
      ⟨i, offset, totalLength (segments.take i) + offset⟩ := by
  obtain ⟨within, rfl⟩ := List.getElem?_eq_some_iff.1 here
  rw [← normalized_eq_locate (Nat.le_of_lt within)]
  simp only [normalized, List.drop_eq_getElem_cons within, carry, if_pos inside, Nat.add_zero]

theorem advance_locate {segments : List Segment} {position : Nat}
    (inside : position < totalLength segments) :
    (locate segments position).advance segments = locate segments (position + 1) := by
  obtain ⟨s, here, -, place⟩ := locate_inside inside
  have within := (List.getElem?_eq_some_iff.1 here).1
  have next := normalized_eq_locate (Nat.le_of_lt within) ((locate segments position).offset + 1)
  rw [← Nat.add_assoc, place] at next
  rw [← next]
  rfl

/-- A located cursor stands at a segment only if its position lies within the text. -/
theorem lt_of_segment_locate {segments : List Segment} {position : Nat} {s : Segment}
    (here : segments[(locate segments position).segment]? = some s) :
    position < totalLength segments := by
  by_cases behind : totalLength segments ≤ position
  · rw [locate_of_le behind, List.getElem?_eq_none (Nat.le_refl _)] at here
    cases here
  · exact Nat.lt_of_not_le behind

/-- A located cursor stands at no segment only behind the text. -/
theorem le_of_locate_none {segments : List Segment} {position : Nat}
    (absent : segments[(locate segments position).segment]? = none) :
    totalLength segments ≤ position := by
  by_cases inside : position < totalLength segments
  · obtain ⟨s, here, -⟩ := locate_inside inside
    rw [here] at absent
    cases absent
  · exact Nat.le_of_not_lt inside

/-- A jump forward leads to the position as much further on. -/
theorem jumpTo_locate {segments : List Segment} {position offset : Nat}
    (inside : position < totalLength segments)
    (forward : (locate segments position).offset ≤ offset) :
    (locate segments position).jumpTo segments offset =
      locate segments (position + (offset - (locate segments position).offset)) := by
  obtain ⟨s, here, -, place⟩ := locate_inside inside
  have within := (List.getElem?_eq_some_iff.1 here).1
  have next := normalized_eq_locate (Nat.le_of_lt within) offset
  have reached : totalLength (segments.take (locate segments position).segment) + offset =
      position + (offset - (locate segments position).offset) := by omega
  rw [reached] at next
  rw [← next, jumpTo, position_locate]
  congr 2
  omega

/-- A located cursor, with what lies before it. -/
theorem locate_eq {segments : List Segment} {position : Nat}
    (inside : position < totalLength segments) :
    ∃ (front : List Segment) (s : Segment) (back : List Segment) (offset : Nat),
      segments = front ++ s :: back ∧ offset < s.length ∧ position = totalLength front + offset ∧
        locate segments position = ⟨front.length, offset, position⟩ := by
  obtain ⟨s, here, offset_lt, place⟩ := locate_inside inside
  obtain ⟨within, rfl⟩ := List.getElem?_eq_some_iff.1 here
  refine ⟨segments.take (locate segments position).segment, _,
    segments.drop ((locate segments position).segment + 1), (locate segments position).offset, ?_,
    offset_lt, place.symm, ?_⟩
  · rw [← List.drop_eq_getElem_cons within, List.take_append_drop]
  · rw [List.length_take, Nat.min_eq_left (Nat.le_of_lt within)]
    rfl

/-! ## Order -/

/-- A greater offset is carried to a later segment, or to a later place in the same. -/
theorem carry_mono (segments : List Segment) {offset later : Nat} (le : offset ≤ later) :
    (carry segments offset).1 < (carry segments later).1 ∨
      (carry segments offset).1 = (carry segments later).1 ∧
        (carry segments offset).2 ≤ (carry segments later).2 := by
  induction segments generalizing offset later with
  | nil => exact .inr ⟨rfl, Nat.le_refl _⟩
  | cons s rest ih =>
      rw [carry, carry]
      by_cases inside : later < s.length
      · rw [if_pos inside, if_pos (by omega)]
        exact .inr ⟨rfl, le⟩
      · rw [if_neg inside]
        by_cases before : offset < s.length
        · rw [if_pos before]
          exact .inl (Nat.succ_pos _)
        · rw [if_neg before]
          rcases ih (Nat.sub_le_sub_right le s.length) with less | ⟨same, within⟩
          · exact .inl (Nat.succ_lt_succ less)
          · exact .inr ⟨congrArg Nat.succ same, within⟩

theorem locate_mono (segments : List Segment) {position later : Nat} (le : position ≤ later) :
    (locate segments position).segment < (locate segments later).segment ∨
      (locate segments position).segment = (locate segments later).segment ∧
        (locate segments position).offset ≤ (locate segments later).offset := by
  simp only [locate, normalized, List.drop_zero, Nat.zero_add]
  exact carry_mono segments le

/-- A located cursor stands inside its segment. -/
theorem offset_lt_of_locate {segments : List Segment} {position : Nat} {s : Segment}
    (here : segments[(locate segments position).segment]? = some s) :
    (locate segments position).offset < s.length := by
  simp only [locate, normalized, List.drop_zero, Nat.zero_add] at here ⊢
  exact carry_inside here

/-! ## Units at a cursor -/

variable {α : Type} {st : Store α}

/-- A located cursor names the unit at its position. -/
theorem unit?_locate {segments : List Segment} (valid : ∀ s ∈ segments, s.Valid st)
    (position : Nat) :
    (locate segments position).unit? segments st = (contentOf segments st)[position]? := by
  simp only [unit?, locate, normalized, List.drop_zero, Nat.zero_add]
  induction segments generalizing position with
  | nil => simp [carry]
  | cons s rest ih =>
      have counted := (valid s List.mem_cons_self).length_content
      rw [contentOf_cons, carry]
      by_cases inside : position < s.length
      · rw [if_pos inside, List.getElem?_append_left (by omega)]
        rfl
      · rw [if_neg inside, List.getElem?_append_right (by omega), counted]
        exact ih (fun t later => valid t (List.mem_cons_of_mem _ later)) _

end Cursor
end SegmentedText
