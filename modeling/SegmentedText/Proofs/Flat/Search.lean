import SegmentedText.Buffer.Search
import SegmentedText.Proofs.Flat.Cursors

/-!
# Search on flat text

Search across segments finds what a search in the flat text finds.  A pattern is
followed from a located cursor as far as it is a prefix of the text from there
(`Cursor.matchAt_locate`); the next unit is the first one in the text from there
(`Cursor.findUnit_locate`); and the next occurrence of a pattern is its first
occurrence in the text from there, however the text is cut (`Cursor.findPattern_locate`).

The first occurrence in a list is the least place at which the pattern is a prefix of
the rest (`firstOccurrence_eq_some_iff`).
-/

set_option autoImplicit false

namespace SegmentedText

/-! ## First occurrences in a list -/

section

variable {α : Type} [DecidableEq α] {pattern text : List α}

theorem firstOccurrence_of_isPrefixOf (here : pattern.isPrefixOf text = true) :
    firstOccurrence pattern text = some 0 := by
  cases text with
  | nil =>
      have empty : pattern = [] := List.prefix_nil.1 (List.isPrefixOf_iff_prefix.1 here)
      rw [empty]
      rfl
  | cons u us => rw [firstOccurrence, if_pos here]

/-- Places at which the pattern does not occur can be skipped. -/
theorem firstOccurrence_skip (count : Nat) (inside : count ≤ text.length)
    (absent : ∀ k < count, pattern.isPrefixOf (text.drop k) = false) :
    firstOccurrence pattern text =
      (firstOccurrence pattern (text.drop count)).map (· + count) := by
  induction count generalizing text with
  | zero => simp
  | succ count ih =>
      cases text with
      | nil => exact absurd inside (Nat.not_succ_le_zero _)
      | cons u us =>
          have first : pattern.isPrefixOf (u :: us) = false := absent 0 (Nat.succ_pos _)
          have later := ih (Nat.le_of_succ_le_succ inside) fun k less =>
            absent (k + 1) (Nat.succ_lt_succ less)
          rw [firstOccurrence, if_neg (by simp [first]), later, List.drop_succ_cons, Option.map_map]
          rfl

theorem firstOccurrence_eq_none (some_pattern : pattern ≠ [])
    (absent : ∀ k < text.length, pattern.isPrefixOf (text.drop k) = false) :
    firstOccurrence pattern text = none := by
  rw [firstOccurrence_skip _ (Nat.le_refl _) absent, List.drop_length, firstOccurrence, if_neg]
  · rfl
  · simpa using some_pattern

/-- The first occurrence is the least place from which the text begins with the pattern. -/
theorem firstOccurrence_eq_some_iff {i : Nat} : firstOccurrence pattern text = some i ↔
    i ≤ text.length ∧ pattern <+: text.drop i ∧ ∀ k < i, ¬pattern <+: text.drop k := by
  constructor
  · intro found
    induction text generalizing i with
    | nil =>
        rw [firstOccurrence] at found
        split at found
        next empty =>
          cases found
          rw [List.isEmpty_iff.1 empty]
          exact ⟨Nat.le_refl _, List.nil_prefix, fun _ less => absurd less (Nat.not_lt_zero _)⟩
        next => cases found
    | cons u us ih =>
        rw [firstOccurrence] at found
        split at found
        next here =>
          cases found
          exact ⟨Nat.zero_le _, List.isPrefixOf_iff_prefix.1 here,
            fun _ less => absurd less (Nat.not_lt_zero _)⟩
        next elsewhere =>
          obtain ⟨j, later, rfl⟩ := Option.map_eq_some_iff.1 found
          obtain ⟨inside, here, before⟩ := ih later
          refine ⟨Nat.succ_le_succ inside, here, fun k less => ?_⟩
          cases k with
          | zero => exact fun first => elsewhere (List.isPrefixOf_iff_prefix.2 first)
          | succ k => exact before k (Nat.lt_of_succ_lt_succ less)
  · rintro ⟨inside, here, before⟩
    rw [firstOccurrence_skip i inside fun k less => ?_, firstOccurrence_of_isPrefixOf
      (List.isPrefixOf_iff_prefix.2 here), Option.map_some, Nat.zero_add]
    exact Bool.eq_false_iff.2 fun first => before k less (List.isPrefixOf_iff_prefix.1 first)

/-- An occurrence lies within the text. -/
theorem le_of_firstOccurrence {i : Nat} (found : firstOccurrence pattern text = some i) :
    i + pattern.length ≤ text.length := by
  obtain ⟨inside, here, -⟩ := firstOccurrence_eq_some_iff.1 found
  have fits := here.length_le
  rw [List.length_drop] at fits
  omega

/-- A pattern that begins with a unit does not occur where the unit is not. -/
theorem isPrefixOf_drop_eq_false {first : α} {others : List α} {k : Nat}
    (inside : k < text.length) (differs : text[k] ≠ first) :
    (first :: others).isPrefixOf (text.drop k) = false := by
  rw [List.drop_eq_getElem_cons inside, List.isPrefixOf_cons_cons, Bool.and_eq_false_iff]
  exact .inl (beq_eq_false_iff_ne.2 (Ne.symm differs))

/-- Looking for the first unit alone: without it, the pattern does not occur. -/
theorem firstOccurrence_of_findIdx?_none {first : α} {others : List α}
    (absent : text.findIdx? (· == first) = none) :
    firstOccurrence (first :: others) text = none := by
  refine firstOccurrence_eq_none (List.cons_ne_nil _ _) fun k inside => ?_
  have differs := List.findIdx?_eq_none_iff.1 absent _ (List.getElem_mem inside)
  exact isPrefixOf_drop_eq_false inside (beq_eq_false_iff_ne.1 differs)

/-- The pattern occurs nowhere before its first unit does. -/
theorem firstOccurrence_of_findIdx?_some {first : α} {others : List α} {k : Nat}
    (found : text.findIdx? (· == first) = some k) :
    firstOccurrence (first :: others) text =
      (firstOccurrence (first :: others) (text.drop k)).map (· + k) := by
  obtain ⟨inside, -, before⟩ := List.findIdx?_eq_some_iff_getElem.1 found
  refine firstOccurrence_skip k (Nat.le_of_lt inside) fun j less => ?_
  exact isPrefixOf_drop_eq_false (Nat.lt_trans less inside) fun same => before j less (by simp [same])

end

namespace Cursor

variable {α : Type} [TextUnit α] {st : Store α} {segments : List Segment}

/-! ## Following a pattern -/

theorem matchAt_locate (valid : ∀ s ∈ segments, s.Valid st) (pattern : List α) (position : Nat) :
    matchAt segments st pattern (locate segments position) =
      if pattern.isPrefixOf ((contentOf segments st).drop position) then
        some (locate segments (position + pattern.length)) else none := by
  induction pattern generalizing position with
  | nil => rfl
  | cons u us ih =>
      rw [matchAt, unit?_locate valid]
      by_cases inside : position < (contentOf segments st).length
      · have here : (contentOf segments st)[position]? = some (contentOf segments st)[position] :=
          List.getElem?_eq_getElem inside
        rw [here,
          List.drop_eq_getElem_cons inside, List.isPrefixOf_cons_cons]
        dsimp only
        by_cases same : (contentOf segments st)[position] = u
        · rw [if_pos same, advance_locate (length_contentOf valid ▸ inside), ih, same,
            beq_self_eq_true, Bool.true_and, List.length_cons, Nat.add_right_comm, Nat.add_assoc]
        · rw [if_neg same, beq_eq_false_iff_ne.2 (Ne.symm same), Bool.false_and]
          rfl
      · have behind : (contentOf segments st)[position]? = none := List.getElem?_eq_none (by omega)
        rw [behind,
          List.drop_eq_nil_of_le (by omega)]
        rfl

/-! ## Finding a unit -/

/-- The scan for a unit, from an offset of the first of the segments that are left. -/
theorem findUnitIn_eq (front : List Segment) {rest : List Segment}
    (valid : ∀ s ∈ rest, s.Valid st) (u : α) (offset : Nat)
    (within : ∀ s, rest.head? = some s → offset ≤ s.length) :
    findUnitIn u st rest ⟨front.length, offset, totalLength front + offset⟩ =
      (((contentOf rest st).drop offset).findIdx? (· == u)).map fun k =>
        locate (front ++ rest) (totalLength front + offset + k) := by
  induction rest generalizing front offset with
  | nil => simp [findUnitIn]
  | cons s rest ih =>
      have le : offset ≤ s.length := within s rfl
      have counted := (valid s List.mem_cons_self).length_content
      have shown : (contentOf (s :: rest) st).drop offset =
          (s.content st).drop offset ++ contentOf rest st := by
        rw [contentOf_cons, List.drop_append_of_le_length (by omega)]
      have here : (front ++ s :: rest)[front.length]? = some s := by simp
      have before : (front ++ s :: rest).take front.length = front := List.take_left' rfl
      rw [shown, List.findIdx?_append, findUnitIn, Segment.indexOf]
      cases found : ((s.content st).drop offset).findIdx? (· == u) with
      | some k =>
          have inside := (List.findIdx?_eq_some_iff_getElem.1 found).1
          rw [List.length_drop] at inside
          have placed := locate_of_inside here (show k + offset < s.length by omega)
          rw [before] at placed
          simp only [Option.map_some, Option.some_or, Nat.add_sub_cancel]
          rw [Nat.add_assoc, Nat.add_comm offset k, placed]
      | none =>
          have next := ih (front ++ [s])
            (fun t later => valid t (List.mem_cons_of_mem _ later)) 0 fun _ _ => Nat.zero_le _
          have cursor : (⟨front.length + 1, offset - s.length,
              totalLength front + offset + (s.length - offset)⟩ : Cursor) =
              ⟨(front ++ [s]).length, 0, totalLength (front ++ [s]) + 0⟩ := by
            rw [List.length_append, totalLength_append, Cursor.mk.injEq]
            simp only [List.length_singleton, totalLength_cons, totalLength_nil, true_and]
            omega
          simp only [Option.map_none, Option.none_or, Option.map_map]
          rw [cursor, next, List.drop_zero, List.append_assoc, List.length_drop, counted,
            totalLength_append]
          congr 1
          funext k
          simp only [Function.comp_apply, List.singleton_append, totalLength_cons, totalLength_nil]
          congr 1
          omega

theorem findUnit_locate (valid : ∀ s ∈ segments, s.Valid st) (u : α) (position : Nat) :
    findUnit segments u st (locate segments position) =
      (((contentOf segments st).drop position).findIdx? (· == u)).map fun k =>
        locate segments (position + k) := by
  by_cases inside : position < totalLength segments
  · obtain ⟨front, s, back, offset, rfl, offset_lt, rfl, located⟩ := locate_eq inside
    have scanned := findUnitIn_eq front (fun t later => valid t (List.mem_append_right _ later)) u
      offset fun t first => by
        obtain rfl := Option.some.inj first
        exact Nat.le_of_lt offset_lt
    have counted : (contentOf front st).length = totalLength front :=
      length_contentOf fun t here => valid t (List.mem_append_left _ here)
    have behind : (contentOf (front ++ s :: back) st).drop (totalLength front + offset) =
        (contentOf (s :: back) st).drop offset := by
      rw [contentOf_append, ← counted, List.drop_append]
      simp
    rw [findUnit, located, List.drop_left' rfl, scanned, behind]
  · have past : totalLength segments ≤ position := Nat.le_of_not_lt inside
    rw [findUnit, locate_of_le past, List.drop_length,
      List.drop_eq_nil_of_le (by rw [length_contentOf valid]; exact past)]
    rfl

/-! ## Finding a pattern -/

/-- **The next occurrence across segments is the first occurrence in the text that is left.** -/
theorem findPattern_locate (valid : ∀ s ∈ segments, s.Valid st) {pattern : List α}
    (some_pattern : pattern ≠ []) (position : Nat) :
    findPattern segments pattern st (locate segments position) =
      (firstOccurrence pattern ((contentOf segments st).drop position)).map fun k =>
        (locate segments (position + k), locate segments (position + k + pattern.length)) := by
  obtain ⟨first, others, rfl⟩ := List.exists_cons_of_ne_nil some_pattern
  generalize begun : locate segments position = c
  fun_induction findPattern segments (first :: others) st c generalizing position with
  | case1 c absent =>
      subst begun
      have nowhere : findUnit segments first st (locate segments position) = none := absent
      rw [findUnit_locate valid, Option.map_eq_none_iff] at nowhere
      rw [firstOccurrence_of_findIdx?_none nowhere]
      rfl
  | case2 c found located after matched =>
      subst begun
      have here : findUnit segments first st (locate segments position) = some found := located
      rw [findUnit_locate valid] at here
      obtain ⟨k, place, rfl⟩ := Option.map_eq_some_iff.1 here
      rw [matchAt_locate valid] at matched
      split at matched
      next matches_here =>
        obtain rfl := Option.some.inj matched
        rw [← List.drop_drop] at matches_here
        rw [firstOccurrence_of_findIdx?_some place, firstOccurrence_of_isPrefixOf matches_here]
        simp only [Option.map_some, Nat.zero_add]
      next => cases matched
  | case3 c found located unmatched ih =>
      subst begun
      have here : findUnit segments first st (locate segments position) = some found := located
      rw [findUnit_locate valid] at here
      obtain ⟨k, place, rfl⟩ := Option.map_eq_some_iff.1 here
      have inside := (List.findIdx?_eq_some_iff_getElem.1 place).1
      rw [List.length_drop, length_contentOf valid] at inside
      have not_here : ¬(first :: others).isPrefixOf
          (((contentOf segments st).drop position).drop k) = true := by
        intro matches_here
        rw [List.drop_drop] at matches_here
        rw [matchAt_locate valid, if_pos matches_here] at unmatched
        cases unmatched
      have onward := ih (position + k + 1) (advance_locate (by omega)).symm
      have one_on : firstOccurrence (first :: others)
          (((contentOf segments st).drop position).drop k) =
          (firstOccurrence (first :: others)
            ((contentOf segments st).drop (position + k + 1))).map (· + 1) := by
        have some_left : 1 ≤ (((contentOf segments st).drop position).drop k).length := by
          rw [List.length_drop, List.length_drop, length_contentOf valid]
          omega
        rw [firstOccurrence_skip 1 some_left fun j less => ?_, List.drop_drop, List.drop_drop,
          Nat.add_assoc]
        obtain rfl : j = 0 := by omega
        exact Bool.eq_false_iff.2 not_here
      rw [onward, firstOccurrence_of_findIdx?_some place, one_on, Option.map_map, Option.map_map]
      congr 1
      funext j
      simp only [Function.comp_apply]
      rw [show position + (j + 1 + k) = position + k + 1 + j by omega]

end Cursor

namespace Buffer

variable {α : Type} [TextUnit α] {st : Store α} {b : Buffer}

/-- The empty pattern is not found. -/
theorem ne_nil_of_findPattern {pattern : List α} {c first past : Cursor}
    (found : Cursor.findPattern b.segments pattern st c = some (first, past)) : pattern ≠ [] := by
  rintro rfl
  obtain ⟨-, less, same⟩ := Cursor.findPattern_position found
  rw [List.length_nil] at same
  omega

/-- A pattern that occurs lies within the buffer, and the cursors on it tell where. -/
theorem findPattern_spec {pattern : List α} {position : Nat} {first past : Cursor}
    (valid : b.Valid st) (some_pattern : pattern ≠ [])
    (found : Cursor.findPattern b.segments pattern st (Cursor.locate b.segments position) =
      some (first, past)) :
    ∃ k, firstOccurrence pattern ((b.content st).drop position) = some k ∧
      first.position = position + k ∧
      past = Cursor.locate b.segments (position + k + pattern.length) ∧
      position + k + pattern.length ≤ b.length := by
  rw [Cursor.findPattern_locate valid some_pattern] at found
  obtain ⟨k, occurs, cursors⟩ := Option.map_eq_some_iff.1 found
  obtain ⟨rfl, rfl⟩ := Prod.mk.inj cursors
  refine ⟨k, occurs, rfl, rfl, ?_⟩
  have fits := le_of_firstOccurrence occurs
  have some_left : 0 < pattern.length := List.length_pos_iff.2 some_pattern
  have total : (contentOf b.segments st).length = b.length := valid.length_content
  rw [List.length_drop, total] at fits
  omega

theorem findPattern_none {pattern : List α} {position : Nat} (valid : b.Valid st)
    (some_pattern : pattern ≠ [])
    (absent : Cursor.findPattern b.segments pattern st (Cursor.locate b.segments position) = none) :
    firstOccurrence pattern ((b.content st).drop position) = none := by
  rw [Cursor.findPattern_locate valid some_pattern] at absent
  exact Option.map_eq_none_iff.1 absent

end Buffer
end SegmentedText
