import SegmentedText.Proofs.Flat.Search

/-!
# Cursors in machine words

Positions and offsets are computed with natural numbers here, which never overflow, and whose
differences stop at zero.  A machine computes them with words.  The two agree as long as no
sum leaves the range of a word and nothing is taken from something smaller.

That is stated along the way of each search: a match, a scan for a unit and a scan for a
pattern are exact if all sums and differences that they come to are
(`Cursor.MatchesExactly`, `Cursor.ScansExactly`, `Cursor.FindsExactly`).  Each of them moves
from one located cursor to the next, and a located cursor is exact in every text of less than
half a word's range, wherever in that range the position lies (`Cursor.exact_locate`).
-/

set_option autoImplicit false

namespace SegmentedText

/-- The number of values that a machine word has. -/
def wordSize : Nat := UInt64.size

/-- No text has as many units as this: a quarter of the range of a word. -/
def textLimit : Nat := UInt64.size / 4

theorem four_mul_textLimit : 4 * textLimit = wordSize := by decide

namespace Cursor

/-! ## One move -/

/-- A cursor that stands at a segment stands inside it, and can be moved within it: the offset is a
part of the position, and the position reached at the end of the segment, with the whole length of
the segment added, is a word.  So a step and a jump neither overflow nor take away too much. -/
def Exact (segments : List Segment) (c : Cursor) : Prop :=
  ∀ s, segments[c.segment]? = some s →
    c.offset < s.length ∧ c.offset ≤ c.position ∧ c.position + s.length < wordSize

/-- A cursor that was located is exact, however great its position. -/
theorem exact_locate {segments : List Segment} (short : totalLength segments < 2 * textLimit)
    (position : Nat) : (locate segments position).Exact segments := by
  intro s here
  have inside := lt_of_segment_locate here
  obtain ⟨t, there, offset_lt, place⟩ := locate_inside inside
  obtain rfl := Option.some.inj (here.symm.trans there)
  have part := length_le_totalLength (List.mem_of_getElem? here)
  rw [position_locate]
  refine ⟨offset_lt, by omega, ?_⟩
  have quarter := four_mul_textLimit
  omega

variable {α : Type} [TextUnit α] {st : Store α} {segments : List Segment}

/-! ## Following a pattern -/

/-- Following a pattern is exact: every cursor on the way is. -/
def MatchesExactly (segments : List Segment) (st : Store α) : List α → Cursor → Prop
  | [], _ => True
  | u :: us, c =>
      c.Exact segments ∧
        (c.unit? segments st = some u → MatchesExactly segments st us (c.advance segments))

omit [TextUnit α] in
theorem matchesExactly_locate (short : totalLength segments < 2 * textLimit) (pattern : List α)
    (position : Nat) : MatchesExactly segments st pattern (locate segments position) := by
  induction pattern generalizing position with
  | nil => trivial
  | cons u us ih =>
      refine ⟨exact_locate short position, fun same => ?_⟩
      obtain ⟨s, here, -⟩ := Option.bind_eq_some_iff.1 same
      rw [advance_locate (lt_of_segment_locate here)]
      exact ih (position + 1)

/-! ## Looking for a unit -/

/-- Looking for a unit is exact: in each segment on the way the scan begins no further than at the
end, and the jump to what is found, or to the end, can be computed. -/
def ScansExactly (u : α) (st : Store α) : List Segment → Cursor → Prop
  | [], _ => True
  | s :: rest, c =>
      (c.offset ≤ s.length ∧ c.offset ≤ c.position ∧ c.position + s.length < wordSize) ∧
        (s.indexOf u c.offset st = none → ScansExactly u st rest
          { segment := c.segment + 1
            offset := c.offset - s.length
            position := c.position + (s.length - c.offset) })

/-- The scan from an offset of the first segment that is left goes on at the start of the next. -/
theorem scansExactly {u : α} {rest : List Segment} {c : Cursor} (before : Nat)
    (place : c.position = before + c.offset)
    (within : ∀ s, rest.head? = some s → c.offset ≤ s.length)
    (short : before + totalLength rest < 2 * textLimit) : ScansExactly u st rest c := by
  induction rest generalizing c before with
  | nil => trivial
  | cons s rest ih =>
      have inside := within s rfl
      rw [totalLength_cons] at short
      refine ⟨⟨inside, by omega, ?_⟩, fun _ => ih (before + s.length) ?_ ?_ (by omega)⟩
      · have quarter := four_mul_textLimit
        omega
      · simp only
        omega
      · intro _ _
        simp only
        omega

theorem scansExactly_locate (short : totalLength segments < 2 * textLimit) (u : α)
    (position : Nat) :
    ScansExactly u st (segments.drop (locate segments position).segment)
      (locate segments position) := by
  by_cases inside : position < totalLength segments
  · obtain ⟨front, s, back, offset, rfl, offset_lt, rfl, located⟩ := locate_eq inside
    rw [totalLength_append] at short
    rw [located, List.drop_left' rfl]
    refine scansExactly _ rfl (fun t first => ?_) short
    obtain rfl := Option.some.inj first
    exact Nat.le_of_lt offset_lt
  · rw [locate_of_le (Nat.le_of_not_lt inside), List.drop_length]
    trivial

/-! ## Looking for a pattern -/

/-- Looking for a pattern is exact: so is each scan for its first unit, each attempt to follow it
from there, and the step beyond an attempt that failed. -/
inductive FindsExactly (segments : List Segment) (pattern : List α) (st : Store α) :
    Cursor → Prop where
  | round {c : Cursor}
      (scans : ∀ first, pattern.head? = some first →
        ScansExactly first st (segments.drop c.segment) c)
      (matches_here : ∀ first found, pattern.head? = some first →
        findUnit segments first st c = some found → MatchesExactly segments st pattern found)
      (steps : ∀ first found, pattern.head? = some first →
        findUnit segments first st c = some found → found.Exact segments)
      (onward : ∀ first found, pattern.head? = some first →
        findUnit segments first st c = some found → matchAt segments st pattern found = none →
          FindsExactly segments pattern st (found.advance segments)) :
      FindsExactly segments pattern st c

/-- **A search from a located cursor is exact.** -/
theorem findsExactly_locate (valid : ∀ s ∈ segments, s.Valid st)
    (short : totalLength segments < 2 * textLimit) (pattern : List α) (position : Nat) :
    FindsExactly segments pattern st (locate segments position) := by
  -- What is left of the text shrinks with every attempt that fails.
  induction left : totalLength segments - position using Nat.strongRecOn generalizing position with
  | ind left ih =>
      have placed : ∀ {first : α} {found : Cursor},
          findUnit segments first st (locate segments position) = some found →
            ∃ k, found = locate segments (position + k) ∧ position + k < totalLength segments := by
        intro first found there
        rw [findUnit_locate valid] at there
        obtain ⟨k, place, rfl⟩ := Option.map_eq_some_iff.1 there
        have inside := (List.findIdx?_eq_some_iff_getElem.1 place).1
        rw [List.length_drop, length_contentOf valid] at inside
        exact ⟨k, rfl, by omega⟩
      refine .round (fun first _ => scansExactly_locate short first position) ?_ ?_ ?_
      · intro first found _ there
        obtain ⟨k, rfl, -⟩ := placed there
        exact matchesExactly_locate short pattern _
      · intro first found _ there
        obtain ⟨k, rfl, -⟩ := placed there
        exact exact_locate short _
      · intro first found _ there _
        obtain ⟨k, rfl, inside⟩ := placed there
        rw [advance_locate inside]
        exact ih _ (by omega) _ rfl

end Cursor

end SegmentedText
