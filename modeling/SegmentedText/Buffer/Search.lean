import SegmentedText.Buffer.Basic

/-!
# Searching across segments

An occurrence may straddle any number of segments, so search moves a cursor and
compares unit by unit.  The scan for a pattern looks for its first unit, tries
the rest from there, and goes on one unit later if that fails; each round uses
up at least one unit (`Cursor.remaining`), so it ends.

The scan never goes back, and the cursor behind an occurrence lies beyond the
one before it (`Cursor.findPattern_position`).
-/

set_option autoImplicit false

namespace SegmentedText
namespace Cursor

variable {α : Type} [TextUnit α]

/-! ## Matching at a cursor -/

/-- Follows a pattern from a cursor; the cursor behind it, if every unit matches. -/
def matchAt (segments : List Segment) (st : Store α) : List α → Cursor → Option Cursor
  | [], c => some c
  | u :: us, c =>
      match c.unit? segments st with
      | some v => if v = u then matchAt segments st us (c.advance segments) else none
      | none => none

theorem position_matchAt {segments : List Segment} {st : Store α} {pattern : List α}
    {c after : Cursor} (found : matchAt segments st pattern c = some after) :
    after.position = c.position + pattern.length := by
  induction pattern generalizing c with
  | nil =>
      cases found
      simp
  | cons u us ih =>
      rw [matchAt] at found
      split at found
      · split at found
        · have := ih found
          simp only [position_advance, List.length_cons] at this ⊢
          omega
        · cases found
      · cases found

/-! ## Finding a unit -/

/-- Looks for a unit in the segments from the cursor's own on. -/
def findUnitIn (u : α) (st : Store α) : List Segment → Cursor → Option Cursor
  | [], _ => none
  | s :: rest, c =>
      match s.indexOf u c.offset st with
      | some place =>
          some { c with offset := place, position := c.position + (place - c.offset) }
      | none =>
          findUnitIn u st rest
            { segment := c.segment + 1
              offset := c.offset - s.length
              position := c.position + (s.length - c.offset) }

/-- The next `u` at or behind a cursor. -/
def findUnit (segments : List Segment) (u : α) (st : Store α) (c : Cursor) : Option Cursor :=
  findUnitIn u st (segments.drop c.segment) c

theorem indexOf_bounds {s : Segment} {u : α} {start place : Nat} {st : Store α}
    (found : s.indexOf u start st = some place) : start ≤ place ∧ place < s.length := by
  obtain ⟨distance, here, rfl⟩ := Option.map_eq_some_iff.1 found
  have inside := (List.findIdx?_eq_some_iff_getElem.1 here).1
  have := s.length_content_le st
  rw [List.length_drop] at inside
  omega

theorem findUnitIn_bounds {segments : List Segment} {u : α} {st : Store α} {c found : Cursor}
    (result : findUnitIn u st (segments.drop c.segment) c = some found) :
    c.position ≤ found.position ∧ 0 < found.remaining segments ∧
      found.remaining segments ≤ c.remaining segments := by
  generalize left : segments.drop c.segment = rest at result
  induction rest generalizing c with
  | nil => cases result
  | cons s rest ih =>
      rw [findUnitIn] at result
      have behind : segments.drop (c.segment + 1) = rest := by
        rw [← List.drop_drop, left]
        rfl
      split at result
      next place here =>
        obtain ⟨after, inside⟩ := indexOf_bounds here
        cases result
        simp only [remaining, left, totalLength_cons]
        omega
      next =>
        have := ih behind result
        simp only [remaining, left, behind, totalLength_cons] at this ⊢
        omega

theorem findUnit_bounds {segments : List Segment} {u : α} {st : Store α} {c found : Cursor}
    (result : findUnit segments u st c = some found) :
    c.position ≤ found.position ∧ 0 < found.remaining segments ∧
      found.remaining segments ≤ c.remaining segments :=
  findUnitIn_bounds result

/-! ## Finding a pattern -/

/-- The next occurrence of a pattern at or behind a cursor: the cursors on its first unit and behind
its last.  The empty pattern has no first unit and is not found. -/
def findPattern (segments : List Segment) (pattern : List α) (st : Store α) (c : Cursor) :
    Option (Cursor × Cursor) :=
  match _result : pattern.head?.bind fun first => findUnit segments first st c with
  | none => none
  | some found =>
      match matchAt segments st pattern found with
      | some after => some (found, after)
      | none => findPattern segments pattern st (found.advance segments)
  termination_by c.remaining segments
  decreasing_by
    obtain ⟨first, _, here⟩ := Option.bind_eq_some_iff.1 _result
    have bounds := findUnit_bounds here
    rw [remaining_advance]
    omega

/-- An occurrence lies at or behind the cursor, and is as long as the pattern. -/
theorem findPattern_position {segments : List Segment} {pattern : List α} {st : Store α}
    {c found after : Cursor} (result : findPattern segments pattern st c = some (found, after)) :
    c.position ≤ found.position ∧ found.position < after.position ∧
      after.position = found.position + pattern.length := by
  fun_induction findPattern segments pattern st c with
  | case1 => cases result
  | case2 c here located behind matched =>
      cases result
      obtain ⟨first, leading, whole⟩ := Option.bind_eq_some_iff.1 located
      have := findUnit_bounds whole
      have := position_matchAt matched
      have : 0 < pattern.length := by
        cases pattern with
        | nil => cases leading
        | cons => exact Nat.succ_pos _
      omega
  | case3 c here located unmatched ih =>
      obtain ⟨first, leading, whole⟩ := Option.bind_eq_some_iff.1 located
      have := findUnit_bounds whole
      have := ih result
      simp only [position_advance] at this
      omega

end Cursor

/-! ## Questions to a buffer -/

namespace Buffer

variable {α : Type} [TextUnit α]

/-- The position of the first `u` at or behind `start`. -/
def indexOf (b : Buffer) (u : α) (start : Nat) (st : Store α) : Option Nat :=
  (Cursor.findUnit b.segments u st (Cursor.locate b.segments start)).map Cursor.position

/-- The position of the first occurrence of a pattern at or behind `start`.  The empty pattern
occurs everywhere up to the end. -/
def indexOfSlice (b : Buffer) (pattern : List α) (start : Nat) (st : Store α) : Option Nat :=
  if pattern.isEmpty then if start ≤ b.length then some start else none
  else
    (Cursor.findPattern b.segments pattern st (Cursor.locate b.segments start)).map
      fun occurrence => occurrence.1.position

/-- Whether a pattern occurs. -/
def contains (b : Buffer) (pattern : List α) (st : Store α) : Bool :=
  (b.indexOfSlice pattern 0 st).isSome

/-- Whether the content begins with a pattern. -/
def startsWith (b : Buffer) (pattern : List α) (st : Store α) : Bool :=
  (Cursor.matchAt b.segments st pattern (Cursor.locate b.segments 0)).isSome

/-- Whether the content ends with a pattern. -/
def endsWith (b : Buffer) (pattern : List α) (st : Store α) : Bool :=
  if b.length < pattern.length then false
  else
    (Cursor.matchAt b.segments st pattern
      (Cursor.locate b.segments (b.length - pattern.length))).isSome

end Buffer
end SegmentedText
