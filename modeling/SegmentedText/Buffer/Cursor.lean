import SegmentedText.Segment.Search

/-!
# Cursors

A cursor names one unit in a list of segments: the segment that shows it, the
offset within that segment, and the position counted over the whole list.  A
cursor in normal form has its offset inside its segment, or stands behind the
last segment with offset zero; segments that show nothing are passed over.

An offset that has run past its segment is carried into the following ones
(`Cursor.carry`).  The measure of the scans is `Cursor.remaining`, the number of
units from the cursor on.  The main statements are that carrying loses no unit
(`Cursor.remaining_normalized`), that one step forward uses up one unit
(`Cursor.remaining_advance`), and that a position within the text is split into a
segment and an offset inside it (`Cursor.locate_inside`).
-/

set_option autoImplicit false

namespace SegmentedText

/-- The number of units that a list of segments shows. -/
def totalLength : List Segment → Nat
  | [] => 0
  | s :: rest => s.length + totalLength rest

@[simp] theorem totalLength_nil : totalLength [] = 0 := rfl

@[simp] theorem totalLength_cons (s : Segment) (segments : List Segment) :
    totalLength (s :: segments) = s.length + totalLength segments := rfl

@[simp] theorem totalLength_append (front back : List Segment) :
    totalLength (front ++ back) = totalLength front + totalLength back := by
  induction front with
  | nil => exact (Nat.zero_add _).symm
  | cons s rest ih => rw [List.cons_append, totalLength_cons, totalLength_cons, ih, Nat.add_assoc]

/-- A place in a list of segments. -/
structure Cursor where
  /-- The number of segments before the one at hand. -/
  segment : Nat
  /-- The offset within that segment. -/
  offset : Nat
  /-- The position counted over all segments. -/
  position : Nat
  deriving Repr, DecidableEq

namespace Cursor

/-! ## Moving -/

/-- Carries an offset over the segments that it has run past: how many they are, and what is left
of the offset.  Nothing is left behind the last segment. -/
def carry : List Segment → Nat → Nat × Nat
  | [], _ => (0, 0)
  | s :: rest, offset =>
      if offset < s.length then (0, offset)
      else
        let (passed, left) := carry rest (offset - s.length)
        (passed + 1, left)

/-- The cursor in normal form. -/
def normalized (c : Cursor) (segments : List Segment) : Cursor :=
  let (passed, left) := carry (segments.drop c.segment) c.offset
  { c with segment := c.segment + passed, offset := left }

/-- The cursor at a position. -/
def locate (segments : List Segment) (position : Nat) : Cursor :=
  { segment := 0, offset := position, position : Cursor }.normalized segments

/-- Whether the cursor stands behind the last segment. -/
def isEnd (c : Cursor) (segments : List Segment) : Bool := segments.length ≤ c.segment

/-- The next cursor. -/
def advance (c : Cursor) (segments : List Segment) : Cursor :=
  { c with offset := c.offset + 1, position := c.position + 1 }.normalized segments

/-- The cursor at another offset of the same segment. -/
def jumpTo (c : Cursor) (segments : List Segment) (offset : Nat) : Cursor :=
  { c with offset := offset, position := c.position + offset - c.offset }.normalized segments

/-- The unit that a cursor names. -/
def unit? {α : Type} (c : Cursor) (segments : List Segment) (st : Store α) : Option α :=
  segments[c.segment]?.bind fun s => (s.content st)[c.offset]?

/-! ## What is left -/

/-- The number of units from the cursor on. -/
def remaining (c : Cursor) (segments : List Segment) : Nat :=
  totalLength (segments.drop c.segment) - c.offset

theorem totalLength_drop_carry (segments : List Segment) (offset : Nat) :
    totalLength (segments.drop (carry segments offset).1) - (carry segments offset).2 =
      totalLength segments - offset := by
  induction segments generalizing offset with
  | nil => simp [carry]
  | cons s rest ih =>
      rw [carry]
      split
      · simp
      · have := ih (offset - s.length)
        simp only [List.drop_succ_cons, totalLength_cons, this]
        omega

/-- Normal form changes neither the position nor what is left. -/
theorem remaining_normalized (c : Cursor) (segments : List Segment) :
    (c.normalized segments).remaining segments = c.remaining segments := by
  simp only [normalized, remaining, ← List.drop_drop]
  exact totalLength_drop_carry _ _

@[simp] theorem position_normalized (c : Cursor) (segments : List Segment) :
    (c.normalized segments).position = c.position := rfl

/-- One step forward uses up one unit. -/
theorem remaining_advance (c : Cursor) (segments : List Segment) :
    (c.advance segments).remaining segments = c.remaining segments - 1 := by
  rw [advance, remaining_normalized]
  simp only [remaining]
  omega

@[simp] theorem position_advance (c : Cursor) (segments : List Segment) :
    (c.advance segments).position = c.position + 1 := rfl

/-! ## Normal form -/

/-- What is left of a carried offset lies inside the segment it was carried to. -/
theorem carry_inside {segments : List Segment} {offset : Nat} {s : Segment}
    (here : segments[(carry segments offset).1]? = some s) :
    (carry segments offset).2 < s.length := by
  induction segments generalizing offset with
  | nil => simp [carry] at here
  | cons t rest ih =>
      by_cases inside : offset < t.length
      · simp only [carry, inside, if_true, List.getElem?_cons_zero, Option.some.injEq] at here ⊢
        exact here ▸ inside
      · simp only [carry, inside, if_false, List.getElem?_cons_succ] at here ⊢
        exact ih here

theorem carry_le_length (segments : List Segment) (offset : Nat) :
    (carry segments offset).1 ≤ segments.length := by
  induction segments generalizing offset with
  | nil => simp [carry]
  | cons s rest ih =>
      rw [carry]
      split
      · exact Nat.zero_le _
      · exact Nat.succ_le_succ (ih _)

/-- An offset within the text is split into whole segments and an offset inside the next. -/
theorem totalLength_take_carry {segments : List Segment} {offset : Nat}
    (inside : offset < totalLength segments) :
    totalLength (segments.take (carry segments offset).1) + (carry segments offset).2 = offset ∧
      (carry segments offset).1 < segments.length := by
  induction segments generalizing offset with
  | nil => simp at inside
  | cons s rest ih =>
      rw [carry]
      split
      · simp
      · rw [totalLength_cons] at inside
        have beyond : offset - s.length < totalLength rest := by omega
        obtain ⟨split, fewer⟩ := ih beyond
        simp only [List.take_succ_cons, totalLength_cons, List.length_cons]
        omega

/-- An offset that has left its segment is carried at least one segment on. -/
theorem carry_pos {s : Segment} {rest : List Segment} {offset : Nat} (past : s.length ≤ offset) :
    0 < (carry (s :: rest) offset).1 := by
  rw [carry, if_neg (by omega)]
  exact Nat.succ_pos _

theorem le_segment_jumpTo (c : Cursor) (segments : List Segment) (offset : Nat) :
    c.segment ≤ (c.jumpTo segments offset).segment := Nat.le_add_right _ _

/-- A jump to the end of a segment leads to a later one. -/
theorem lt_segment_jumpTo {c : Cursor} {segments : List Segment} {offset : Nat} {s : Segment}
    (here : segments[c.segment]? = some s) (past : s.length ≤ offset) :
    c.segment < (c.jumpTo segments offset).segment := by
  obtain ⟨inside, rfl⟩ := List.getElem?_eq_some_iff.1 here
  have begins : segments.drop c.segment = segments[c.segment] :: segments.drop (c.segment + 1) :=
    List.drop_eq_getElem_cons inside
  have passed : 0 < (carry (segments[c.segment] :: segments.drop (c.segment + 1)) offset).1 :=
    carry_pos past
  simp only [jumpTo, normalized, begins]
  omega

/-- A position within the text is located in a segment, at an offset inside it. -/
theorem locate_inside {segments : List Segment} {position : Nat}
    (inside : position < totalLength segments) :
    ∃ s, segments[(locate segments position).segment]? = some s ∧
      (locate segments position).offset < s.length ∧
      totalLength (segments.take (locate segments position).segment) +
        (locate segments position).offset = position := by
  have found := totalLength_take_carry inside
  have here : segments[(carry segments position).1]? = some segments[(carry segments position).1] :=
    List.getElem?_eq_getElem found.2
  refine ⟨_, ?_, carry_inside here, ?_⟩
  · simp [locate, normalized]
  · simp [locate, normalized, found.1]

@[simp] theorem position_locate (segments : List Segment) (position : Nat) :
    (locate segments position).position = position := rfl

end Cursor
end SegmentedText
