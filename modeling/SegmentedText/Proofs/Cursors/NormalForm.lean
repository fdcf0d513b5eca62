import Mathlib.Data.Nat.PSub
import Mathlib.Logic.Relation
import SegmentedText.Proofs.Flat.Splices
import SegmentedText.Proofs.Words.Cursors
import SegmentedText.Stream.Reader

/-!
# The normal form of cursors

A cursor is in normal form if it stands inside a segment, as far behind its start as its
position lies behind all segments before, or if it stands behind the last segment, with offset
zero and a position that is not in the text (`Cursor.Normal`).  Each position has one such cursor,
and it is the located one (`Cursor.normal_iff`).

Cursors are moved by one unit or within their segment, and each such move leads from one normal
form to another.  The scan for a unit is a row of jumps (`Cursor.findUnit_eq`), and so search and
readers move their cursors and do nothing else to them.  Only a splice exchanges the segments
under a cursor, and it locates the cursor anew.

Offsets are reckoned down while segments are passed.  Natural differences stop at zero, so that is
reckoned a second time with differences that do not exist where too much is taken away
(`Cursor.normalized?`); both ways agree on every list of segments.
-/

set_option autoImplicit false

namespace SegmentedText
namespace Cursor

variable {segments : List Segment} {c : Cursor} {s : Segment}

/-! ## One segment at a time -/

theorem drop_of_none (absent : segments[c.segment]? = none) : segments.drop c.segment = [] :=
  List.drop_eq_nil_of_le (List.getElem?_eq_none_iff.1 absent)

theorem normalized_of_none (absent : segments[c.segment]? = none) :
    c.normalized segments = { c with offset := 0 } := by
  rw [normalized, drop_of_none absent]
  rfl

theorem drop_segment (here : segments[c.segment]? = some s) :
    segments.drop c.segment = s :: segments.drop (c.segment + 1) := by
  obtain ⟨inside, rfl⟩ := List.getElem?_eq_some_iff.1 here
  exact List.drop_eq_getElem_cons inside

theorem normalized_of_lt (here : segments[c.segment]? = some s) (inside : c.offset < s.length) :
    c.normalized segments = c := by
  rw [normalized, drop_segment here, carry, if_pos inside]
  rfl

theorem normalized_of_le (here : segments[c.segment]? = some s) (past : s.length ≤ c.offset) :
    c.normalized segments =
      { c with segment := c.segment + 1, offset := c.offset - s.length : Cursor }.normalized
        segments := by
  rw [normalized, drop_segment here, carry, if_neg (Nat.not_lt.2 past)]
  simp only [normalized, Nat.add_assoc, Nat.add_comm 1]

/-! ## Differences that may not exist -/

/-- Passes over segments until the offset lies inside one, if its length can be taken from the
offset each time. -/
def normalized? (c : Cursor) (segments : List Segment) : Option Cursor :=
  match _here : segments[c.segment]? with
  | none => some { c with offset := 0 }
  | some s =>
      if c.offset < s.length then some c
      else do
        let left ← c.offset.psub s.length
        normalized? { c with segment := c.segment + 1, offset := left } segments
  termination_by segments.length - c.segment
  decreasing_by
    have := (List.getElem?_eq_some_iff.1 _here).1
    omega

/-- The cursor at a position, if every difference on the way exists. -/
def locate? (segments : List Segment) (position : Nat) : Option Cursor :=
  { segment := 0, offset := position, position : Cursor }.normalized? segments

/-- The next cursor, if every difference on the way exists. -/
def advance? (c : Cursor) (segments : List Segment) : Option Cursor :=
  { c with offset := c.offset + 1, position := c.position + 1 : Cursor }.normalized? segments

/-- The cursor at another offset of the same segment, if every difference on the way exists. -/
def jumpTo? (c : Cursor) (segments : List Segment) (offset : Nat) : Option Cursor := do
  let position ← (c.position + offset).psub c.offset
  { c with offset, position : Cursor }.normalized? segments

/-- Nothing is ever taken from something smaller. -/
theorem normalized?_eq (c : Cursor) (segments : List Segment) :
    c.normalized? segments = some (c.normalized segments) := by
  fun_induction normalized? c segments with
  | case1 c absent => rw [normalized_of_none absent]
  | case2 c s here inside => rw [normalized_of_lt here inside]
  | case3 c s here outside ih =>
      have past : s.length ≤ c.offset := Nat.not_lt.1 outside
      simp only [Nat.psub_eq_sub past, Option.bind_eq_bind, Option.bind_some]
      rw [ih, normalized_of_le here past]

theorem locate?_eq (segments : List Segment) (position : Nat) :
    locate? segments position = some (locate segments position) :=
  normalized?_eq _ _

theorem advance?_eq (c : Cursor) (segments : List Segment) :
    c.advance? segments = some (c.advance segments) :=
  normalized?_eq _ _

theorem jumpTo?_eq {offset : Nat} (enough : c.offset ≤ c.position + offset) :
    c.jumpTo? segments offset = some (c.jumpTo segments offset) := by
  rw [jumpTo?, Nat.psub_eq_sub enough]
  exact normalized?_eq _ _

/-! ## Normal form -/

/-- A cursor that is one with its position: it stands inside a segment, or behind the last. -/
inductive Normal (segments : List Segment) (c : Cursor) : Prop where
  /-- The position lies as far behind the segments before as the offset says. -/
  | inside {s : Segment} (here : segments[c.segment]? = some s) (offset : c.offset < s.length)
      (position : c.position = totalLength (segments.take c.segment) + c.offset)
  /-- How far the position lies behind the text is said by nothing else. -/
  | behind (segment : c.segment = segments.length) (offset : c.offset = 0)
      (position : totalLength segments ≤ c.position)

theorem normal_locate (segments : List Segment) (position : Nat) :
    (locate segments position).Normal segments := by
  by_cases within : position < totalLength segments
  · obtain ⟨s, here, offset, place⟩ := locate_inside within
    exact .inside here offset place.symm
  · have beyond := Nat.not_lt.1 within
    rw [locate_of_le beyond]
    exact .behind rfl rfl beyond

/-- A position has one normal form. -/
theorem normal_iff : c.Normal segments ↔ c = locate segments c.position := by
  refine ⟨fun normal => ?_, fun located => located ▸ normal_locate segments c.position⟩
  cases normal with
  | inside here offset place => rw [place, locate_of_inside here offset, ← place]
  | behind segment offset beyond => rw [locate_of_le beyond, ← segment, ← offset]

/-- A normal form that stands at a segment stands inside it. -/
theorem Normal.offset_lt (normal : c.Normal segments) (here : segments[c.segment]? = some s) :
    c.offset < s.length := by
  rw [normal_iff.1 normal] at here ⊢
  exact offset_lt_of_locate here

/-! ## Moves -/

/-- One move over segments that stay as they are: by one unit, or forward within the segment. -/
inductive Moves (segments : List Segment) (c : Cursor) : Cursor → Prop where
  | step {s : Segment} (here : segments[c.segment]? = some s) :
      Moves segments c (c.advance segments)
  | jump {s : Segment} {offset : Nat} (here : segments[c.segment]? = some s)
      (forward : c.offset ≤ offset) (within : offset ≤ s.length) :
      Moves segments c (c.jumpTo segments offset)

/-- Any number of moves. -/
abbrev Walks (segments : List Segment) : Cursor → Cursor → Prop :=
  Relation.ReflTransGen (Moves segments)

/-- A move leads from a normal form to a normal form. -/
theorem Normal.moves {c' : Cursor} (normal : c.Normal segments) (moves : Moves segments c c') :
    c'.Normal segments := by
  rw [normal_iff.1 normal] at moves
  cases moves with
  | step here =>
      rw [advance_locate (lt_of_segment_locate here)]
      exact normal_locate segments _
  | jump here forward within =>
      rw [jumpTo_locate (lt_of_segment_locate here) forward]
      exact normal_locate segments _

theorem Normal.walks {c' : Cursor} (normal : c.Normal segments) (walks : Walks segments c c') :
    c'.Normal segments := by
  induction walks with
  | refl => exact normal
  | tail _ moves ih => exact ih.moves moves

/-! ## Search -/

section Search

variable {α : Type} [TextUnit α] {st : Store α}

theorem walks_matchAt {pattern : List α} {after : Cursor}
    (found : matchAt segments st pattern c = some after) : Walks segments c after := by
  induction pattern generalizing c with
  | nil =>
      obtain rfl := Option.some.inj found
      exact .refl
  | cons u us ih =>
      rw [matchAt] at found
      split at found
      next v shown =>
        split at found
        next =>
          obtain ⟨s, here, -⟩ := Option.bind_eq_some_iff.1 shown
          exact (ih found).head (.step here)
        next => cases found
      next => cases found

theorem indexOf_of_le {u : α} {start : Nat} (past : s.length ≤ start) :
    s.indexOf u start st = none := by
  rw [Segment.indexOf, List.drop_eq_nil_of_le (Nat.le_trans (s.length_content_le st) past)]
  rfl

/-- The scan for a unit finds nothing in the segments that normal form passes over. -/
theorem findUnit_normalized (u : α) (c : Cursor) :
    findUnit segments u st (c.normalized segments) = findUnit segments u st c := by
  fun_induction normalized? c segments with
  | case1 c absent =>
      rw [normalized_of_none absent, findUnit, findUnit, drop_of_none absent]
      rfl
  | case2 c s here inside => rw [normalized_of_lt here inside]
  | case3 c s here outside ih =>
      have past : s.length ≤ c.offset := Nat.not_lt.1 outside
      have position : c.position + (s.length - c.offset) = c.position := by omega
      rw [normalized_of_le here past, ih, findUnit, findUnit, drop_segment here, findUnitIn,
        indexOf_of_le past, position]

/-- **The scan for a unit goes by jumps:** to the unit where the segment shows it, and else to the
end of the segment, and on from there. -/
theorem findUnit_eq (normal : c.Normal segments) (here : segments[c.segment]? = some s) (u : α) :
    findUnit segments u st c =
      match s.indexOf u c.offset st with
      | some place => some (c.jumpTo segments place)
      | none => findUnit segments u st (c.jumpTo segments s.length) := by
  have inside := Nat.le_of_lt (normal.offset_lt here)
  rw [findUnit, drop_segment here, findUnitIn]
  cases found : s.indexOf u c.offset st with
  | some place =>
      obtain ⟨forward, within⟩ := indexOf_bounds found
      have there : ({ c with offset := place, position := c.position + place - c.offset } :
          Cursor).normalized segments =
            { c with offset := place, position := c.position + place - c.offset } :=
        normalized_of_lt here within
      simp only [jumpTo]
      rw [there, Nat.add_sub_assoc forward]
  | none =>
      have there : ({ c with offset := s.length, position := c.position + s.length - c.offset } :
          Cursor).normalized segments =
            ({ segment := c.segment + 1, offset := s.length - s.length
               position := c.position + s.length - c.offset } : Cursor).normalized segments :=
        normalized_of_le here (Nat.le_refl _)
      simp only [jumpTo]
      rw [there, findUnit_normalized, findUnit, Nat.sub_self, Nat.sub_eq_zero_of_le inside,
        Nat.add_sub_assoc inside]

theorem walks_findUnit {u : α} {found : Cursor} (normal : c.Normal segments)
    (result : findUnit segments u st c = some found) : Walks segments c found := by
  -- Each jump leaves a segment behind.
  induction left : segments.length - c.segment using Nat.strongRecOn generalizing c with
  | ind left ih =>
      cases here : segments[c.segment]? with
      | none =>
          rw [findUnit, drop_of_none here] at result
          cases result
      | some s =>
          rw [findUnit_eq normal here] at result
          split at result
          next place there =>
            obtain rfl := Option.some.inj result
            obtain ⟨forward, within⟩ := indexOf_bounds there
            exact .single (.jump here forward (Nat.le_of_lt within))
          next =>
            have moves : Moves segments c (c.jumpTo segments s.length) :=
              .jump here (Nat.le_of_lt (normal.offset_lt here)) (Nat.le_refl _)
            have fewer := lt_segment_jumpTo here (Nat.le_refl s.length)
            have within := (List.getElem?_eq_some_iff.1 here).1
            exact (ih _ (by omega) (normal.moves moves) result rfl).head moves

/-- What is found stands at a segment. -/
theorem held_of_findUnit {u : α} {found : Cursor}
    (result : findUnit segments u st c = some found) :
    ∃ s, segments[found.segment]? = some s := by
  have left := (findUnit_bounds result).2.1
  cases here : segments[found.segment]? with
  | some s => exact ⟨s, rfl⟩
  | none =>
      rw [remaining, drop_of_none here, totalLength_nil, Nat.zero_sub] at left
      exact absurd left (Nat.lt_irrefl 0)

theorem walks_findPattern {pattern : List α} {found after : Cursor} (normal : c.Normal segments)
    (result : findPattern segments pattern st c = some (found, after)) :
    Walks segments c found ∧ Walks segments found after := by
  fun_induction findPattern segments pattern st c with
  | case1 => cases result
  | case2 c here located behind matched =>
      obtain ⟨rfl, rfl⟩ := Prod.mk.inj (Option.some.inj result)
      obtain ⟨first, -, first_found⟩ := Option.bind_eq_some_iff.1 located
      exact ⟨walks_findUnit normal first_found, walks_matchAt matched⟩
  | case3 c here located unmatched ih =>
      obtain ⟨first, -, first_found⟩ := Option.bind_eq_some_iff.1 located
      have walks := walks_findUnit normal first_found
      obtain ⟨s, held⟩ := held_of_findUnit first_found
      have moves : Moves segments here (here.advance segments) := .step held
      obtain ⟨onward, past⟩ := ih ((normal.walks walks).moves moves) result
      exact ⟨(walks.tail moves).trans onward, past⟩

end Search

/-! ## Readers -/

section Reading

variable {α : Type} {st : Store α}

theorem walks_gather {room : Nat} (normal : c.Normal segments) :
    Walks segments c (gather segments st c room).2 := by
  fun_induction gather segments st c room with
  | case1 => exact .refl
  | case2 => exact .refl
  | case3 c room s here some_room count block others behind gathered ih =>
      have inside := normal.offset_lt here
      have moves : Moves segments c (c.jumpTo segments (c.offset + count)) :=
        .jump here (Nat.le_add_right _ _) (by omega)
      rw [gathered] at ih
      exact (ih (normal.moves moves)).head moves

theorem walks_pour [TextUnit α] {delimiter : α} {around : Surroundings} {sink : Buffer}
    (normal : c.Normal segments) :
    Walks segments c (pour segments delimiter around c sink st).1 := by
  fun_induction pour segments delimiter around c sink st with
  | case1 => exact .refl
  | case2 c sink st s here place found r taken =>
      obtain ⟨forward, within⟩ := indexOf_bounds found
      exact .single (.jump here (by omega) within)
  | case3 => exact .refl
  | case4 c sink st s here absent r taken ih =>
      have moves : Moves segments c (c.jumpTo segments s.length) :=
        .jump here (Nat.le_of_lt (normal.offset_lt here)) (Nat.le_refl _)
      exact (ih (normal.moves moves)).head moves
  | case5 => exact .refl

end Reading

end Cursor

namespace Reader

variable {α : Type} {st : Store α} {r r' r'' : Reader α}

/-- A use of a reader that keeps the segments and moves the cursor over them. -/
structure Walks (r r' : Reader α) : Prop where
  segments : r'.segments = r.segments
  cursor : Cursor.Walks r.segments r.cursor r'.cursor

theorem Walks.refl (r : Reader α) : r.Walks r := ⟨rfl, .refl⟩

theorem Walks.trans (first : r.Walks r') (second : r'.Walks r'') : r.Walks r'' :=
  ⟨second.segments.trans first.segments, first.cursor.trans (first.segments ▸ second.cursor)⟩

theorem walks_read (r : Reader α) (st : Store α) : r.Walks (r.read st).2 := by
  rw [read]
  split
  next => exact ⟨rfl, .refl⟩
  next =>
    split
    next u shown =>
      obtain ⟨s, here, -⟩ := Option.bind_eq_some_iff.1 shown
      exact ⟨rfl, .single (.step here)⟩
    next => exact .refl r

theorem walks_take (r : Reader α) (st : Store α) (count : Nat) : r.Walks (r.take st count).2 := by
  induction count generalizing r with
  | zero => exact .refl r
  | succ count ih =>
      have first := r.walks_read st
      rw [take]
      split
      next u r' read =>
        rw [read] at first
        exact first.trans (ih r')
      next e r' read =>
        rw [read] at first
        exact first

theorem walks_readInto (normal : r.cursor.Normal r.segments) (destination : List α) :
    r.Walks (r.readInto destination st).2.2 := by
  have walks : Cursor.Walks r.segments r.cursor
      (r.cursor.gather r.segments st (destination.length - r.pushback.toList.length)).2 :=
    Cursor.walks_gather normal
  rw [readInto]
  split
  next => exact .refl r
  next =>
    dsimp only
    split
    next => exact ⟨rfl, walks⟩
    next => exact ⟨rfl, walks⟩

variable [TextUnit α]

theorem walks_pour (r : Reader α) (normal : r.cursor.Normal r.segments) (delimiter : α)
    (around : Surroundings) (sink : Buffer) : r.Walks (r.pour delimiter around sink st).1 :=
  ⟨rfl, Cursor.walks_pour normal⟩

theorem walks_readUntil (normal : r.cursor.Normal r.segments) (delimiter : α)
    (around : Surroundings) (sink : Buffer) :
    r.Walks (r.readUntil delimiter around sink st).1 := by
  rw [readUntil]
  split
  next => exact r.walks_pour normal delimiter around sink
  next u waits =>
    have emptied : r.Walks { r with pushback := none } := ⟨rfl, .refl⟩
    dsimp only
    split
    next => exact emptied
    next =>
      split
      next sink st appended =>
        exact emptied.trans (walks_pour { r with pushback := none } normal delimiter around sink)
      next => exact emptied

end Reader

/-! ## Runs -/

namespace Cursor

variable {segments : List Segment}

/-- A move of a cursor together with the segments under it: over them, or by a splice, which
exchanges them. -/
inductive Leads : List Segment × Cursor → List Segment × Cursor → Prop where
  | move {segments : List Segment} {c c' : Cursor} (moves : Moves segments c c') :
      Leads (segments, c) (segments, c')
  | splice {b r b' : Buffer} {start stop : Nat} {c c' : Cursor}
      (done : b.splice start stop r = .ok (b', c')) : Leads (b.segments, c) (b'.segments, c')

theorem Normal.leads {x y : List Segment × Cursor} (normal : x.2.Normal x.1) (leads : Leads x y) :
    y.2.Normal y.1 := by
  cases leads with
  | move moves => exact normal.moves moves
  | splice done =>
      rw [Buffer.cursor_splice done]
      exact normal_locate _ _

theorem Normal.run {x y : List Segment × Cursor} (normal : x.2.Normal x.1)
    (run : Relation.ReflTransGen Leads x y) : y.2.Normal y.1 := by
  induction run with
  | refl => exact normal
  | tail _ leads ih => exact ih.leads leads

/-! ## Positions and their names -/

/-- What the cursors over a list of segments are to the positions. -/
structure NormalForm (segments : List Segment) : Prop where
  /-- A position is located, and nothing is taken from something smaller on the way. -/
  located : ∀ position, locate? segments position = some (locate segments position)
  /-- A position in the text is located at one offset inside one segment, and at no other place can
  it be. -/
  inside : ∀ position < totalLength segments, ∃ (k offset : Nat) (s : Segment),
    locate segments position = ⟨k, offset, position⟩ ∧ segments[k]? = some s ∧ offset < s.length ∧
      position = totalLength (segments.take k) + offset ∧
      ∀ (k' offset' : Nat) (s' : Segment), segments[k']? = some s' → offset' < s'.length →
        position = totalLength (segments.take k') + offset' → k' = k ∧ offset' = offset
  /-- A position behind the text is located behind the last segment. -/
  behind : ∀ position, totalLength segments ≤ position →
    locate segments position = ⟨segments.length, 0, position⟩
  /-- A step leads from a position in the text to the next. -/
  step : ∀ position < totalLength segments,
    (locate segments position).advance segments = locate segments (position + 1)
  /-- A jump forward from a position in the text, to an offset in the segment, to its end or
  beyond, leads to the position as much further on. -/
  jump : ∀ position < totalLength segments, ∀ offset, (locate segments position).offset ≤ offset →
    (locate segments position).jumpTo segments offset =
      locate segments (position + offset - (locate segments position).offset)
  /-- Nor is anything taken from something smaller by a step or a jump. -/
  exact_moves : ∀ position offset,
    (locate segments position).advance? segments =
        some ((locate segments position).advance segments) ∧
      (locate segments position).jumpTo? segments offset =
        some ((locate segments position).jumpTo segments offset)
  /-- The sums are exact in machine words as well, if the text has less than half a word's range. -/
  words : totalLength segments < 2 * textLimit →
    ∀ position, (locate segments position).Exact segments
  /-- After any run of moves and splices the cursor is one with its position. -/
  runs : ∀ (position : Nat) (segments' : List Segment) (c : Cursor),
    Relation.ReflTransGen Leads (segments, locate segments position) (segments', c) →
      c.Normal segments'
  /-- A search only moves its cursor. -/
  search : ∀ {α : Type} [TextUnit α] (st : Store α) (c : Cursor), c.Normal segments →
    (∀ pattern after, matchAt segments st pattern c = some after → Walks segments c after) ∧
    (∀ u found, findUnit segments u st c = some found → Walks segments c found) ∧
    ∀ pattern found after, findPattern segments pattern st c = some (found, after) →
      Walks segments c found ∧ Walks segments found after
  /-- A reader only moves its cursor. -/
  reading : ∀ {α : Type} [TextUnit α] (st : Store α) (r : Reader α), r.segments = segments →
    r.cursor.Normal segments →
      r.Walks (r.read st).2 ∧ (∀ count, r.Walks (r.take st count).2) ∧
      (∀ destination, r.Walks (r.readInto destination st).2.2) ∧
      ∀ delimiter around sink, r.Walks (r.readUntil delimiter around sink st).1

/-- **Cursors in normal form and positions name each other**, on every list of segments, and
wherever search, splices and readers lead a cursor, it is in normal form. -/
theorem normal_form (segments : List Segment) : NormalForm segments where
  located := locate?_eq segments
  inside position within := by
    obtain ⟨s, here, offset, place⟩ := locate_inside within
    refine ⟨_, _, s, rfl, here, offset, place.symm, fun k' offset' s' there inside' place' => ?_⟩
    have same := locate_of_inside there inside'
    rw [← place'] at same
    exact ⟨(congrArg Cursor.segment same).symm, (congrArg Cursor.offset same).symm⟩
  behind _ beyond := locate_of_le beyond
  step _ within := advance_locate within
  jump position within offset forward := by
    rw [jumpTo_locate within forward, Nat.add_sub_assoc forward]
  exact_moves position offset := by
    refine ⟨advance?_eq _ _, jumpTo?_eq ?_⟩
    cases normal_locate segments position with
    | inside here offset place => omega
    | behind segment offset beyond => omega
  words short := exact_locate short
  runs position segments' c run := (normal_locate segments position).run run
  search st c normal :=
    ⟨fun _ _ => walks_matchAt, fun _ _ => walks_findUnit normal,
      fun _ _ _ => walks_findPattern normal⟩
  reading st r same normal := by
    subst same
    exact ⟨r.walks_read st, r.walks_take st, Reader.walks_readInto normal,
      Reader.walks_readUntil normal⟩

/-- Two segments with one between them that shows nothing. -/
def aroundHollow : List Segment := [⟨⟨0⟩, 0, 2, 2⟩, ⟨⟨0⟩, 2, 2, 2⟩, ⟨⟨0⟩, 2, 3, 3⟩]

/-- A jump to the end of the first segment passes over the one that shows nothing. -/
theorem normal_form_aroundHollow :
    totalLength aroundHollow = 3 ∧ locate aroundHollow 1 = ⟨0, 1, 1⟩ ∧
      (locate aroundHollow 1).jumpTo aroundHollow 2 = ⟨2, 0, 2⟩ ∧
      ∀ c, Relation.ReflTransGen Leads (aroundHollow, locate aroundHollow 1) (aroundHollow, c) →
        c.Normal aroundHollow := by
  have named := normal_form aroundHollow
  refine ⟨by decide, by decide, ?_, fun c run => named.runs 1 _ c run⟩
  rw [named.jump 1 (by decide) 2 (by decide)]
  decide

end Cursor

end SegmentedText
