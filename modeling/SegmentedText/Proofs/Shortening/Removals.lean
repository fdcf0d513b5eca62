import Mathlib.Data.Nat.PSub
import SegmentedText.Proofs.Cutting.Parts

/-!
# Removal from the ends

Removing a number of units from one end of a buffer takes away that many of the cells that it
shows, or all of them, wherever its segments are cut.  The count goes down as segments are passed,
by the length of each.  Natural differences stop at zero, so the removals are computed a second
time with differences that do not exist where too much is taken away (`Buffer.removeStart?`,
`Buffer.removeEnd?`); both ways of computing agree as soon as every segment begins before it ends.

The two ends are passed differently.  At the front a count of zero still drops segments that show
nothing, at the end it drops none.  Removals at one end add up all the same, to the same buffer
(`Buffer.removeStart_removeStart`, `Buffer.removeEnd_removeEnd`).  Removals at opposite ends
commute but for the room behind the last segment, which depends on the segments that are still
there when it is shortened (`Buffer.shared_removeEnd_removeStart`).
-/

set_option autoImplicit false

namespace SegmentedText

/-! ## Differences that may not exist -/

namespace Segment

/-- The length of a segment that does not end before it begins. -/
def length? (s : Segment) : Option Nat := s.stop.psub s.start

/-- Drops up to `count` units from the front, if the length exists. -/
def removeStart? (s : Segment) (count : Nat) : Option Segment := do
  let length ← s.length?
  return { s with start := s.start + min count length }

/-- Drops up to `count` units from the end, if the length and the new end exist. -/
def removeEnd? (s : Segment) (around : Surroundings) (count : Nat) : Option Segment := do
  let length ← s.length?
  let stop ← s.stop.psub (min count length)
  return { s with stop := stop }.releaseTail around

variable {s : Segment}

theorem length?_eq (ordered : s.start ≤ s.stop) : s.length? = some s.length :=
  Nat.psub_eq_sub ordered

theorem removeStart?_eq (ordered : s.start ≤ s.stop) (count : Nat) :
    s.removeStart? count = some (s.removeStart count) := by
  rw [removeStart?, length?_eq ordered]
  rfl

theorem removeEnd?_eq (ordered : s.start ≤ s.stop) (around : Surroundings) (count : Nat) :
    s.removeEnd? around count = some (s.removeEnd around count) := by
  have enough : min count s.length ≤ s.stop := by
    simp only [length]
    omega
  rw [removeEnd?, length?_eq ordered]
  simp only [Option.bind_eq_bind, Option.bind_some, Nat.psub_eq_sub enough]
  rfl

end Segment

/-- The segments without the first `count` units, if every difference on the way exists. -/
def dropUnits? : List Segment → Nat → Option (List Segment)
  | [], _ => some []
  | s :: rest, count => do
      let length ← s.length?
      if count < length then
        let shorter ← s.removeStart? count
        return shorter :: rest
      else
        let left ← count.psub length
        dropUnits? rest left

/-- The segments, last one first, without the last `count` units, if every difference on the way
exists. -/
def dropLastUnits? (around : Surroundings) : List Segment → Nat → Option (List Segment)
  | [], _ => some []
  | last :: front, count =>
      if count = 0 then some (last :: front)
      else do
        let length ← last.length?
        if count < length then
          let shorter ← last.removeEnd? (around.besides front) count
          return shorter :: front
        else
          let left ← count.psub length
          dropLastUnits? around front left

namespace Buffer

/-- Drops up to `count` units from the front, if every difference on the way exists. -/
def removeStart? (b : Buffer) (count : Nat) : Option Buffer := do
  let left ← dropUnits? b.segments count
  return b.mapSegments fun _ => left

/-- Drops up to `count` units from the end, if every difference on the way exists. -/
def removeEnd? (b : Buffer) (around : Surroundings) (count : Nat) : Option Buffer := do
  let left ← dropLastUnits? around b.segments.reverse count
  return b.mapSegments fun _ => left.reverse

theorem mapSegments_congr {b : Buffer} {f g : List Segment → List Segment}
    (same : f b.segments = g b.segments) : b.mapSegments f = b.mapSegments g := by
  cases b with
  | mk segmentList layout =>
      cases segmentList with
      | vacant => rfl
      | held segments =>
          have here : f segments = g segments := same
          simp only [mapSegments, here]

/-- Changing the segments twice is changing them once, if nothing is made out of nothing. -/
theorem mapSegments_mapSegments (b : Buffer) {f g : List Segment → List Segment}
    (nothing : g [] = []) : (b.mapSegments f).mapSegments g = b.mapSegments fun l => g (f l) := by
  cases b with
  | mk segmentList layout =>
      cases segmentList with
      | vacant => rfl
      | held segments =>
          cases left : f segments with
          | nil => simp only [mapSegments, left, SegmentList.settle, nothing]
          | cons s rest => simp only [mapSegments, left, SegmentList.settle]

/-- The segments are changed alike if they are but for their room. -/
theorem shared_mapSegments_congr {b : Buffer} {f g : List Segment → List Segment}
    (same : (f b.segments).map Segment.shared = (g b.segments).map Segment.shared) :
    (b.mapSegments f).shared = (b.mapSegments g).shared := by
  cases b with
  | mk segmentList layout =>
      cases segmentList with
      | vacant => rfl
      | held segments =>
          have here : (f segments).map Segment.shared = (g segments).map Segment.shared := same
          cases left : f segments with
          | nil =>
              have gone : g segments = [] := by
                rw [left, List.map_nil] at here
                exact List.map_eq_nil_iff.1 here.symm
              simp only [mapSegments, left, gone]
          | cons s rest =>
              obtain ⟨t, others, other⟩ : ∃ t others, g segments = t :: others := by
                cases right : g segments with
                | nil => simp [left, right] at here
                | cons t others => exact ⟨t, others, rfl⟩
              rw [left, other] at here
              simp only [mapSegments, left, other, SegmentList.settle, shared, here]

end Buffer

open Buffer (Ordered)

section

variable {segments : List Segment}

theorem dropUnits?_eq (ordered : Ordered segments) (count : Nat) :
    dropUnits? segments count = some (dropUnits segments count) := by
  induction segments generalizing count with
  | nil => rfl
  | cons s rest ih =>
      have first : s.start ≤ s.stop := ordered s List.mem_cons_self
      have others : Ordered rest := fun t here => ordered t (List.mem_cons_of_mem s here)
      rw [dropUnits?, dropUnits, Segment.length?_eq first]
      simp only [Option.bind_eq_bind, Option.bind_some]
      split
      next inside => rw [Segment.removeStart?_eq first, Option.bind_some, Option.pure_def]
      next past => rw [Nat.psub_eq_sub (by omega), Option.bind_some, ih others]

theorem dropLastUnits?_eq (ordered : Ordered segments) (around : Surroundings) (count : Nat) :
    dropLastUnits? around segments count = some (dropLastUnits around segments count) := by
  induction segments generalizing count with
  | nil => rfl
  | cons last front ih =>
      have first : last.start ≤ last.stop := ordered last List.mem_cons_self
      have others : Ordered front := fun t here => ordered t (List.mem_cons_of_mem last here)
      rw [dropLastUnits?, dropLastUnits, Segment.length?_eq first]
      split
      next none => rfl
      next some =>
        simp only [Option.bind_eq_bind, Option.bind_some]
        split
        next inside => rw [Segment.removeEnd?_eq first, Option.bind_some, Option.pure_def]
        next past => rw [Nat.psub_eq_sub (by omega), Option.bind_some, ih others]

end

namespace Buffer

variable {b : Buffer}

theorem removeStart?_eq (ordered : Ordered b.segments) (count : Nat) :
    b.removeStart? count = some (b.removeStart count) := by
  rw [removeStart?, dropUnits?_eq ordered]
  exact congrArg some (mapSegments_congr rfl)

theorem removeEnd?_eq (ordered : Ordered b.segments) (around : Surroundings) (count : Nat) :
    b.removeEnd? around count = some (b.removeEnd around count) := by
  have reversed : Ordered b.segments.reverse := fun s here =>
    ordered s (List.mem_reverse.1 here)
  rw [removeEnd?, dropLastUnits?_eq reversed]
  exact congrArg some (mapSegments_congr rfl)

end Buffer

/-! ## Removals at one end -/

namespace Segment

theorem length_removeStart (s : Segment) (count : Nat) :
    (s.removeStart count).length = s.length - count := by
  rw [← length_cells, cells_removeStart, List.length_drop, length_cells]

theorem length_removeEnd (s : Segment) (around : Surroundings) (count : Nat) :
    (s.removeEnd around count).length = s.length - count := by
  rw [← length_cells, cells_removeEnd, List.length_take, length_cells]
  omega

theorem removeStart_removeStart (s : Segment) (first second : Nat) :
    (s.removeStart first).removeStart second = s.removeStart (first + second) := by
  have moved : min first s.length + min second (s.length - first) =
      min (first + second) s.length := by omega
  rw [removeStart, length_removeStart]
  simp only [removeStart, Nat.add_assoc, moved]

theorem removeEnd_removeEnd (s : Segment) (around : Surroundings) (first second : Nat) :
    (s.removeEnd around first).removeEnd around second = s.removeEnd around (first + second) := by
  have moved : s.stop - min first s.length - min second (s.length - first) =
      s.stop - min (first + second) s.length := by omega
  rw [removeEnd, length_removeEnd]
  cases shown : around.shows s.storage with
  | true => simp only [removeEnd, releaseTail, shown, if_true, moved]
  | false => simp only [removeEnd, releaseTail, shown, Bool.false_eq_true, if_false, moved]

end Segment

theorem dropUnits_of_lt {s : Segment} {count : Nat} (rest : List Segment)
    (inside : count < s.length) : dropUnits (s :: rest) count = s.removeStart count :: rest :=
  if_pos inside

theorem dropUnits_of_le {s : Segment} {count : Nat} (rest : List Segment)
    (past : s.length ≤ count) : dropUnits (s :: rest) count = dropUnits rest (count - s.length) :=
  if_neg (by omega)

theorem dropUnits_dropUnits (segments : List Segment) (first second : Nat) :
    dropUnits (dropUnits segments first) second = dropUnits segments (first + second) := by
  induction segments generalizing first with
  | nil => rfl
  | cons s rest ih =>
      rcases Nat.lt_or_ge first s.length with inside | past
      · have shorter := s.length_removeStart first
        rw [dropUnits_of_lt rest inside]
        rcases Nat.lt_or_ge (first + second) s.length with still | beyond
        · rw [dropUnits_of_lt rest (by omega), dropUnits_of_lt rest still,
            Segment.removeStart_removeStart]
        · rw [dropUnits_of_le rest (by omega), dropUnits_of_le rest beyond, shorter]
          congr 1
          omega
      · rw [dropUnits_of_le rest past, ih, dropUnits_of_le rest (by omega)]
        congr 1
        omega

section

variable (around : Surroundings)

@[simp] theorem dropLastUnits_zero (segments : List Segment) :
    dropLastUnits around segments 0 = segments := by
  cases segments with
  | nil => rfl
  | cons last front => rw [dropLastUnits, if_pos rfl]

theorem dropLastUnits_of_lt {last : Segment} {count : Nat} (front : List Segment)
    (counted : 0 < count) (inside : count < last.length) :
    dropLastUnits around (last :: front) count =
      last.removeEnd (around.besides front) count :: front := by
  rw [dropLastUnits, if_neg (by omega), if_pos inside]

theorem dropLastUnits_of_le {last : Segment} {count : Nat} (front : List Segment)
    (counted : 0 < count) (past : last.length ≤ count) :
    dropLastUnits around (last :: front) count =
      dropLastUnits around front (count - last.length) := by
  rw [dropLastUnits, if_neg (by omega), if_neg (by omega)]

theorem dropLastUnits_dropLastUnits (segments : List Segment) (first second : Nat) :
    dropLastUnits around (dropLastUnits around segments first) second =
      dropLastUnits around segments (first + second) := by
  induction segments generalizing first with
  | nil => rfl
  | cons last front ih =>
      rcases Nat.eq_zero_or_pos first with rfl | counted
      · rw [dropLastUnits_zero, Nat.zero_add]
      rcases Nat.eq_zero_or_pos second with rfl | more
      · rw [dropLastUnits_zero, Nat.add_zero]
      have both : 0 < first + second := Nat.add_pos_left counted second
      rcases Nat.lt_or_ge first last.length with inside | past
      · have shorter := last.length_removeEnd (around.besides front) first
        rw [dropLastUnits_of_lt around front counted inside]
        rcases Nat.lt_or_ge (first + second) last.length with still | beyond
        · rw [dropLastUnits_of_lt around front more (by omega),
            dropLastUnits_of_lt around front both still, Segment.removeEnd_removeEnd]
        · rw [dropLastUnits_of_le around front more (by omega),
            dropLastUnits_of_le around front both beyond, shorter]
          congr 1
          omega
      · rw [dropLastUnits_of_le around front counted past, ih,
          dropLastUnits_of_le around front both (by omega)]
        congr 1
        omega

end

namespace Buffer

theorem removeStart_removeStart (b : Buffer) (first second : Nat) :
    (b.removeStart first).removeStart second = b.removeStart (first + second) := by
  rw [removeStart, removeStart, mapSegments_mapSegments b rfl]
  exact mapSegments_congr (dropUnits_dropUnits b.segments first second)

theorem removeEnd_removeEnd (b : Buffer) (around : Surroundings) (first second : Nat) :
    (b.removeEnd around first).removeEnd around second = b.removeEnd around (first + second) := by
  rw [removeEnd, removeEnd, mapSegments_mapSegments b rfl]
  refine mapSegments_congr ?_
  rw [List.reverse_reverse, dropLastUnits_dropLastUnits]

end Buffer

/-! ## Removals at opposite ends -/

namespace Segment

theorem removeStart_of_le {s : Segment} {count : Nat} (le : count ≤ s.length) :
    s.removeStart count = { s with start := s.start + count } := by
  rw [removeStart, Nat.min_eq_left le]

theorem shared_removeEnd {s : Segment} (around : Surroundings) {count : Nat}
    (le : count ≤ s.length) :
    (s.removeEnd around count).shared = { s with stop := s.stop - count }.shared := by
  rw [removeEnd, releaseTail, Nat.min_eq_left le]
  split <;> rfl

/-- The two ends of a segment do not meet, so it does not matter which is moved first. -/
theorem shared_removeEnd_removeStart (s : Segment) (around : Surroundings) {front back : Nat}
    (within : front + back ≤ s.length) :
    ((s.removeStart front).removeEnd around back).shared =
      ((s.removeEnd around back).removeStart front).shared := by
  have ended := shared_removeEnd around (show back ≤ s.length by omega)
  have shorter := s.length_removeEnd around back
  have behind : back ≤ (s.removeStart front).length := by
    rw [length_removeStart]
    omega
  calc ((s.removeStart front).removeEnd around back).shared
      = { s with start := s.start + front, stop := s.stop - back }.shared := by
        rw [shared_removeEnd around behind, removeStart_of_le (by omega)]
    _ = { (s.removeEnd around back).shared with
          start := (s.removeEnd around back).shared.start + front } := by
        rw [ended]
        rfl
    _ = ((s.removeEnd around back).removeStart front).shared := by
        rw [removeStart_of_le (show front ≤ (s.removeEnd around back).length by omega)]
        rfl

end Segment

/-- The segments without the last `count` units. -/
def dropBack (around : Surroundings) (segments : List Segment) (count : Nat) : List Segment :=
  (dropLastUnits around segments.reverse count).reverse

section

variable (around : Surroundings)

/-- Units are dropped from the nearer segments, and from those further away when no unit of the
nearer ones is left. -/
theorem dropLastUnits_append (near far : List Segment) (count : Nat) :
    dropLastUnits around (near ++ far) count =
      if count ≤ totalLength near then dropLastUnits (around.besides far) near count ++ far
      else dropLastUnits around far (count - totalLength near) := by
  induction near generalizing count with
  | nil =>
      rw [List.nil_append, totalLength_nil]
      split
      next none => rw [Nat.le_zero.1 none, dropLastUnits_zero, dropLastUnits_zero, List.nil_append]
      next some => rfl
  | cons last front ih =>
      rcases Nat.eq_zero_or_pos count with rfl | counted
      · rw [dropLastUnits_zero, dropLastUnits_zero, if_pos (Nat.zero_le _)]
      rw [List.cons_append, totalLength_cons]
      rcases Nat.lt_or_ge count last.length with inside | past
      · have beside : (around.besides far).besides front = around.besides (front ++ far) := by
          simp only [Surroundings.besides, List.append_assoc]
        rw [dropLastUnits_of_lt around _ counted inside, if_pos (by omega),
          dropLastUnits_of_lt _ _ counted inside, beside, List.cons_append]
      · rw [dropLastUnits_of_le around _ counted past, ih, dropLastUnits_of_le _ _ counted past]
        by_cases within : count - last.length ≤ totalLength front
        · rw [if_pos within, if_pos (by omega)]
        · rw [if_neg within, if_neg (by omega), Nat.sub_add_eq]

/-- Nothing is left when more is dropped than is shown. -/
theorem dropLastUnits_of_lt_count {segments : List Segment} {count : Nat}
    (beyond : totalLength segments < count) : dropLastUnits around segments count = [] := by
  induction segments generalizing count with
  | nil => rfl
  | cons last front ih =>
      rw [totalLength_cons] at beyond
      rw [dropLastUnits_of_le around front (by omega) (by omega)]
      exact ih (by omega)

/-- What is left of a list of segments does not depend on what else is alive, but for room. -/
theorem shared_dropLastUnits (around other : Surroundings) (segments : List Segment)
    (count : Nat) :
    (dropLastUnits around segments count).map Segment.shared =
      (dropLastUnits other segments count).map Segment.shared := by
  induction segments generalizing count with
  | nil => rfl
  | cons last front ih =>
      rcases Nat.eq_zero_or_pos count with rfl | counted
      · rw [dropLastUnits_zero, dropLastUnits_zero]
      rcases Nat.lt_or_ge count last.length with inside | past
      · have le := Nat.le_of_lt inside
        rw [dropLastUnits_of_lt around front counted inside,
          dropLastUnits_of_lt other front counted inside, List.map_cons, List.map_cons,
          Segment.shared_removeEnd _ le, Segment.shared_removeEnd _ le]
      · rw [dropLastUnits_of_le around front counted past,
          dropLastUnits_of_le other front counted past, ih]

theorem totalLength_dropUnits_le (segments : List Segment) (count : Nat) :
    totalLength (dropUnits segments count) ≤ totalLength segments := by
  rw [← length_cellsOf, cellsOf_dropUnits, List.length_drop, length_cellsOf]
  exact Nat.sub_le _ _

theorem dropBack_of_lt_count {segments : List Segment} {count : Nat}
    (beyond : totalLength segments < count) : dropBack around segments count = [] := by
  rw [dropBack, dropLastUnits_of_lt_count around (by rwa [totalLength_reverse]), List.reverse_nil]

/-- The first segment stays as it is until all others are gone. -/
theorem dropBack_of_le {rest : List Segment} {count : Nat} (s : Segment)
    (within : count ≤ totalLength rest) :
    dropBack around (s :: rest) count = s :: dropBack (around.besides [s]) rest count := by
  rw [dropBack, List.reverse_cons, dropLastUnits_append, totalLength_reverse, if_pos within,
    List.reverse_append]
  rfl

/-- When all others are gone, the first segment is shortened or goes as well. -/
theorem dropBack_of_lt {rest : List Segment} {count : Nat} (s : Segment)
    (beyond : totalLength rest < count) :
    dropBack around (s :: rest) count =
      if count - totalLength rest < s.length then
        [s.removeEnd (around.besides []) (count - totalLength rest)]
      else [] := by
  rw [dropBack, List.reverse_cons, dropLastUnits_append, totalLength_reverse,
    if_neg (by omega)]
  split
  next inside => rw [dropLastUnits_of_lt around [] (by omega) inside, List.reverse_singleton]
  next past => rw [dropLastUnits_of_le around [] (by omega) (by omega)]; rfl

theorem shared_dropBack (around other : Surroundings) (segments : List Segment) (count : Nat) :
    (dropBack around segments count).map Segment.shared =
      (dropBack other segments count).map Segment.shared := by
  rw [dropBack, dropBack, List.map_reverse, List.map_reverse,
    shared_dropLastUnits around other]

/-- Dropping from both ends of a single segment. -/
theorem shared_dropBack_of_lt {rest : List Segment} {s : Segment} {front back : Nat}
    (inside : front < s.length) (beyond : totalLength rest < back) :
    (dropBack around (s.removeStart front :: rest) back).map Segment.shared =
      (dropUnits (dropBack around (s :: rest) back) front).map Segment.shared := by
  have shorter := s.length_removeStart front
  have left := s.length_removeEnd (around.besides []) (back - totalLength rest)
  rw [dropBack_of_lt around _ beyond, dropBack_of_lt around _ beyond]
  by_cases apart : front + (back - totalLength rest) < s.length
  · rw [if_pos (by omega), if_pos (by omega), dropUnits_of_lt [] (by omega), List.map_singleton,
      List.map_singleton, Segment.shared_removeEnd_removeStart s _ (by omega)]
  · rw [if_neg (by omega)]
    split
    next => rw [dropUnits_of_le [] (by omega)]; rfl
    next => rfl

/-- Dropping from the front and dropping from the back commute, but for room. -/
theorem shared_dropBack_dropUnits (segments : List Segment) (front back : Nat) :
    (dropBack around (dropUnits segments front) back).map Segment.shared =
      (dropUnits (dropBack around segments back) front).map Segment.shared := by
  induction segments generalizing front around with
  | nil => rfl
  | cons s rest ih =>
      rcases Nat.lt_or_ge front s.length with inside | past
      · rw [dropUnits_of_lt rest inside]
        rcases Nat.lt_or_ge (totalLength rest) back with beyond | within
        · exact shared_dropBack_of_lt around inside beyond
        · rw [dropBack_of_le around _ within, dropBack_of_le around _ within,
            dropUnits_of_lt _ inside, List.map_cons, List.map_cons,
            shared_dropBack _ (around.besides [s])]
      · rw [dropUnits_of_le rest past]
        rcases Nat.lt_or_ge (totalLength rest) back with beyond | within
        · -- Nothing is left of the segments behind, and the front takes the rest of the first.
          have fewer := totalLength_dropUnits_le rest (front - s.length)
          have shorter := s.length_removeEnd (around.besides []) (back - totalLength rest)
          rw [dropBack_of_lt_count around (by omega), dropBack_of_lt around _ beyond]
          split
          next => rw [dropUnits_of_le [] (by omega)]; rfl
          next => rfl
        · rw [dropBack_of_le around _ within, dropUnits_of_le _ past, ← ih,
            shared_dropBack _ (around.besides [s])]

end

namespace Buffer

theorem shared_removeEnd_removeStart (b : Buffer) (around : Surroundings) (front back : Nat) :
    ((b.removeStart front).removeEnd around back).shared =
      ((b.removeEnd around back).removeStart front).shared := by
  rw [removeStart, removeEnd, removeEnd, removeStart, mapSegments_mapSegments b rfl,
    mapSegments_mapSegments b rfl]
  exact shared_mapSegments_congr (shared_dropBack_dropUnits around b.segments front back)

/-! ## Removal as a whole -/

/-- What is left of a buffer when units are removed from its ends. -/
structure Removed (b : Buffer) (around : Surroundings) : Prop where
  /-- Nothing is ever taken from something smaller at the front. -/
  front_exact : ∀ count, b.removeStart? count = some (b.removeStart count)
  /-- Nothing is ever taken from something smaller at the end. -/
  back_exact : ∀ count, b.removeEnd? around count = some (b.removeEnd around count)
  /-- The cells behind the first `count` are left, or none. -/
  front : ∀ count, (b.removeStart count).cells = b.cells.drop (min count b.length)
  /-- The cells before the last `count` are left, or none. -/
  back : ∀ count,
    (b.removeEnd around count).cells = b.cells.take (b.length - min count b.length)
  /-- Removals at the front add up. -/
  front_twice : ∀ first second,
    (b.removeStart first).removeStart second = b.removeStart (first + second)
  /-- Removals at the end add up. -/
  back_twice : ∀ first second,
    (b.removeEnd around first).removeEnd around second = b.removeEnd around (first + second)
  /-- Removals at opposite ends leave the same cells in the same segments, whichever is first. -/
  opposite : ∀ front back,
    ((b.removeStart front).removeEnd around back).cells =
        ((b.removeEnd around back).removeStart front).cells ∧
      ((b.removeStart front).removeEnd around back).shared =
        ((b.removeEnd around back).removeStart front).shared
  /-- The part from a place on shows what removal at the front leaves. -/
  part_from : ∀ count ≤ b.length, ∃ part,
    b.substringFrom count = .ok part ∧ part.cells = (b.removeStart count).cells
  /-- The part up to a place shows what removal at the end leaves. -/
  part_to : ∀ count ≤ b.length, ∃ part,
    b.substring 0 (b.length - count) = .ok part ∧ part.cells = (b.removeEnd around count).cells

/-- **Removal from an end takes away as many cells as are to be removed, or all of them.**

Nothing is ever taken from something smaller, however the buffer is cut and whatever is alive around
it, and the removals add up, commute and agree with parts as `Buffer.Removed` says. -/
theorem removed_from_ends (b : Buffer) (ordered : Ordered b.segments) (around : Surroundings) :
    b.Removed around where
  front_exact := removeStart?_eq ordered
  back_exact := removeEnd?_eq ordered around
  front count := by
    rw [cells_removeStart]
    rcases Nat.le_total count b.length with within | beyond
    · rw [Nat.min_eq_left within]
    · rw [Nat.min_eq_right beyond, List.drop_eq_nil_of_le (by rwa [length_cells]),
        List.drop_eq_nil_of_le (by rw [length_cells])]
  back count := by
    rw [cells_removeEnd]
    congr 1
    omega
  front_twice := b.removeStart_removeStart
  back_twice := b.removeEnd_removeEnd around
  opposite front back := by
    have same := b.shared_removeEnd_removeStart around front back
    refine ⟨?_, same⟩
    rw [← cells_shared, same, cells_shared]
  part_from count within := by
    have inside : b.length ≤ b.length ∨ b.length ≤ count := .inl (Nat.le_refl _)
    obtain ⟨cut, shown⟩ := exists_substring inside
    refine ⟨b.part count b.length, ?_, ?_⟩
    · rw [substringFrom, if_neg (by omega), cut]
    · rw [shown, ← length_cells, List.take_length, cells_removeStart]
  part_to count within := by
    have inside : b.length - count ≤ b.length ∨ b.length - count ≤ 0 := .inl (Nat.sub_le ..)
    obtain ⟨cut, shown⟩ := exists_substring inside
    refine ⟨b.part 0 (b.length - count), cut, ?_⟩
    rw [shown, List.drop_zero, cells_removeEnd]

/-- A buffer whose segments share arrays, with two that show nothing. -/
def sharedAndHollow : Buffer :=
  ⟨.held [⟨⟨0⟩, 3, 3, 3⟩, ⟨⟨0⟩, 0, 3, 3⟩, ⟨⟨1⟩, 2, 2, 2⟩, ⟨⟨0⟩, 1, 4, 8⟩], {}⟩

theorem removed_from_ends_sharedAndHollow :
    Ordered sharedAndHollow.segments ∧ sharedAndHollow.Removed {} ∧
      (sharedAndHollow.removeEnd {} 3).segments =
        [⟨⟨0⟩, 3, 3, 3⟩, ⟨⟨0⟩, 0, 3, 3⟩, ⟨⟨1⟩, 2, 2, 2⟩] ∧
      ((sharedAndHollow.removeStart 4).removeEnd {} 1).segments = [⟨⟨0⟩, 2, 3, 8⟩] ∧
      ((sharedAndHollow.removeEnd {} 1).removeStart 4).segments = [⟨⟨0⟩, 2, 3, 3⟩] := by
  have ordered : ∀ s ∈ sharedAndHollow.segments, s.start ≤ s.stop := by decide
  exact ⟨ordered, removed_from_ends sharedAndHollow ordered {}, by decide, by decide, by decide⟩

end Buffer
end SegmentedText
