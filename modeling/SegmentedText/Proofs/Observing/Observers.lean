import SegmentedText.Proofs.Flat.Questions
import SegmentedText.Proofs.Flat.Shortenings
import SegmentedText.Proofs.Serial.RoundTrip
import SegmentedText.Proofs.Streams.Drains
import SegmentedText.Proofs.Streams.Tapes

/-!
# Observers of a buffer

A buffer can be looked at in many ways: measured by segment, copied by block, read by unit,
by index, by a reader, from the front or from the back, written as text.  Each walks over
the segments in its own manner, and each could err at the edge of a segment or at one that
shows nothing.

They all see one list of units (`Buffer.Seen`), however the buffer is cut and whatever its
segments share.  So whether a buffer equals another one, or a text, is a matter of these
lists alone (`Buffer.seen_alike`).
-/

set_option autoImplicit false

namespace SegmentedText

variable {α : Type}

/-! ## Single observers -/

/-- The members of a list, looked up one after the other. -/
theorem filterMap_range_getElem? (units : List α) :
    (List.range units.length).filterMap (units[·]?) = units := by
  induction units with
  | nil => rfl
  | cons u us ih =>
      have first : (fun i => (u :: us)[i]?) 0 = some u := rfl
      have later : (fun i => (u :: us)[i]?) ∘ Nat.succ = (us[·]?) := rfl
      rw [List.length_cons, List.range_succ_eq_map, List.filterMap_cons_some first,
        List.filterMap_map, later, ih]

/-- The units of a window, read one by one. -/
theorem Segment.Valid.filterMap_unitAt {s : Segment} {st : Store α} (valid : s.Valid st) :
    (List.range s.length).filterMap (fun i => (s.unitAt i st).toOption) = s.content st := by
  have looked : ∀ i, (s.unitAt i st).toOption = (s.content st)[i]? := by
    intro i
    rw [unitAt]
    cases (s.content st)[i]? <;> rfl
  simp only [looked]
  rw [← valid.length_content]
  exact filterMap_range_getElem? _

namespace Buffer

variable {b : Buffer} {st : Store α}

theorem units_eq (valid : b.Valid st) : b.units st = b.content st :=
  List.flatMap_congr fun s here => (valid s here).filterMap_unitAt

theorem isEmpty_iff (valid : b.Valid st) : b.isEmpty = true ↔ b.content st = [] := by
  rw [isEmpty, List.all_eq_true, content, List.flatMap_eq_nil_iff]
  refine forall₂_congr fun s here => ?_
  rw [← (valid s here).isEmpty_content, List.isEmpty_iff]

theorem first?_eq (b : Buffer) (st : Store α) : b.first? st = (b.content st).head? :=
  List.head?_flatMap.symm

theorem last?_eq (b : Buffer) (st : Store α) : b.last? st = (b.content st).getLast? :=
  List.getLast?_flatMap.symm

/-! ## All observers -/

variable [TextUnit α]

/-- Every way of looking at a buffer sees the given units, and nothing else. -/
structure Seen (b : Buffer) (st : Store α) (units : List α) : Prop where
  length : b.length = units.length
  isEmpty : b.isEmpty = true ↔ units = []
  copied : b.toUnits st = units
  oneByOne : b.units st = units
  windows : (b.windows st).flatten = units
  /-- A reader gives the units one by one, and then says that there are no more. -/
  drained : ((Reader.ofBuffer b).rest st).1 = units ∧
    (((Reader.ofBuffer b).rest st).2.read st).1 = .error .reached
  /-- A reader gives all units in one block, as far as the destination reaches. -/
  block : ∀ destination, units ≠ [] → units.length ≤ destination.length →
    ((Reader.ofBuffer b).readInto destination st).1 = .ok units.length ∧
      ((Reader.ofBuffer b).readInto destination st).2.1 = units ++ destination.drop units.length
  filled : ∀ destination, units.length ≤ destination.length →
    b.fill destination st = .ok (units ++ destination.drop units.length, units.length)
  display : b.display st = String.ofList (units.map TextUnit.toChar)
  unitAt : ∀ i u, units[i]? = some u → b.unitAt i st = .ok u
  first : b.first? st = units.head?
  last : b.last? st = units.getLast?

/-- The units that are seen of a buffer are those of its content. -/
theorem Valid.seen (valid : b.Valid st) : b.Seen st (b.content st) where
  length := valid.length_content.symm
  isEmpty := isEmpty_iff valid
  copied := b.toUnits_eq st
  oneByOne := units_eq valid
  windows := b.flatten_windows st
  drained := by
    have follows := b.follows_ofBuffer st fun _ => none
    have ahead : (⟨none, b.content st, fun _ => none⟩ : Tape α).ahead = b.content st := rfl
    obtain ⟨rest, units⟩ := follows.take valid ((Reader.ofBuffer b).remaining + 1)
    have counted := follows.remaining_eq valid
    rw [ahead] at units counted
    refine ⟨units.trans (List.take_of_length_le (by omega)), ?_⟩
    have ended := (rest.read valid).2
    rwa [Tape.ahead_skip, ahead, List.drop_eq_nil_of_le (by omega)] at ended
  block destination some fits := by
    obtain ⟨-, answer, block⟩ := (b.follows_ofBuffer st fun _ => none).readInto valid destination
    have ahead : (⟨none, b.content st, fun _ => none⟩ : Tape α).ahead = b.content st := rfl
    rw [ahead, List.take_of_length_le fits] at answer block
    rw [if_neg fun none => some none.2] at answer
    exact ⟨answer, block⟩
  filled destination fits := by
    have total := valid.length_content
    rw [fill_eq valid, if_neg (by omega), total]
  display := b.display_eq st
  unitAt i u here := by
    rw [unitAt_eq valid, here]
  first := b.first?_eq st
  last := b.last?_eq st

/-- **All ways of looking at a buffer see one list of units.**

Whatever the segments of a buffer are, there is one list that every observer sees: its length, its
emptiness, its units copied, read one by one, by window, by a reader or into a destination, its
text, the unit at each index, and its ends.  Two buffers are equal exactly when these lists are,
and a buffer equals a text exactly when its list shows the characters of the text. -/
theorem seen_alike (valid : b.Valid st) :
    ∃ units, b.Seen st units ∧
      (∀ (c : Buffer) (others : List α), c.Valid st → c.Seen st others →
        (b.sameContent c st = true ↔ units = others)) ∧
      ∀ text : String, b.showsText text st = true ↔ units.map TextUnit.toChar = text.toList := by
  have seen := valid.seen
  refine ⟨b.content st, seen, fun c others _ other => ?_, fun text => ?_⟩
  · rw [sameContent, Bool.and_eq_true, beq_iff_eq, beq_iff_eq, seen.length, seen.oneByOne,
      other.length, other.oneByOne]
    exact and_iff_right_of_imp (congrArg List.length)
  · rw [showsText, seen.oneByOne, beq_iff_eq]

/-- Two windows over one array that overlap, with one between them that shows nothing; and the text
that they show, in an array of its own. -/
def overlapping : Buffer × Buffer × Store Char :=
  let (s, st) := Segment.ofUnits ['h', 'é', 'y'] {}
  let (whole, st) := ofUnits ['h', 'é', 'é', 'y'] st
  ({ segmentList := .held [s.window 0 2, s.window 1 1, s.window 1 3] }, whole, st)

theorem valid_overlapping :
    overlapping.1.Valid overlapping.2.2 ∧ overlapping.2.1.Valid overlapping.2.2 := by
  constructor
  · intro s here
    simp only [overlapping, segments, SegmentList.toList_held, List.mem_cons, List.not_mem_nil,
      or_false] at here
    rcases here with rfl | rfl | rfl
    all_goals exact ⟨by decide, by decide, by decide⟩
  · intro s here
    obtain rfl : s = ⟨⟨1⟩, 0, 4, 4⟩ := List.mem_singleton.1 here
    exact ⟨by decide, by decide, by decide⟩

theorem seen_alike_overlapping :
    overlapping.1.Valid overlapping.2.2 ∧
      overlapping.1.Seen overlapping.2.2 ['h', 'é', 'é', 'y'] ∧
      overlapping.1.sameContent overlapping.2.1 overlapping.2.2 = true ∧
      overlapping.1.showsText "héy" overlapping.2.2 = false := by
  obtain ⟨units, seen, alike, shows⟩ := seen_alike valid_overlapping.1
  obtain rfl : ['h', 'é', 'é', 'y'] = units :=
    (by decide : _ = overlapping.1.toUnits overlapping.2.2).trans seen.copied
  have whole : overlapping.2.1.Seen overlapping.2.2 ['h', 'é', 'é', 'y'] :=
    (by decide : overlapping.2.1.content overlapping.2.2 = ['h', 'é', 'é', 'y']) ▸
      valid_overlapping.2.seen
  refine ⟨valid_overlapping.1, seen, (alike _ _ valid_overlapping.2 whole).2 rfl, ?_⟩
  exact Bool.eq_false_iff.2 fun shown => absurd ((shows "héy").1 shown) (by decide)

end Buffer

end SegmentedText
