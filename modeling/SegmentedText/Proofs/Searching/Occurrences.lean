import SegmentedText.Proofs.Flat.Questions

/-!
# Searches told by the text alone

A pattern occurs at a place of a text if the text begins with the pattern from there on
(`OccursAt`).  The empty pattern so occurs at every place up to the end, and at no place
behind it.  A search from some place on gives the least place there at which the pattern
occurs (`FirstFrom`), or none if it occurs at none.

All searches are told in these words, and none of them by another: the search with a cursor
across segments, the scan over the windows of one segment, and the search for a byte string,
which is not given here and of which nothing else is assumed
(`Buffer.finds_as_text`).  How the text is cut into segments, and how many of them show
nothing, is no part of the answer.
-/

set_option autoImplicit false

namespace SegmentedText

/-! ## Places at which a pattern occurs -/

section

variable {α : Type} {pattern text : List α} {start place : Nat}

/-- The text begins with the pattern from a place on. -/
def OccursAt (pattern text : List α) (place : Nat) : Prop :=
  place ≤ text.length ∧ pattern <+: text.drop place

/-- The least place at or behind `start` at which the pattern occurs. -/
structure FirstFrom (start : Nat) (pattern text : List α) (place : Nat) : Prop where
  le : start ≤ place
  here : OccursAt pattern text place
  least : ∀ earlier, start ≤ earlier → earlier < place → ¬OccursAt pattern text earlier

theorem occursAt_nil : OccursAt [] text place ↔ place ≤ text.length :=
  and_iff_left List.nil_prefix

/-- A single unit occurs where it is. -/
theorem occursAt_singleton {u : α} : OccursAt [u] text place ↔ text[place]? = some u := by
  rw [← List.head?_drop]
  constructor
  · rintro ⟨-, behind, whole⟩
    rw [← whole]
    rfl
  · intro first
    obtain ⟨behind, whole⟩ := List.head?_eq_some_iff.1 first
    refine ⟨?_, behind, whole.symm⟩
    by_contra beyond
    rw [List.drop_eq_nil_of_le (by omega)] at whole
    cases whole

/-- Seen from `start` on, the places are counted from there. -/
theorem occursAt_drop (inside : start ≤ text.length) :
    OccursAt pattern (text.drop start) place ↔ OccursAt pattern text (start + place) := by
  rw [OccursAt, OccursAt, List.drop_drop, List.length_drop]
  refine and_congr_left fun _ => ?_
  omega

theorem exists_occursAt_iff_infix : (∃ place, OccursAt pattern text place) ↔ pattern <:+: text := by
  constructor
  · rintro ⟨place, -, behind, whole⟩
    refine ⟨text.take place, behind, ?_⟩
    rw [List.append_assoc, whole, List.take_append_drop]
  · rintro ⟨before, behind, rfl⟩
    refine ⟨before.length, ?_, behind, ?_⟩
    · simp only [List.length_append]
      omega
    · rw [List.append_assoc, List.drop_left' rfl]

/-- A search from `start` on is one through what lies from there on. -/
theorem firstFrom_iff_drop (inside : start ≤ text.length) {distance : Nat} :
    FirstFrom start pattern text (start + distance) ↔
      FirstFrom 0 pattern (text.drop start) distance := by
  constructor
  · intro first
    refine ⟨Nat.zero_le _, (occursAt_drop inside).2 first.here, fun earlier _ less before => ?_⟩
    exact first.least (start + earlier) (by omega) (by omega) ((occursAt_drop inside).1 before)
  · intro first
    refine ⟨Nat.le_add_right _ _, (occursAt_drop inside).1 first.here, fun earlier le less => ?_⟩
    have apart : earlier = start + (earlier - start) := by omega
    rw [apart]
    exact fun before => first.least (earlier - start) (Nat.zero_le _) (by omega)
      ((occursAt_drop inside).2 before)

/-- What is found from `start` on lies at some distance from there, and `start` within the text. -/
theorem FirstFrom.exists_distance (first : FirstFrom start pattern text place) :
    start ≤ text.length ∧ ∃ distance, place = start + distance := by
  have le := first.le
  have inside := first.here.1
  exact ⟨by omega, place - start, by omega⟩

end

/-! ## Searches in a list -/

section

variable {α : Type} {text : List α} {start place : Nat}

/-- A search that gives the first place at which a pattern occurs, if it occurs at all. -/
def FindsFirst (find : List α → List α → Option Nat) : Prop :=
  ∀ pattern text place, find pattern text = some place ↔ FirstFrom 0 pattern text place

/-- A search through what lies from `start` on, if that is within the text. -/
theorem eq_some_of_findsFirst {find : List α → List α → Option Nat} (finds : FindsFirst find)
    {pattern : List α} :
    (if text.length < start then none
      else (find pattern (text.drop start)).map (start + ·)) = some place ↔
      FirstFrom start pattern text place := by
  constructor
  · intro found
    split at found
    next => cases found
    next inside =>
      obtain ⟨distance, there, rfl⟩ := Option.map_eq_some_iff.1 found
      exact (firstFrom_iff_drop (Nat.le_of_not_lt inside)).2 ((finds _ _ _).1 there)
  · intro first
    obtain ⟨inside, distance, rfl⟩ := first.exists_distance
    rw [if_neg (Nat.not_lt_of_le inside), (finds _ _ _).2 ((firstFrom_iff_drop inside).1 first)]
    rfl

variable [DecidableEq α]

theorem findsFirst_firstOccurrence :
    FindsFirst (firstOccurrence : List α → List α → Option Nat) := by
  intro pattern text place
  rw [firstOccurrence_eq_some_iff]
  constructor
  · rintro ⟨inside, here, least⟩
    exact ⟨Nat.zero_le _, ⟨inside, here⟩, fun earlier _ less before => least earlier less before.2⟩
  · intro first
    refine ⟨first.here.1, first.here.2, fun earlier less before => ?_⟩
    have inside := first.here.1
    exact first.least earlier (Nat.zero_le _) less ⟨by omega, before⟩

theorem placeOf_eq_some_iff {pattern : List α} :
    placeOf pattern start text = some place ↔ FirstFrom start pattern text place :=
  eq_some_of_findsFirst findsFirst_firstOccurrence

/-- Without a least place there is none at all. -/
theorem placeOf_eq_none_iff {pattern : List α} :
    placeOf pattern start text = none ↔ ∀ place, start ≤ place → ¬OccursAt pattern text place := by
  constructor
  · intro absent place le here
    induction place using Nat.strongRecOn with
    | ind place ih =>
        have first : FirstFrom start pattern text place :=
          ⟨le, here, fun earlier from_start less before => ih earlier less from_start before⟩
        cases absent.symm.trans (placeOf_eq_some_iff.2 first)
  · intro nowhere
    refine Option.eq_none_iff_forall_ne_some.2 fun place found => ?_
    have first := placeOf_eq_some_iff.1 found
    exact nowhere place first.le first.here

/-- The first place of a unit is the first occurrence of that unit alone. -/
theorem findIdx?_eq_firstOccurrence (u : α) (text : List α) :
    text.findIdx? (· == u) = firstOccurrence [u] text := by
  cases found : text.findIdx? (· == u) with
  | none => exact (firstOccurrence_of_findIdx?_none found).symm
  | some k =>
      obtain ⟨inside, same, -⟩ := List.findIdx?_eq_some_iff_getElem.1 found
      have here : [u].isPrefixOf (text.drop k) = true := by
        rw [List.drop_eq_getElem_cons inside, beq_iff_eq.1 same]
        simp
      rw [firstOccurrence_of_findIdx?_some found, firstOccurrence_of_isPrefixOf here,
        Option.map_some, Nat.zero_add]

end

/-! ## Searches in one segment -/

section

variable {α : Type} [DecidableEq α]

/-- The first window of a text that is the pattern, among all that are as long. -/
def firstWindow (pattern text : List α) : Option Nat :=
  if pattern.isEmpty then some 0
  else (List.range (text.length + 1 - pattern.length)).find? fun place =>
    (text.drop place).take pattern.length == pattern

theorem firstWindow_nil (text : List α) : firstWindow [] text = some 0 := rfl

theorem firstWindow_eq_some_iff {pattern text : List α} {place : Nat}
    (some_pattern : pattern ≠ []) :
    firstWindow pattern text = some place ↔
      place + pattern.length ≤ text.length ∧ pattern <+: text.drop place ∧
        ∀ earlier < place, ¬pattern <+: text.drop earlier := by
  have same : ∀ k, (text.drop k).take pattern.length = pattern ↔ pattern <+: text.drop k := by
    intro k
    rw [List.prefix_iff_eq_take, eq_comm]
  have long : 0 < pattern.length := List.length_pos_iff.2 some_pattern
  rw [firstWindow, if_neg (by simpa using some_pattern), List.find?_range_eq_some]
  simp only [beq_iff_eq, same, List.mem_range, Bool.not_eq_true', beq_eq_false_iff_ne, ne_eq]
  constructor
  · rintro ⟨here, less, least⟩
    exact ⟨by omega, here, least⟩
  · rintro ⟨inside, here, least⟩
    exact ⟨here, by omega, least⟩

theorem findsFirst_firstWindow : FindsFirst (firstWindow : List α → List α → Option Nat) := by
  intro pattern text place
  by_cases empty : pattern = []
  · subst empty
    rw [firstWindow_nil, Option.some.injEq]
    constructor
    · rintro rfl
      exact ⟨Nat.le_refl _, occursAt_nil.2 (Nat.zero_le _), fun _ _ less =>
        absurd less (Nat.not_lt_zero _)⟩
    · intro first
      by_contra later
      exact first.least 0 (Nat.le_refl _) (by omega) (occursAt_nil.2 (Nat.zero_le _))
  · rw [firstWindow_eq_some_iff empty]
    constructor
    · rintro ⟨inside, here, least⟩
      exact ⟨Nat.zero_le _, ⟨by omega, here⟩, fun earlier _ less before =>
        least earlier less before.2⟩
    · intro first
      have inside := first.here.1
      have fits := first.here.2.length_le
      rw [List.length_drop] at fits
      refine ⟨by omega, first.here.2, fun earlier less before => ?_⟩
      exact first.least earlier (Nat.zero_le _) less ⟨by omega, before⟩

end

namespace Segment

variable {α : Type} {st : Store α} {s : Segment} {start place : Nat}

theorem indexOfSlice_eq_some_iff [TextUnit α] {pattern : List α} :
    s.indexOfSlice pattern start st = some place ↔
      FirstFrom start pattern (s.content st) place := by
  rw [← eq_some_of_findsFirst findsFirst_firstWindow, indexOfSlice]
  dsimp only
  split
  next => rfl
  next =>
    cases pattern with
    | nil => rfl
    | cons u us =>
        rw [firstWindow, List.isEmpty_cons, if_neg Bool.false_ne_true, if_neg Bool.false_ne_true]
        simp only [Nat.add_comm]

theorem findBytesBy_eq_some_iff {find : List α → List α → Option Nat} (finds : FindsFirst find)
    {needle : List α} :
    s.findBytesBy find needle start st = some place ↔
      FirstFrom start needle (s.content st) place := by
  rw [← eq_some_of_findsFirst finds, findBytesBy]
  simp only [Nat.add_comm]

end Segment

/-! ## Searches across segments -/

namespace Buffer

variable {α : Type} [TextUnit α] {st : Store α} {b : Buffer}

/-- A unit is searched for as a pattern of that unit alone. -/
theorem indexOf_eq_placeOf (valid : b.Valid st) (u : α) (start : Nat) :
    b.indexOf u start st = placeOf [u] start (b.content st) := by
  rw [indexOf_eq valid, findIdx?_eq_firstOccurrence, placeOf]
  split
  next beyond => rw [List.drop_eq_nil_of_le (Nat.le_of_lt beyond)]; rfl
  next => rfl

theorem contains_iff (valid : b.Valid st) (pattern : List α) :
    b.contains pattern st = true ↔ pattern <:+: b.content st := by
  rw [← exists_occursAt_iff_infix, contains, indexOfSlice_eq valid, Option.isSome_iff_ne_none,
    ne_eq, placeOf_eq_none_iff]
  simp

/-- **Every search across segments is answered by the text alone.** The answer is the least place
from `start` on at which the unit or the pattern occurs, and none if there is none; a single
segment that shows the same text gives the same answers. -/
theorem finds_as_text {find : List α → List α → Option Nat} (finds : FindsFirst find)
    (valid : b.Valid st) :
    (∀ u start place, b.indexOf u start st = some place ↔
      start ≤ place ∧ (b.content st)[place]? = some u ∧
        ∀ earlier, start ≤ earlier → earlier < place → (b.content st)[earlier]? ≠ some u) ∧
    (∀ u start, b.indexOf u start st = none ↔
      ∀ place, start ≤ place → (b.content st)[place]? ≠ some u) ∧
    (∀ pattern start place, b.indexOfSlice pattern start st = some place ↔
      FirstFrom start pattern (b.content st) place) ∧
    (∀ pattern start, b.indexOfSlice pattern start st = none ↔
      ∀ place, start ≤ place → ¬OccursAt pattern (b.content st) place) ∧
    (∀ start, b.indexOfSlice [] start st = if start ≤ b.length then some start else none) ∧
    (∀ pattern, b.contains pattern st = true ↔ pattern <:+: b.content st) ∧
    (∀ pattern, b.startsWith pattern st = true ↔ pattern <+: b.content st) ∧
    (∀ pattern, b.endsWith pattern st = true ↔ pattern <:+ b.content st) ∧
    ∀ s : Segment, s.content st = b.content st → ∀ pattern start,
      s.indexOfSlice pattern start st = b.indexOfSlice pattern start st ∧
        s.findBytesBy find pattern start st = b.indexOfSlice pattern start st := by
  refine ⟨fun u start place => ?_, fun u start => ?_, fun pattern start place => ?_,
    fun pattern start => ?_, fun start => if_pos rfl, contains_iff valid, fun pattern => ?_,
    fun pattern => ?_, fun s same pattern start => ⟨?_, ?_⟩⟩
  · rw [indexOf_eq_placeOf valid, placeOf_eq_some_iff]
    constructor
    · intro first
      exact ⟨first.le, occursAt_singleton.1 first.here, fun earlier le less there =>
        first.least earlier le less (occursAt_singleton.2 there)⟩
    · rintro ⟨le, here, least⟩
      exact ⟨le, occursAt_singleton.2 here, fun earlier le less there =>
        least earlier le less (occursAt_singleton.1 there)⟩
  · rw [indexOf_eq_placeOf valid, placeOf_eq_none_iff]
    exact forall₂_congr fun place _ => not_congr occursAt_singleton
  · rw [indexOfSlice_eq valid, placeOf_eq_some_iff]
  · rw [indexOfSlice_eq valid, placeOf_eq_none_iff]
  · rw [startsWith_eq valid, List.isPrefixOf_iff_prefix]
  · rw [endsWith_eq valid, List.isSuffixOf_iff_suffix]
  · refine Option.ext fun place => ?_
    rw [Segment.indexOfSlice_eq_some_iff, same, indexOfSlice_eq valid, placeOf_eq_some_iff]
  · refine Option.ext fun place => ?_
    rw [Segment.findBytesBy_eq_some_iff finds, same, indexOfSlice_eq valid, placeOf_eq_some_iff]

/-- A text in two segments, with one that shows nothing between them. -/
def hollowBetween : Buffer × Store UInt8 :=
  let (s, st) := Segment.ofUnits [97, 98, 97] {}
  ({ segmentList := .held [s.window 0 1, s.window 1 1, s.window 1 3] }, st)

theorem valid_hollowBetween : hollowBetween.1.Valid hollowBetween.2 := by
  intro s here
  simp only [hollowBetween, segments, SegmentList.toList_held, List.mem_cons, List.not_mem_nil,
    or_false] at here
  rcases here with rfl | rfl | rfl
  all_goals exact ⟨by decide, by decide, by decide⟩

theorem finds_as_text_hollowBetween :
    FindsFirst (firstOccurrence : List UInt8 → List UInt8 → Option Nat) ∧
      hollowBetween.1.Valid hollowBetween.2 ∧
      hollowBetween.1.indexOfSlice [98, 97] 0 hollowBetween.2 = some 1 ∧
      hollowBetween.1.contains [97, 97] hollowBetween.2 = false := by
  have told := finds_as_text findsFirst_firstOccurrence valid_hollowBetween
  have shown : hollowBetween.1.content hollowBetween.2 = [97, 98, 97] := by decide
  refine ⟨findsFirst_firstOccurrence, valid_hollowBetween, ?_, ?_⟩
  · refine (told.2.2.1 _ _ _).2 ⟨Nat.zero_le _, ⟨by decide, by decide⟩, fun earlier _ less => ?_⟩
    obtain rfl : earlier = 0 := by omega
    exact fun before => absurd before.2 (by decide)
  · refine Bool.eq_false_iff.2 fun found => ?_
    have within := (told.2.2.2.2.2.1 _).1 found
    rw [shown] at within
    exact absurd within (by decide)

end Buffer

end SegmentedText
