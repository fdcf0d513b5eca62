import SegmentedText.Proofs.Flat.Search
import SegmentedText.Proofs.Flat.Splices
import SegmentedText.Proofs.Ownership.Splices

/-!
# Questions to flat text

Every question about the content of a buffer is answered as the flat text answers it,
wherever the segments are cut.  Parts and pieces are buffers themselves, and they show
the parts and pieces of the flat text (`Buffer.content_part`, `Buffer.content_split`).

Pieces are cut segment by segment, and the one that is still open at the end of a
segment goes on in the next (`splitOnP_append`).  That holds of whatever is seen of the
segments (`Buffer.flatMap_splitSegments`), of their units as of their cells.
-/

set_option autoImplicit false

namespace SegmentedText

/-! ## Places in a list -/

section

variable {α : Type} [DecidableEq α]

/-- The place of the first occurrence of a pattern at or behind `start`. -/
def placeOf (pattern : List α) (start : Nat) (text : List α) : Option Nat :=
  if text.length < start then none
  else (firstOccurrence pattern (text.drop start)).map (start + ·)

omit [DecidableEq α] in
/-- The piece that is still open at the end of the front goes on in what follows. -/
theorem splitOnP_append (p : α → Bool) {opened front : List α} {pieces : List (List α)}
    {last : List α} (cut : (front.splitOnP p).modifyHead (opened ++ ·) = pieces ++ [last])
    (behind : List α) :
    ((front ++ behind).splitOnP p).modifyHead (opened ++ ·) =
      pieces ++ (behind.splitOnP p).modifyHead (last ++ ·) := by
  induction front generalizing opened pieces with
  | nil =>
      rw [List.splitOnP_nil, List.modifyHead_cons, List.append_nil] at cut
      cases pieces with
      | nil =>
          obtain rfl : opened = last := (List.cons.inj cut).1
          rfl
      | cons piece pieces => cases pieces <;> cases (List.cons.inj cut).2
  | cons u us ih =>
      rw [List.splitOnP_cons_eq_if_modifyHead] at cut
      rw [List.cons_append, List.splitOnP_cons_eq_if_modifyHead]
      split at cut
      next here =>
        rw [if_pos here]
        rw [List.modifyHead_cons, List.append_nil] at cut ⊢
        cases pieces with
        | nil => exact absurd (List.cons.inj cut).2 (List.splitOnP_ne_nil p us)
        | cons piece pieces =>
            obtain ⟨rfl, rest⟩ := List.cons.inj cut
            have begun : (us.splitOnP p).modifyHead ([] ++ ·) = pieces ++ [last] :=
              (congrFun List.modifyHead_id _).trans rest
            exact congrArg (_ :: ·) ((congrFun List.modifyHead_id _).symm.trans (ih begun))
      next here =>
        have joined : (fun piece => opened ++ piece) ∘ List.cons u = (opened ++ [u] ++ ·) := by
          funext piece
          simp
        rw [if_neg here]
        rw [List.modifyHead_modifyHead, joined] at cut ⊢
        exact ih cut

/-- The parts of a text between the bounds of its pieces, where `key` tells the separators. -/
theorem map_pieceBounds {β : Type} (key : β → α) (separator : α) {text rest : List β}
    {opened here : Nat} (begun : text.drop here = rest) (le : opened ≤ here) :
    (pieceBounds separator (rest.map key) opened here).map
        (fun bound => (text.take bound.2).drop bound.1) =
      (rest.splitOnP (key · = separator)).modifyHead ((text.take here).drop opened ++ ·) := by
  induction rest generalizing opened here with
  | nil => simp [pieceBounds]
  | cons u us ih =>
      have inside : here < text.length := by
        refine Nat.lt_of_not_le fun behind => ?_
        rw [List.drop_eq_nil_of_le behind] at begun
        cases begun
      obtain ⟨rfl, later⟩ := List.cons.inj ((List.drop_eq_getElem_cons inside).symm.trans begun)
      rw [List.map_cons, pieceBounds, List.splitOnP_cons_eq_if_modifyHead]
      by_cases separates : key text[here] = separator
      · have none : (text.take (here + 1)).drop (here + 1) = [] :=
          List.drop_eq_nil_of_le (by rw [List.length_take]; omega)
        rw [if_pos separates, if_pos (decide_eq_true separates), List.map_cons,
          ih later (Nat.le_refl _), none, List.modifyHead_cons, List.append_nil]
        exact congrArg (_ :: ·) (congrFun List.modifyHead_id _)
      · have longer : (text.take (here + 1)).drop opened =
            (text.take here).drop opened ++ [text[here]] := by
          have room : opened ≤ (text.take here).length := by
            rw [List.length_take]
            omega
          rw [← List.take_append_getElem inside, List.drop_append_of_le_length room]
        rw [if_neg separates, if_neg (mt of_decide_eq_true separates), ih later
          (Nat.le_succ_of_le le), longer, List.modifyHead_modifyHead]
        congr 1
        funext piece
        simp

/-- The parts of a text between the bounds of its pieces are its pieces. -/
theorem splitOnP_of_pieceBounds {β : Type} (key : β → α) (separator : α) (text : List β) :
    (pieceBounds separator (text.map key) 0 0).map
        (fun bound => (text.take bound.2).drop bound.1) = text.splitOnP (key · = separator) :=
  (map_pieceBounds key separator List.drop_zero (Nat.le_refl 0)).trans
    (congrFun List.modifyHead_id _)

end

/-! ## Units and occurrences -/

namespace Buffer

variable {α : Type} {st : Store α} {b : Buffer}

theorem unitAt_eq (valid : b.Valid st) (i : Nat) :
    b.unitAt i st = match (b.content st)[i]? with
      | some u => .ok u
      | none => .error (.bufferIndex i (b.content st).length) := by
  rw [unitAt, Cursor.unit?_locate valid, valid.length_content]
  rfl

/-- Segments are copied behind what has been copied already. -/
theorem fillFrom_eq {segments : List Segment} (valid : ∀ s ∈ segments, s.Valid st)
    {destination : List α} {copied : Nat} (within : copied ≤ destination.length) :
    fillFrom segments destination copied st =
      if destination.length < copied + totalLength segments then .error .destinationTooShort
      else .ok (destination.take copied ++ contentOf segments st ++
        destination.drop (copied + totalLength segments), copied + totalLength segments) := by
  induction segments generalizing destination copied with
  | nil =>
      rw [totalLength_nil, Nat.add_zero, if_neg (by omega), contentOf_nil, List.append_nil,
        List.take_append_drop]
      rfl
  | cons s rest ih =>
      have one := (valid s List.mem_cons_self).length_content
      have others : ∀ t ∈ rest, t.Valid st := fun t later => valid t (List.mem_cons_of_mem _ later)
      rw [fillFrom, Segment.fill, List.length_drop, totalLength_cons, ← Nat.add_assoc]
      by_cases short : destination.length - copied < s.length
      · rw [if_pos short, if_pos (by omega)]
      · have front : (destination.take copied ++ s.content st).length = copied + s.length := by
          rw [List.length_append, List.length_take, one, Nat.min_eq_left within]
        have whole : copied + s.length + (destination.length - (copied + s.length)) =
            destination.length := by omega
        rw [if_neg short]
        dsimp only
        rw [List.drop_drop, ← List.append_assoc, ih others (by rw [List.length_append]; omega),
          ← front, List.take_left' rfl, List.drop_length_add_append, front, contentOf_cons,
          List.drop_drop, List.length_append, front, List.length_drop, whole]
        simp only [List.append_assoc]

/-- A copy needs a destination as long as the text, and leaves what lies behind it there. -/
theorem fill_eq (valid : b.Valid st) (destination : List α) :
    b.fill destination st =
      if destination.length < b.length then .error .destinationTooShort
      else .ok (b.content st ++ destination.drop b.length, b.length) := by
  rw [fill, fillFrom_eq valid (Nat.zero_le _), Nat.zero_add]
  rfl

variable [TextUnit α]

theorem indexOf_eq (valid : b.Valid st) (u : α) (start : Nat) :
    b.indexOf u start st =
      (((b.content st).drop start).findIdx? (· == u)).map (start + ·) := by
  rw [indexOf, Cursor.findUnit_locate valid, Option.map_map]
  rfl

theorem indexOfSlice_eq (valid : b.Valid st) (pattern : List α) (start : Nat) :
    b.indexOfSlice pattern start st = placeOf pattern start (b.content st) := by
  have total := valid.length_content
  rw [indexOfSlice, placeOf, total]
  cases pattern with
  | nil =>
      have everywhere : firstOccurrence ([] : List α) ((b.content st).drop start) = some 0 :=
        firstOccurrence_of_isPrefixOf rfl
      rw [everywhere, List.isEmpty_nil, if_pos rfl]
      by_cases inside : start ≤ b.length
      · rw [if_pos inside, if_neg (Nat.not_lt_of_le inside)]
        rfl
      · rw [if_neg inside, if_pos (Nat.lt_of_not_le inside)]
  | cons first others =>
      rw [List.isEmpty_cons, if_neg Bool.false_ne_true,
        Cursor.findPattern_locate valid (List.cons_ne_nil _ _), Option.map_map]
      by_cases behind : b.length < start
      · rw [if_pos behind, ← content_eq, List.drop_eq_nil_of_le (by omega)]
        rfl
      · rw [if_neg behind]
        rfl

theorem contains_eq (valid : b.Valid st) (pattern : List α) :
    b.contains pattern st = (firstOccurrence pattern (b.content st)).isSome := by
  rw [contains, indexOfSlice_eq valid, placeOf, if_neg (Nat.not_lt_zero _), List.drop_zero,
    Option.isSome_map]

theorem startsWith_eq (valid : b.Valid st) (pattern : List α) :
    b.startsWith pattern st = pattern.isPrefixOf (b.content st) := by
  rw [startsWith, Cursor.matchAt_locate valid, List.drop_zero, ← content_eq]
  cases pattern.isPrefixOf (b.content st) <;> rfl

theorem endsWith_eq (valid : b.Valid st) (pattern : List α) :
    b.endsWith pattern st = pattern.isSuffixOf (b.content st) := by
  have total := valid.length_content
  rw [endsWith, Cursor.matchAt_locate valid, ← content_eq, Bool.eq_iff_iff,
    List.isSuffixOf_iff_suffix]
  split
  next shorter =>
    refine ⟨(nomatch ·), fun suffix => ?_⟩
    have := suffix.length_le
    omega
  next fits =>
    have width : ((b.content st).drop (b.length - pattern.length)).length = pattern.length := by
      rw [List.length_drop]
      omega
    rw [List.suffix_iff_eq_drop, total]
    constructor
    · intro found
      split at found
      next here => exact (List.isPrefixOf_iff_prefix.1 here).eq_of_length width.symm
      next => cases found
    · intro same
      rw [if_pos (List.isPrefixOf_iff_prefix.2 (same ▸ List.prefix_refl _))]
      rfl

end Buffer

/-! ## Parts -/

theorem Segment.content_window {α : Type} {st : Store α} (s : Segment) {start stop : Nat}
    (inside : stop ≤ s.length) :
    (s.window start stop).content st = ((s.content st).take stop).drop start := by
  refine List.ext_getElem? fun k => ?_
  rw [getElem?_content, length_window, List.getElem?_drop, List.getElem?_take, getElem?_content]
  by_cases within : start + k < stop
  · rw [if_pos (by omega), if_pos within, if_pos (by omega), ← Nat.add_assoc]
    rfl
  · rw [if_neg (by omega), if_neg within]

theorem Segment.content_eq_nil_of_isEmpty {α : Type} {s : Segment} (none : s.isEmpty = true)
    (st : Store α) : s.content st = [] := by
  have fewer := s.length_content_le st
  rw [length_eq_zero_of_isEmpty none] at fewer
  exact List.eq_nil_of_length_eq_zero (Nat.le_zero.1 fewer)

namespace Buffer

variable {α : Type} {st : Store α} {b : Buffer} {others : List Segment}

/-- A part of any range is refused for a range that ends beyond the text, and shows what the text
shows in the range. -/
theorem substring_spec (hosts : st.Hosts (b.segments ++ others)) (start stop : Nat) :
    if start < stop ∧ (b.content st).length < stop then
      b.substring start stop = .error (.substringEnd stop (b.content st).length)
    else ∃ part, b.substring start stop = .ok part ∧
      part.content st = ((b.content st).take stop).drop start := by
  have valid : b.Valid st := valid_of_hosts hosts (List.subset_append_left _ _)
  have total := valid.length_content
  rw [total]
  split
  next beyond => exact if_pos beyond
  next inside =>
    have cut : b.substring start stop = .ok (b.part start stop) := if_neg inside
    refine ⟨_, cut, ?_⟩
    by_cases reversed : stop ≤ start
    · rw [part, if_pos reversed, List.drop_eq_nil_of_le (by rw [List.length_take]; omega)]
      rfl
    · have views := views_substring (ordered_of_hosts hosts (List.subset_append_left _ _)) cut
      have beside := hosts.views fun t found => by
        obtain ⟨s, here, view⟩ := views t found
        exact ⟨s, List.mem_append_left others here, view⟩
      exact content_substring valid (valid_of_hosts beside (List.subset_append_left _ _))
        (by omega) cut

theorem substringFrom_spec (hosts : st.Hosts (b.segments ++ others)) (start : Nat) :
    if (b.content st).length < start then
      b.substringFrom start = .error (.substringStart start (b.content st).length)
    else ∃ part, b.substringFrom start = .ok part ∧ part.content st = (b.content st).drop start := by
  have valid : b.Valid st := valid_of_hosts hosts (List.subset_append_left _ _)
  have total := valid.length_content
  have rest := substring_spec hosts start b.length
  rw [total, if_neg (by omega), List.take_of_length_le (by omega)] at rest
  rw [total, substringFrom]
  split
  next => rfl
  next => exact rest

/-! ## Pieces -/

section

variable {β : Type} {view : Segment → List β}
  (hollow : ∀ s : Segment, s.isEmpty = true → view s = [])
include hollow

/-- A segment that is pushed is seen behind the others, unless nothing is seen of it. -/
theorem flatMap_push (b : Buffer) (s : Segment) :
    (b.push s).segments.flatMap view = b.segments.flatMap view ++ view s := by
  unfold push
  split
  next none => rw [hollow s none, List.append_nil]
  next => simp [segments]

/-- What is seen of the pieces of one segment, and of the piece that is left open, is what is seen
between the bounds; the first of them is behind what was there before. -/
theorem flatMap_cutSegment (layout : Layout) (s : Segment) {bounds : List (Nat × Nat)}
    (some_bounds : bounds ≠ []) (current : Buffer) :
    (cutSegment layout s bounds current).1.map (·.segments.flatMap view) ++
        [(cutSegment layout s bounds current).2.segments.flatMap view] =
      (bounds.map fun bound => view (s.window bound.1 bound.2)).modifyHead
        (current.segments.flatMap view ++ ·) := by
  fun_induction cutSegment layout s bounds current with
  | case1 => exact absurd rfl some_bounds
  | case2 start stop current => simp [flatMap_push hollow]
  | case3 start stop rest current more pieces last cut ih =>
      have open_piece : (ofLayout layout).segments.flatMap view = [] := rfl
      rw [cut, open_piece] at ih
      have later := (ih more).trans (congrFun List.modifyHead_id _)
      have first := flatMap_push hollow current (s.window start stop)
      rw [List.map_cons, List.map_cons, first, List.cons_append]
      exact congrArg (_ :: ·) later

variable [TextUnit α]

/-- Whatever is seen of the segments is seen of the pieces, cut where it is seen in the windows
between the bounds. -/
theorem flatMap_splitSegments (layout : Layout) (separator : α) (p : β → Bool)
    {segments : List Segment} (windows : ∀ s ∈ segments,
      (pieceBounds separator (s.content st) 0 0).map
        (fun bound => view (s.window bound.1 bound.2)) = (view s).splitOnP p)
    (current : Buffer) :
    (splitSegments layout separator st segments current).map (·.segments.flatMap view) =
      ((segments.flatMap view).splitOnP p).modifyHead (current.segments.flatMap view ++ ·) := by
  induction segments generalizing current with
  | nil => simp [splitSegments]
  | cons s rest ih =>
      have here := windows s List.mem_cons_self
      have some_bounds : pieceBounds separator (s.content st) 0 0 ≠ [] := fun none =>
        List.splitOnP_ne_nil p (view s) (by rw [← here, none]; rfl)
      have cut := flatMap_cutSegment hollow layout s some_bounds current
      rw [here] at cut
      have later := ih fun t there => windows t (List.mem_cons_of_mem _ there)
      rw [splitSegments]
      dsimp only
      rw [List.map_append, later, List.flatMap_cons, splitOnP_append p cut.symm]

end

variable [TextUnit α]

/-- The windows between the bounds of the pieces show the pieces of what the segment shows. -/
theorem content_windows (separator : α) (s : Segment) (st : Store α) :
    (pieceBounds separator (s.content st) 0 0).map
        (fun bound => (s.window bound.1 bound.2).content st) =
      (s.content st).splitOn separator := by
  have bounds := splitOnP_of_pieceBounds id separator (s.content st)
  rw [List.map_id] at bounds
  rw [List.map_congr_left fun bound found =>
    s.content_window (Segment.bound_le_length separator s st bound found), bounds]
  rfl

theorem content_split (separator : α) (b : Buffer) (st : Store α) :
    (b.split separator st).map (·.content st) = (b.content st).splitOn separator := by
  have windows : ∀ s ∈ b.segments, (pieceBounds separator (s.content st) 0 0).map
      (fun bound => (s.window bound.1 bound.2).content st) =
        (s.content st).splitOnP (· == separator) := fun s _ => content_windows separator s st
  exact (flatMap_splitSegments (fun _ none => Segment.content_eq_nil_of_isEmpty none st) b.layout
    separator _ windows (ofLayout b.layout)).trans (congrFun List.modifyHead_id _)

end Buffer

end SegmentedText
