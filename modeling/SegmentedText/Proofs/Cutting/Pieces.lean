import SegmentedText.Proofs.Flat.Questions
import SegmentedText.Proofs.Lists.Traces

/-!
# Pieces

A buffer is cut at every separator, wherever its segments are cut.  The separators are told by
what the cells hold, so the pieces show the runs of cells between them, and nothing is copied
(`Buffer.cells_split`).  A separator that ends a segment, begins one or fills one makes no
difference: the piece at hand is carried over the border.

A single segment is cut in another way, and its empty pieces are windows over arrays of their own.
What its pieces show is the same (`Segment.content_split`), because both ways of cutting go by
the flat text.
-/

set_option autoImplicit false

namespace SegmentedText

/-! ## Pieces of a list -/

section

variable {β : Type} (p : β → Bool)

/-- There is one piece more than there are separators. -/
theorem length_splitOnP (units : List β) : (units.splitOnP p).length = units.countP p + 1 := by
  induction units with
  | nil => rfl
  | cons u us ih =>
      rw [List.splitOnP_cons_eq_if_modifyHead, List.countP_cons]
      split
      next => rw [List.length_cons, ih]
      next => rw [List.length_modifyHead, ih]

theorem eq_false_of_mem_splitOnP {units piece : List β} (here : piece ∈ units.splitOnP p) :
    ∀ u ∈ piece, p u = false := by
  induction units generalizing piece with
  | nil =>
      obtain rfl := List.mem_singleton.1 here
      exact nofun
  | cons v vs ih =>
      rw [List.splitOnP_cons_eq_if_modifyHead] at here
      split at here
      next =>
        rcases List.mem_cons.1 here with rfl | later
        · exact nofun
        · exact ih later
      next within =>
        cases cut : vs.splitOnP p with
        | nil => exact absurd cut (List.splitOnP_ne_nil p vs)
        | cons first others =>
            rw [cut, List.modifyHead_cons] at here
            rcases List.mem_cons.1 here with rfl | later
            · intro u there
              rcases List.mem_cons.1 there with rfl | after
              · exact Bool.eq_false_iff.2 within
              · exact ih (cut ▸ List.mem_cons_self) u after
            · exact ih (cut ▸ List.mem_cons_of_mem _ later)

/-- The bounds of the pieces depend on where the separators are, and not on what they are. -/
theorem pieceBounds_map {γ : Type} [DecidableEq β] [DecidableEq γ] {f : β → γ}
    (injective : Function.Injective f) (separator : β) (units : List β) (opened here : Nat) :
    pieceBounds (f separator) (units.map f) opened here =
      pieceBounds separator units opened here := by
  induction units generalizing opened here with
  | nil => rfl
  | cons u us ih =>
      rw [List.map_cons, pieceBounds, pieceBounds, ih, ih]
      by_cases separates : u = separator
      · rw [if_pos separates, if_pos (congrArg f separates)]
      · rw [if_neg separates, if_neg (mt (injective ·) separates)]

end

/-! ## Pieces of a segment -/

namespace Segment

variable {α : Type} [TextUnit α] {st : Store α} {s : Segment} {others : List Segment}

/-- Every part shows what the segment shows in its range, also when all parts have been made. -/
theorem content_parts (hosts : st.Hosts others) (here : s ∈ others) {bounds : List (Nat × Nat)}
    (inside : ∀ bound ∈ bounds, bound.2 ≤ s.length) :
    (s.parts bounds st).1.map (·.content (s.parts bounds st).2) =
      bounds.map fun bound => ((s.content st).take bound.2).drop bound.1 := by
  induction bounds generalizing st others with
  | nil => rfl
  | cons bound rest ih =>
      obtain ⟨start, stop⟩ := bound
      have fits : stop ≤ s.length := inside _ List.mem_cons_self
      have made := undisturbed_part hosts here start fits
      have shown : (if stop ≤ start then empty st else (s.window start stop, st)).1.content
          (if stop ≤ start then empty st else (s.window start stop, st)).2 =
            ((s.content st).take stop).drop start := by
        split
        next reversed =>
          rw [List.drop_eq_nil_of_le (by rw [List.length_take]; omega)]
          exact content_allocate [] 0 st
        next => exact s.content_window fits
      have kept := made.content_eq here
      rw [parts]
      generalize (if stop ≤ start then empty st else (s.window start stop, st)) = cut
        at made shown kept ⊢
      obtain ⟨part, st'⟩ := cut
      dsimp only at made shown kept ⊢
      have later : ∀ bound ∈ rest, bound.2 ≤ s.length := fun bound there =>
        inside bound (List.mem_cons_of_mem _ there)
      have among : s ∈ [part] ++ others := List.mem_append_right _ here
      have behind := undisturbed_parts made.hosts among later
      have stays := behind.content_eq (List.mem_append_left _ (List.mem_singleton_self part))
      rw [List.map_cons, List.map_cons, stays, shown, ih made.hosts among later, kept]

/-- The pieces of a segment show the pieces of the text that it shows. -/
theorem content_split (placed : s.Placed st) (separator : α) :
    (s.split separator st).1.map (·.content (s.split separator st).2) =
      (s.content st).splitOn separator := by
  have hosts : st.Hosts [s] := Store.Hosts.cons_iff.2 ⟨placed, .nil st, fun _ none => nomatch none⟩
  have bounds := splitOnP_of_pieceBounds id separator (s.content st)
  rw [List.map_id] at bounds
  exact (content_parts hosts List.mem_cons_self (bound_le_length separator s st)).trans bounds

/-- The windows between the bounds of the pieces show the runs of cells between those that hold
separators. -/
theorem cells_windows (valid : s.Valid st) (separator : α) :
    (pieceBounds separator (s.content st) 0 0).map (fun bound => (s.window bound.1 bound.2).cells) =
      s.cells.splitOnP (st.unit? · = some separator) := by
  have marks : s.cells.map st.unit? = (s.content st).map some := valid.reads
  have bounds := splitOnP_of_pieceBounds st.unit? (some separator) s.cells
  rw [marks, pieceBounds_map fun _ _ => Option.some.inj] at bounds
  rw [← bounds]
  exact List.map_congr_left fun bound found =>
    cells_window (bound_le_length separator s st bound found)

end Segment

/-! ## Pieces of a buffer -/

namespace Buffer

variable {α : Type} [TextUnit α] {st : Store α} {b : Buffer}

/-- The pieces of a buffer show the runs of its cells between those that hold separators. -/
theorem cells_split (valid : b.Valid st) (separator : α) :
    (b.split separator st).map cells = b.cells.splitOnP (st.unit? · = some separator) :=
  (flatMap_splitSegments (fun _ => Segment.cells_eq_nil_of_isEmpty) b.layout separator _
    (fun s here => Segment.cells_windows (valid s here) separator) (ofLayout b.layout)).trans
    (congrFun List.modifyHead_id _)

/-- As many cells hold a unit as there are of it in what they hold. -/
theorem length_holding (valid : b.Valid st) (u : α) :
    (b.cells.filter (st.unit? · = some u)).length = (b.content st).count u := by
  have marks : b.cells.map st.unit? = (b.content st).map some := valid.reads
  rw [← List.countP_eq_length_filter, List.count]
  calc b.cells.countP (st.unit? · = some u)
      = (b.cells.map st.unit?).countP (· = some u) := by rw [List.countP_map]; rfl
    _ = ((b.content st).map some).countP (· = some u) := by rw [marks]
    _ = (b.content st).countP (· == u) := by
        rw [List.countP_map]
        exact List.countP_congr fun v _ => by simp

theorem segments_of_piece (valid : b.Valid st) {separator : α} {piece : Buffer}
    (cut : piece ∈ b.split separator st) : ∀ s ∈ piece.segments, 0 < s.length ∧ s.spare = 0 := by
  have ordered : Ordered b.segments := fun s here => (valid s here).start_le_stop
  intro s here
  obtain ⟨t, -, view⟩ := views_split ordered piece cut s here
  have opened := opened_splitSegments b.layout separator st b.segments (opened_ofLayout b.layout)
  refine ⟨(opened piece cut).length_pos here view.ordered, ?_⟩
  rw [Segment.spare, view.full, Nat.sub_self]

/-- **The pieces of a buffer are the runs of its cells between the separators.** There is one more
than there are separators, none of which is in a piece; put back between the pieces, the cells of
the separators make up all cells of the buffer in order.  Every segment of a piece shows something
and has no room.  What the pieces show is told by the text alone, for a buffer that is cut into
segments otherwise and for a single segment. -/
theorem pieces_between_separators (valid : b.Valid st) (separator : α) :
    let pieces := b.split separator st
    let separators := b.cells.filter (st.unit? · = some separator)
    pieces.length = (b.content st).count separator + 1 ∧
      separators.length = (b.content st).count separator ∧
      (∀ piece ∈ pieces, separator ∉ piece.content st) ∧
      (List.zipWith (· ++ ·) (pieces.map cells) (separators.map ([·]) ++ [[]])).flatten = b.cells ∧
      (∀ piece ∈ pieces, ∀ s ∈ piece.segments, 0 < s.length ∧ s.spare = 0) ∧
      (∀ (other : Buffer) (st' : Store α), other.content st' = b.content st →
        (other.split separator st').map (·.content st') = pieces.map (·.content st)) ∧
      ∀ (s : Segment) (st' : Store α), s.Placed st' → s.content st' = b.content st →
        (s.split separator st').1.map (·.content (s.split separator st').2) =
          pieces.map (·.content st) := by
  intro pieces separators
  have contents : pieces.map (·.content st) = (b.content st).splitOn separator :=
    content_split separator b st
  refine ⟨?_, length_holding valid separator, fun piece here there => ?_, ?_,
    fun piece here => segments_of_piece valid here, fun other st' same => ?_,
    fun s st' placed same => ?_⟩
  · have counted := congrArg List.length contents
    rw [List.length_map, List.splitOn_eq_splitOnP, length_splitOnP] at counted
    exact counted
  · have among : piece.content st ∈ (b.content st).splitOn separator :=
      contents ▸ List.mem_map_of_mem here
    have apart := eq_false_of_mem_splitOnP (· == separator) among separator there
    rw [beq_self_eq_true] at apart
    cases apart
  · rw [cells_split valid separator]
    exact List.splitOnP_spec b.cells
  · rw [contents, content_split separator other st', same]
  · rw [contents, Segment.content_split placed separator, same]

/-- A text whose separators end one segment and begin another, with one between them that shows
nothing. -/
def borderedSeparators : Buffer × Store Char :=
  let (s, st) := Segment.ofUnits ['a', 'b', '-', '-', 'c'] {}
  ({ segmentList := .held [s.window 0 1, s.window 1 3, s.window 3 3, s.window 3 5] }, st)

theorem valid_borderedSeparators : borderedSeparators.1.Valid borderedSeparators.2 := by
  intro s here
  simp only [borderedSeparators, segments, SegmentList.toList_held, List.mem_cons,
    List.not_mem_nil, or_false] at here
  rcases here with rfl | rfl | rfl | rfl
  all_goals exact ⟨by decide, by decide, by decide⟩

theorem pieces_between_separators_borderedSeparators :
    borderedSeparators.1.Valid borderedSeparators.2 ∧
      (borderedSeparators.1.split '-' borderedSeparators.2).length = 3 ∧
      (borderedSeparators.1.split '-' borderedSeparators.2).map (·.content borderedSeparators.2) =
        [['a', 'b'], [], ['c']] := by
  let s : Segment := ⟨⟨0⟩, 0, 5, 5⟩
  have placed : s.Placed borderedSeparators.2 := ⟨by decide, by decide, by decide, by decide⟩
  obtain ⟨counted, -, -, -, -, -, alike⟩ :=
    pieces_between_separators valid_borderedSeparators '-'
  refine ⟨valid_borderedSeparators, counted.trans (by decide), ?_⟩
  rw [← alike s borderedSeparators.2 placed (by decide)]
  decide

end Buffer

end SegmentedText
