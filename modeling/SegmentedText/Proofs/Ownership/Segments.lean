import SegmentedText.Proofs.Ownership.Windows
import SegmentedText.Segment.InPlace

/-!
# Segments beside other windows

What each operation on a single segment does beside the windows that are alive
with it.  Appends write only where the segment has room, or into an array of its
own, so no other window can tell (`Segment.undisturbed_append` and its kin), and
unless it was refused the segment then shows the appended units behind what it
showed before (`Segment.content_append`).

Shortening at the end gives cells back to be used again.  That is safe because
the segment keeps them only where no other window is over its array
(`Segment.hosts_releaseTail`); for this the surroundings have to tell of every
other window (`Surroundings.Covers`).

Changes in place leave every window where it is, but not what it shows
(`Segment.hosts_setAt`, `Segment.hosts_mapUnits`); they pass over every cell that the
segment does not reach (`Segment.unit?_setAt_of_not_reaches`).
-/

set_option autoImplicit false

namespace SegmentedText

/-- The surroundings tell of every array over which there is one of the windows. -/
def Surroundings.Covers (around : Surroundings) (others : List Segment) : Prop :=
  ∀ o ∈ others, around.shows o.storage = true

theorem Surroundings.covers_of_alive {around : Surroundings} {others : List Segment}
    (alive : others ⊆ around.alive) : around.Covers others :=
  fun o here => shows_iff.2 ⟨o, alive here, rfl⟩

theorem Surroundings.Covers.besides {around : Surroundings} {others : List Segment}
    (covers : around.Covers others) (more : List Segment) :
    (around.besides more).Covers (more ++ others) := by
  intro o here
  rw [shows_besides, Bool.or_eq_true]
  rcases List.mem_append.1 here with own | other
  · exact .inl (List.any_eq_true.2 ⟨o, own, beq_self_eq_true _⟩)
  · exact .inr (covers o other)

namespace Segment

variable {α : Type} [TextUnit α] {st : Store α} {s : Segment} {others : List Segment}

/-! ## Appending -/

section

variable (around : Surroundings)

theorem undisturbed_makeRoom (hosts : st.Hosts (s :: others)) (additional : Nat) :
    Undisturbed others st [(s.makeRoom around additional st).1]
      (s.makeRoom around additional st).2 := by
  unfold makeRoom
  split
  next => exact .refl hosts
  next => exact undisturbed_allocate _ _ (Store.Hosts.cons_iff.1 hosts).2.1

theorem room_makeRoom (valid : s.Valid st) (additional : Nat) :
    (s.makeRoom around additional st).1.stop + additional ≤
      (s.makeRoom around additional st).1.limit := by
  have counted := valid.length_content
  unfold makeRoom
  split
  next room =>
    have ordered := valid.stop_le_limit
    simp only [hasRoom, Bool.and_eq_true, decide_eq_true_eq] at room
    have : additional ≤ s.limit - s.stop := room.1
    show s.stop + additional ≤ s.limit
    omega
  next =>
    have := le_grownCapacity s.capacity (s.length + additional)
    show (s.content st).length + additional ≤ max (s.nextCapacity additional) _
    rw [counted, nextCapacity]
    omega

theorem content_makeRoom (additional : Nat) :
    (s.makeRoom around additional st).1.content (s.makeRoom around additional st).2 =
      s.content st := by
  unfold makeRoom
  split
  next => rfl
  next => exact content_allocate _ _ st

theorem undisturbed_growing {additional : Nat}
    {next : Segment → Store α → Edited Segment α Unit} (hosts : st.Hosts (s :: others))
    (fills : ∀ {s : Segment} {st : Store α}, st.Hosts (s :: others) →
      s.stop + additional ≤ s.limit → Undisturbed others st [(next s st).object] (next s st).store) :
    Undisturbed others st [(s.growing around additional next st).object]
      (s.growing around additional next st).store := by
  have made := undisturbed_makeRoom around hosts additional
  have room := room_makeRoom around (hosts.placed s List.mem_cons_self).valid additional
  exact left_growing (P := fun s' st' => Undisturbed others st [s'] st') (.refl hosts)
    fun _ => made.trans (fills made.hosts room)

omit [TextUnit α] in
theorem undisturbed_fillBehind (hosts : st.Hosts (s :: others)) {units : List α}
    (room : s.stop + units.length ≤ s.limit) :
    Undisturbed others st [(s.fillBehind units st).object] (s.fillBehind units st).store :=
  undisturbed_writeAll units hosts room

theorem undisturbed_append (hosts : st.Hosts (s :: others)) (u : α) :
    Undisturbed others st [(s.append around u st).object] (s.append around u st).store :=
  undisturbed_growing around hosts fun made room => undisturbed_fillBehind made room

theorem undisturbed_appendEach (hosts : st.Hosts (s :: others)) (units : List α) :
    Undisturbed others st [(s.appendEach around units st).object]
      (s.appendEach around units st).store := by
  induction units generalizing s st with
  | nil => exact .refl hosts
  | cons u us ih =>
      have first := undisturbed_append around hosts u
      exact Edited.left_andThen (P := fun s' st' => Undisturbed others st [s'] st') first
        fun _ => first.trans (ih first.hosts)

theorem undisturbed_appendSlice (hosts : st.Hosts (s :: others)) (units : List α) :
    Undisturbed others st [(s.appendSlice around units st).object]
      (s.appendSlice around units st).store := by
  unfold appendSlice
  split
  next => exact .refl hosts
  next => exact undisturbed_growing around hosts fun made room => undisturbed_fillBehind made room

theorem undisturbed_appendText (hosts : st.Hosts (s :: others)) (text : String) :
    Undisturbed others st [(s.appendText around text st).object]
      (s.appendText around text st).store :=
  undisturbed_growing around hosts fun made _ => undisturbed_appendEach around made _

/-! ## What is shown then -/

omit [TextUnit α] in
theorem content_fillBehind (placed : s.Placed st) {units : List α}
    (room : s.stop + units.length ≤ s.limit) :
    (s.fillBehind units st).object.content (s.fillBehind units st).store =
      s.content st ++ units :=
  content_writeAll units placed.valid room

/-- The segment with room for more units is where its units are. -/
theorem placed_makeRoom (placed : s.Placed st) (additional : Nat) :
    (s.makeRoom around additional st).1.Placed (s.makeRoom around additional st).2 := by
  have hosts : st.Hosts [s] := Store.Hosts.cons_iff.2 ⟨placed, .nil st, fun _ none => nomatch none⟩
  exact (undisturbed_makeRoom around hosts additional).hosts.placed _ List.mem_cons_self

theorem content_append (placed : s.Placed st) {u : α}
    (done : (s.append around u st).answer = .ok ()) :
    (s.append around u st).object.content (s.append around u st).store = s.content st ++ [u] := by
  have can := (answer_growing.1 done).1
  have room : (s.makeRoom around 1 st).1.stop + [u].length ≤ (s.makeRoom around 1 st).1.limit :=
    room_makeRoom around placed.valid 1
  have shown := content_fillBehind (placed_makeRoom around placed 1) room
  rw [append, growing_of_canReserve can, shown, content_makeRoom]

theorem placed_append (placed : s.Placed st) (u : α) :
    (s.append around u st).object.Placed (s.append around u st).store := by
  have hosts : st.Hosts [s] := Store.Hosts.cons_iff.2 ⟨placed, .nil st, fun _ none => nomatch none⟩
  exact (undisturbed_append around hosts u).hosts.placed _ List.mem_cons_self

theorem content_appendEach (placed : s.Placed st) {units : List α}
    (done : (s.appendEach around units st).answer = .ok ()) :
    (s.appendEach around units st).object.content (s.appendEach around units st).store =
      s.content st ++ units := by
  induction units generalizing s st with
  | nil => exact (List.append_nil _).symm
  | cons u us ih =>
      obtain ⟨first, later⟩ := Edited.answer_andThen.1 done
      have shown := content_append around placed first
      rw [appendEach, Edited.andThen_of_ok first, ih (placed_append around placed u) later, shown,
        List.append_assoc]
      rfl

theorem content_appendSlice (placed : s.Placed st) {units : List α}
    (done : (s.appendSlice around units st).answer = .ok ()) :
    (s.appendSlice around units st).object.content (s.appendSlice around units st).store =
      s.content st ++ units := by
  unfold appendSlice at done ⊢
  split
  next none => rw [List.isEmpty_iff.1 none, List.append_nil]
  next some =>
    rw [if_neg some] at done
    have can := (answer_growing.1 done).1
    have shown := content_fillBehind (placed_makeRoom around placed units.length)
      (room_makeRoom around placed.valid units.length)
    rw [growing_of_canReserve can, shown, content_makeRoom]

theorem content_appendText (placed : s.Placed st) {text : String}
    (done : (s.appendText around text st).answer = .ok ()) :
    (s.appendText around text st).object.content (s.appendText around text st).store =
      s.content st ++ TextUnit.unitsOf text := by
  obtain ⟨can, later⟩ := answer_growing.1 done
  rw [appendText, growing_of_canReserve can,
    content_appendEach around (placed_makeRoom around placed _) later, content_makeRoom]

end

/-! ## Moving to a new array -/

theorem undisturbed_compact (hosts : st.Hosts (s :: others)) :
    Undisturbed others st [(s.compact st).1] (s.compact st).2 :=
  undisturbed_allocate _ _ (Store.Hosts.cons_iff.1 hosts).2.1

theorem undisturbed_reserve {around : Surroundings} {additional : Nat} {moved : Segment × Store α}
    (hosts : st.Hosts (s :: others)) (done : s.reserve around additional st = .ok moved) :
    Undisturbed others st [moved.1] moved.2 := by
  unfold reserve at done
  split at done
  · cases done
    exact undisturbed_makeRoom around hosts additional
  · cases done

theorem undisturbed_withRoom {units : List α} {capacity : Nat} {made : Segment × Store α}
    (hosts : st.Hosts others) (done : withRoom units capacity st = .ok made) :
    Undisturbed others st [made.1] made.2 := by
  unfold withRoom at done
  split at done
  · cases done
    exact undisturbed_allocate units capacity hosts
  · cases done

/-! ## Shortening -/

omit [TextUnit α] in
/-- A window that starts later stays within the window. -/
theorem hosts_laterStart (hosts : st.Hosts (s :: others)) {start : Nat} (later : s.start ≤ start)
    (ordered : start ≤ s.stop) : st.Hosts ({ s with start } :: others) := by
  have placed := hosts.placed s List.mem_cons_self
  refine hosts.narrow ⟨fun _ spare => spare, fun c reached => ⟨reached.1, ?_, reached.2.2⟩⟩
    ⟨placed.made, ⟨ordered, placed.valid.stop_le_limit, placed.valid.limit_le_extent⟩⟩
  exact Nat.le_trans later reached.2.1

omit [TextUnit α] in
/-- A window that gives up cells at its end is still clear of the others: it keeps the room only if
there are no others over its array. -/
theorem hosts_releaseTail {around : Surroundings} (hosts : st.Hosts (s :: others))
    (covers : around.Covers others) {stop : Nat} (earlier : stop ≤ s.stop)
    (ordered : s.start ≤ stop) :
    st.Hosts (releaseTail { s with stop } around :: others) := by
  obtain ⟨placed, rest, across⟩ := Store.Hosts.cons_iff.1 hosts
  have within := placed.valid.stop_le_limit
  have inside := placed.valid.limit_le_extent
  unfold releaseTail
  split
  next shared =>
    have view : Views { s with stop, limit := stop } s :=
      ⟨rfl, Nat.le_refl _, ordered, earlier, rfl⟩
    exact Store.Hosts.cons_iff.2 ⟨view.placed placed, rest, fun o here =>
      view.apart (across o here) within⟩
  next sole =>
    refine Store.Hosts.cons_iff.2 ⟨⟨placed.made, ordered, Nat.le_trans earlier within, inside⟩,
      rest, fun o here => apart_of_storage_ne fun same => sole ?_⟩
    have shown := covers o here
    rwa [← same] at shown

omit [TextUnit α] in
theorem hosts_removeStart (hosts : st.Hosts (s :: others)) (count : Nat) :
    st.Hosts (s.removeStart count :: others) := by
  have ordered := (hosts.placed s List.mem_cons_self).valid.start_le_stop
  refine hosts_laterStart hosts (Nat.le_add_right _ _) ?_
  simp only [length]
  omega

omit [TextUnit α] in
theorem hosts_removeEnd {around : Surroundings} (hosts : st.Hosts (s :: others))
    (covers : around.Covers others) (count : Nat) :
    st.Hosts (s.removeEnd around count :: others) := by
  have ordered := (hosts.placed s List.mem_cons_self).valid.start_le_stop
  refine hosts_releaseTail hosts covers (Nat.sub_le _ _) ?_
  simp only [length]
  omega

omit [TextUnit α] in
theorem hosts_moveForward {count : Nat} {moved : Segment} (hosts : st.Hosts (s :: others))
    (done : s.moveForward count = .ok moved) : st.Hosts (moved :: others) := by
  have ordered := (hosts.placed s List.mem_cons_self).valid.start_le_stop
  unfold moveForward at done
  split at done
  next inside =>
    cases done
    refine hosts_laterStart hosts (Nat.le_add_right _ _) ?_
    simp only [length] at inside
    omega
  next => cases done

/-- The white space at the front is not longer than the window. -/
theorem length_leading_le (s : Segment) (st : Store α) :
    ((s.content st).takeWhile TextUnit.isWhitespace).length ≤ s.length :=
  Nat.le_trans (List.takeWhile_sublist _).length_le (s.length_content_le st)

/-- The white space at the end is not longer than the window. -/
theorem length_trailing_le (s : Segment) (st : Store α) :
    ((s.content st).reverse.takeWhile TextUnit.isWhitespace).length ≤ s.length :=
  Nat.le_trans (List.takeWhile_sublist _).length_le
    (by rw [List.length_reverse]; exact s.length_content_le st)

theorem hosts_trimStart (hosts : st.Hosts (s :: others)) :
    st.Hosts (s.trimStart st :: others) := by
  have ordered := (hosts.placed s List.mem_cons_self).valid.start_le_stop
  have bound := length_leading_le s st
  refine hosts_laterStart hosts (Nat.le_add_right _ _) ?_
  simp only [length] at bound
  omega

theorem hosts_trimEnd {around : Surroundings} (hosts : st.Hosts (s :: others))
    (covers : around.Covers others) : st.Hosts (s.trimEnd around st :: others) := by
  have ordered := (hosts.placed s List.mem_cons_self).valid.start_le_stop
  have bound := length_trailing_le s st
  refine hosts_releaseTail hosts covers (Nat.sub_le _ _) ?_
  simp only [length] at bound
  omega

theorem hosts_trim {around : Surroundings} (hosts : st.Hosts (s :: others))
    (covers : around.Covers others) : st.Hosts (s.trim around st :: others) :=
  hosts_trimEnd (hosts_trimStart hosts) covers

/-! ## Parts -/

section

variable (hosts : st.Hosts others) (here : s ∈ others)
include hosts here

theorem undisturbed_substring {start stop : Nat} {part : Segment × Store α}
    (done : s.substring start stop st = .ok part) :
    Undisturbed others st [part.1] part.2 := by
  unfold substring at done
  split at done
  next =>
    cases done
    exact undisturbed_allocate [] 0 hosts
  next proper =>
    split at done
    next => cases done
    next inside =>
      cases done
      have ordered := (hosts.placed s here).valid.start_le_stop
      exact .refl (hosts.view here (views_window (by omega) (by omega) ordered))

theorem undisturbed_substringFrom {start : Nat} {part : Segment × Store α}
    (done : s.substringFrom start st = .ok part) : Undisturbed others st [part.1] part.2 := by
  unfold substringFrom at done
  split at done
  next => cases done
  next => exact undisturbed_substring hosts here done

theorem undisturbed_part (start : Nat) {stop : Nat} (inside : stop ≤ s.length) :
    Undisturbed others st
      [(if stop ≤ start then empty st else (s.window start stop, st)).1]
      (if stop ≤ start then empty st else (s.window start stop, st)).2 := by
  split
  next => exact undisturbed_allocate [] 0 hosts
  next proper =>
    have ordered := (hosts.placed s here).valid.start_le_stop
    exact .refl (hosts.view here (views_window (by omega) inside ordered))

theorem undisturbed_parts {bounds : List (Nat × Nat)}
    (inside : ∀ bound ∈ bounds, bound.2 ≤ s.length) :
    Undisturbed others st (s.parts bounds st).1 (s.parts bounds st).2 := by
  induction bounds generalizing st others with
  | nil => exact .refl hosts
  | cons bound rest ih =>
      obtain ⟨start, stop⟩ := bound
      have first := undisturbed_part hosts here start (inside _ List.mem_cons_self)
      have more := ih first.hosts (List.mem_append_right _ here)
        fun bound later => inside bound (List.mem_cons_of_mem _ later)
      exact first.trans (more.frame.perm List.perm_append_comm)

end

/-- The pieces between separators end within the list. -/
theorem pieceBounds_le {β : Type} [DecidableEq β] (separator : β) (units : List β)
    (opened here : Nat) : ∀ bound ∈ pieceBounds separator units opened here,
      bound.2 ≤ here + units.length := by
  induction units generalizing opened here with
  | nil =>
      intro bound found
      rw [List.mem_singleton.1 found]
      exact Nat.le_refl _
  | cons u us ih =>
      intro bound found
      rw [pieceBounds] at found
      rw [List.length_cons]
      split at found
      · cases found with
        | head => exact Nat.le_add_right _ _
        | tail _ later =>
            have := ih _ _ bound later
            omega
      · have := ih _ _ bound found
        omega

/-- The pieces between separators do not end before they begin. -/
theorem pieceBounds_ordered {β : Type} [DecidableEq β] (separator : β) (units : List β)
    {opened here : Nat} (le : opened ≤ here) :
    ∀ bound ∈ pieceBounds separator units opened here, bound.1 ≤ bound.2 := by
  induction units generalizing opened here with
  | nil =>
      intro bound found
      rw [List.mem_singleton.1 found]
      exact le
  | cons u us ih =>
      intro bound found
      rw [pieceBounds] at found
      split at found
      · cases found with
        | head => exact le
        | tail _ later => exact ih (Nat.le_refl _) bound later
      · exact ih (Nat.le_succ_of_le le) bound found

/-- The pieces of what a segment shows end within the segment. -/
theorem bound_le_length (separator : α) (s : Segment) (st : Store α) :
    ∀ bound ∈ pieceBounds separator (s.content st) 0 0, bound.2 ≤ s.length := by
  intro bound found
  have := pieceBounds_le separator (s.content st) 0 0 bound found
  have := s.length_content_le st
  omega

theorem undisturbed_split (hosts : st.Hosts others) (here : s ∈ others) (separator : α) :
    Undisturbed others st (s.split separator st).1 (s.split separator st).2 :=
  undisturbed_parts hosts here (bound_le_length separator s st)

/-! ## Changes in place -/

omit [TextUnit α]

theorem hosts_setAt {around : Surroundings} {i : Nat} {u : α} {st' : Store α}
    {live : List Segment} (hosts : st.Hosts live) (done : s.setAt around i u st = .ok st') :
    st'.Hosts live := by
  unfold setAt at done
  split at done
  · cases done
  · split at done
    · cases done
    · cases done
      exact hosts.grow (grows_write ..)

theorem hosts_mapUnits {around : Surroundings} {f : α → α} {st' : Store α}
    {live : List Segment} (hosts : st.Hosts live) (done : s.mapUnits around f st = .ok st') :
    st'.Hosts live := by
  unfold mapUnits at done
  split at done
  · cases done
  · cases done
    exact hosts.grow (grows_update _ _ _ fun a => a.extent_mapRange ..)

/-- To overwrite a unit leaves every cell that the segment does not reach. -/
theorem unit?_setAt_of_not_reaches {around : Surroundings} {i : Nat} {u : α} {st' : Store α}
    {c : Cell} (ordered : s.stop ≤ s.limit) (clear : ¬s.Reaches c)
    (done : s.setAt around i u st = .ok st') : st'.unit? c = st.unit? c := by
  unfold setAt at done
  split at done
  next => cases done
  next inside =>
    split at done
    next => cases done
    next =>
      cases done
      rw [Store.unit?, Store.cell?_write, if_neg]
      · rfl
      · rintro ⟨same, place, -⟩
        simp only [length] at inside
        exact clear ⟨same, by omega, by omega⟩

theorem unit?_mapUnits_of_not_reaches {around : Surroundings} {f : α → α} {st' : Store α}
    {c : Cell} (ordered : s.stop ≤ s.limit) (clear : ¬s.Reaches c)
    (done : s.mapUnits around f st = .ok st') : st'.unit? c = st.unit? c := by
  unfold mapUnits at done
  split at done
  next => cases done
  next =>
    cases done
    rw [Store.unit?, Store.cell?_mapRange, if_neg]
    · rfl
    · rintro ⟨same, from_start, before⟩
      exact clear ⟨same, from_start, by omega⟩

end Segment

end SegmentedText
