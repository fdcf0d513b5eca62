import Mathlib.Data.List.Nodup
import Mathlib.Logic.Function.Iterate
import SegmentedText.Proofs.Flat.Appends
import SegmentedText.Proofs.Flat.Shortenings
import SegmentedText.Proofs.Flat.Splices
import SegmentedText.Proofs.Ownership.Splices

/-!
# Cells that are shown once

A buffer can show one cell in two places, and then a change in place shows twice.  Where
all cells of a buffer are distinct, a change in place is a change at one place of the
flat text (`Buffer.content_setAt`, `Buffer.content_mapUnits`).

Cells stay distinct under all changes that bring along text of their own.  Nothing but
the rule about room is needed for that: a cell that no window reaches could be the room
of another one, and an append that leaves all others undisturbed never shows it
(`not_reaches_of_undisturbed`).  Windows over new arrays show new cells
(`Fresh.disjoint`).
-/

set_option autoImplicit false

namespace SegmentedText

variable {α : Type}

/-! ## Cells of a window -/

theorem Segment.mem_cells {s : Segment} {c : Cell} :
    c ∈ s.cells ↔ c.storage = s.storage ∧ s.start ≤ c.index ∧ c.index < s.stop := by
  obtain ⟨storage, index⟩ := c
  simp only [cells, length, List.mem_map, List.mem_range'_1, Cell.mk.injEq]
  constructor
  · rintro ⟨i, inside, rfl, rfl⟩
    exact ⟨rfl, by omega, by omega⟩
  · rintro ⟨rfl, from_start, to_stop⟩
    exact ⟨index, ⟨from_start, by omega⟩, rfl, rfl⟩

theorem Segment.getElem?_cells (s : Segment) {i : Nat} (inside : i < s.length) :
    s.cells[i]? = some ⟨s.storage, s.start + i⟩ := by
  rw [cells, List.getElem?_map, List.getElem?_range' inside]
  simp

theorem Segment.Valid.index_lt {s : Segment} {st : Store α} (valid : s.Valid st) {i : Nat}
    (inside : i < s.length) : s.start + i < st.extent s.storage := by
  have ordered := valid.stop_le_limit
  have bound := valid.limit_le_extent
  simp only [length] at inside
  omega

theorem Segment.nodup_cells (s : Segment) : s.cells.Nodup :=
  List.Nodup.map (fun _ _ same => (Cell.mk.inj same).2) List.nodup_range'

theorem Segment.Valid.reaches {s : Segment} {st : Store α} (valid : s.Valid st) {c : Cell}
    (shown : c ∈ s.cells) : s.Reaches c := by
  have ordered := valid.stop_le_limit
  obtain ⟨same, from_start, to_stop⟩ := mem_cells.1 shown
  exact ⟨same, from_start, by omega⟩

theorem mem_cellsOf {segments : List Segment} {c : Cell} :
    c ∈ cellsOf segments ↔ ∃ s ∈ segments, c ∈ s.cells := List.mem_flatMap

/-! ## Cells that no window reaches -/

/-- What leaves every other window undisturbed does not reach out for cells that have been made. -/
theorem not_reaches_of_undisturbed {st st' : Store α} {s s' : Segment} {c : Cell}
    (placed : s.Placed st) (made : c.storage.index < st.arrays.size)
    (within : c.index < st.extent c.storage) (clear : ¬s.Reaches c)
    (undisturbed : ∀ others, st.Hosts (s :: others) → Undisturbed others st [s'] st') :
    ¬s'.Reaches c := by
  have alone : st.Hosts [s] :=
    Store.Hosts.cons_iff.2 ⟨placed, .nil st, fun _ none => nomatch none⟩
  have beside : st.Hosts (s :: [c.room]) :=
    (alone.room made within fun t here => by rwa [List.mem_singleton.1 here]).perm (.swap ..)
  exact (undisturbed _ beside).hosts.not_reaches_of_room List.mem_cons_self s' List.mem_cons_self

/-! ## Windows over new arrays -/

/-- Windows that show no cell twice, and none of an array that had been made. -/
structure Fresh (st : Store α) (segments : List Segment) : Prop where
  distinct : (cellsOf segments).Nodup
  unmade : ∀ c ∈ cellsOf segments, st.arrays.size ≤ c.storage.index

namespace Fresh

variable {st : Store α} {segments : List Segment}

theorem nil (st : Store α) : Fresh st [] := ⟨.nil, fun _ none => nomatch none⟩

theorem disjoint (fresh : Fresh st segments) {live : List Segment} (hosts : st.Hosts live) :
    (cellsOf live).Disjoint (cellsOf segments) := by
  intro c old new
  obtain ⟨s, here, shown⟩ := mem_cellsOf.1 old
  have placed := hosts.placed s here
  have made := (placed.made_of_reaches (placed.valid.reaches shown)).1
  exact Nat.not_lt_of_le (fresh.unmade c new) made

theorem sublist (fresh : Fresh st segments) {fewer : List Segment}
    (some : (cellsOf fewer).Sublist (cellsOf segments)) : Fresh st fewer :=
  ⟨fresh.distinct.sublist some, fun c here => fresh.unmade c (some.subset here)⟩

variable [TextUnit α]

/-- A new array, and others after it. -/
theorem cons_allocate {units : List α} {capacity : Nat}
    (fresh : Fresh (Segment.allocate units capacity st).2 segments) :
    Fresh st ((Segment.allocate units capacity st).1 :: segments) := by
  have own : ∀ c ∈ (Segment.allocate units capacity st).1.cells,
      c.storage.index = st.arrays.size := fun c here => by
    rw [(Segment.mem_cells.1 here).1]
    rfl
  have later : ∀ c ∈ cellsOf segments, st.arrays.size + 1 ≤ c.storage.index := fun c here => by
    rw [← Segment.size_allocate units capacity st]
    exact fresh.unmade c here
  constructor
  · rw [cellsOf_cons]
    refine (Segment.nodup_cells _).append fresh.distinct fun c here there => ?_
    have := own c here
    have := later c there
    omega
  · intro c here
    rw [cellsOf_cons] at here
    rcases List.mem_append.1 here with first | rest
    · exact Nat.le_of_eq (own c first).symm
    · have := later c rest
      omega

theorem ofArray (units : List α) (capacity : Nat) (st : Store α) :
    Fresh st (Buffer.ofArray units capacity st).1.segments := by
  have one : Fresh st [(Segment.allocate units capacity st).1] := cons_allocate (.nil _)
  have shown : cellsOf (Buffer.ofArray units capacity st).1.segments =
      cellsOf [(Segment.allocate units capacity st).1] := by
    rw [cellsOf_cons, cellsOf_nil, List.append_nil]
    exact Buffer.cells_push {} (Segment.allocate units capacity st).1
  exact one.sublist (shown ▸ List.Sublist.refl _)

theorem ofUnits (units : List α) (st : Store α) : Fresh st (Buffer.ofUnits units st).1.segments :=
  ofArray units units.length st

theorem ofText (text : String) (st : Store α) : Fresh st (Buffer.ofText text st).1.segments :=
  ofArray _ _ st

theorem compactEach (segments : List Segment) (st : Store α) :
    Fresh st (compactEach segments st).1 := by
  induction segments generalizing st with
  | nil => exact .nil st
  | cons s rest ih => exact cons_allocate (ih _)

end Fresh

/-! ## Cells stay distinct -/

namespace Buffer

variable {st st' : Store α} {b b' : Buffer} {others : List Segment}

/-- The last window of a list is extended, by what leaves every other window undisturbed. -/
theorem nodup_extended {front : List Segment} {last last' : Segment}
    (hosts : st.Hosts (last :: (front ++ others)))
    (distinct : (cellsOf front ++ last.cells).Nodup)
    (undisturbed : ∀ others, st.Hosts (last :: others) → Undisturbed others st [last'] st') :
    (cellsOf front ++ last'.cells).Nodup := by
  obtain ⟨placed, beside, apart⟩ := Store.Hosts.cons_iff.1 hosts
  have placed' := (undisturbed _ hosts).hosts.placed last' List.mem_cons_self
  refine (distinct.sublist (List.sublist_append_left _ _)).append last'.nodup_cells ?_
  intro c before after
  obtain ⟨s, here, shown⟩ := mem_cellsOf.1 before
  have alive : s ∈ front ++ others := List.mem_append_left _ here
  have reached := (beside.placed s alive).valid.reaches shown
  obtain ⟨made, within⟩ := (beside.placed s alive).made_of_reaches reached
  refine not_reaches_of_undisturbed placed made within ?_ undisturbed
    (placed'.valid.reaches after)
  rintro ⟨same, from_start, below⟩
  by_cases own : c.index < last.stop
  · exact (List.disjoint_of_nodup_append distinct) before
      (Segment.mem_cells.2 ⟨same, from_start, own⟩)
  · exact (apart s alive).left c ⟨same, by omega, below⟩ reached

/-- A splice of new windows. -/
theorem nodup_splice {r : Buffer} {start stop : Nat} {c : Cursor}
    (hosts : st.Hosts (b.segments ++ others)) (distinct : b.cells.Nodup)
    (fresh : Fresh st r.segments) (done : b.splice start stop r = .ok (b', c)) :
    b'.cells.Nodup := by
  have ordered := (le_of_splice done).1
  have kept : (b.cells.take start ++ b.cells.drop stop).Sublist b.cells := by
    have outside := (List.Sublist.refl (b.cells.take start)).append
      (List.drop_sublist_drop_left b.cells ordered)
    rwa [List.take_append_drop] at outside
  have apart := fresh.disjoint hosts.left
  have arranged : (b.cells.take start ++ b.cells.drop stop ++ r.cells).Nodup :=
    (distinct.sublist kept).append fresh.distinct fun c here there =>
      apart (kept.subset here) there
  rw [cells_splice done]
  refine (List.Perm.nodup_iff ?_).1 arranged
  rw [List.append_assoc, List.append_assoc]
  exact List.perm_append_comm.append_left _

theorem nodup_append_fresh {segments : List Segment} (hosts : st.Hosts (b.segments ++ others))
    (distinct : b.cells.Nodup) (fresh : Fresh st segments) :
    (b.cells ++ cellsOf segments).Nodup :=
  distinct.append fresh.distinct (fresh.disjoint hosts.left)

theorem nodup_fresh_append {segments : List Segment} (hosts : st.Hosts (b.segments ++ others))
    (distinct : b.cells.Nodup) (fresh : Fresh st segments) :
    (cellsOf segments ++ b.cells).Nodup :=
  fresh.distinct.append distinct fun _ new old => fresh.disjoint hosts.left old new

variable [TextUnit α]

/-! ### Appending -/

theorem nodup_extendBy {pending : Nat} {write : Segment → Store α → Edited Segment α Unit}
    {extended : Buffer × Store α} (hosts : st.Hosts (b.segments ++ others))
    (distinct : b.cells.Nodup)
    (writes : ∀ (s : Segment) (st : Store α) (others : List Segment), st.Hosts (s :: others) →
      Undisturbed others st [(write s st).object] (write s st).store)
    (done : b.extendBy pending write st = .ok extended) : extended.1.cells.Nodup := by
  obtain ⟨-, -, rfl⟩ := eq_of_extendBy done
  have fresh : (b.newSegment pending st).2.Hosts
      ((b.newSegment pending st).1 :: (b.segments ++ others)) :=
    (undisturbed_allocate [] _ hosts).hosts
  have none : (b.newSegment pending st).1.cells = [] := rfl
  have begun : (cellsOf b.segments ++ (b.newSegment pending st).1.cells).Nodup := by
    rw [none, List.append_nil]
    exact distinct
  have filled := nodup_extended fresh begun (writes _ _)
  simpa only [cells_eq, segments, SegmentList.toList_push, cellsOf_append, cellsOf_cons,
    cellsOf_nil, List.append_nil] using filled

omit [TextUnit α] in
theorem nodup_trailing {front : List Segment} {last last' : Segment}
    (hosts : st.Hosts (b.segments ++ others)) (distinct : b.cells.Nodup)
    (found : b.trailing? = some (front, last))
    (undisturbed : ∀ others, st.Hosts (last :: others) → Undisturbed others st [last'] st') :
    (b.withTrailing front last').cells.Nodup := by
  have shown : b.cells = cellsOf front ++ last.cells := by
    rw [cells_eq, (segments_of_trailing found).1, cellsOf_append, cellsOf_cons, cellsOf_nil,
      List.append_nil]
  have extended := nodup_extended (hosts_trailing hosts found) (shown ▸ distinct) undisturbed
  have cells : (b.withTrailing front last').cells = cellsOf front ++ last'.cells := by
    show cellsOf (front ++ [last']) = _
    rw [cellsOf_append, cellsOf_cons, cellsOf_nil, List.append_nil]
  rw [cells]
  exact extended

section

variable (around : Surroundings)

theorem nodup_append {u : α} {appended : Buffer × Store α} (hosts : st.Hosts (b.segments ++ others))
    (distinct : b.cells.Nodup) (done : b.append around u st = .ok appended) :
    appended.1.cells.Nodup := by
  rcases append_cases done with ⟨front, last, found, -, rfl⟩ | ⟨-, opened⟩
  · exact nodup_trailing hosts distinct found fun others beside =>
      Segment.undisturbed_append around beside u
  · exact nodup_extendBy hosts distinct
      (fun s st others beside => Segment.undisturbed_append around beside u) opened

theorem nodup_extend (hosts : st.Hosts (b.segments ++ others)) (distinct : b.cells.Nodup)
    (units : List α) : (b.extend around units st).object.cells.Nodup := by
  induction units generalizing b st with
  | nil => exact distinct
  | cons u us ih =>
      rw [extend]
      split
      next b' st' done =>
        exact ih (undisturbed_append around hosts done).hosts
          (nodup_append around hosts distinct done)
      next => exact distinct

end

section

variable {write : Segment → List α → Store α → Edited Segment α Unit}
  (writes : ∀ {s : Segment} {st : Store α} {others : List Segment}, st.Hosts (s :: others) →
    ∀ us, Undisturbed others st [(write s us st).object] (write s us st).store)
include writes

theorem nodup_appendRest (hosts : st.Hosts (b.segments ++ others)) (distinct : b.cells.Nodup)
    (rest : List α) : (b.appendRest write rest st).object.cells.Nodup := by
  unfold appendRest
  split
  next => exact distinct
  next =>
    cases done : b.extendBy rest.length (fun s st => write s rest st) st with
    | error fault => exact distinct
    | ok extended => exact nodup_extendBy hosts distinct (fun s st others beside =>
        writes beside rest) done

theorem nodup_appendBy (hosts : st.Hosts (b.segments ++ others)) (distinct : b.cells.Nodup)
    (units : List α) : (b.appendBy write units st).object.cells.Nodup := by
  unfold appendBy
  split
  next front last found =>
    have beside := hosts_trailing hosts found
    have extended := writes beside (units.take (min last.spare units.length))
    have first := nodup_trailing hosts distinct found fun others beside => writes beside
      (units.take (min last.spare units.length))
    exact Edited.left_andThen (P := fun (b' : Buffer) _ => b'.cells.Nodup) first fun _ =>
      nodup_appendRest writes (undisturbed_withTrailing (b := b) extended).hosts first _
  next => exact nodup_appendRest writes hosts distinct units

end

theorem nodup_appendSlice (around : Surroundings) (hosts : st.Hosts (b.segments ++ others))
    (distinct : b.cells.Nodup) (units : List α) :
    (b.appendSlice around units st).object.cells.Nodup :=
  nodup_appendBy (fun beside us => Segment.undisturbed_appendSlice around beside us) hosts
    distinct units

theorem nodup_appendText (around : Surroundings) (hosts : st.Hosts (b.segments ++ others))
    (distinct : b.cells.Nodup) (text : String) :
    (b.appendText around text st).object.cells.Nodup :=
  nodup_appendBy (fun beside us => Segment.undisturbed_appendEach around beside us) hosts
    distinct _

/-! ### Exchanging -/

theorem nodup_replaceFrom {search replacement : List α} {c : Cursor} {count : Nat}
    (hosts : st.Hosts (b.segments ++ others)) (distinct : b.cells.Nodup) :
    (replaceFrom search replacement b c count st).object.cells.Nodup := by
  fun_induction replaceFrom search replacement b c count st with
  | case1 => exact distinct
  | case2 => exact distinct
  | case3 b c count st first past found value st' made b' c' done ih =>
      have fresh := undisturbed_of_made hosts made
      have new := Fresh.ofUnits replacement st
      rw [made] at new
      exact ih (hosts_splice fresh.hosts done) (nodup_splice hosts distinct new done)

theorem nodup_replaceAll (hosts : st.Hosts (b.segments ++ others)) (distinct : b.cells.Nodup)
    (search replacement : List α) : (b.replaceAll search replacement st).object.cells.Nodup :=
  nodup_replaceFrom hosts distinct

/-- Values that are made for the occasion keep the cells distinct. -/
theorem nodup_substituteFrom {opening closing : List α} {provider : Provider α} {c : Cursor}
    {enclosed : List Buffer} {relied : List Segment} (fair : provider.Fair relied)
    (alive : relied ⊆ others) (makes : ∀ n inner st, Fresh st (provider n inner st).1.segments)
    (hosts : st.Hosts (b.segments ++ others)) (distinct : b.cells.Nodup) :
    (substituteFrom opening closing provider b c enclosed st).object.cells.Nodup := by
  fun_induction substituteFrom opening closing provider b c enclosed st with
  | case1 => exact distinct
  | case2 => exact distinct
  | case3 => exact distinct
  | case4 => exact distinct
  | case5 b c enclosed st first body opened last past closed inner cut value st' made b' c' done ih =>
      have given := undisturbed_asked fair alive hosts cut made
      have new := makes enclosed.length inner st
      have made' : provider enclosed.length inner st = (value, st') := made
      rw [made'] at new
      exact ih (hosts_splice given.hosts done) (nodup_splice hosts distinct new done)

theorem nodup_substitute {opening closing : List α} {provider : Provider α}
    {relied : List Segment} (fair : provider.Fair relied) (alive : relied ⊆ others)
    (makes : ∀ n inner st, Fresh st (provider n inner st).1.segments)
    (hosts : st.Hosts (b.segments ++ others)) (distinct : b.cells.Nodup) :
    (b.substitute opening closing provider st).object.cells.Nodup := by
  unfold substitute
  split
  next => exact distinct
  next => exact nodup_substituteFrom fair alive makes hosts distinct

theorem nodup_compact (b : Buffer) (st : Store α) : (b.compact st).1.cells.Nodup := by
  rw [cells_eq, segments_compact]
  exact (Fresh.compactEach _ st).distinct

end Buffer

/-! ## Changes in place -/

namespace Store

variable {st : Store α} {cells : List Cell} {units : List α}

theorem unit?_write (st : Store α) (c d : Cell) (u : α) (inside : c.index < st.extent c.storage) :
    (st.write c.storage c.index u).unit? d = if d = c then some u else st.unit? d := by
  obtain ⟨storage, index⟩ := c
  obtain ⟨storage', index'⟩ := d
  show (st.write storage index u).cell? storage' index' = _
  rw [cell?_write]
  simp only [Cell.mk.injEq]
  by_cases same : storage' = storage ∧ index' = index
  · rw [if_pos ⟨same.1, same.2, inside⟩, if_pos same]
  · rw [if_neg fun all => same ⟨all.1, all.2.1⟩, if_neg same]
    rfl

theorem unit?_mapRange (st : Store α) (s : Segment) (f : α → α) (c : Cell) :
    (st.mapRange s.storage s.start s.stop f).unit? c =
      if c ∈ s.cells then (st.unit? c).map f else st.unit? c := by
  simp only [unit?, cell?_mapRange, Segment.mem_cells]

/-- A write to one of several distinct cells changes the unit at its place. -/
theorem Reads.write (reads : st.Reads cells units) (distinct : cells.Nodup) {i : Nat} {c : Cell}
    (here : cells[i]? = some c) (inside : c.index < st.extent c.storage) (u : α) :
    (st.write c.storage c.index u).Reads cells (units.set i u) := by
  refine List.ext_getElem? fun j => ?_
  have same := congrArg (fun list : List (Option α) => list[j]?) reads
  simp only [List.getElem?_map] at same ⊢
  by_cases at_i : j = i
  · subst at_i
    have bound : j < units.length := by
      rw [← reads.length_eq]
      exact (List.getElem?_eq_some_iff.1 here).1
    rw [here, List.getElem?_set_self bound, Option.map_some, unit?_write st c c u inside, if_pos rfl]
    rfl
  · rw [List.getElem?_set_ne (Ne.symm at_i)]
    refine Eq.trans ?_ same
    cases there : cells[j]? with
    | none => rfl
    | some d =>
        have differs : d ≠ c := by
          rintro rfl
          exact at_i ((List.getElem?_inj (List.getElem?_eq_some_iff.1 there).1 distinct).1
            (there.trans here.symm))
        rw [Option.map_some, Option.map_some, unit?_write st c d u inside, if_neg differs]

/-- A mapping of the units of all cells. -/
theorem Reads.map {st' : Store α} (reads : st.Reads cells units) {f : α → α}
    (mapped : ∀ c ∈ cells, st'.unit? c = (st.unit? c).map f) : st'.Reads cells (units.map f) := by
  have each : cells.map st'.unit? = (cells.map st.unit?).map (·.map f) := by
    rw [List.map_map]
    exact List.map_congr_left mapped
  rw [Reads, each, reads, List.map_map, List.map_map]
  rfl

end Store

/-- Every cell is mapped as often as it is shown. -/
theorem unit?_mapEachSegment {around : Surroundings} (f : α → α) {segments : List Segment}
    (st : Store α) (free : ∀ s ∈ segments, around.lends s.storage = false) (c : Cell) :
    (mapEachSegment around f segments st).1.unit? c =
      (st.unit? c).map f^[(cellsOf segments).count c] := by
  induction segments generalizing st with
  | nil => exact Option.map_id'.symm
  | cons s rest ih =>
      have mapped : s.mapUnits around f st = .ok (st.mapRange s.storage s.start s.stop f) := by
        rw [Segment.mapUnits, free s List.mem_cons_self]
        rfl
      have later := ih (st.mapRange s.storage s.start s.stop f)
        fun t later => free t (List.mem_cons_of_mem _ later)
      rw [mapEachSegment, mapped]
      refine later.trans ?_
      rw [Store.unit?_mapRange, cellsOf_cons, List.count_append]
      by_cases first : c ∈ s.cells
      · rw [if_pos first, List.count_eq_one_of_mem s.nodup_cells first, Option.map_map, Nat.add_comm,
          Function.iterate_succ]
      · rw [if_neg first, List.count_eq_zero_of_not_mem first, Nat.zero_add]

/-- Where no cell is shown twice, every cell that is shown is mapped once. -/
theorem unit?_mapEachSegment_of_nodup {around : Surroundings} (f : α → α)
    {segments : List Segment} (st : Store α)
    (free : ∀ s ∈ segments, around.lends s.storage = false)
    (distinct : (cellsOf segments).Nodup) (c : Cell) :
    (mapEachSegment around f segments st).1.unit? c =
      if c ∈ cellsOf segments then (st.unit? c).map f else st.unit? c := by
  rw [unit?_mapEachSegment f st free c, distinct.count]
  by_cases shown : c ∈ cellsOf segments
  · rw [if_pos shown, if_pos shown, Function.iterate_one]
  · rw [if_neg shown, if_neg shown]
    exact Option.map_id'

/-- Where no array is lent out, a mapping comes to its end. -/
theorem mapEachSegment_of_free {around : Surroundings} (f : α → α) {segments : List Segment}
    {st : Store α} (free : ∀ s ∈ segments, around.lends s.storage = false) :
    (mapEachSegment around f segments st).2 = none := by
  induction segments generalizing st with
  | nil => rfl
  | cons s rest ih =>
      rw [mapEachSegment, Segment.mapUnits, free s List.mem_cons_self]
      exact ih fun t later => free t (List.mem_cons_of_mem _ later)

namespace Buffer

variable {st : Store α} {b : Buffer} {around : Surroundings} {others : List Segment}

theorem content_mapUnits (hosts : st.Hosts (b.segments ++ others)) (distinct : b.cells.Nodup)
    (free : ∀ s ∈ b.segments, around.lends s.storage = false) (f : α → α) :
    (b.mapUnits around f st).2 = none ∧
      b.content (b.mapUnits around f st).1 = (b.content st).map f := by
  have valid := valid_of_hosts hosts (List.subset_append_left _ _)
  have hosts' : (b.mapUnits around f st).1.Hosts (b.segments ++ others) :=
    hosts_mapEachSegment hosts b.segments
  have valid' := valid_of_hosts hosts' (List.subset_append_left _ _)
  refine ⟨mapEachSegment_of_free f free, valid'.content_eq rfl (valid.reads.map fun c here => ?_)⟩
  exact (unit?_mapEachSegment_of_nodup f st free distinct c).trans (if_pos here)

/-- Behind the content there is nothing to overwrite. -/
theorem setAt_of_le {i : Nat} (behind : b.length ≤ i) (u : α) :
    b.setAt around i u st = .error (.bufferIndex i b.length) := by
  have none : b.segments[b.segments.length]? = none := List.getElem?_eq_none (Nat.le_refl _)
  simp only [setAt, Cursor.locate_of_le behind, none]

/-- A unit is overwritten in the cell that shows it. -/
theorem setAt_of_parted {front back : List Segment} {s : Segment} {offset : Nat}
    (parted : b.segments = front ++ s :: back) (within : offset < s.length)
    (free : around.lends s.storage = false) (u : α) :
    b.setAt around (totalLength front + offset) u st =
      .ok (st.write s.storage (s.start + offset) u) := by
  have here : b.segments[front.length]? = some s := parted ▸ getElem?_front
  have located := Cursor.locate_of_inside here within
  rw [parted, take_front, ← parted] at located
  simp only [setAt, located, here, Segment.setAt]
  rw [if_neg (Nat.not_le_of_lt within), free]
  rfl

theorem setAt_of_lt (free : ∀ s ∈ b.segments, around.lends s.storage = false) {i : Nat}
    (inside : i < b.length) (u : α) : ∃ st', b.setAt around i u st = .ok st' := by
  obtain ⟨front, s, back, offset, parted, within, rfl, -⟩ := Cursor.locate_eq inside
  have member : s ∈ b.segments := parted ▸ List.mem_append_right _ List.mem_cons_self
  exact ⟨_, setAt_of_parted parted within (free s member) u⟩

/-- A unit of the content is overwritten in the one cell that shows it. -/
theorem setAt_eq_write (valid : b.Valid st)
    (free : ∀ s ∈ b.segments, around.lends s.storage = false) {i : Nat} (inside : i < b.length)
    (u : α) :
    ∃ c, b.cells[i]? = some c ∧ c.index < st.extent c.storage ∧
      b.setAt around i u st = .ok (st.write c.storage c.index u) := by
  obtain ⟨front, s, back, offset, parted, within, rfl, -⟩ := Cursor.locate_eq inside
  have member : s ∈ b.segments := parted ▸ List.mem_append_right _ List.mem_cons_self
  refine ⟨⟨s.storage, s.start + offset⟩, ?_, ?_, setAt_of_parted parted within (free s member) u⟩
  · have rest : (cellsOf (front ++ s :: back)).drop (totalLength front + offset) =
        s.cells.drop offset ++ cellsOf back := drop_cellsOf (Nat.le_of_lt within)
    have head : (b.cells.drop (totalLength front + offset))[0]? = s.cells[offset]? := by
      rw [cells_eq, parted, rest, List.getElem?_append_left (by simp; omega), List.getElem?_drop]
      rfl
    rw [List.getElem?_drop, Nat.add_zero] at head
    exact head.trans (s.getElem?_cells within)
  · exact (valid s member).index_lt within

theorem content_setAt (hosts : st.Hosts (b.segments ++ others)) (distinct : b.cells.Nodup)
    (free : ∀ s ∈ b.segments, around.lends s.storage = false) {i : Nat} (inside : i < b.length)
    (u : α) :
    ∃ st', b.setAt around i u st = .ok st' ∧ b.content st' = (b.content st).set i u := by
  have valid := valid_of_hosts hosts (List.subset_append_left _ _)
  obtain ⟨c, shown, within, done⟩ := setAt_eq_write valid free inside u
  have valid' := valid_of_hosts (hosts_setAt hosts done) (List.subset_append_left _ _)
  exact ⟨_, done, valid'.content_eq rfl (valid.reads.write distinct shown within u)⟩

end Buffer

end SegmentedText
