import SegmentedText.Segment.Search
import SegmentedText.Segment.Shorten
import Mathlib.Data.List.Pairwise
import Mathlib.Data.List.Perm.Subperm

/-!
# Windows that keep clear of each other

Windows over one array may overlap, and appending writes into the array.  What
keeps an append from showing in another window is a rule about room: the cells
that a window may be extended into lie outside everything that any other window
shows or may be extended into.

A store hosts a list of windows (`Store.Hosts`) when each of them lies in order
within an array that has been made, and any two of them keep to the rule
(`Segment.Apart`).  The list counts repetitions, so two windows of equal bounds
have no room.

An operation is judged by what it does beside its own windows: the windows that it
leaves are hosted together with all others, and no cell that the others reach has
changed (`Undisturbed`).  There are four ways to get windows of this kind: a new
array (`undisturbed_allocate`), an extension into room of one's own
(`undisturbed_writeAll`), a narrower window in the place of another
(`Store.Hosts.narrow`), and a view without room of windows that are there
(`Store.Hosts.views`).

A cell that no window reaches could be the room of one more (`Store.Hosts.room`), which is
how an operation is kept from reaching out for cells that are not its own.
-/

set_option autoImplicit false

namespace SegmentedText

/-! ## Cells of a window -/

namespace Segment

/-- The cells that a window may be extended into. -/
def Spares (s : Segment) (c : Cell) : Prop :=
  c.storage = s.storage ∧ s.stop ≤ c.index ∧ c.index < s.limit

/-- The cells that a window shows or may be extended into. -/
def Reaches (s : Segment) (c : Cell) : Prop :=
  c.storage = s.storage ∧ s.start ≤ c.index ∧ c.index < s.limit

/-- The window reaches none of the cells. -/
def Avoids (s : Segment) (far : Cell → Prop) : Prop := ∀ c, far c → ¬s.Reaches c

/-- Neither of two windows may be extended into cells that the other one reaches. -/
structure Apart (s t : Segment) : Prop where
  left : ∀ c, s.Spares c → ¬ t.Reaches c
  right : ∀ c, t.Spares c → ¬ s.Reaches c

/-- A window has its place in an array that has been made. -/
structure Placed {α : Type} (s : Segment) (st : Store α) : Prop where
  made : s.storage.index < st.arrays.size
  valid : s.Valid st

/-- One window stays within another: it shows or may use no cell that the other one may not, and it
may be extended only where the other one may. -/
structure Within (t s : Segment) : Prop where
  spares : ∀ c, t.Spares c → s.Spares c
  reaches : ∀ c, t.Reaches c → s.Reaches c

/-- A window without room that shows cells which another one shows. -/
structure Views (t s : Segment) : Prop where
  storage : t.storage = s.storage
  start_le : s.start ≤ t.start
  ordered : t.start ≤ t.stop
  stop_le : t.stop ≤ s.stop
  full : t.limit = t.stop

theorem Apart.symm {s t : Segment} (apart : s.Apart t) : t.Apart s := ⟨apart.right, apart.left⟩

instance : Std.Symm Apart := ⟨fun _ _ => Apart.symm⟩

theorem Apart.narrow {s t o : Segment} (apart : s.Apart o) (within : t.Within s) : t.Apart o :=
  ⟨fun c spare => apart.left c (within.spares c spare),
    fun c spare reached => apart.right c spare (within.reaches c reached)⟩

/-- Windows over different arrays keep clear of each other. -/
theorem apart_of_storage_ne {s t : Segment} (other : s.storage ≠ t.storage) : s.Apart t :=
  ⟨fun _ spare reached => other (spare.1.symm.trans reached.1),
    fun _ spare reached => other (reached.1.symm.trans spare.1)⟩

/-- What keeps clear of a window keeps clear of its views. -/
theorem Views.apart {t s o : Segment} (view : t.Views s) (apart : s.Apart o)
    (ordered : s.stop ≤ s.limit) : t.Apart o := by
  have full := view.full
  have within := view.stop_le
  constructor
  · intro c spare
    exact absurd spare.2.2 (by have := spare.2.1; omega)
  · intro c spare reached
    refine apart.right c spare ⟨reached.1.trans view.storage, ?_, ?_⟩
    · exact Nat.le_trans view.start_le reached.2.1
    · have := reached.2.2
      omega

/-- A window keeps clear of its own views. -/
theorem Views.apart_self {t s : Segment} (view : t.Views s) : t.Apart s := by
  have full := view.full
  have within := view.stop_le
  constructor
  · intro c spare
    exact absurd spare.2.2 (by have := spare.2.1; omega)
  · intro c spare reached
    have := spare.2.1
    have := reached.2.2
    omega

/-- A view of a view is a view. -/
theorem Views.trans {t s r : Segment} (inner : t.Views s) (outer : s.Views r) : t.Views r :=
  ⟨inner.storage.trans outer.storage, Nat.le_trans outer.start_le inner.start_le, inner.ordered,
    Nat.le_trans inner.stop_le outer.stop_le, inner.full⟩

/-- A view reaches no cell that its window does not reach. -/
theorem Views.reaches {t s : Segment} (view : t.Views s) (ordered : s.stop ≤ s.limit) {c : Cell}
    (reached : t.Reaches c) : s.Reaches c := by
  obtain ⟨same, from_start, below⟩ := reached
  rw [view.full] at below
  have within := view.stop_le
  exact ⟨same.trans view.storage, Nat.le_trans view.start_le from_start, by omega⟩

/-- A second window on the same cells is a view. -/
theorem views_shared {s : Segment} (ordered : s.start ≤ s.stop) : s.shared.Views s :=
  ⟨rfl, Nat.le_refl _, ordered, Nat.le_refl _, rfl⟩

/-- A window cut out of another is a view. -/
theorem views_window {s : Segment} {start stop : Nat} (ordered : start ≤ stop)
    (inside : stop ≤ s.length) (valid : s.start ≤ s.stop) : (s.window start stop).Views s where
  storage := rfl
  start_le := Nat.le_add_right _ _
  ordered := Nat.add_le_add_left ordered _
  stop_le := by
    simp only [length] at inside
    simp only [window]
    omega
  full := rfl

section

variable {α : Type}

theorem Views.placed {t s : Segment} {st : Store α} (view : t.Views s) (placed : s.Placed st) :
    t.Placed st where
  made := view.storage ▸ placed.made
  valid := {
    start_le_stop := view.ordered
    stop_le_limit := Nat.le_of_eq view.full.symm
    limit_le_extent := by
      have := placed.valid.stop_le_limit
      have := placed.valid.limit_le_extent
      have := view.stop_le
      rw [view.full, view.storage]
      omega }

/-- What a window reaches lies in an array that has been made. -/
theorem Placed.made_of_reaches {s : Segment} {st : Store α} (placed : s.Placed st)
    {c : Cell} (reached : s.Reaches c) :
    c.storage.index < st.arrays.size ∧ c.index < st.extent c.storage := by
  have inside := placed.valid.limit_le_extent
  obtain ⟨same, -, below⟩ := reached
  rw [same]
  exact ⟨placed.made, by omega⟩

end

end Segment

/-- The window that shows nothing and has room for one cell. -/
def Cell.room (c : Cell) : Segment := ⟨c.storage, c.index, c.index, c.index + 1⟩

theorem Cell.reaches_room {c d : Cell} : c.room.Reaches d ↔ d = c := by
  obtain ⟨storage, index⟩ := c
  obtain ⟨storage', index'⟩ := d
  simp only [room, Segment.Reaches, Cell.mk.injEq]
  constructor
  · rintro ⟨rfl, le, lt⟩
    exact ⟨rfl, by omega⟩
  · rintro ⟨rfl, rfl⟩
    exact ⟨rfl, Nat.le_refl _, Nat.lt_succ_self _⟩

theorem Cell.spares_room {c d : Cell} : c.room.Spares d ↔ d = c := Cell.reaches_room

/-! ## Hosts -/

namespace Store

variable {α : Type}

/-- The unit in a cell. -/
def unit? (st : Store α) (c : Cell) : Option α := st.cell? c.storage c.index

/-- A store has a place for each of the windows, and any two of them keep clear of each other. -/
structure Hosts (st : Store α) (live : List Segment) : Prop where
  placed : ∀ s ∈ live, s.Placed st
  apart : live.Pairwise Segment.Apart

/-- No cell that one of the windows reaches differs between two stores. -/
def Keeps (st st' : Store α) (live : List Segment) : Prop :=
  ∀ s ∈ live, ∀ c, s.Reaches c → st'.unit? c = st.unit? c

/-- Arrays are only added, and those that there are keep their extent. -/
structure Grows (st st' : Store α) : Prop where
  size_le : st.arrays.size ≤ st'.arrays.size
  extent_eq : ∀ id : StorageId, id.index < st.arrays.size → st'.extent id = st.extent id

theorem Keeps.refl (st : Store α) (live : List Segment) : st.Keeps st live := fun _ _ _ _ => rfl

theorem Keeps.trans {st st' st'' : Store α} {live : List Segment} (first : st.Keeps st' live)
    (second : st'.Keeps st'' live) : st.Keeps st'' live :=
  fun s here c reached => (second s here c reached).trans (first s here c reached)

theorem Keeps.subset {st st' : Store α} {live fewer : List Segment} (keeps : st.Keeps st' live)
    (subset : fewer ⊆ live) : st.Keeps st' fewer :=
  fun s here => keeps s (subset here)

/-- What a window shows is told by the cells that it reaches. -/
theorem Keeps.content_eq {st st' : Store α} {live : List Segment} (keeps : st.Keeps st' live)
    {s : Segment} (here : s ∈ live) (ordered : s.stop ≤ s.limit) :
    s.content st' = s.content st := by
  apply slice_congr
  intro i from_start to_stop
  exact keeps s here ⟨s.storage, i⟩ ⟨rfl, from_start, by show i < s.limit; omega⟩

theorem Grows.refl (st : Store α) : st.Grows st := ⟨Nat.le_refl _, fun _ _ => rfl⟩

theorem Grows.trans {st st' st'' : Store α} (first : st.Grows st') (second : st'.Grows st'') :
    st.Grows st'' :=
  ⟨Nat.le_trans first.size_le second.size_le, fun id made =>
    (second.extent_eq id (Nat.lt_of_lt_of_le made first.size_le)).trans (first.extent_eq id made)⟩

theorem Grows.placed {st st' : Store α} (grows : st.Grows st') {s : Segment}
    (placed : s.Placed st) : s.Placed st' where
  made := Nat.lt_of_lt_of_le placed.made grows.size_le
  valid := {
    start_le_stop := placed.valid.start_le_stop
    stop_le_limit := placed.valid.stop_le_limit
    limit_le_extent := by
      rw [grows.extent_eq _ placed.made]
      exact placed.valid.limit_le_extent }

namespace Hosts

variable {st st' : Store α} {live others : List Segment}

theorem nil (st : Store α) : st.Hosts [] := ⟨fun _ none => absurd none List.not_mem_nil, .nil⟩

/-- Windows stay hosted in a store that has grown. -/
theorem grow (hosts : st.Hosts live) (grows : st.Grows st') : st'.Hosts live :=
  ⟨fun s here => grows.placed (hosts.placed s here), hosts.apart⟩

theorem append_iff {front back : List Segment} : st.Hosts (front ++ back) ↔
    st.Hosts front ∧ st.Hosts back ∧ ∀ s ∈ front, ∀ t ∈ back, s.Apart t := by
  constructor
  · intro hosts
    obtain ⟨first, second, across⟩ := List.pairwise_append.1 hosts.apart
    exact ⟨⟨fun s here => hosts.placed s (List.mem_append_left _ here), first⟩,
      ⟨fun s here => hosts.placed s (List.mem_append_right _ here), second⟩, across⟩
  · rintro ⟨first, second, across⟩
    refine ⟨fun s here => ?_, List.pairwise_append.2 ⟨first.apart, second.apart, across⟩⟩
    rcases List.mem_append.1 here with left | right
    · exact first.placed s left
    · exact second.placed s right

theorem cons_iff {s : Segment} : st.Hosts (s :: live) ↔
    s.Placed st ∧ st.Hosts live ∧ ∀ t ∈ live, s.Apart t := by
  constructor
  · intro hosts
    obtain ⟨across, rest⟩ := List.pairwise_cons.1 hosts.apart
    exact ⟨hosts.placed s List.mem_cons_self,
      ⟨fun t here => hosts.placed t (List.mem_cons_of_mem _ here), rest⟩, across⟩
  · rintro ⟨placed, rest, across⟩
    refine ⟨fun t here => ?_, List.pairwise_cons.2 ⟨across, rest.apart⟩⟩
    cases here with
    | head => exact placed
    | tail _ later => exact rest.placed t later

/-- The order of the windows does not matter. -/
theorem perm {more : List Segment} (hosts : st.Hosts live) (same : live.Perm more) :
    st.Hosts more :=
  ⟨fun s here => hosts.placed s (same.mem_iff.2 here),
    hosts.apart.perm same Segment.Apart.symm⟩

/-- Some of the windows may go. -/
theorem subperm {fewer : List Segment} (hosts : st.Hosts live) (some : fewer.Subperm live) :
    st.Hosts fewer := by
  obtain ⟨kept, same, sublist⟩ := some
  refine Hosts.perm ⟨fun s here => hosts.placed s (sublist.subset here), ?_⟩ same
  exact hosts.apart.sublist sublist

theorem left {front back : List Segment} (hosts : st.Hosts (front ++ back)) : st.Hosts front :=
  (append_iff.1 hosts).1

theorem right {front back : List Segment} (hosts : st.Hosts (front ++ back)) : st.Hosts back :=
  (append_iff.1 hosts).2.1

/-- A narrower window takes the place of another. -/
theorem narrow {s t : Segment} (hosts : st.Hosts (s :: others)) (within : t.Within s)
    (placed : t.Placed st) : st.Hosts (t :: others) := by
  obtain ⟨_, rest, across⟩ := cons_iff.1 hosts
  exact cons_iff.2 ⟨placed, rest, fun o here => (across o here).narrow within⟩

/-- A view keeps clear of everything that its window keeps clear of, and of the window. -/
theorem view {s t : Segment} (hosts : st.Hosts live) (here : s ∈ live) (view : t.Views s) :
    st.Hosts (t :: live) := by
  refine cons_iff.2 ⟨view.placed (hosts.placed s here), hosts, fun o there => ?_⟩
  have ordered := (hosts.placed s here).valid.stop_le_limit
  by_cases same : o = s
  · subst same
    exact view.apart_self
  · exact view.apart (hosts.apart.forall here there (Ne.symm same)) ordered

/-- Any number of views may be added. -/
theorem views {ts : List Segment} (hosts : st.Hosts live)
    (views : ∀ t ∈ ts, ∃ s ∈ live, t.Views s) : st.Hosts (ts ++ live) := by
  induction ts with
  | nil => exact hosts
  | cons t ts ih =>
      obtain ⟨s, here, view⟩ := views t List.mem_cons_self
      have rest := ih fun t there => views t (List.mem_cons_of_mem _ there)
      exact rest.view (List.mem_append_right _ here) view

/-- A cell that no window reaches could be the room of another one. -/
theorem room (hosts : st.Hosts live) {c : Cell} (made : c.storage.index < st.arrays.size)
    (within : c.index < st.extent c.storage) (clear : ∀ s ∈ live, ¬s.Reaches c) :
    st.Hosts (c.room :: live) := by
  refine cons_iff.2 ⟨⟨made, ⟨Nat.le_refl _, Nat.le_succ _, within⟩⟩, hosts, fun s here => ?_⟩
  constructor
  · intro d spare reached
    rw [Cell.spares_room.1 spare] at reached
    exact clear s here reached
  · intro d spare reached
    have ordered := (hosts.placed s here).valid.start_le_stop
    rw [Cell.reaches_room.1 reached] at spare
    exact clear s here ⟨spare.1, Nat.le_trans ordered spare.2.1, spare.2.2⟩

/-- Nothing beside the room for a cell reaches the cell. -/
theorem not_reaches_of_room {c : Cell} (hosts : st.Hosts (live ++ others))
    (room : c.room ∈ others) : ∀ s ∈ live, ¬s.Reaches c := fun s here =>
  ((append_iff.1 hosts).2.2 s here c.room room).right c (Cell.spares_room.2 rfl)

end Hosts

end Store

/-! ## What an operation does beside its own windows -/

section

variable {α : Type}

/-- An operation that began over `st` has left the windows `own` over `st'`.  All other windows are
hosted beside them, and none of these can tell the stores apart.  No array has gone. -/
structure Undisturbed (others : List Segment) (st : Store α) (own : List Segment)
    (st' : Store α) : Prop where
  hosts : st'.Hosts (own ++ others)
  keeps : st.Keeps st' others
  size_le : st.arrays.size ≤ st'.arrays.size

namespace Undisturbed

variable {st st' st'' : Store α} {others own own' : List Segment}

/-- Nothing has been done. -/
theorem refl (hosts : st.Hosts (own ++ others)) : Undisturbed others st own st :=
  ⟨hosts, .refl st others, Nat.le_refl _⟩

/-- Two operations one after the other. -/
theorem trans (first : Undisturbed others st own st') (second : Undisturbed others st' own' st'') :
    Undisturbed others st own' st'' :=
  ⟨second.hosts, first.keeps.trans second.keeps, Nat.le_trans first.size_le second.size_le⟩

/-- An operation on some of the windows of an object is one on the object. -/
theorem frame {front : List Segment} (r : Undisturbed (front ++ others) st own st') :
    Undisturbed others st (own ++ front) st' :=
  ⟨by rw [List.append_assoc]; exact r.hosts, r.keeps.subset (List.subset_append_right _ _),
    r.size_le⟩

/-- Only some of the windows are left, in another order. -/
theorem subperm (r : Undisturbed others st own st') (some : own'.Subperm own) :
    Undisturbed others st own' st' :=
  ⟨r.hosts.subperm ((List.subperm_append_right others).2 some), r.keeps, r.size_le⟩

theorem perm (r : Undisturbed others st own st') (same : own.Perm own') :
    Undisturbed others st own' st' :=
  r.subperm same.symm.subperm

theorem content_eq (r : Undisturbed others st own st') {s : Segment} (here : s ∈ others) :
    s.content st' = s.content st :=
  r.keeps.content_eq here (r.hosts.placed s (List.mem_append_right _ here)).valid.stop_le_limit

end Undisturbed

/-! ## New arrays -/

theorem grows_alloc (st : Store α) (a : CellArray α) : st.Grows (st.alloc a).2 where
  size_le := by
    rw [Store.alloc, Array.size_push]
    exact Nat.le_succ _
  extent_eq id made := by
    rw [Store.extent_alloc, if_neg (by omega)]

/-- A new array leaves every window where it was, and the window over it has it to itself. -/
theorem undisturbed_allocate [TextUnit α] (units : List α) (capacity : Nat) {st : Store α}
    {others : List Segment} (hosts : st.Hosts others) :
    Undisturbed others st [(Segment.allocate units capacity st).1]
      (Segment.allocate units capacity st).2 where
  hosts := by
    refine Store.Hosts.cons_iff.2 ⟨⟨?_, Segment.valid_allocate units capacity st⟩,
      hosts.grow (grows_alloc st _), fun t here => ?_⟩
    · show st.arrays.size < (st.arrays.push _).size
      rw [Array.size_push]
      exact Nat.lt_succ_self _
    · refine Segment.apart_of_storage_ne fun same => ?_
      have made := (hosts.placed t here).made
      rw [← same] at made
      exact Nat.lt_irrefl _ made
  keeps := fun s here c reached =>
    Segment.cell?_allocate units capacity st (reached.1 ▸ (hosts.placed s here).made) c.index
  size_le := (grows_alloc st _).size_le

/-! ## Extending in place -/

theorem grows_update (st : Store α) (id : StorageId) (f : CellArray α → CellArray α)
    (extent : ∀ a, (f a).extent = a.extent) : st.Grows (st.update id f) where
  size_le := Nat.le_of_eq (Array.size_modify ..).symm
  extent_eq other _ := by
    simp only [Store.extent, Store.array?_update]
    by_cases same : other = id
    · rw [if_pos same]
      cases st.array? other with
      | none => rfl
      | some a => exact extent a
    · rw [if_neg same]

theorem grows_write (st : Store α) (id : StorageId) (i : Nat) (u : α) :
    st.Grows (st.write id i u) :=
  grows_update st id _ fun a => a.extent_set i u

theorem grows_writeAll (st : Store α) (id : StorageId) (i : Nat) (us : List α) :
    st.Grows (st.writeAll id i us) := by
  induction us generalizing st i with
  | nil => exact .refl st
  | cons u us ih => exact (grows_write st id i u).trans (ih _ _)

namespace Segment

/-- The window with its end moved back by `count` cells. -/
def extended (s : Segment) (count : Nat) : Segment := { s with stop := s.stop + count }

theorem within_extended (s : Segment) (count : Nat) : (s.extended count).Within s where
  spares := fun c spare => ⟨spare.1, by have := spare.2.1; simp only [extended] at this; omega,
    spare.2.2⟩
  reaches := fun _ reached => reached

theorem Placed.extended {s : Segment} {st : Store α} {count : Nat} (placed : s.Placed st)
    (room : s.stop + count ≤ s.limit) : (s.extended count).Placed st where
  made := placed.made
  valid := {
    start_le_stop := Nat.le_trans placed.valid.start_le_stop (Nat.le_add_right _ _)
    stop_le_limit := room
    limit_le_extent := placed.valid.limit_le_extent }

end Segment

/-- Writing behind the end of a window, where it has room, shows in no other window. -/
theorem undisturbed_writeAll {st : Store α} {s : Segment} {others : List Segment} (us : List α)
    (hosts : st.Hosts (s :: others)) (room : s.stop + us.length ≤ s.limit) :
    Undisturbed others st [s.extended us.length] (st.writeAll s.storage s.stop us) where
  hosts := by
    have placed := hosts.placed s List.mem_cons_self
    exact (hosts.narrow (s.within_extended _) (placed.extended room)).grow (grows_writeAll ..)
  keeps := by
    intro t here c reached
    obtain ⟨placed, _, across⟩ := Store.Hosts.cons_iff.1 hosts
    have inside := placed.valid.limit_le_extent
    show (st.writeAll s.storage s.stop us).cell? c.storage c.index = st.cell? c.storage c.index
    rw [Store.cell?_writeAll st s.storage c.storage s.stop c.index us (by omega), if_neg]
    rintro ⟨same, behind, before⟩
    exact (across t here).left c ⟨same, behind, by omega⟩ reached
  size_le := (grows_writeAll ..).size_le

/-- The units written behind the end of a window are what it then shows at its end. -/
theorem content_writeAll {st : Store α} {s : Segment} (us : List α) (valid : s.Valid st)
    (room : s.stop + us.length ≤ s.limit) :
    (s.extended us.length).content (st.writeAll s.storage s.stop us) = s.content st ++ us := by
  have ordered := valid.start_le_stop
  have inside := valid.limit_le_extent
  have counted := valid.length_content
  have before : s.length = s.stop - s.start := rfl
  have after : (s.extended us.length).length = s.stop + us.length - s.start := rfl
  apply List.ext_getElem?
  intro k
  rw [Segment.getElem?_content, List.getElem?_append, counted, Segment.getElem?_content]
  show (if k < (s.extended us.length).length then
    (st.writeAll s.storage s.stop us).cell? s.storage (s.start + k) else none) = _
  rw [Store.cell?_writeAll st s.storage s.storage s.stop _ us (by omega)]
  by_cases old : k < s.length
  · rw [if_pos (by omega), if_neg (by omega), if_pos old, if_pos old]
  · rw [if_neg old]
    by_cases new : k < (s.extended us.length).length
    · rw [if_pos new, if_pos ⟨rfl, by omega, by omega⟩]
      congr 1
      omega
    · rw [if_neg new, List.getElem?_eq_none (by omega)]

end

end SegmentedText
