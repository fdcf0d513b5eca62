import SegmentedText.CellArray

/-!
# The store of arrays

All text lives in arrays of cells.  An array is made once, is known by its
place in the order of making, and never changes its extent; its cells can be
overwritten.  A window of text is a range of cells of one array, so windows over
one array can overlap, and a write through one of them shows in the others.

Arrays are not removed from the store when the last window over them goes: what
no window reaches cannot be seen.

The view of a store is `Store.cell?`, the unit in one cell.  The main statements
say what each operation does to the view: making an array adds cells and changes
none, and a write changes exactly the cell that it names.
-/

set_option autoImplicit false

namespace SegmentedText

/-- The name of an array: the number of arrays made before it. -/
structure StorageId where
  index : Nat
  deriving Repr, DecidableEq

/-- One place in one array. -/
structure Cell where
  storage : StorageId
  index : Nat
  deriving Repr, DecidableEq

/-- The arrays made so far, in order. -/
structure Store (α : Type) where
  arrays : Array (CellArray α) := #[]

namespace Store

variable {α : Type}

/-! ## Looking -/

/-- The array of a name, if it has been made. -/
def array? (st : Store α) (id : StorageId) : Option (CellArray α) := st.arrays[id.index]?

/-- The number of cells of an array; one that was never made has none. -/
def extent (st : Store α) (id : StorageId) : Nat :=
  match st.array? id with
  | some a => a.extent
  | none => 0

/-- The unit in a cell. -/
def cell? (st : Store α) (id : StorageId) (i : Nat) : Option α :=
  match st.array? id with
  | some a => a.get? i
  | none => none

/-- The units in the cells from `start` up to `stop`. -/
def slice (st : Store α) (id : StorageId) (start stop : Nat) : List α :=
  match st.array? id with
  | some a => a.slice start stop
  | none => []

/-! ## Making and writing -/

/-- Adds an array. -/
def alloc (st : Store α) (a : CellArray α) : StorageId × Store α :=
  (⟨st.arrays.size⟩, ⟨st.arrays.push a⟩)

/-- Changes one array. -/
def update (st : Store α) (id : StorageId) (f : CellArray α → CellArray α) : Store α :=
  ⟨st.arrays.modify id.index f⟩

/-- Overwrites one cell. -/
def write (st : Store α) (id : StorageId) (i : Nat) (u : α) : Store α :=
  st.update id (·.set i u)

/-- Overwrites the cells from `i` on, one after the other. -/
def writeAll (st : Store α) (id : StorageId) (i : Nat) : List α → Store α
  | [] => st
  | u :: us => (st.write id i u).writeAll id (i + 1) us

/-- Applies a mapping once to each cell from `start` up to `stop`. -/
def mapRange (st : Store α) (id : StorageId) (start stop : Nat) (f : α → α) : Store α :=
  st.update id (·.mapRange start stop f)

/-! ## What the operations do to the view -/

theorem array?_alloc (st : Store α) (a : CellArray α) (id : StorageId) :
    (st.alloc a).2.array? id = if id.index = st.arrays.size then some a else st.array? id := by
  simp only [alloc, array?, Array.getElem?_push]

theorem array?_update (st : Store α) (id other : StorageId) (f : CellArray α → CellArray α) :
    (st.update id f).array? other =
      if other = id then (st.array? other).map f else st.array? other := by
  have same : other = id ↔ id.index = other.index := by
    cases other
    cases id
    simp [eq_comm]
  simp only [update, array?, Array.getElem?_modify, same]

/-- The cells of a new array are its own, and no other cell changes. -/
theorem cell?_alloc (st : Store α) (a : CellArray α) (id : StorageId) (i : Nat) :
    (st.alloc a).2.cell? id i =
      if id.index = st.arrays.size then a.get? i else st.cell? id i := by
  simp only [cell?, array?_alloc]
  by_cases new : id.index = st.arrays.size
  · rw [if_pos new, if_pos new]
  · rw [if_neg new, if_neg new]

theorem extent_alloc (st : Store α) (a : CellArray α) (id : StorageId) :
    (st.alloc a).2.extent id =
      if id.index = st.arrays.size then a.extent else st.extent id := by
  simp only [extent, array?_alloc]
  by_cases new : id.index = st.arrays.size
  · rw [if_pos new, if_pos new]
  · rw [if_neg new, if_neg new]

@[simp] theorem cell?_alloc_self (st : Store α) (a : CellArray α) (i : Nat) :
    (st.alloc a).2.cell? (st.alloc a).1 i = a.get? i := by
  rw [cell?_alloc]
  exact if_pos rfl

@[simp] theorem extent_alloc_self (st : Store α) (a : CellArray α) :
    (st.alloc a).2.extent (st.alloc a).1 = a.extent := by
  rw [extent_alloc]
  exact if_pos rfl

/-- A write changes the cell that it names, if there is one, and no other. -/
theorem cell?_write (st : Store α) (id other : StorageId) (i j : Nat) (u : α) :
    (st.write id i u).cell? other j =
      if other = id ∧ j = i ∧ i < st.extent id then some u else st.cell? other j := by
  simp only [write, cell?, extent, array?_update]
  by_cases same : other = id
  · subst same
    simp only [if_true, true_and]
    cases st.array? other with
    | none => simp
    | some a => simp only [Option.map_some, CellArray.get?_set]
  · simp [same]

@[simp] theorem extent_write (st : Store α) (id other : StorageId) (i : Nat) (u : α) :
    (st.write id i u).extent other = st.extent other := by
  simp only [write, extent, array?_update]
  by_cases same : other = id
  · rw [if_pos same]
    cases st.array? other <;> simp
  · rw [if_neg same]

@[simp] theorem extent_writeAll (st : Store α) (id other : StorageId) (i : Nat) (us : List α) :
    (st.writeAll id i us).extent other = st.extent other := by
  induction us generalizing st i with
  | nil => rfl
  | cons u us ih => rw [writeAll, ih, extent_write]

/-- Writing a list changes the cells that the list covers and no other. -/
theorem cell?_writeAll (st : Store α) (id other : StorageId) (i j : Nat) (us : List α)
    (fits : i + us.length ≤ st.extent id) :
    (st.writeAll id i us).cell? other j =
      if other = id ∧ i ≤ j ∧ j < i + us.length then us[j - i]? else st.cell? other j := by
  induction us generalizing st i with
  | nil =>
      rw [writeAll, if_neg (by simp only [List.length_nil]; omega)]
  | cons u us ih =>
      simp only [List.length_cons] at fits ⊢
      rw [writeAll, ih _ _ (by simp; omega), cell?_write]
      by_cases same : other = id
      · subst same
        simp only [true_and]
        rcases Nat.lt_trichotomy j i with before | here | after
        · simp [show ¬ i + 1 ≤ j by omega, show ¬ i ≤ j by omega, show ¬ j = i by omega]
        · subst here
          simp [show j < st.extent other by omega, show ¬ j + 1 ≤ j by omega]
        · have step : j - i = (j - (i + 1)) + 1 := by omega
          simp only [show i + 1 ≤ j by omega, show i ≤ j by omega, show ¬ j = i by omega,
            true_and, false_and, if_false, step, List.getElem?_cons_succ]
          simp only [show j < i + 1 + us.length ↔ j < i + (us.length + 1) by omega]
      · simp [same]

/-- A mapping over a range changes the cells of the range, each once, and no other. -/
theorem cell?_mapRange (st : Store α) (id other : StorageId) (start stop j : Nat) (f : α → α) :
    (st.mapRange id start stop f).cell? other j =
      if other = id ∧ start ≤ j ∧ j < stop then (st.cell? other j).map f else st.cell? other j := by
  simp only [mapRange, cell?, array?_update]
  by_cases same : other = id
  · subst same
    simp only [if_true, true_and]
    cases st.array? other with
    | none => simp
    | some a => simp only [Option.map_some, CellArray.get?_mapRange]
  · simp [same]

@[simp] theorem extent_mapRange (st : Store α) (id other : StorageId) (start stop : Nat)
    (f : α → α) : (st.mapRange id start stop f).extent other = st.extent other := by
  simp only [mapRange, extent, array?_update]
  by_cases same : other = id
  · rw [if_pos same]
    cases st.array? other <;> simp
  · rw [if_neg same]

/-- The units of a slice are the units of its cells. -/
theorem getElem?_slice (st : Store α) (id : StorageId) (start stop k : Nat) :
    (st.slice id start stop)[k]? = if k < stop - start then st.cell? id (start + k) else none := by
  simp only [slice, cell?]
  cases st.array? id with
  | none => simp
  | some a => exact a.getElem?_slice start stop k

theorem length_slice (st : Store α) (id : StorageId) (start stop : Nat) :
    (st.slice id start stop).length = min stop (st.extent id) - start := by
  simp only [slice, extent]
  cases st.array? id with
  | none => simp
  | some a => exact a.length_slice start stop

/-- Slices over cells that agree are equal. -/
theorem slice_congr {st st' : Store α} {id : StorageId} {start stop : Nat}
    (agree : ∀ i, start ≤ i → i < stop → st'.cell? id i = st.cell? id i) :
    st'.slice id start stop = st.slice id start stop := by
  apply List.ext_getElem?
  intro k
  rw [getElem?_slice, getElem?_slice]
  split
  · exact agree _ (by omega) (by omega)
  · rfl

end Store

end SegmentedText
