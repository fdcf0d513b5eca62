/-!
# Arrays of cells

An array has a number of cells that never changes, its extent.  The cells at the
front are kept one by one.  Those behind them still hold the filler with which the
array was made, so their number says everything about them: an array with much
room takes no more memory than what has been written to it.

The view of an array is `CellArray.get?`, the unit in one cell.  The main
statements say what each operation does to the view: `CellArray.reach` changes
nothing, and `CellArray.set` exactly the cell that it names.
-/

set_option autoImplicit false

namespace SegmentedText

/-- An array of cells. -/
structure CellArray (α : Type) where
  /-- The cells at the front, which are kept one by one. -/
  front : Array α
  /-- The unit in every cell behind those. -/
  filler : α
  /-- The number of cells. -/
  extent : Nat
  deriving Repr

namespace CellArray

variable {α : Type}

/-- An array of at least `extent` cells, the first of which hold `units`. -/
def make (units : List α) (extent : Nat) (filler : α) : CellArray α :=
  ⟨units.toArray, filler, max extent units.length⟩

/-! ## Looking -/

/-- The unit in a cell. -/
def get? (a : CellArray α) (i : Nat) : Option α :=
  if i < a.extent then some (a.front.getD i a.filler) else none

/-- The same array with at least `count` of its cells kept one by one. -/
def reach (a : CellArray α) (count : Nat) : CellArray α :=
  { a with front := a.front ++ Array.replicate (count - a.front.size) a.filler }

/-- The units in the cells from `start` up to `stop`. -/
def slice (a : CellArray α) (start stop : Nat) : List α :=
  ((a.reach (min stop a.extent)).front.extract start (min stop a.extent)).toList

/-! ## Writing -/

/-- Overwrites one cell. -/
def set (a : CellArray α) (i : Nat) (u : α) : CellArray α :=
  if i < a.extent then
    let a := a.reach (i + 1)
    { a with front := a.front.setIfInBounds i u }
  else a

/-- Applies a mapping once to each cell from `start` up to `stop`. -/
def mapRange (a : CellArray α) (start stop : Nat) (f : α → α) : CellArray α :=
  let a := a.reach (min stop a.extent)
  { a with front := a.front.mapIdx fun i u => if start ≤ i ∧ i < stop then f u else u }

/-! ## What the operations do to the view -/

@[simp] theorem extent_make (units : List α) (extent : Nat) (filler : α) :
    (make units extent filler).extent = max extent units.length := rfl

theorem get?_make (units : List α) (extent : Nat) (filler : α) {i : Nat}
    (inside : i < units.length) : (make units extent filler).get? i = units[i]? := by
  have room : i < max extent units.length := Nat.lt_of_lt_of_le inside (Nat.le_max_right _ _)
  simp [get?, make, room, inside]

@[simp] theorem extent_reach (a : CellArray α) (count : Nat) : (a.reach count).extent = a.extent :=
  rfl

theorem le_size_front_reach (a : CellArray α) (count : Nat) :
    count ≤ (a.reach count).front.size := by
  simp only [reach, Array.size_append, Array.size_replicate]
  omega

@[simp] theorem getD_front_reach (a : CellArray α) (count i : Nat) :
    (a.reach count).front.getD i a.filler = a.front.getD i a.filler := by
  simp only [reach, Array.getD_eq_getD_getElem?, Array.getElem?_append, Array.getElem?_replicate]
  split
  next => rfl
  next behind =>
    rw [Array.getElem?_eq_none (Nat.le_of_not_lt behind)]
    split <;> rfl

@[simp] theorem get?_reach (a : CellArray α) (count i : Nat) :
    (a.reach count).get? i = a.get? i :=
  congrArg (fun u => if i < a.extent then some u else none) (getD_front_reach a count i)

theorem getElem?_slice (a : CellArray α) (start stop k : Nat) :
    (a.slice start stop)[k]? = if k < stop - start then a.get? (start + k) else none := by
  have kept := a.le_size_front_reach (min stop a.extent)
  have same := getD_front_reach a (min stop a.extent) (start + k)
  rw [slice, Array.getElem?_toList, Array.getElem?_extract, get?]
  by_cases inside : k < stop - start
  · by_cases held : start + k < a.extent
    · rw [if_pos (by omega), if_pos inside, if_pos held, ← same, Array.getD_eq_getD_getElem?,
        Array.getElem?_eq_getElem (by omega), Option.getD_some]
    · rw [if_neg (by omega), if_pos inside, if_neg held]
  · rw [if_neg (by omega), if_neg inside]

theorem length_slice (a : CellArray α) (start stop : Nat) :
    (a.slice start stop).length = min stop a.extent - start := by
  have kept := a.le_size_front_reach (min stop a.extent)
  rw [slice, Array.length_toList, Array.size_extract, Nat.min_eq_left kept]

@[simp] theorem extent_set (a : CellArray α) (i : Nat) (u : α) : (a.set i u).extent = a.extent := by
  unfold set
  split <;> rfl

/-- A write changes the cell that it names, if there is one, and no other. -/
theorem get?_set (a : CellArray α) (i j : Nat) (u : α) :
    (a.set i u).get? j = if j = i ∧ i < a.extent then some u else a.get? j := by
  have kept := a.le_size_front_reach (i + 1)
  have same := getD_front_reach a (i + 1) j
  unfold set
  by_cases room : i < a.extent
  · rw [if_pos room]
    by_cases here : j = i
    · subst here
      rw [if_pos ⟨rfl, room⟩]
      simp only [get?, extent_reach, if_pos room, Array.getD_eq_getD_getElem?,
        Array.getElem?_setIfInBounds, if_true, if_pos (show j < (a.reach (j + 1)).front.size by omega),
        Option.getD_some]
    · rw [if_neg (fun both => here both.1)]
      simp only [get?, extent_reach]
      rw [← same]
      simp only [Array.getD_eq_getD_getElem?, Array.getElem?_setIfInBounds, if_neg (Ne.symm here)]
      rfl
  · rw [if_neg room, if_neg (fun both => room both.2)]

@[simp] theorem extent_mapRange (a : CellArray α) (start stop : Nat) (f : α → α) :
    (a.mapRange start stop f).extent = a.extent := rfl

/-- A mapping over a range changes the cells of the range, each once, and no other. -/
theorem get?_mapRange (a : CellArray α) (start stop j : Nat) (f : α → α) :
    (a.mapRange start stop f).get? j =
      if start ≤ j ∧ j < stop then (a.get? j).map f else a.get? j := by
  have kept := a.le_size_front_reach (min stop a.extent)
  have same := getD_front_reach a (min stop a.extent) j
  unfold get?
  rw [extent_mapRange]
  by_cases room : j < a.extent
  · rw [if_pos room, if_pos room, Option.map_some, ← same]
    simp only [mapRange, Array.getD_eq_getD_getElem?, Array.getElem?_mapIdx]
    by_cases inside : start ≤ j ∧ j < stop
    · have held : j < (a.reach (min stop a.extent)).front.size := by omega
      rw [Array.getElem?_eq_getElem held]
      simp [inside]
    · simp only [if_neg inside, Option.map_id']
      rfl
  · simp [if_neg room]

end CellArray
end SegmentedText
