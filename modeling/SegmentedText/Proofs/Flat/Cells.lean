import SegmentedText.Buffer.Growth
import SegmentedText.Proofs.Ownership.Windows

/-!
# Cells and what they hold

The flat view of a list of segments is the list of cells that they show, one
segment after the other (`cellsOf`).  What can be proved of the cells holds of the
units as well: cells hold units (`Store.Reads`), cell by cell, so what is taken from one
list and put to another is taken and put together with its units, and the units
are told by the cells (`Store.Reads.unique`).
-/

set_option autoImplicit false

namespace SegmentedText

/-! ## Cells of several segments -/

/-- The cells that a list of segments shows, in order. -/
def cellsOf (segments : List Segment) : List Cell := segments.flatMap Segment.cells

@[simp] theorem cellsOf_nil : cellsOf [] = [] := rfl

@[simp] theorem cellsOf_cons (s : Segment) (segments : List Segment) :
    cellsOf (s :: segments) = s.cells ++ cellsOf segments := rfl

@[simp] theorem cellsOf_append (front back : List Segment) :
    cellsOf (front ++ back) = cellsOf front ++ cellsOf back := List.flatMap_append

@[simp] theorem length_cellsOf (segments : List Segment) :
    (cellsOf segments).length = totalLength segments := by
  induction segments with
  | nil => rfl
  | cons s rest ih =>
      rw [cellsOf_cons, List.length_append, Segment.length_cells, ih, totalLength_cons]

/-- The units that a list of segments shows, in order. -/
def contentOf {α : Type} (segments : List Segment) (st : Store α) : List α :=
  segments.flatMap (·.content st)

@[simp] theorem contentOf_nil {α : Type} (st : Store α) : contentOf [] st = [] := rfl

@[simp] theorem contentOf_cons {α : Type} (s : Segment) (segments : List Segment) (st : Store α) :
    contentOf (s :: segments) st = s.content st ++ contentOf segments st := rfl

@[simp] theorem contentOf_append {α : Type} (front back : List Segment) (st : Store α) :
    contentOf (front ++ back) st = contentOf front st ++ contentOf back st := List.flatMap_append

theorem Buffer.content_eq {α : Type} (b : Buffer) (st : Store α) :
    b.content st = contentOf b.segments st := rfl

theorem Buffer.cells_eq (b : Buffer) : b.cells = cellsOf b.segments := rfl

/-! ## Units of cells -/

namespace Store

variable {α : Type} {st : Store α}

/-- The cells hold the units, one each. -/
def Reads (st : Store α) (cells : List Cell) (units : List α) : Prop :=
  cells.map st.unit? = units.map some

namespace Reads

variable {cells cells' : List Cell} {units units' : List α}

theorem nil : st.Reads [] [] := rfl

theorem append (first : st.Reads cells units) (second : st.Reads cells' units') :
    st.Reads (cells ++ cells') (units ++ units') := by
  rw [Reads, List.map_append, List.map_append, first, second]

theorem take (reads : st.Reads cells units) (count : Nat) :
    st.Reads (cells.take count) (units.take count) := by
  rw [Reads, List.map_take, List.map_take, reads]

theorem drop (reads : st.Reads cells units) (count : Nat) :
    st.Reads (cells.drop count) (units.drop count) := by
  rw [Reads, List.map_drop, List.map_drop, reads]

/-- Cells hold no two lists of units. -/
theorem unique (reads : st.Reads cells units) (reads' : st.Reads cells units') :
    units = units' := by
  have same : units.map some = units'.map some := reads.symm.trans reads'
  exact List.map_inj_right (fun _ _ => Option.some.inj) |>.1 same

theorem length_eq (reads : st.Reads cells units) : cells.length = units.length := by
  have same := congrArg List.length reads
  rwa [List.length_map, List.length_map] at same

end Reads

end Store

/-! ## Units of windows -/

section

variable {α : Type} {st : Store α}

/-- The cells of a window that lies within its array hold what the window shows. -/
theorem Segment.Valid.reads {s : Segment} (valid : s.Valid st) :
    st.Reads s.cells (s.content st) := by
  have counted := valid.length_content
  refine List.ext_getElem? fun k => ?_
  rw [List.getElem?_map, List.getElem?_map, s.getElem?_content st k]
  by_cases inside : k < s.length
  · rw [if_pos inside]
    have here : s.cells[k]? = some ⟨s.storage, s.start + k⟩ := by
      rw [Segment.cells, List.getElem?_map, List.getElem?_range' inside]
      simp
    have shown : (s.content st)[k]? = st.cell? s.storage (s.start + k) := by
      rw [s.getElem?_content st k, if_pos inside]
    rw [here, Option.map_some]
    have present : k < (s.content st).length := by omega
    rw [← shown, List.getElem?_eq_getElem present, Option.map_some]
    show some (st.cell? s.storage (s.start + k)) = _
    rw [← shown, List.getElem?_eq_getElem present]
  · rw [if_neg inside, Option.map_none, List.getElem?_eq_none (by simp; omega), Option.map_none]

theorem reads_cellsOf {segments : List Segment} (valid : ∀ s ∈ segments, s.Valid st) :
    st.Reads (cellsOf segments) (contentOf segments st) := by
  induction segments with
  | nil => exact .nil
  | cons s rest ih =>
      exact (valid s List.mem_cons_self).reads.append
        (ih fun t later => valid t (List.mem_cons_of_mem _ later))

theorem length_contentOf {segments : List Segment} (valid : ∀ s ∈ segments, s.Valid st) :
    (contentOf segments st).length = totalLength segments := by
  rw [← (reads_cellsOf valid).length_eq, length_cellsOf]

theorem Buffer.Valid.reads {b : Buffer} (valid : b.Valid st) : st.Reads b.cells (b.content st) :=
  reads_cellsOf valid

theorem Buffer.Valid.length_content {b : Buffer} (valid : b.Valid st) :
    (b.content st).length = b.length := length_contentOf valid

/-- What a buffer shows is told by its cells. -/
theorem Buffer.Valid.content_eq {b : Buffer} {cells : List Cell} {units : List α}
    (valid : b.Valid st) (shown : b.cells = cells) (reads : st.Reads cells units) :
    b.content st = units :=
  (shown ▸ valid.reads).unique reads

/-- Windows that show what they showed make up the same text. -/
theorem contentOf_congr {st' : Store α} {segments : List Segment}
    (same : ∀ s ∈ segments, s.content st' = s.content st) :
    contentOf segments st' = contentOf segments st := List.flatMap_congr same

theorem Undisturbed.content_buffer_eq {st' : Store α} {others own : List Segment} {b : Buffer}
    (r : Undisturbed others st own st') (alive : b.segments ⊆ others) :
    b.content st' = b.content st :=
  contentOf_congr fun _ here => r.content_eq (alive here)

theorem Buffer.valid_of_hosts {b : Buffer} {live : List Segment} (hosts : st.Hosts live)
    (alive : b.segments ⊆ live) : b.Valid st :=
  fun s here => (hosts.placed s (alive here)).valid

end

end SegmentedText
