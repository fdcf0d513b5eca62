import SegmentedText.Proofs.Flat.Appends

/-!
# Layouts that can be followed

A layout asks for room whenever a buffer opens a segment or its first list of segments.
A layout that asks for no more than there can be (`Layout.Allots`) is never the reason for
refusing an append.  What is appended then finds room, unless the last segment is lent out and
there can be no larger array to move it to (`Buffer.Admits`).

No operation changes the layout of a buffer, so what can be allotted once can be allotted
for as long as the buffer lives.
-/

set_option autoImplicit false

namespace SegmentedText

/-- There can be a list of segments as the layout opens it, and a new segment for `pending` units. -/
structure Layout.Allots (α : Type) [TextUnit α] (layout : Layout) (pending : Nat) : Prop where
  list : layout.opensList = true
  segment : fitsMemory (TextUnit.kind α).width (layout.newSegmentCapacity pending) = true

variable {α : Type} [TextUnit α]

theorem Layout.Allots.mono {layout : Layout} {less more : Nat} (allots : layout.Allots α more)
    (le : less ≤ more) : layout.Allots α less :=
  ⟨allots.list, fitsMemory_of_le (layout.newSegmentCapacity_mono le) allots.segment⟩

namespace Buffer

variable {b : Buffer} {st : Store α} {around : Surroundings}

omit [TextUnit α] in
theorem canHold_of_opensList (there : b.layout.opensList = true) : b.canHold = true := by
  rw [canHold, there, Bool.or_true]

theorem opens_of_allots {pending : Nat} (allots : b.layout.Allots α pending) :
    b.opens α pending = true := by
  rw [opens, allots.segment, canHold_of_opensList allots.list]
  rfl

/-! ## Layouts stay -/

omit [TextUnit α] in
@[simp] theorem layout_push (s : Segment) : (b.push s).layout = b.layout := by
  unfold push
  split <;> rfl

omit [TextUnit α] in
@[simp] theorem layout_pushFront (s : Segment) : (b.pushFront s).layout = b.layout := by
  unfold pushFront
  split <;> rfl

omit [TextUnit α] in
@[simp] theorem layout_mapSegments (f : List Segment → List Segment) :
    (b.mapSegments f).layout = b.layout := by
  unfold mapSegments
  split <;> rfl

omit [TextUnit α] in
theorem layout_of_splice {r b' : Buffer} {start stop : Nat} {c : Cursor}
    (done : b.splice start stop r = .ok (b', c)) : b'.layout = b.layout := by
  obtain ⟨rfl, -⟩ := eq_of_splice done
  rfl

theorem layout_of_extendBy {pending : Nat} {write : Segment → Store α → Edited Segment α Unit}
    {extended : Buffer × Store α} (done : b.extendBy pending write st = .ok extended) :
    extended.1.layout = b.layout := by
  obtain ⟨-, -, rfl⟩ := eq_of_extendBy done
  rfl

theorem layout_of_append {u : α} {appended : Buffer × Store α}
    (done : b.append around u st = .ok appended) : appended.1.layout = b.layout := by
  rcases append_cases done with ⟨front, last, -, -, rfl⟩ | ⟨-, opened⟩
  · rfl
  · exact layout_of_extendBy opened

theorem layout_extend (units : List α) : (b.extend around units st).object.layout = b.layout := by
  induction units generalizing b st with
  | nil => rfl
  | cons u us ih =>
      rw [extend]
      split
      next b' st' done => exact ih.trans (layout_of_append done)
      next => rfl

section

variable {write : Segment → List α → Store α → Edited Segment α Unit}

theorem layout_appendRest (rest : List α) :
    (b.appendRest write rest st).object.layout = b.layout := by
  unfold appendRest
  split
  next => rfl
  next =>
    unfold Edited.whole
    split
    next made done => exact layout_of_extendBy done
    next => rfl

theorem layout_appendBy (units : List α) :
    (b.appendBy write units st).object.layout = b.layout := by
  unfold appendBy
  split
  next =>
    exact Edited.left_andThen (P := fun (b' : Buffer) (_ : Store α) => b'.layout = b.layout) rfl
      fun _ => layout_appendRest _
  next => exact layout_appendRest _

end

theorem layout_appendSlice (units : List α) :
    (b.appendSlice around units st).object.layout = b.layout := layout_appendBy units

theorem layout_appendText (text : String) :
    (b.appendText around text st).object.layout = b.layout := layout_appendBy _

theorem layout_replaceFrom {search replacement : List α} {c : Cursor} {count : Nat} :
    (replaceFrom search replacement b c count st).object.layout = b.layout := by
  fun_induction replaceFrom search replacement b c count st
  case case3 done ih => exact ih.trans (layout_of_splice done)
  all_goals rfl

theorem layout_substituteFrom {opening closing : List α} {provider : Provider α} {c : Cursor}
    {enclosed : List Buffer} :
    (substituteFrom opening closing provider b c enclosed st).object.layout = b.layout := by
  fun_induction substituteFrom opening closing provider b c enclosed st
  case case5 done ih => exact ih.trans (layout_of_splice done)
  all_goals rfl

theorem layout_substitute (opening closing : List α) (provider : Provider α) :
    (b.substitute opening closing provider st).object.layout = b.layout := by
  unfold substitute
  split
  next => rfl
  next => exact layout_substituteFrom

/-! ## Nothing is refused -/

omit [TextUnit α] in
theorem taking_of_opensList (there : b.layout.opensList = true) (nothing : Bool)
    (changed : Buffer) : b.taking nothing changed = .ok changed := by
  rw [taking, canHold_of_opensList there, Bool.or_true]
  rfl

/-- There can be room for `pending` more units behind those of a buffer: in its last segment, which
can be moved if it is lent out, and in a new one. -/
def Admits (α : Type) [TextUnit α] (b : Buffer) (around : Surroundings) (pending : Nat) : Prop :=
  b.fills α around = true ∧ b.layout.Allots α pending

theorem Admits.mono {less more : Nat} (admits : b.Admits α around more) (le : less ≤ more) :
    b.Admits α around less := ⟨admits.1, admits.2.mono le⟩

theorem Admits.congr {around' : Surroundings} {pending : Nat} (admits : b.Admits α around pending)
    (same : around'.lent = around.lent) : b.Admits α around' pending :=
  ⟨(fills_congr same).trans admits.1, admits.2⟩

theorem Admits.finds {pending : Nat} (admits : b.Admits α around pending) (count : Nat) :
    b.Finds α around count pending :=
  .inr ⟨admits.1, .inr (opens_of_allots admits.2)⟩

section

variable {others : List Segment} (hosts : st.Hosts (b.segments ++ others))
  (made : around.LendsMade st)
include hosts made

theorem append_of_admits (admits : b.Admits α around 1) (u : α) :
    ∃ appended, b.append around u st = .ok appended := by
  obtain ⟨appended, done, -⟩ := append_of_finds made hosts (Nat.le_refl 1) (admits.finds 1) u
  exact ⟨appended, done⟩

theorem extend_of_admits (admits : b.Admits α around 1) (units : List α) :
    (b.extend around units st).answer = .ok () :=
  extend_of_finds made hosts (admits.finds units.length)

theorem appendSlice_of_admits {units : List α} (admits : b.Admits α around units.length) :
    (b.appendSlice around units st).answer = .ok () :=
  (answer_appendBy (writesBehind_appendSlice around) hosts made units).2
    ((admits.mono (Nat.sub_le ..)).finds _)

theorem appendText_of_admits {text : String}
    (admits : b.Admits α around (TextUnit.unitsOf text : List α).length) :
    (b.appendText around text st).answer = .ok () :=
  (answer_appendBy (writesBehind_appendEach around) hosts made (TextUnit.unitsOf text)).2
    ((admits.mono (Nat.sub_le ..)).finds _)

/-! ### Room for more -/

variable {around' : Surroundings} (made' : around'.LendsMade st) {pending : Nat}
  (admits : b.Admits α around' pending)
include made' admits

theorem admits_append {u : α} {appended : Buffer × Store α}
    (done : b.append around u st = .ok appended) : appended.1.Admits α around' pending :=
  ⟨fills_append made hosts done made' admits.1, (layout_of_append done).symm ▸ admits.2⟩

theorem admits_appendBy {write : Segment → List α → Store α → Edited Segment α Unit}
    (writes : WritesBehind around write) (units : List α) :
    (b.appendBy write units st).object.Admits α around' pending :=
  ⟨fills_appendBy writes hosts made made' admits.1 units, (layout_appendBy units).symm ▸ admits.2⟩

end

end Buffer
end SegmentedText
