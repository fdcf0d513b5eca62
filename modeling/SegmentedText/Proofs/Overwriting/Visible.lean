import SegmentedText.Proofs.Flat.Distinct
import SegmentedText.Proofs.Ownership.Reached
import SegmentedText.Proofs.Refusals.Bounds

/-!
# Where a change in place is seen

A change in place overwrites cells, and a cell may be shown in many places: by other
objects over the same array, and by one object more than once.  Where the change is seen
is told by the cells alone.

A world is rewritten at some cells (`World.Rewritten`) if these hold what a mapping makes
of what they held, every other cell holds what it held, and no object has become another;
so every object shows the change at the places that show one of these cells, and nowhere
else.  The main statement says at which cells a world is rewritten by each change in place:
the one cell that shows an index, the cells of an object that held a unit, or, where the
object shows no cell twice, all of its cells (`World.rewritten_where_shown`).

Where segments of a buffer overlap, a mapping of all units passes a cell as often as it is
shown (`unit?_mapEachSegment`).  To replace a unit that makes no difference
(`iterate_replacing`), to a change of case it can.
-/

set_option autoImplicit false

namespace SegmentedText

variable {α : Type}

/-! ## Cells and places of an object -/

theorem Object.length_cells (o : Object) : o.cells.length = o.length := by
  cases o with
  | segment s =>
      show (s.cells ++ []).length = s.length
      rw [List.append_nil, Segment.length_cells]
  | buffer b => exact b.length_cells
  | bounded b => exact b.inner.length_cells

/-- Every window of an object lies in order within its array. -/
def Object.Valid (o : Object) (st : Store α) : Prop := ∀ s ∈ o.segments, s.Valid st

theorem Object.Valid.reads {o : Object} {st : Store α} (valid : o.Valid st) :
    st.Reads o.cells (o.content st) := reads_cellsOf valid

/-- A place of an object shows the unit in its cell. -/
theorem Object.Valid.getElem?_content {o : Object} {st : Store α} (valid : o.Valid st) {k : Nat}
    {c : Cell} (here : o.cells[k]? = some c) :
    ∃ u, st.unit? c = some u ∧ (o.content st)[k]? = some u := by
  have same := congrArg (fun units : List (Option α) => units[k]?) valid.reads
  simp only [List.getElem?_map, here, Option.map_some] at same
  obtain ⟨u, shown, held⟩ := Option.map_eq_some_iff.1 same.symm
  exact ⟨u, held.symm, shown⟩

/-- Windows without overlap show no cell twice. -/
theorem nodup_cellsOf {segments : List Segment}
    (apart : segments.Pairwise fun s t => s.cells.Disjoint t.cells) : (cellsOf segments).Nodup :=
  List.nodup_flatMap.2 ⟨fun s _ => s.nodup_cells, apart⟩

/-! ## Edits in place -/

theorem Store.extent_mapEachSegment {around : Surroundings} (f : α → α) (segments : List Segment)
    (st : Store α) (id : StorageId) :
    (mapEachSegment around f segments st).1.extent id = st.extent id := by
  fun_induction mapEachSegment around f segments st with
  | case1 => rfl
  | case2 s rest st st' done ih =>
      unfold Segment.mapUnits at done
      split at done
      next => cases done
      next =>
        obtain rfl := Except.ok.inj done
        exact ih.trans (st.extent_mapRange ..)
  | case3 => rfl

variable [TextUnit α]

/-- To replace a unit once more changes nothing. -/
theorem iterate_replacing (old new : α) (count : Nat) :
    (replacing old new)^[count + 1] = replacing old new := by
  have twice : replacing old new ∘ replacing old new = replacing old new := by
    funext u
    unfold replacing
    by_cases held : u = old
    · simp [held]
    · simp [held]
  induction count with
  | zero => rfl
  | succ count ih => rw [Function.iterate_succ, ih, twice]

/-- The mapping of all units that an edit amounts to. -/
def Edit.mapping? : Edit α → Option (α → α)
  | .replaceUnit old new => some (replacing old new)
  | .lowerCase => some TextUnit.toLower
  | .upperCase => some TextUnit.toUpper
  | _ => none

namespace Object

variable {o : Object} {st : Store α} {around : Surroundings}

/-- A unit is overwritten in the one cell that shows its index. -/
theorem apply_setAt (valid : o.Valid st) (free : ∀ id, around.lends id = false) {i : Nat}
    (inside : i < o.length) (u : α) :
    ∃ c, o.cells[i]? = some c ∧ c.index < st.extent c.storage ∧
      o.apply around st (.setAt i u) = some ⟨o, st.write c.storage c.index u, .ok .done⟩ := by
  have inner : ∀ {b : Buffer}, b.Valid st → i < b.length → ∃ c, b.cells[i]? = some c ∧
      c.index < st.extent c.storage ∧ b.setAt around i u st = .ok (st.write c.storage c.index u) :=
    fun valid inside => Buffer.setAt_eq_write valid (fun s _ => free s.storage) inside u
  cases o with
  | segment s =>
      have written : s.setAt around i u st = .ok (st.write s.storage (s.start + i) u) := by
        have within : i < s.length := inside
        rw [Segment.setAt, if_neg (Nat.not_le_of_lt within), free]
        rfl
      refine ⟨⟨s.storage, s.start + i⟩, ?_, (valid s List.mem_cons_self).index_lt inside, ?_⟩
      · show (s.cells ++ [])[i]? = _
        rw [List.append_nil]
        exact s.getElem?_cells inside
      · simp only [Object.apply, Segment.apply, written]
        rfl
  | buffer b =>
      obtain ⟨c, here, within, written⟩ := inner valid inside
      refine ⟨c, here, within, ?_⟩
      simp only [Object.apply, Buffer.apply, written]
      rfl
  | bounded b =>
      obtain ⟨c, here, within, written⟩ := inner valid inside
      refine ⟨c, here, within, ?_⟩
      simp only [Object.apply, Bounded.apply, written]
      rfl

/-- A mapping goes over the segments of the object, whatever its kind. -/
theorem apply_mapping {edit : Edit α} {f : α → α} (maps : edit.mapping? = some f) :
    o.apply around st edit =
      let r := mapEachSegment around f o.segments st
      some ⟨o, r.1, r.2.elim (.ok .done) .error⟩ := by
  have single : ∀ s : Segment, (Edited.written s st (s.mapUnits around f st)).mapObject segment =
      let r := mapEachSegment around f [s] st
      ⟨segment s, r.1, r.2.elim (.ok .done) .error⟩ := by
    intro s
    simp only [mapEachSegment]
    cases s.mapUnits around f st <;> rfl
  have whole : ∀ {ω : Type} (object : ω) (toObject : ω → Object) (r : Store α × Option Fault),
      (Edited.mapped object r).mapObject toObject =
        ⟨toObject object, r.1, r.2.elim (.ok .done) .error⟩ := by
    rintro ω object toObject ⟨st, _ | fault⟩ <;> rfl
  cases o with
  | segment s => cases edit <;> cases maps <;> exact congrArg some (single s)
  | buffer b => cases edit <;> cases maps <;> exact congrArg some (whole b buffer _)
  | bounded b => cases edit <;> cases maps <;> exact congrArg some (whole b bounded _)

end Object

/-! ## Actions in place -/

/-- The edit that a change in place amounts to. -/
def Change.rewriting? : Change → Option (Edit α)
  | .setAt i c => some (.setAt i (TextUnit.ofChar c))
  | .replaceUnit old new => some (.replaceUnit (TextUnit.ofChar old) (TextUnit.ofChar new))
  | .lowerCase => some .lowerCase
  | .upperCase => some .upperCase
  | _ => none

/-- An action that applies an edit in place to the object of a register, whether the edit comes
from a step or from outside. -/
def Action.Rewrites (action : Action α) (target : String) (edit : Edit α) : Prop :=
  match action with
  | .step (.change name what) => name = target ∧ what.rewriting? = some edit
  | .edit name what _ => name = target ∧ what = edit
  | _ => False

namespace World

variable {w w' : World α} {target : String} {o : Object}

theorem edit?_of_rewriting {what : Change} {edit : Edit α}
    (rewriting : what.rewriting? = some edit) : w.edit? what = some (edit, w) := by
  cases what <;> cases rewriting <;> rfl

/-- An edit that leaves an object as it is changes the store and no register. -/
theorem act_of_rewrites (there : w.get? target = some o) {action : Action α} {edit : Edit α}
    (rewrites : action.Rewrites target edit) :
    ∃ around : Surroundings, around.lent = w.lent ∧ ∀ st reply,
      o.apply around w.store edit = some ⟨o, st, reply⟩ →
        (w.act action).2 = .ofExcept (Reply.answer st) reply ∧ (w.act action).1.store = st ∧
          ∀ name, (w.act action).1.get? name = w.get? name := by
  have applied : ∀ (resolved : World α) (st : Store α) (reply : Except Fault Reply),
      resolved.get? target = some o →
      o.apply (resolved.erase target).surroundings resolved.store edit = some ⟨o, st, reply⟩ →
      resolved.applyEdit target edit =
        some (((resolved.erase target).withStore st).put target o,
          .ofExcept (Reply.answer st) reply) := by
    intro resolved st reply there done
    rw [applyEdit_of_get? there, done]
    rfl
  have kept : ∀ (resolved : World α) (st : Store α) (name : String),
      resolved.get? target = some o →
      (((resolved.erase target).withStore st).put target o).get? name = resolved.get? name := by
    intro resolved st name there
    rw [get?_put]
    by_cases same : name = target
    · rw [if_pos same, same, there]
    · rw [if_neg same]
      exact (get?_erase resolved target name).trans (if_neg same)
  match action, rewrites with
  | .step (.change _ what), ⟨rfl, rewriting⟩ =>
      refine ⟨(w.erase target).surroundings, rfl, fun st reply done => ?_⟩
      have changed : w.act (.step (.change target what)) =
          ({ ((w.erase target).withStore st).put target o with
            aside := w.aside, lent := w.lent }, .ofExcept (Reply.answer st) reply) := by
        simp only [act, step, change, take?_of_get? there, edit?_of_rewriting rewriting,
          applied w st reply there done]
      rw [changed]
      exact ⟨rfl, rfl, fun name => kept w st name there⟩
  | .edit _ _ relied, ⟨rfl, rfl⟩ =>
      refine ⟨({ w with aside := relied ++ w.aside }.erase target).surroundings, rfl,
        fun st reply done => ?_⟩
      have changed : w.act (.edit target edit relied) =
          ({ (({ w with aside := relied ++ w.aside }.erase target).withStore st).put target o with
            aside := w.aside, lent := w.lent }, .ofExcept (Reply.answer st) reply) := by
        simp only [act, applied { w with aside := relied ++ w.aside } st reply there done]
      rw [changed]
      exact ⟨rfl, rfl, fun name => kept { w with aside := relied ++ w.aside } st name there⟩

/-! ## Rewritten worlds -/

/-- The cells in `changed` hold what the mapping makes of what they held, and nothing else has
changed.  Every object is the one it was, with its windows, its layout and its bounds; it shows
the change at the places that show such a cell, and what it showed at all others. -/
structure Rewritten (changed : Cell → Prop) (f : α → α) (w w' : World α) : Prop where
  mapped : ∀ c, changed c → w'.store.unit? c = (w.store.unit? c).map f
  unmapped : ∀ c, ¬changed c → w'.store.unit? c = w.store.unit? c
  extent : ∀ id, w'.store.extent id = w.store.extent id
  objects : ∀ name, w'.get? name = w.get? name
  length : ∀ name (o : Object), w.get? name = some o →
    (o.content w.store).length = o.length ∧ (o.content w'.store).length = o.length
  shown : ∀ name (o : Object), w.get? name = some o → ∀ (k : Nat) (c : Cell), o.cells[k]? = some c →
    ∃ u, (o.content w.store)[k]? = some u ∧
      (changed c → (o.content w'.store)[k]? = some (f u)) ∧
      (¬changed c → (o.content w'.store)[k]? = some u)

omit [TextUnit α] in
/-- What an object shows follows from what the cells hold. -/
theorem rewritten_of_units {changed : Cell → Prop} {f : α → α} (sound : w.Sound)
    (mapped : ∀ c, changed c → w'.store.unit? c = (w.store.unit? c).map f)
    (unmapped : ∀ c, ¬changed c → w'.store.unit? c = w.store.unit? c)
    (extent : ∀ id, w'.store.extent id = w.store.extent id)
    (objects : ∀ name, w'.get? name = w.get? name) : Rewritten changed f w w' := by
  have before : ∀ name o, w.get? name = some o → o.Valid w.store := fun name o there s here =>
    (sound.placed s (subset_alive_of_get? there here)).valid
  have after : ∀ name o, w.get? name = some o → o.Valid w'.store := fun name o there s here =>
    let valid := before name o there s here
    ⟨valid.start_le_stop, valid.stop_le_limit, by rw [extent]; exact valid.limit_le_extent⟩
  refine ⟨mapped, unmapped, extent, objects, fun name o there => ?_, fun name o there k c here => ?_⟩
  · rw [← (before name o there).reads.length_eq, ← (after name o there).reads.length_eq]
    exact ⟨o.length_cells, o.length_cells⟩
  · obtain ⟨u, held, shown⟩ := (before name o there).getElem?_content here
    obtain ⟨v, held', shown'⟩ := (after name o there).getElem?_content here
    refine ⟨u, shown, fun hit => ?_, fun missed => ?_⟩
    · rw [mapped c hit, held] at held'
      exact shown'.trans held'.symm
    · rw [unmapped c missed, held] at held'
      exact shown'.trans held'.symm

section

variable (sound : w.Sound) (unlent : w.lent = []) (there : w.get? target = some o)
include sound unlent there

/-- To overwrite the unit at an index rewrites the one cell that shows the index. -/
theorem rewritten_setAt {action : Action α} {i : Nat} {u : α}
    (rewrites : action.Rewrites target (.setAt i u)) (inside : i < o.length) :
    ∃ c, o.cells[i]? = some c ∧ (w.act action).2 = .done ∧
      Rewritten (· = c) (fun _ => u) w (w.act action).1 := by
  have valid : o.Valid w.store := fun s here =>
    (sound.placed s (subset_alive_of_get? there here)).valid
  obtain ⟨around, same, told⟩ := act_of_rewrites there rewrites
  have free : ∀ id, around.lends id = false := fun id => by
    rw [Surroundings.lends, same, unlent]
    rfl
  obtain ⟨c, here, within, written⟩ := Object.apply_setAt valid free inside u
  obtain ⟨v, held, -⟩ := valid.getElem?_content here
  obtain ⟨answered, store, objects⟩ := told _ _ written
  have units : ∀ d, (w.act action).1.store.unit? d = if d = c then some u else w.store.unit? d :=
    fun d => by rw [store, Store.unit?_write w.store c d u within]
  refine ⟨c, here, answered, rewritten_of_units sound ?_ ?_ ?_ objects⟩
  · rintro d rfl
    rw [units, if_pos rfl, held]
    rfl
  · intro d missed
    rw [units, if_neg missed]
  · intro id
    rw [store, Store.extent_write]

omit sound in
/-- A mapping of all units passes every cell as often as the object shows it. -/
theorem mapped_by_rewrites {action : Action α} {edit : Edit α} {f : α → α}
    (rewrites : action.Rewrites target edit) (maps : edit.mapping? = some f) :
    (w.act action).2 = .done ∧
      (∀ c, (w.act action).1.store.unit? c = (w.store.unit? c).map f^[o.cells.count c]) ∧
      (∀ id, (w.act action).1.store.extent id = w.store.extent id) ∧
      ∀ name, (w.act action).1.get? name = w.get? name := by
  obtain ⟨around, same, told⟩ := act_of_rewrites there rewrites
  have free : ∀ id, around.lends id = false := fun id => by
    rw [Surroundings.lends, same, unlent]
    rfl
  have ended : (mapEachSegment around f o.segments w.store).2 = none :=
    mapEachSegment_of_free f fun s _ => free s.storage
  obtain ⟨answered, store, objects⟩ := told _ _ (Object.apply_mapping maps)
  rw [ended] at answered
  refine ⟨answered, fun c => ?_, fun id => ?_, objects⟩
  · rw [store]
    exact unit?_mapEachSegment f w.store (fun s _ => free s.storage) c
  · rw [store]
    exact Store.extent_mapEachSegment f o.segments w.store id

/-- A mapping that makes no difference the second time rewrites all cells of the object. -/
theorem rewritten_of_passed {action : Action α} {edit : Edit α} {f : α → α}
    (rewrites : action.Rewrites target edit) (maps : edit.mapping? = some f)
    (passed : ∀ c ∈ o.cells, f^[o.cells.count c] = f) :
    (w.act action).2 = .done ∧ Rewritten (· ∈ o.cells) f w (w.act action).1 := by
  obtain ⟨answered, units, extent, objects⟩ := mapped_by_rewrites unlent there rewrites maps
  refine ⟨answered, rewritten_of_units sound (fun c here => ?_) (fun c absent => ?_) extent objects⟩
  · rw [units, passed c here]
  · rw [units, List.count_eq_zero_of_not_mem absent, Function.iterate_zero, Option.map_id]
    rfl

/-- To replace a unit rewrites the cells of the object that held it, however often it shows them. -/
theorem rewritten_replaceUnit {action : Action α} {old new : α}
    (rewrites : action.Rewrites target (.replaceUnit old new)) :
    (w.act action).2 = .done ∧
      Rewritten (fun c => c ∈ o.cells ∧ w.store.unit? c = some old) (fun _ => new) w
        (w.act action).1 := by
  obtain ⟨answered, all⟩ := rewritten_of_passed sound unlent there rewrites rfl fun c here => by
    obtain ⟨count, shown⟩ := Nat.exists_eq_succ_of_ne_zero (List.count_pos_iff.2 here).ne'
    rw [shown, iterate_replacing]
  refine ⟨answered, rewritten_of_units sound ?_ ?_ all.extent all.objects⟩
  · rintro c ⟨here, held⟩
    rw [all.mapped c here, held, Option.map_some, replacing, if_pos rfl]
    rfl
  · intro c missed
    by_cases here : c ∈ o.cells
    · rw [all.mapped c here]
      cases held : w.store.unit? c with
      | none => rfl
      | some v =>
          have differs : v ≠ old := fun same => missed ⟨here, same ▸ held⟩
          rw [Option.map_some, replacing, if_neg differs]
    · exact all.unmapped c here

/-- A mapping of the units of an object whose windows do not overlap rewrites all its cells. -/
theorem rewritten_of_apart {action : Action α} {edit : Edit α} {f : α → α}
    (rewrites : action.Rewrites target edit) (maps : edit.mapping? = some f)
    (apart : o.segments.Pairwise fun s t => s.cells.Disjoint t.cells) :
    (w.act action).2 = .done ∧ Rewritten (· ∈ o.cells) f w (w.act action).1 :=
  rewritten_of_passed sound unlent there rewrites maps fun c here => by
    have once : o.cells.count c = 1 := List.count_eq_one_of_mem (nodup_cellsOf apart) here
    rw [once, Function.iterate_one]

end

variable {barred : World α → Action α → Prop}

/-- **A change in place is seen exactly where its cells are shown.**

Where no window is lent out, to overwrite the unit at an index writes to the one cell that shows
the index.  To replace a unit overwrites the cells of the object that held it, even if several of
its windows show them.  A change of case maps every cell of the object once, if no two of its
windows overlap; those of a segment never do.  None of them is refused. -/
theorem rewritten_where_shown (reached : Reached barred w) (unlent : w.lent = [])
    (there : w.get? target = some o) :
    (∀ i u action, action.Rewrites target (.setAt i u) → i < o.length →
      ∃ c, o.cells[i]? = some c ∧ (w.act action).2 = .done ∧
        Rewritten (· = c) (fun _ => u) w (w.act action).1) ∧
    (∀ old new action, action.Rewrites target (.replaceUnit old new) →
      (w.act action).2 = .done ∧
        Rewritten (fun c => c ∈ o.cells ∧ w.store.unit? c = some old) (fun _ => new) w
          (w.act action).1) ∧
    (o.segments.Pairwise (fun s t => s.cells.Disjoint t.cells) → ∀ action,
      (action.Rewrites target .lowerCase →
        (w.act action).2 = .done ∧
          Rewritten (· ∈ o.cells) TextUnit.toLower w (w.act action).1) ∧
      (action.Rewrites target .upperCase →
        (w.act action).2 = .done ∧
          Rewritten (· ∈ o.cells) TextUnit.toUpper w (w.act action).1)) := by
  have sound := reached.sound
  refine ⟨fun i u action rewrites inside => ?_, fun old new action rewrites => ?_,
    fun apart action => ⟨fun rewrites => ?_, fun rewrites => ?_⟩⟩
  · exact rewritten_setAt sound unlent there rewrites inside
  · exact rewritten_replaceUnit sound unlent there rewrites
  · exact rewritten_of_apart sound unlent there rewrites rfl apart
  · exact rewritten_of_apart sound unlent there rewrites rfl apart

/-- A segment, and a buffer that shows its cells twice. -/
def shownTwice : World Char :=
  (((({} : World Char).act (.step (.make "a" (.segmentOfArray "xY" 2)))).1.act
    (.step (.ofSegment "c" "a" false))).1.act (.step (.change "c" (.appendSegment "a" false)))).1

theorem reached_shownTwice : Reached (fun _ _ => False) shownTwice :=
  .act (.act (.act .start trivial id) trivial id) trivial id

/-- One cell is overwritten, and shows three times; the segment is mapped once. -/
theorem rewritten_where_shown_shownTwice :
    let c : Object := .buffer ⟨.held [⟨⟨0⟩, 0, 2, 2⟩, ⟨⟨0⟩, 0, 2, 2⟩], {}⟩
    shownTwice.get? "c" = some c ∧ c.content shownTwice.store = ['x', 'Y', 'x', 'Y'] ∧
      Rewritten (· = ⟨⟨0⟩, 1⟩) (fun _ => 'z') shownTwice
        (shownTwice.act (.step (.change "c" (.setAt 3 'z')))).1 ∧
      c.content (shownTwice.act (.step (.change "c" (.setAt 3 'z')))).1.store =
        ['x', 'z', 'x', 'z'] ∧
      Rewritten (fun d => d ∈ c.cells ∧ shownTwice.store.unit? d = some 'x') (fun _ => 'z')
        shownTwice (shownTwice.act (.step (.change "c" (.replaceUnit 'x' 'z')))).1 ∧
      Rewritten (· ∈ [⟨⟨0⟩, 0⟩, ⟨⟨0⟩, 1⟩]) TextUnit.toUpper shownTwice
        (shownTwice.act (.step (.change "a" .upperCase))).1 := by
  intro c
  have there : shownTwice.get? "c" = some c := by decide
  have segment : shownTwice.get? "a" = some (.segment ⟨⟨0⟩, 0, 2, 2⟩) := by decide
  obtain ⟨written, replaced, -⟩ := rewritten_where_shown reached_shownTwice rfl there
  obtain ⟨-, -, cased⟩ := rewritten_where_shown reached_shownTwice rfl segment
  obtain ⟨d, here, -, rewritten⟩ := written 3 'z' (.step (.change "c" (.setAt 3 'z')))
    ⟨rfl, rfl⟩ (by decide)
  obtain rfl : (⟨⟨0⟩, 1⟩ : Cell) = d := Option.some.inj here
  obtain ⟨-, replaced⟩ := replaced 'x' 'z' (.step (.change "c" (.replaceUnit 'x' 'z'))) ⟨rfl, rfl⟩
  obtain ⟨-, mapped⟩ := (cased (List.pairwise_singleton _ _)
    (.step (.change "a" .upperCase))).2 ⟨rfl, rfl⟩
  exact ⟨there, by decide, rewritten, by decide, replaced, mapped⟩

end World
end SegmentedText
