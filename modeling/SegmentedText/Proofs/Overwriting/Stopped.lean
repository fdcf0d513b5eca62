import SegmentedText.Proofs.Lending.Steps
import SegmentedText.Proofs.Overwriting.Visible

/-!
# Changes in place that are stopped

A segment over an array that is lent out is not overwritten; the change is refused.  A change
of all units goes over the segments of an object one after the other, and asks for each array
when it comes to it.  So a buffer can be refused halfway: the segments in front of the first
that is lent out have been changed, and stay so.

What is left behind is told by these segments (`unlentFront`).  A world is passed over at
their cells (`World.PassedOver`) if every cell holds what the mapping makes of what it held,
applied as often as these segments show the cell, and no object has become another.  The
main statement (`World.stopped_at_lent`) says that this is all that happens, whether the
change is refused or not.  So an array that is lent out shows no change at all, and nothing
shows one if the first segment is lent out; a single segment is refused as a whole.  A
buffer need not be (`World.changed_although_refused`).
-/

set_option autoImplicit false

namespace SegmentedText

variable {α : Type}

/-! ## Mappings up to what is lent out -/

/-- The segments in front of the first over an array that is lent out. -/
def unlentFront (lent : List StorageId) (segments : List Segment) : List Segment :=
  segments.takeWhile fun s => !lent.contains s.storage

theorem not_mem_of_mem_unlentFront {lent : List StorageId} {segments : List Segment} {s : Segment}
    (here : s ∈ unlentFront lent segments) : s.storage ∉ lent := by
  have free := List.mem_takeWhile_imp here
  simpa using free

/-- A mapping goes over the segments in front of the first that is lent out, and is refused at
that. -/
theorem mapEachSegment_eq_unlentFront (around : Surroundings) (f : α → α)
    (segments : List Segment) (st : Store α) :
    mapEachSegment around f segments st =
      ((mapEachSegment around f (unlentFront around.lent segments) st).1,
        if ∃ s ∈ segments, s.storage ∈ around.lent then some .storageLent else none) := by
  induction segments generalizing st with
  | nil => simp [mapEachSegment, unlentFront]
  | cons s rest ih =>
      by_cases lent : s.storage ∈ around.lent
      · have stopped : ∃ t ∈ s :: rest, t.storage ∈ around.lent := ⟨s, List.mem_cons_self, lent⟩
        have front : unlentFront around.lent (s :: rest) = [] := by
          simp [unlentFront, lent]
        have refused : s.mapUnits around f st = .error .storageLent :=
          if_pos (List.contains_iff_mem.2 lent)
        rw [if_pos stopped, front]
        simp only [mapEachSegment, refused]
      · have later : (∃ t ∈ s :: rest, t.storage ∈ around.lent) ↔
            ∃ t ∈ rest, t.storage ∈ around.lent := by
          simp [lent]
        have front : unlentFront around.lent (s :: rest) = s :: unlentFront around.lent rest := by
          simp [unlentFront, lent]
        have mapped : s.mapUnits around f st = .ok (st.mapRange s.storage s.start s.stop f) :=
          if_neg fun refused => lent (List.contains_iff_mem.1 refused)
        rw [front, mapEachSegment, mapEachSegment, mapped]
        simp only [later]
        exact ih _

/-- A window shows what it showed if its cells hold what they held. -/
theorem Segment.Valid.content_of_units {s : Segment} {st st' : Store α} (valid : s.Valid st)
    (valid' : s.Valid st') (same : ∀ c ∈ s.cells, st'.unit? c = st.unit? c) :
    s.content st' = s.content st := by
  have reads : st'.Reads s.cells (s.content st) := by
    rw [Store.Reads, List.map_congr_left same]
    exact valid.reads
  exact valid'.reads.unique reads

namespace World

variable {w : World α} {target : String} {o : Object}

/-! ## Worlds that are passed over -/

/-- Every cell holds what the mapping makes of what it held, applied as often as the cell is in the
list.  Every object is the one it was, and shows each unit as its cell has been mapped. -/
structure PassedOver (cells : List Cell) (f : α → α) (w w' : World α) : Prop where
  unit : ∀ c, w'.store.unit? c = (w.store.unit? c).map f^[cells.count c]
  extent : ∀ id, w'.store.extent id = w.store.extent id
  objects : ∀ name, w'.get? name = w.get? name
  length : ∀ name (o : Object), w.get? name = some o →
    (o.content w.store).length = o.length ∧ (o.content w'.store).length = o.length
  shown : ∀ name (o : Object), w.get? name = some o → ∀ (k : Nat) (c : Cell), o.cells[k]? = some c →
    ∃ u, (o.content w.store)[k]? = some u ∧
      (o.content w'.store)[k]? = some (f^[cells.count c] u)
  /-- A window that shows none of the cells shows what it showed. -/
  apart : ∀ name (o : Object), w.get? name = some o → ∀ s ∈ o.segments,
    (∀ c ∈ s.cells, c ∉ cells) → s.content w'.store = s.content w.store

/-- What an object shows follows from what the cells hold. -/
theorem passedOver_of_units {cells : List Cell} {f : α → α} {w' : World α} (sound : w.Sound)
    (unit : ∀ c, w'.store.unit? c = (w.store.unit? c).map f^[cells.count c])
    (extent : ∀ id, w'.store.extent id = w.store.extent id)
    (objects : ∀ name, w'.get? name = w.get? name) : PassedOver cells f w w' := by
  have before : ∀ name o, w.get? name = some o → o.Valid w.store := fun name o there s here =>
    (sound.placed s (subset_alive_of_get? there here)).valid
  have after : ∀ name o, w.get? name = some o → o.Valid w'.store := fun name o there s here =>
    let valid := before name o there s here
    ⟨valid.start_le_stop, valid.stop_le_limit, by rw [extent]; exact valid.limit_le_extent⟩
  refine ⟨unit, extent, objects, fun name o there => ?length, fun name o there k c here => ?shown,
    fun name o there s here clear => ?apart⟩
  case length =>
    rw [← (before name o there).reads.length_eq, ← (after name o there).reads.length_eq]
    exact ⟨o.length_cells, o.length_cells⟩
  case shown =>
    obtain ⟨u, held, shown⟩ := (before name o there).getElem?_content here
    obtain ⟨v, held', shown'⟩ := (after name o there).getElem?_content here
    rw [unit, held] at held'
    exact ⟨u, shown, shown'.trans held'.symm⟩
  case apart =>
    refine (before name o there s here).content_of_units (after name o there s here) fun c inside => ?_
    rw [unit, List.count_eq_zero_of_not_mem (clear c inside), Function.iterate_zero, Option.map_id]
    rfl

/-! ## What a refused change leaves behind -/

/-- An object is mapped as far as its first segment over an array that is lent out, and the change
is refused if there is such a segment. -/
structure Stopped (f : α → α) (o : Object) (lent : List StorageId) (w : World α)
    (r : World α × Answer) : Prop where
  answer : r.2 = if ∃ s ∈ o.segments, s.storage ∈ lent then .fault .storageLent else .done
  passed : PassedOver (cellsOf (unlentFront lent o.segments)) f w r.1
  /-- A window over an array that is lent out shows what it showed. -/
  kept : ∀ name (other : Object), w.get? name = some other → ∀ s ∈ other.segments,
    s.storage ∈ lent → s.content r.1.store = s.content w.store
  /-- Nothing has changed if the first segment, or the only one, is lent out. -/
  unchanged : (∀ s ∈ o.segments.head?, s.storage ∈ lent) → ∀ name (other : Object),
    w.get? name = some other → other.content r.1.store = other.content w.store

theorem PassedOver.stopped {lent : List StorageId} {f : α → α} {r : World α × Answer}
    (passed : PassedOver (cellsOf (unlentFront lent o.segments)) f w r.1)
    (answer : r.2 = if ∃ s ∈ o.segments, s.storage ∈ lent then .fault .storageLent else .done) :
    Stopped f o lent w r := by
  refine ⟨answer, passed, fun name other there s here held => ?kept,
    fun first name other there => ?unchanged⟩
  case kept =>
    refine passed.apart name other there s here fun c inside front => ?_
    obtain ⟨t, ahead, inside'⟩ := List.mem_flatMap.1 front
    have same : s.storage = t.storage :=
      (Segment.mem_cells.1 inside).1.symm.trans (Segment.mem_cells.1 inside').1
    exact not_mem_of_mem_unlentFront ahead (same ▸ held)
  case unchanged =>
    have front : unlentFront lent o.segments = [] := by
      cases segments : o.segments with
      | nil => rfl
      | cons s rest =>
          have held : s.storage ∈ lent := first s (by rw [segments]; rfl)
          simp [unlentFront, held]
    refine other.content_congr fun s here => passed.apart name other there s here fun c _ inside => ?_
    rw [front] at inside
    exact absurd inside List.not_mem_nil

variable [TextUnit α]

/-- The cells and registers behind a mapping of all units, however much is lent out. -/
theorem units_of_rewrites (there : w.get? target = some o) {action : Action α} {edit : Edit α}
    {f : α → α} (rewrites : action.Rewrites target edit) (maps : edit.mapping? = some f) :
    ((w.act action).2 =
        if ∃ s ∈ o.segments, s.storage ∈ w.lent then .fault .storageLent else .done) ∧
      (∀ c, (w.act action).1.store.unit? c = (w.store.unit? c).map
        f^[(cellsOf (unlentFront w.lent o.segments)).count c]) ∧
      (∀ id, (w.act action).1.store.extent id = w.store.extent id) ∧
      ∀ name, (w.act action).1.get? name = w.get? name := by
  obtain ⟨around, same, told⟩ := act_of_rewrites there rewrites
  obtain ⟨answered, store, objects⟩ := told _ _ (Object.apply_mapping maps)
  have stops := mapEachSegment_eq_unlentFront around f o.segments w.store
  rw [same] at stops
  rw [stops] at answered store
  refine ⟨answered.trans ?_, fun c => ?_, fun id => ?_, objects⟩
  · by_cases stopped : ∃ s ∈ o.segments, s.storage ∈ w.lent
    · rw [if_pos stopped, if_pos stopped]
      rfl
    · rw [if_neg stopped, if_neg stopped]
      rfl
  · rw [store]
    refine unit?_mapEachSegment f w.store (fun s here => ?_) c
    rw [Surroundings.lends, same, List.contains_eq_mem,
      decide_eq_false (not_mem_of_mem_unlentFront here)]
  · rw [store]
    exact Store.extent_mapEachSegment f _ w.store id

variable {barred : World α → Action α → Prop}

/-- **A change of all units that meets what is lent out has changed the segments before.**

While windows are lent out, a change of all units of an object is refused exactly if the object has
a segment over an array of theirs.  Whether or not it is, the segments in front of the first such
one have been changed, as every object shows that shares their cells; and nothing else has.  So
what is lent out shows no change, and nothing shows one where the first segment is lent out, as a
single segment is that is refused.  It is the same where a step runs inside of another that lends
the window. -/
theorem stopped_at_lent (reached : Reached barred w) (there : w.get? target = some o)
    {edit : Edit α} {f : α → α} (maps : edit.mapping? = some f) :
    (∀ (lent : List StorageId) (action : Action α), action.Rewrites target edit →
      Stopped f o lent w ((w.withLent lent).act action)) ∧
    (∀ (source : String) (i : Nat) (change : Change) (lender : Object) (s : Segment),
      w.get? source = some lender → lender.segmentAt? i = some s → source ≠ target →
        change.rewriting? = some edit →
          Stopped f o (s.storage :: w.lent) w (w.step (.lend source i (.change target change)))) := by
  have sound := reached.sound
  refine ⟨fun lent action rewrites => ?_, fun source i change lender s lending found other
    rewriting => ?_⟩
  · obtain ⟨answer, units, extent, objects⟩ :=
      units_of_rewrites (w := w.withLent lent) there rewrites maps
    exact (passedOver_of_units sound units extent objects).stopped answer
  · have beside : ∀ name, (w.settingAside source lender (s.storage :: w.lent)).get? name =
        if name = source then none else w.get? name := w.get?_erase source
    have within : (w.settingAside source lender (s.storage :: w.lent)).get? target = some o := by
      rw [beside, if_neg (Ne.symm other), there]
    have rewrites : (Action.step (.change target change)).Rewrites target edit := ⟨rfl, rewriting⟩
    obtain ⟨answer, units, extent, objects⟩ := units_of_rewrites within rewrites maps
    rw [step_lend _ lending found]
    refine PassedOver.stopped (passedOver_of_units sound units extent fun name => ?_) answer
    rw [get?_put]
    by_cases same : name = source
    · rw [if_pos same, same, lending]
    · rw [if_neg same]
      exact (objects name).trans ((beside name).trans (if_neg same))

/-- A buffer of two segments, and an alias of each of them. -/
def sharedHalves : World Char :=
  (((({} : World Char).act (.step (.make "b" (.bufferOfParts ["ab", "cd"] {})))).1.act
    (.step (.derive "b" "s" (.segmentAt 0)))).1.act (.step (.derive "b" "t" (.segmentAt 1)))).1

theorem reached_sharedHalves : Reached (fun _ _ => False) sharedHalves :=
  .act (.act (.act .start trivial id) trivial id) trivial id

/-- While the second half is lent out, the change of the whole is refused, and the first half has
been changed, in the buffer and in its alias. -/
theorem changed_although_refused :
    Reached (fun _ _ => False) sharedHalves ∧
      sharedHalves.dump =
        [("b", .buffer [⟨"ab", 2⟩, ⟨"cd", 2⟩]), ("s", .segment ⟨"ab", 2⟩),
          ("t", .segment ⟨"cd", 2⟩)] ∧
      (sharedHalves.step (.lend "t" 0 (.change "b" .upperCase))).2 = .fault .storageLent ∧
      (sharedHalves.step (.lend "t" 0 (.change "b" .upperCase))).1.dump =
        [("s", .segment ⟨"AB", 2⟩), ("b", .buffer [⟨"AB", 2⟩, ⟨"cd", 2⟩]),
          ("t", .segment ⟨"cd", 2⟩)] := by
  exact ⟨reached_sharedHalves, by decide, by decide, by decide⟩

theorem stopped_at_lent_sharedHalves :
    let b : Object := .buffer ⟨.held [⟨⟨0⟩, 0, 2, 2⟩, ⟨⟨1⟩, 0, 2, 2⟩], {}⟩
    sharedHalves.get? "b" = some b ∧
      Stopped TextUnit.toUpper b [⟨1⟩] sharedHalves
        (sharedHalves.step (.lend "t" 0 (.change "b" .upperCase))) ∧
      Stopped TextUnit.toUpper b [⟨0⟩] sharedHalves
        ((sharedHalves.withLent [⟨0⟩]).act (.step (.change "b" .upperCase))) := by
  intro b
  have there : sharedHalves.get? "b" = some b := by decide
  have lender : sharedHalves.get? "t" = some (.segment ⟨⟨1⟩, 0, 2, 2⟩) := by decide
  obtain ⟨acting, inside⟩ :=
    stopped_at_lent reached_sharedHalves there (rfl : (Edit.upperCase : Edit Char).mapping? = _)
  exact ⟨there, inside "t" 0 .upperCase _ _ lender rfl (by decide) rfl,
    acting [⟨0⟩] (.step (.change "b" .upperCase)) ⟨rfl, rfl⟩⟩

end World
end SegmentedText
