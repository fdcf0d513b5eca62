import SegmentedText.Proofs.Detaching.Sides
import SegmentedText.Proofs.Flat.Distinct
import SegmentedText.Proofs.Lists.Thinning
import SegmentedText.Proofs.Serial.RoundTrip

/-!
# Objects that are detached

To compact an object moves each of its windows to a new array, and to copy it moves all
that it shows to one.  Whatever the object shared before, with others or with itself, it
then shows the same text through windows that are exactly their arrays, and no other window
that is alive is over one of these (`World.Detached`).

So the border around such an object parts the world.  From there on it is the business of
the two sides to stay apart: until an alias is made between them, nothing that is done on
one side shows on the other (`World.detached`).
-/

set_option autoImplicit false

namespace SegmentedText

variable {α : Type} {st st' : Store α}

/-! ## Windows over arrays of their own -/

/-- Each of the windows shows the whole of an array that has been made since, and no two of them
the same one. -/
structure Exact (st st' : Store α) (segments : List Segment) : Prop where
  whole : ∀ s ∈ segments, s.start = 0 ∧ s.stop = st'.extent s.storage ∧ s.limit = s.stop
  distinct : segments.Pairwise fun s t => s.storage ≠ t.storage
  unmade : ∀ s ∈ segments, st.arrays.size ≤ s.storage.index

namespace Exact

theorem nil (st st' : Store α) : Exact st st' [] := ⟨nofun, .nil, nofun⟩

theorem sublist {segments fewer : List Segment} (exact : Exact st st' segments)
    (some : fewer.Sublist segments) : Exact st st' fewer :=
  ⟨fun s here => exact.whole s (some.subset here), exact.distinct.sublist some,
    fun s here => exact.unmade s (some.subset here)⟩

theorem length_pos {segments : List Segment} (exact : Exact st st' segments) {s : Segment}
    (here : s ∈ segments) (shows : s.isEmpty = false) : 0 < s.length := by
  rw [Segment.isEmpty, beq_eq_false_iff_ne, (exact.whole s here).1] at shows
  rw [Segment.length, (exact.whole s here).1]
  omega

/-- No window that was alive is over one of the arrays. -/
theorem storage_ne {segments live : List Segment} (exact : Exact st st' segments)
    (hosts : st.Hosts live) : ∀ s ∈ segments, ∀ t ∈ live, s.storage ≠ t.storage := by
  intro s new t old same
  have made := (hosts.placed t old).made
  rw [← same] at made
  exact Nat.not_lt_of_le (exact.unmade s new) made

variable [TextUnit α]

/-- One more window over a new array, made before the others. -/
theorem cons {units : List α} {rest : List Segment}
    (grows : (Segment.ofUnits units st).2.Grows st')
    (later : Exact (Segment.ofUnits units st).2 st' rest) :
    Exact st st' ((Segment.ofUnits units st).1 :: rest) := by
  have size : (Segment.ofUnits units st).2.arrays.size = st.arrays.size + 1 :=
    Segment.size_allocate units units.length st
  have behind : ∀ s ∈ rest, st.arrays.size < s.storage.index := fun s here => by
    have := later.unmade s here
    omega
  have extent : st'.extent (Segment.ofUnits units st).1.storage = units.length := by
    have made : (Segment.ofUnits units st).1.storage.index <
        (Segment.ofUnits units st).2.arrays.size := by
      rw [size]
      exact Nat.lt_succ_self _
    rw [grows.extent_eq _ made]
    exact (Store.extent_alloc_self st _).trans (Nat.max_self _)
  refine ⟨fun s here => ?_, List.pairwise_cons.2 ⟨fun s here same => ?_, later.distinct⟩,
    fun s here => ?_⟩
  · rcases List.mem_cons.1 here with rfl | there
    · exact ⟨rfl, extent.symm, Nat.max_self _⟩
    · exact later.whole s there
  · have new := behind s here
    rw [← same] at new
    exact Nat.lt_irrefl _ new
  · rcases List.mem_cons.1 here with rfl | there
    · exact Nat.le_refl _
    · exact Nat.le_of_lt (behind s there)

theorem grows_compactEach (segments : List Segment) (st : Store α) :
    st.Grows (compactEach segments st).2 := by
  induction segments generalizing st with
  | nil => exact .refl st
  | cons s rest ih => exact (grows_alloc st _).trans (ih _)

theorem compactEach (segments : List Segment) (st : Store α) :
    Exact st (compactEach segments st).2 (compactEach segments st).1 := by
  induction segments generalizing st with
  | nil => exact .nil st st
  | cons s rest ih => exact cons (grows_compactEach rest _) (ih _)

end Exact

/-! ## Objects that move -/

/-- An object shows what another one showed, through windows over arrays made for it.  If it is not
a single segment, all of them show something. -/
structure Moved (st : Store α) (o : Object) (st' : Store α) (o' : Object) : Prop where
  exact : Exact st st' o'.segments
  shown : (∀ s, o' ≠ .segment s) → ∀ s ∈ o'.segments, 0 < s.length
  content : o'.content st' = o.content st

variable [TextUnit α]

theorem Segment.moved_compact (s : Segment) (st : Store α) :
    Moved st (.segment s) (s.compact st).2 (.segment (s.compact st).1) where
  exact := .cons (.refl _) (.nil ..)
  shown := fun other => absurd rfl (other _)
  content := congrArg (· ++ []) (Segment.content_allocate (s.content st) _ st)

namespace Buffer

variable {b : Buffer}

/-- The buffer of an object is compacted. -/
theorem moved_compact {o o' : Object} (hosts : st.Hosts b.segments)
    (before : o.segments = b.segments) (after : o'.segments = (b.compact st).1.segments) :
    Moved st o (b.compact st).2 o' := by
  have own : st.Hosts (b.segments.filter (!·.isEmpty) ++ []) := by
    rw [List.append_nil]
    exact hosts.subperm List.filter_sublist.subperm
  have visible := hollowOf_compactEach own fun s here => by
    simpa using (List.mem_filter.1 here).2
  have made : Exact st (b.compact st).2 o'.segments := by
    rw [after, segments_compact]
    exact .compactEach ..
  refine ⟨made, fun _ s here => made.length_pos here ?_, ?_⟩
  · rw [after, segments_compact] at here
    simpa using List.filter_eq_nil_iff.1 visible s here
  · rw [← List.append_nil b.segments] at hosts
    rw [Object.content, Object.content, after, before]
    exact content_compact hosts

/-- The buffer of an object is copied. -/
theorem moved_copy {o : Object} (before : o.segments = b.segments) :
    Moved st o (b.copy st).2 (.buffer (b.copy st).1) := by
  have pushed : (b.copy st).1.segments =
      [(Segment.ofUnits (b.toUnits st) st).1].filter (!·.isEmpty) := segments_push (ofLayout _) _
  have made : Exact st (b.copy st).2 (Object.buffer (b.copy st).1).segments := by
    rw [Object.segments, pushed]
    exact (Exact.cons (.refl _) (.nil ..)).sublist List.filter_sublist
  refine ⟨made, fun _ s here => made.length_pos here ?_, ?_⟩
  · rw [Object.segments, pushed] at here
    simpa using (List.mem_filter.1 here).2
  · have shown : (Segment.ofUnits (b.toUnits st) st).1.content (b.copy st).2 = b.content st :=
      (Segment.content_allocate (b.toUnits st) _ st).trans (b.toUnits_eq st)
    rw [Object.content, Object.content, Object.segments, pushed, before]
    refine (contentOf_filter _).trans ?_
    exact (List.append_nil _).trans shown

end Buffer

/-- An object is compacted in the same way whatever surrounds it. -/
theorem Object.apply_compact {o : Object} (hosts : st.Hosts o.segments) :
    ∃ st' o', Moved st o st' o' ∧
      ∀ around, o.apply around st .compact = some ⟨o', st', .ok .done⟩ := by
  cases o with
  | segment s => exact ⟨_, _, s.moved_compact st, fun _ => rfl⟩
  | buffer b =>
      exact ⟨_, .buffer (b.compact st).1, Buffer.moved_compact hosts rfl rfl, fun _ => rfl⟩
  | bounded b =>
      exact ⟨_, .bounded { b with inner := (b.inner.compact st).1 },
        Buffer.moved_compact hosts rfl rfl, fun _ => rfl⟩

theorem Object.run_copy (o : Object) (st : Store α) :
    ∃ st' o', Moved st o st' o' ∧ Derive.copy.run st o = some (.ok (o', st')) := by
  cases o with
  | segment s => exact ⟨_, _, s.moved_compact st, rfl⟩
  | buffer b | bounded b => exact ⟨_, _, Buffer.moved_copy rfl, rfl⟩

/-! ## Actions that detach -/

/-- An action that compacts an object, or copies it to a register: the register that it takes the
object from, and the one that it leaves it in. -/
inductive Detaches : Action α → String → String → Prop where
  | compact (target : String) : Detaches (.step (.change target .compact)) target target
  | edit (target : String) (relied : List Segment) :
      Detaches (.edit target .compact relied) target target
  | copy (source dest : String) : Detaches (.step (.derive source dest .copy)) source dest

namespace World

variable {w : World α} {action : Action α} {source dest name : String} {o o' : Object}

/-- The object in a register shares nothing: each of its windows is all of an array, and no other
window that is alive is over that, be it one of the object itself.  Only a single segment may be
without text. -/
structure Detached (w : World α) (name : String) (o : Object) : Prop where
  held : w.get? name = some o
  whole : ∀ s ∈ o.segments, s.start = 0 ∧ s.stop = w.store.extent s.storage ∧ s.limit = s.stop
  shown : (∀ s, o ≠ .segment s) → ∀ s ∈ o.segments, 0 < s.length
  distinct : o.segments.Pairwise fun s t => s.storage ≠ t.storage
  alone : ∀ s ∈ o.segments, ∀ t ∈ (w.erase name).alive, s.storage ≠ t.storage

/-- The object in a register is compacted. -/
theorem applyEdit_compact (hosts : w.store.Hosts o.segments) (there : w.get? name = some o) :
    ∃ st' o', Moved w.store o st' o' ∧
      w.applyEdit name .compact = some ((w.withStore st').put name o', .done) := by
  obtain ⟨st', o', moved, applied⟩ := Object.apply_compact hosts
  refine ⟨st', o', moved, ?_⟩
  rw [applyEdit_of_get? there, applied, ← put_erase (w.withStore st')]
  rfl

/-- Nothing happens to a world in which an object is detached but that the object moves. -/
theorem act_of_detaches (sound : w.Sound) (detaches : Detaches action source dest)
    (there : w.get? source = some o) :
    ∃ st' o', Moved w.store o st' o' ∧ w.act action = ((w.withStore st').put dest o', .done) := by
  have hosts : w.store.Hosts o.segments :=
    Store.Hosts.left (Store.Hosts.subperm sound (subperm_take there))
  cases detaches with
  | compact =>
      obtain ⟨st', o', moved, edited⟩ := applyEdit_compact hosts there
      refine ⟨st', o', moved, ?_⟩
      simp only [act, step, change, take?_of_get? there, edit?, edited]
      rfl
  | edit _ relied =>
      let beside : World α := { w with aside := relied ++ w.aside }
      obtain ⟨st', o', moved, edited⟩ :=
        applyEdit_compact (w := beside) hosts (show beside.get? source = some o from there)
      refine ⟨st', o', moved, ?_⟩
      simp only [act, edited, beside]
      rfl
  | copy =>
      obtain ⟨st', o', moved, derived⟩ := o.run_copy w.store
      refine ⟨st', o', moved, ?_⟩
      simp only [act, step, derive, there, Option.bind_some, derived]

omit [TextUnit α] in
/-- An object that has moved to a register shares nothing there. -/
theorem Detached.of_moved {st' : Store α} (sound : w.Sound) (moved : Moved w.store o st' o') :
    ((w.withStore st').put dest o').Detached dest o' where
  held := (get?_put _ dest dest o').trans (if_pos rfl)
  whole := moved.exact.whole
  shown := moved.shown
  distinct := moved.exact.distinct
  alone := by
    intro s new t old
    rw [erase_put] at old
    exact moved.exact.storage_ne sound s new t ((subperm_erase w dest).subset old)

omit [TextUnit α] in
/-- The border around an object that shares nothing parts the world. -/
theorem Detached.parted {side : Set String} (detached : w.Detached dest o) (inside : dest ∈ side)
    (beyond : ∀ name other, name ≠ dest → w.get? name = some other → name ∉ side) :
    w.Parted side := by
  refine parted_of_storage_ne fun name own s other o' t within there here outside there' here' => ?_
  have same : name = dest := by
    by_contra different
    exact beyond name own different there within
  rw [same, detached.held] at there
  obtain rfl := Option.some.inj there
  have apart : other ≠ dest := fun same => outside (same ▸ inside)
  have kept : (w.erase dest).get? other = some o' := by
    rw [get?_erase, if_neg apart, there']
  exact detached.alone s here t (subset_alive_of_get? kept here')

/-- **To compact an object, or to copy it, detaches it, and it stays detached until it is
aliased.**

Whatever the object shared, the outcome shows the same text through windows that are exactly their
arrays, none of which any other window is over; those of a buffer all show something.  Draw a border
with the outcome on one side, and all other objects that there are on the other.  However the two
sides are worked on from there, by turns and in place, as long as no alias is made between them they
have no cell in common, and nothing that is done on one side shows on the other. -/
theorem detached_until_aliased {barred : World α → Action α → Prop} (reached : Reached barred w)
    (detaches : Detaches action source dest) (fair : action.Fair w)
    (there : w.get? source = some o) :
    (w.act action).2 = .done ∧
    ∃ o', (w.act action).1.Detached dest o' ∧
      o'.content (w.act action).1.store = o.content w.store ∧
      ∀ side : Set String, dest ∈ side →
        (∀ name other, name ≠ dest → (w.act action).1.get? name = some other → name ∉ side) →
        ∀ w₁, Runs {side, sideᶜ} (w.act action).1 w₁ →
          w₁.Parted side ∧
          ∀ part, part = side ∨ part = sideᶜ → ∀ w₂, Runs {part} w₁ w₂ →
            ∀ name other, name ∉ part → w₁.get? name = some other →
              w₂.get? name = some other ∧ other.content w₂.store = other.content w₁.store := by
  have sound := reached.sound
  have sound' := (underway_act sound fair).sound
  obtain ⟨st', o', moved, done⟩ := act_of_detaches sound detaches there
  have detached : (w.act action).1.Detached dest o' := done ▸ .of_moved sound moved
  refine ⟨by rw [done], o', detached, by rw [done]; exact moved.content, ?_⟩
  intro side inside beyond w₁ before
  obtain ⟨sound₁, parted⟩ := before.parted sound' (detached.parted inside beyond)
  refine ⟨parted, fun part which w₂ after name other outside held => ?_⟩
  rcases which with rfl | rfl
  · exact after.unseen sound₁ parted outside held
  · exact after.unseen sound₁ parted.compl outside held

/-- A segment, and a buffer that holds room without text and shows the cells of the segment
twice. -/
def entangled : World Char :=
  ((((({} : World Char).act (.step (.make "a" (.segmentOfArray "xY" 4)))).1.act
    (.step (.make "b" (.bufferWithCapacity 4)))).1.act
      (.step (.change "b" (.appendSegment "a" false)))).1.act
        (.step (.change "b" (.appendSegment "a" false)))).1

theorem reached_entangled : Reached (fun _ _ => False) entangled :=
  .act (.act (.act (.act .start trivial id) trivial id) trivial id) trivial id

/-- The buffer is compacted, and then changed in place; so is the segment. -/
theorem detached_until_aliased_entangled :
    let a : Object := .segment ⟨⟨0⟩, 0, 2, 4⟩
    let b : Object := .buffer ⟨.held [⟨⟨2⟩, 0, 2, 2⟩, ⟨⟨3⟩, 0, 2, 2⟩], {}⟩
    let w := (entangled.act (.step (.change "b" .compact))).1
    let w₁ := (w.act (.step (.change "b" (.setAt 3 'z')))).1
    let w₂ := (w₁.act (.step (.change "a" .upperCase))).1
    entangled.get? "b" =
        some (.buffer ⟨.held [⟨⟨1⟩, 0, 0, 4⟩, ⟨⟨0⟩, 0, 2, 2⟩, ⟨⟨0⟩, 0, 2, 2⟩], {}⟩) ∧
      w.Detached "b" b ∧ b.content w.store = ['x', 'Y', 'x', 'Y'] ∧
      a.content w₁.store = a.content w.store ∧ b.content w₁.store = ['x', 'Y', 'x', 'z'] ∧
      b.content w₂.store = b.content w₁.store ∧ a.content w₂.store = ['X', 'Y'] := by
  intro a b w w₁ w₂
  have there : entangled.get? "b" =
      some (.buffer ⟨.held [⟨⟨1⟩, 0, 0, 4⟩, ⟨⟨0⟩, 0, 2, 2⟩, ⟨⟨0⟩, 0, 2, 2⟩], {}⟩) := by decide
  obtain ⟨-, o', detached, same, apart⟩ :=
    detached_until_aliased reached_entangled (.compact "b") trivial there
  obtain rfl : o' = b := Option.some.inj (detached.held.symm.trans (by decide))
  have others : ∀ name other, name ≠ "b" → w.get? name = some other → name ∉ ({"b"} : Set String) :=
    fun name other different _ => different
  have keeps : ∀ {part : Set String} {name : String} {w : World Char} {what : Change},
      name ∈ part → what.inPlace = true → (Action.step (.change name what)).KeepsTo part w := by
    intro part name w what inside inPlace
    have alone : ∀ other, ¬(Step.change name what).Shares other :=
      Step.not_shares_of_inPlace inPlace
    refine ⟨trivial, ?_, .inl ⟨fun other shares => absurd shares (alone other), nofun⟩⟩
    rintro other (rfl | uses)
    · exact inside
    · cases what <;> cases inPlace <;> exact uses.elim
  have first : Runs {{"b"}} w w₁ := .act (.refl w) rfl (keeps rfl rfl)
  have before : Runs {{"b"}, {"b"}ᶜ} w w₁ := .act (.refl w) (.inl rfl) (keeps rfl rfl)
  have second : Runs {{"b"}ᶜ} w₁ w₂ := .act (.refl w₁) rfl (keeps (by simp) rfl)
  have there_a : w.get? "a" = some a := by decide
  have there_b : w₁.get? "b" = some b := by decide
  obtain ⟨-, unseen⟩ := apart {"b"} rfl others w (.refl w)
  obtain ⟨-, unseen'⟩ := apart {"b"} rfl others w₁ before
  exact ⟨there, detached, by decide, (unseen _ (.inl rfl) w₁ first "a" a (by simp) there_a).2,
    by decide, (unseen' _ (.inr rfl) w₂ second "b" b (by simp) there_b).2, by decide⟩

end World
end SegmentedText
