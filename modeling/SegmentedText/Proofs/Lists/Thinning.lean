import SegmentedText.Proofs.Flat.Appends
import SegmentedText.Proofs.Flat.Shortenings
import SegmentedText.Proofs.Ownership.Edits

/-!
# Segments that show nothing

A segment that shows nothing is called hollow.  No change of a buffer leaves a hollow segment
behind that was not there before, whether it fills a segment, cuts it down, takes others in
or lets them go; and no change leaves a list that is kept without a segment in it.  A buffer
that came about so from another is a thinning of it (`Buffer.Thins`), and every edit thins
(`Buffer.thins_apply`, `Bounded.thins_apply`).

Hollow segments that stay are the ones that were there: an operation that would shorten one
removes it.
-/

set_option autoImplicit false

namespace SegmentedText

/-! ## Hollow segments -/

/-- The segments that show nothing, in order. -/
def hollowOf (segments : List Segment) : List Segment := segments.filter Segment.isEmpty

@[simp] theorem hollowOf_nil : hollowOf [] = [] := rfl

@[simp] theorem hollowOf_append (front back : List Segment) :
    hollowOf (front ++ back) = hollowOf front ++ hollowOf back := List.filter_append ..

@[simp] theorem hollowOf_reverse (segments : List Segment) :
    hollowOf segments.reverse = (hollowOf segments).reverse := List.filter_reverse ..

theorem hollowOf_cons_of_shows {s : Segment} (shows : s.isEmpty = false) (rest : List Segment) :
    hollowOf (s :: rest) = hollowOf rest := List.filter_cons_of_neg (by simp [shows])

theorem hollowOf_singleton {s : Segment} (shows : s.isEmpty = false) : hollowOf [s] = [] :=
  hollowOf_cons_of_shows shows []

/-- What is left when hollow segments are left out has none. -/
@[simp] theorem hollowOf_filter (segments : List Segment) :
    hollowOf (segments.filter (!·.isEmpty)) = [] := by
  refine List.filter_eq_nil_iff.2 fun s here => ?_
  have shows := (List.mem_filter.1 here).2
  simpa using shows

theorem hollowOf_shared (segments : List Segment) :
    hollowOf (segments.map Segment.shared) = (hollowOf segments).map Segment.shared :=
  List.filter_map

theorem hollowOf_sublist {segments fewer : List Segment} (some : fewer.Sublist segments) :
    (hollowOf fewer).Sublist (hollowOf segments) := some.filter _

namespace Segment

theorem isEmpty_removeStart {s : Segment} {count : Nat} (less : count < s.length) :
    (s.removeStart count).isEmpty = false := by
  simp only [isEmpty, removeStart, length, beq_eq_false_iff_ne] at less ⊢
  omega

theorem isEmpty_removeEnd {s : Segment} {count : Nat} (around : Surroundings)
    (less : count < s.length) : (s.removeEnd around count).isEmpty = false := by
  have shorter : ({ s with stop := s.stop - min count s.length } : Segment).isEmpty = false := by
    simp only [isEmpty, length, beq_eq_false_iff_ne] at less ⊢
    omega
  unfold removeEnd releaseTail
  split <;> exact shorter

theorem isEmpty_window (s : Segment) {start stop : Nat} (less : start < stop) :
    (s.window start stop).isEmpty = false := by
  simp only [isEmpty, window, beq_eq_false_iff_ne]
  omega

/-- A segment that shows something is not hollow. -/
theorem isEmpty_of_content {α : Type} {s : Segment} {st : Store α} (shows : s.content st ≠ []) :
    s.isEmpty = false := by
  refine Bool.eq_false_iff.2 fun none => shows ?_
  have fewer := s.length_content_le st
  rw [length_eq_zero_of_isEmpty none] at fewer
  exact List.eq_nil_of_length_eq_zero (Nat.le_zero.1 fewer)

/-- What units have been written behind is not hollow. -/
theorem isEmpty_of_written {α : Type} {s s' : Segment} {st st' : Store α} {units : List α}
    (written : s'.content st' = s.content st ++ units) (some : units ≠ []) :
    s'.isEmpty = false :=
  isEmpty_of_content fun none => some (List.append_eq_nil_iff.1 (written.symm.trans none)).2

section

variable {α : Type} [TextUnit α] (around : Surroundings) {s : Segment} {st : Store α}
  (placed : s.Placed st)
include placed

theorem isEmpty_append {u : α} (taken : (s.append around u st).answer = .ok ()) :
    (s.append around u st).object.isEmpty = false :=
  isEmpty_of_written (content_append around placed taken) (List.cons_ne_nil u [])

/-- An append that is refused leaves the segment as it is. -/
theorem filled_appendSlice (units : List α) :
    (s.appendSlice around units st).object.isEmpty = false ∨
      (s.appendSlice around units st).object = s := by
  by_cases none : units = []
  · exact .inr (none ▸ rfl)
  · rw [appendSlice_of_ne_nil s around none]
    by_cases can : s.canReserve α around units.length = true
    · have taken : (s.appendSlice around units st).answer = .ok () := by
        rw [appendSlice_of_ne_nil s around none]
        exact answer_growing.2 ⟨can, rfl⟩
      have written := content_appendSlice around placed taken
      rw [appendSlice_of_ne_nil s around none] at written
      exact .inl (isEmpty_of_written written none)
    · exact .inr (congrArg Edited.object (growing_of_not_canReserve can))

/-- One that is refused on its way has filled the segment. -/
theorem filled_appendEach (units : List α) :
    (s.appendEach around units st).object.isEmpty = false ∨
      (s.appendEach around units st).object = s := by
  induction units generalizing s st with
  | nil => exact .inr rfl
  | cons u us ih =>
      have first : (s.append around u st).object.isEmpty = false ∨
          (s.append around u st).object = s := filled_appendSlice around placed [u]
      refine Edited.left_andThen (P := fun (s' : Segment) (_ : Store α) =>
        s'.isEmpty = false ∨ s' = s) first fun taken => .inl ?_
      have shows := isEmpty_append around placed taken
      rcases ih (placed_append around placed u) with later | same
      · exact later
      · rwa [same]

end

end Segment

/-! ## Thinnings -/

namespace Buffer

/-- No hollow segments but those of `b` are left in `b'`, and if `b` has no list that is kept without
a segment in it, `b'` has none. -/
structure Thins (b b' : Buffer) : Prop where
  listed : b.segmentList ≠ .held [] → b'.segmentList ≠ .held []
  hollow : (hollowOf b'.segments).Sublist (hollowOf b.segments)

namespace Thins

theorem refl (b : Buffer) : b.Thins b := ⟨id, .refl _⟩

theorem trans {b b' b'' : Buffer} (first : b.Thins b') (second : b'.Thins b'') : b.Thins b'' :=
  ⟨fun proper => second.listed (first.listed proper), second.hollow.trans first.hollow⟩

/-- A list with a segment in it is kept for that. -/
theorem of_mem {b b' : Buffer} {s : Segment} (here : s ∈ b'.segments)
    (hollow : (hollowOf b'.segments).Sublist (hollowOf b.segments)) : b.Thins b' := by
  refine ⟨fun _ empty => ?_, hollow⟩
  rw [segments, empty] at here
  exact List.not_mem_nil here

end Thins

variable {b : Buffer}

theorem settle_ne (list : SegmentList) : list.settle ≠ .held [] := by
  unfold SegmentList.settle
  split
  next => nofun
  next proper => exact fun same => proper same

theorem thins_mapSegments {f : List Segment → List Segment}
    (fewer : (hollowOf (f b.segments)).Sublist (hollowOf b.segments)) :
    b.Thins (b.mapSegments f) := by
  unfold mapSegments
  split
  next => exact .refl b
  next segments held =>
    refine ⟨fun _ => settle_ne _, ?_⟩
    have shown : b.segments = segments := by rw [Buffer.segments, held, SegmentList.toList_held]
    rw [shown] at fewer ⊢
    rw [Buffer.segments, SegmentList.toList_settle, SegmentList.toList_held]
    exact fewer

/-! ### Taking segments in -/

theorem thins_push (s : Segment) : b.Thins (b.push s) := by
  unfold push
  split
  next => exact .refl b
  next shows =>
    have all : ({ b with segmentList := b.segmentList.push s } : Buffer).segments =
        b.segments ++ [s] := SegmentList.toList_push ..
    refine .of_mem (s := s) (by rw [all]; exact List.mem_append_right _ List.mem_cons_self) ?_
    rw [all, hollowOf_append, hollowOf_singleton (Bool.eq_false_iff.2 shows), List.append_nil]

theorem thins_pushFront (s : Segment) : b.Thins (b.pushFront s) := by
  unfold pushFront
  split
  next => exact .refl b
  next shows =>
    have all : ({ b with segmentList := b.segmentList.pushFront s } : Buffer).segments =
        s :: b.segments := SegmentList.toList_pushFront ..
    refine .of_mem (s := s) (by rw [all]; exact List.mem_cons_self) ?_
    rw [all, hollowOf_cons_of_shows (Bool.eq_false_iff.2 shows)]

theorem thins_pushAll (segments : List Segment) : b.Thins (b.pushAll segments) := by
  have all : (b.pushAll segments).segments = b.segments ++ segments.filter (!·.isEmpty) :=
    SegmentList.toList_pushAll ..
  refine ⟨fun proper empty => ?_, by rw [all, hollowOf_append, hollowOf_filter, List.append_nil]⟩
  have kept : (b.pushAll segments).segmentList =
      b.segmentList.pushAll (segments.filter (!·.isEmpty)) := rfl
  rw [kept, SegmentList.pushAll] at empty
  split at empty
  next => exact proper empty
  next some =>
    have none := (List.append_eq_nil_iff.1 (SegmentList.held.inj empty)).2
    exact some (by rw [none]; rfl)

theorem thins_appendSegment {s : Segment} {b' : Buffer} (done : b.appendSegment s = .ok b') :
    b.Thins b' := eq_of_taking done ▸ thins_push s

theorem thins_prependSegment {s : Segment} {b' : Buffer} (done : b.prependSegment s = .ok b') :
    b.Thins b' := eq_of_taking done ▸ thins_pushFront s

theorem thins_appendBuffer {other b' : Buffer} (done : b.appendBuffer other = .ok b') :
    b.Thins b' := eq_of_taking done ▸ thins_pushAll _

theorem thins_appendOwned {other b' : Buffer} (done : b.appendOwned other = .ok b') :
    b.Thins b' := eq_of_taking done ▸ thins_pushAll _

/-! ### Letting segments go -/

theorem hollowOf_dropUnits (segments : List Segment) (count : Nat) :
    (hollowOf (dropUnits segments count)).Sublist (hollowOf segments) := by
  induction segments generalizing count with
  | nil => exact .refl _
  | cons s rest ih =>
      have fewer := hollowOf_sublist (List.sublist_cons_self s rest)
      rw [dropUnits]
      split
      next less =>
        rw [hollowOf_cons_of_shows (Segment.isEmpty_removeStart less)]
        exact fewer
      next => exact (ih _).trans fewer

theorem hollowOf_dropLastUnits (around : Surroundings) (segments : List Segment) (count : Nat) :
    (hollowOf (dropLastUnits around segments count)).Sublist (hollowOf segments) := by
  induction segments generalizing count with
  | nil => exact .refl _
  | cons last front ih =>
      have fewer := hollowOf_sublist (List.sublist_cons_self last front)
      rw [dropLastUnits]
      split
      next => exact .refl _
      next =>
        split
        next less =>
          rw [hollowOf_cons_of_shows (Segment.isEmpty_removeEnd _ less)]
          exact fewer
        next => exact (ih _).trans fewer

/-- What holds of the segments seen from the end holds of them. -/
theorem hollowOf_reversed {segments changed : List Segment}
    (fewer : (hollowOf changed).Sublist (hollowOf segments.reverse)) :
    (hollowOf changed.reverse).Sublist (hollowOf segments) := by
  rw [hollowOf_reverse] at fewer ⊢
  have turned := fewer.reverse
  rwa [List.reverse_reverse] at turned

theorem thins_removeStart (count : Nat) : b.Thins (b.removeStart count) :=
  thins_mapSegments (hollowOf_dropUnits _ count)

theorem thins_removeEnd (around : Surroundings) (count : Nat) :
    b.Thins (b.removeEnd around count) :=
  thins_mapSegments (hollowOf_reversed (hollowOf_dropLastUnits around _ count))

theorem thins_clear : b.Thins b.clear := ⟨fun _ => nofun, List.nil_sublist _⟩

/-! ### Exchanging segments -/

theorem hollowOf_frontOf (segments : List Segment) (c : Cursor) :
    hollowOf (Gap.frontOf segments c) = [] := by
  unfold Gap.frontOf
  split
  next =>
    split
    next less => exact hollowOf_singleton (Segment.isEmpty_window _ less)
    next => rfl
  next => rfl

theorem hollowOf_backOf (segments : List Segment) (i start : Nat) :
    hollowOf (Gap.backOf segments i start) = [] := by
  unfold Gap.backOf
  split
  next =>
    split
    next less => exact hollowOf_singleton (Segment.isEmpty_window _ less)
    next => rfl
  next => rfl

/-- What is left of the segments at the ends of a gap shows something. -/
theorem hollowOf_ends (segments : List Segment) (start stop : Nat) :
    hollowOf (Gap.ofRange segments start stop).front = [] ∧
      hollowOf (Gap.ofRange segments start stop).back = [] := by
  unfold Gap.ofRange
  dsimp only
  split
  next => exact ⟨rfl, rfl⟩
  next =>
    split
    next => exact ⟨hollowOf_frontOf _ _, hollowOf_backOf _ _ _⟩
    next => exact ⟨hollowOf_frontOf _ _, hollowOf_backOf _ _ _⟩

/-- What lies outside a gap are some of the segments, in their order. -/
theorem sublist_outside (segments : List Segment) {start stop : Nat} (ordered : start ≤ stop) :
    let gap := Gap.ofRange segments start stop
    (segments.take gap.before ++ segments.drop gap.past).Sublist segments := by
  have outside := (List.Sublist.refl (segments.take (Gap.ofRange segments start stop).before)).append
    (List.drop_sublist_drop_left segments (Gap.before_le_past segments ordered))
  rwa [List.take_append_drop] at outside

theorem thins_splice {r b' : Buffer} {start stop : Nat} {c : Cursor}
    (done : b.splice start stop r = .ok (b', c)) : b.Thins b' := by
  have ordered := (le_of_splice done).1
  obtain ⟨rfl, -⟩ := eq_of_splice done
  obtain ⟨front, back⟩ := hollowOf_ends b.segments start stop
  refine ⟨fun _ => settle_ne _, ?_⟩
  rw [segments, SegmentList.toList_settle, SegmentList.toList_held, Gap.filled]
  simp only [hollowOf_append, hollowOf_filter, front, back, List.append_nil]
  rw [← hollowOf_append]
  exact hollowOf_sublist (sublist_outside b.segments ordered)

variable {α : Type} {st : Store α} {others : List Segment}

theorem thins_replaceRange (start stop : Nat) (r : Buffer) (st : Store α) :
    b.Thins (b.replaceRange start stop r st).object := by
  unfold replaceRange
  split
  next done => exact thins_splice done
  next => exact .refl b

variable [TextUnit α]

theorem thins_replaceFrom (search replacement : List α) (b : Buffer) (c : Cursor) (count : Nat)
    (st : Store α) : b.Thins (replaceFrom search replacement b c count st).object := by
  fun_induction replaceFrom search replacement b c count st with
  | case1 b => exact .refl b
  | case2 b => exact .refl b
  | case3 b c count st first past found value st' made b' c' done ih =>
      exact (thins_splice done).trans ih

theorem thins_replaceAll (search replacement : List α) (st : Store α) :
    b.Thins (b.replaceAll search replacement st).object := thins_replaceFrom ..

theorem thins_substituteFrom (opening closing : List α) (provider : Provider α) (b : Buffer)
    (c : Cursor) (enclosed : List Buffer) (st : Store α) :
    b.Thins (substituteFrom opening closing provider b c enclosed st).object := by
  fun_induction substituteFrom opening closing provider b c enclosed st with
  | case1 b => exact .refl b
  | case2 b => exact .refl b
  | case3 b => exact .refl b
  | case4 b => exact .refl b
  | case5 b c enclosed st first body opened last past closed inner cut value st' made b' c' done ih =>
      exact (thins_splice done).trans ih

theorem thins_substitute (opening closing : List α) (provider : Provider α) (st : Store α) :
    b.Thins (b.substitute opening closing provider st).object := by
  unfold substitute
  split
  next => exact .refl b
  next => exact thins_substituteFrom ..

/-! ### White space -/

theorem hollowOf_trimFirst (st : Store α) (segments : List Segment) :
    (hollowOf (trimFirst st segments)).Sublist (hollowOf segments) := by
  induction segments with
  | nil => exact .refl _
  | cons s rest ih =>
      have fewer := hollowOf_sublist (List.sublist_cons_self s rest)
      rw [trimFirst]
      split
      next => exact ih.trans fewer
      next shows =>
        rw [hollowOf_cons_of_shows (Bool.eq_false_iff.2 shows)]
        exact fewer

theorem hollowOf_trimLast (around : Surroundings) (st : Store α) (segments : List Segment) :
    (hollowOf (trimLast around st segments)).Sublist (hollowOf segments) := by
  induction segments with
  | nil => exact .refl _
  | cons last front ih =>
      have fewer := hollowOf_sublist (List.sublist_cons_self last front)
      rw [trimLast]
      split
      next => exact ih.trans fewer
      next shows =>
        rw [hollowOf_cons_of_shows (Bool.eq_false_iff.2 shows)]
        exact fewer

theorem thins_trimStart (st : Store α) : b.Thins (b.trimStart st) :=
  thins_mapSegments (hollowOf_trimFirst st _)

theorem thins_trimEnd (around : Surroundings) (st : Store α) : b.Thins (b.trimEnd around st) :=
  thins_mapSegments (hollowOf_reversed (hollowOf_trimLast around st _))

theorem thins_trim (around : Surroundings) (st : Store α) : b.Thins (b.trim around st) :=
  (thins_trimStart st).trans (thins_trimEnd around st)

/-! ### Filling segments -/

/-- The last segment is filled, or left as it is. -/
theorem thins_withTrailing {front : List Segment} {last last' : Segment}
    (found : b.trailing? = some (front, last)) (filled : last'.isEmpty = false ∨ last' = last) :
    b.Thins (b.withTrailing front last') := by
  have all : (b.withTrailing front last').segments = front ++ [last'] := segments_withTrailing ..
  refine .of_mem (s := last') (by rw [all]; exact List.mem_append_right _ List.mem_cons_self) ?_
  rw [all, (segments_of_trailing found).1, hollowOf_append, hollowOf_append]
  rcases filled with shows | rfl
  · rw [hollowOf_singleton shows]
    exact (List.Sublist.refl _).append (List.nil_sublist _)
  · exact .refl _

theorem thins_extendBy {pending : Nat} {write : Segment → Store α → Edited Segment α Unit}
    {extended : Buffer × Store α} (hosts : st.Hosts (b.segments ++ others))
    (shows : ∀ (s : Segment) (st : Store α), s.Placed st → (write s st).answer = .ok () →
      (write s st).object.isEmpty = false)
    (done : b.extendBy pending write st = .ok extended) : b.Thins extended.1 := by
  obtain ⟨-, written, rfl⟩ := eq_of_extendBy done
  have fresh := (undisturbed_allocate (α := α) [] (b.layout.newSegmentCapacity pending) hosts).hosts
  have filled := shows _ _ (fresh.placed _ List.mem_cons_self) written
  exact (thins_push _).trans (by
    unfold push
    rw [filled]
    exact .refl _)

theorem thins_append (around : Surroundings) {u : α} {appended : Buffer × Store α}
    (hosts : st.Hosts (b.segments ++ others)) (done : b.append around u st = .ok appended) :
    b.Thins appended.1 := by
  rcases append_cases done with ⟨front, last, found, taken, rfl⟩ | ⟨-, opened⟩
  · have placed := (hosts_trailing hosts found).placed _ List.mem_cons_self
    exact thins_withTrailing found (.inl (Segment.isEmpty_append around placed taken))
  · exact thins_extendBy hosts (fun s st placed => Segment.isEmpty_append around placed) opened

theorem thins_extend (around : Surroundings) (hosts : st.Hosts (b.segments ++ others))
    (units : List α) : b.Thins (b.extend around units st).object := by
  induction units generalizing b st with
  | nil => exact .refl b
  | cons u us ih =>
      rw [extend]
      split
      next b' st' done =>
        exact (thins_append around hosts done).trans
          (ih (undisturbed_append around hosts done).hosts)
      next => exact .refl b

section

variable {around : Surroundings} {write : Segment → List α → Store α → Edited Segment α Unit}
  (writes : WritesBehind around write)
include writes

theorem thins_appendRest (hosts : st.Hosts (b.segments ++ others)) (rest : List α) :
    b.Thins (b.appendRest write rest st).object := by
  unfold appendRest
  split
  next => exact .refl b
  next some =>
    refine Edited.object_whole (.refl b) fun made done =>
      thins_extendBy hosts (fun s st placed written => ?_) done
    refine Segment.isEmpty_of_written (writes.content placed written) fun none => ?_
    exact some (List.isEmpty_iff.2 none)

theorem thins_appendBy
    (filled : ∀ {s : Segment} {st : Store α}, s.Placed st → ∀ us,
      (write s us st).object.isEmpty = false ∨ (write s us st).object = s)
    (hosts : st.Hosts (b.segments ++ others)) (units : List α) :
    b.Thins (b.appendBy write units st).object := by
  unfold appendBy
  split
  next front last found =>
    have beside := hosts_trailing hosts found
    have extended := writes.undisturbed beside (units.take (min last.spare units.length))
    have first := thins_withTrailing found
      (filled (beside.placed _ List.mem_cons_self) (units.take (min last.spare units.length)))
    exact Edited.left_andThen (P := fun (b' : Buffer) (_ : Store α) => b.Thins b') first fun _ =>
      first.trans (thins_appendRest writes (undisturbed_withTrailing (b := b) extended).hosts _)
  next => exact thins_appendRest writes hosts units

end

theorem thins_appendSlice (around : Surroundings) (hosts : st.Hosts (b.segments ++ others))
    (units : List α) : b.Thins (b.appendSlice around units st).object :=
  thins_appendBy (writesBehind_appendSlice around)
    (fun placed us => Segment.filled_appendSlice around placed us) hosts units

theorem thins_appendText (around : Surroundings) (hosts : st.Hosts (b.segments ++ others))
    (text : String) : b.Thins (b.appendText around text st).object :=
  thins_appendBy (writesBehind_appendEach around)
    (fun placed us => Segment.filled_appendEach around placed us) hosts _

theorem thins_prepend {u : α} {made : Buffer × Store α} (done : b.prepend u st = .ok made) :
    b.Thins made.1 := by
  unfold prepend at done
  cases taken : b.prependSegment (Segment.ofUnits [u] st).1 with
  | error fault =>
      simp only [taken] at done
      cases done
  | ok b' =>
      simp only [taken] at done
      cases done
      exact thins_prependSegment taken

/-! ### Moving segments -/

/-- A segment that shows something shows it in its own array. -/
theorem hollowOf_compactEach {segments : List Segment} (hosts : st.Hosts (segments ++ others))
    (shows : ∀ s ∈ segments, s.isEmpty = false) : hollowOf (compactEach segments st).1 = [] := by
  induction segments generalizing st others with
  | nil => rfl
  | cons s rest ih =>
      have first := Segment.undisturbed_compact hosts
      have moved : (s.compact st).2.Hosts (rest ++ ((s.compact st).1 :: others)) :=
        first.hosts.perm (@List.perm_middle _ (s.compact st).1 rest others).symm
      have valid := (hosts.placed s List.mem_cons_self).valid
      have kept : (s.compact st).1.isEmpty = false := by
        have same : (s.compact st).1.content (s.compact st).2 = s.content st :=
          Segment.content_allocate _ _ _
        have shown : (s.compact st).1.content (s.compact st).2 ≠ [] := by
          intro none
          have length := valid.length_content
          have ordered := valid.start_le_stop
          have visible := shows s List.mem_cons_self
          rw [← same, none, List.length_nil, Segment.length] at length
          rw [Segment.isEmpty, beq_eq_false_iff_ne] at visible
          omega
        exact Segment.isEmpty_of_content shown
      rw [compactEach]
      exact (hollowOf_cons_of_shows kept _).trans
        (ih moved fun t here => shows t (List.mem_cons_of_mem _ here))

theorem thins_compact (hosts : st.Hosts (b.segments ++ others)) : b.Thins (b.compact st).1 := by
  have some : (b.segments.filter (!·.isEmpty) ++ others).Sublist (b.segments ++ others) :=
    List.filter_sublist.append (List.Sublist.refl _)
  have none := hollowOf_compactEach (hosts.subperm some.subperm) fun s here => by
    simpa using (List.mem_filter.1 here).2
  refine thins_mapSegments ?_
  rw [none]
  exact List.nil_sublist _

/-! ## Edits -/

theorem thins_apply (hosts : st.Hosts (b.segments ++ others)) (around : Surroundings)
    (edit : Edit α) : b.Thins (b.apply around st edit).object := by
  cases edit with
  | append u => exact Edited.object_whole (.refl b) fun made done => thins_append around hosts done
  | appendSlice units => exact thins_appendSlice around hosts units
  | appendText text => exact thins_appendText around hosts text
  | extend units => exact thins_extend around hosts units
  | appendSegment s =>
      exact Edited.object_wholeObject (.refl b) fun b' done => thins_appendSegment done
  | appendBuffer other =>
      exact Edited.object_wholeObject (.refl b) fun b' done => thins_appendBuffer done
  | prepend u => exact Edited.object_whole (.refl b) fun made done => thins_prepend done
  | prependSegment s =>
      exact Edited.object_wholeObject (.refl b) fun b' done => thins_prependSegment done
  | setAt =>
      rw [apply, Edited.object_written]
      exact .refl b
  | replaceUnit | lowerCase | upperCase =>
      rw [apply, Edited.object_mapped]
      exact .refl b
  | removeStart count => exact thins_removeStart count
  | removeEnd count => exact thins_removeEnd around count
  | trimStart => exact thins_trimStart st
  | trimEnd => exact thins_trimEnd around st
  | trim => exact thins_trim around st
  | compact => exact thins_compact hosts
  | clear => exact thins_clear
  | replaceRange start stop r => exact thins_replaceRange start stop r st
  | replaceAll search replacement => exact thins_replaceAll search replacement st
  | substitute opening closing provider => exact thins_substitute opening closing provider st

end Buffer

namespace Bounded

variable {α : Type} {st : Store α} {others : List Segment} {b : Bounded} {around : Surroundings}

theorem thins_truncate (b : Bounded) (around : Surroundings) :
    b.inner.Thins (b.truncate around).inner := by
  unfold truncate
  split
  next => exact Buffer.thins_removeEnd around _
  next => exact .refl _

theorem thins_truncating {r : Edited Bounded α Unit} (thins : b.inner.Thins r.object.inner) :
    b.inner.Thins (truncating around r).object.inner := by
  unfold truncating
  split
  next => exact thins.trans (thins_truncate r.object around)
  next => exact thins

variable [TextUnit α]

theorem thins_append (around : Surroundings) (hosts : st.Hosts (b.segments ++ others)) (u : α) :
    b.inner.Thins (b.append around u st).object.inner := by
  unfold append
  split
  next => exact .refl _
  next =>
    exact inner_counting (Edited.object_whole (.refl _) fun made done =>
      Buffer.thins_append around hosts done)

theorem thins_appendEach (around : Surroundings) (hosts : st.Hosts (b.segments ++ others))
    (units : List α) : b.inner.Thins (b.appendEach around units st).object.inner := by
  induction units generalizing b st with
  | nil => exact .refl _
  | cons u us ih =>
      have first := thins_append around hosts u
      rw [appendEach]
      split
      next => exact first.trans (ih (undisturbed_append around hosts u).hosts)
      next => exact first

theorem thins_apply (hosts : st.Hosts (b.segments ++ others)) (around : Surroundings)
    (edit : Edit α) : b.inner.Thins (b.apply around st edit).object.inner := by
  cases edit with
  | append u => exact thins_append around hosts u
  | appendSlice units =>
      exact inner_admitting (.refl _) fun budget =>
        inner_counting (Buffer.thins_appendSlice around hosts _)
  | appendText text =>
      exact inner_admitting (.refl _) fun budget =>
        inner_counting (Buffer.thins_appendText around hosts _)
  | extend units => exact inner_admitting (.refl _) fun budget => thins_appendEach around hosts _
  | appendSegment s =>
      refine inner_admitting (.refl _) fun budget => ?_
      dsimp only
      split
      next inner done => exact Buffer.thins_appendSegment done
      next => exact .refl _
  | appendBuffer other =>
      refine inner_admitting (.refl _) fun budget => ?_
      split
      next =>
        exact inner_counting (Edited.object_wholeObject (.refl _) fun b' done =>
          Buffer.thins_appendBuffer done)
      next =>
        exact inner_counting (Edited.object_wholeObject (.refl _) fun b' done =>
          Buffer.thins_appendBuffer done)
  | prepend u =>
      show b.inner.Thins (b.prepend around u st).object.inner
      unfold prepend
      split
      next => exact .refl _
      next =>
        exact thins_truncating (inner_counting (Edited.object_whole (.refl _) fun made done =>
          Buffer.thins_prepend done))
  | prependSegment s =>
      exact thins_truncating (inner_counting (Edited.object_wholeObject (.refl _) fun b' done =>
        Buffer.thins_prependSegment done))
  | setAt =>
      rw [apply, Edited.object_written]
      exact .refl _
  | replaceUnit | lowerCase | upperCase =>
      rw [apply, Edited.object_mapped]
      exact .refl _
  | removeStart count => exact Buffer.thins_removeStart count
  | removeEnd count => exact Buffer.thins_removeEnd around count
  | trimStart => exact Buffer.thins_trimStart st
  | trimEnd => exact Buffer.thins_trimEnd around st
  | trim => exact Buffer.thins_trim around st
  | compact => exact Buffer.thins_compact hosts
  | clear => exact Buffer.thins_clear
  | replaceRange start stop r =>
      have changed := Buffer.thins_replaceRange (b := b.inner) start stop r st
      show b.inner.Thins (b.replaceRange around start stop r st).object.inner
      unfold replaceRange
      dsimp only
      split
      next =>
        split
        next => exact changed
        next => exact changed.trans (thins_truncate ⟨_, _, _⟩ around)
      next => exact changed
  | replaceAll search replacement =>
      have changed := Buffer.thins_replaceAll (b := b.inner) search replacement st
      show b.inner.Thins (b.replaceAll around search replacement st).object.inner
      unfold replaceAll
      dsimp only
      split
      next =>
        split
        next => exact changed
        next => exact changed.trans (thins_truncate ⟨_, _, _⟩ around)
      next => exact changed
  | substitute opening closing provider =>
      have changed := Buffer.thins_substitute (b := b.inner) opening closing provider st
      show b.inner.Thins (b.substitute around opening closing provider st).object.inner
      unfold substitute
      dsimp only
      split
      next => exact changed.trans (thins_truncate ⟨_, _, _⟩ around)
      next => exact changed

end Bounded

end SegmentedText
