import SegmentedText.Buffer.InPlace
import SegmentedText.Buffer.Shorten
import SegmentedText.Proofs.Ownership.Segments
import SegmentedText.Serial

/-!
# Buffers beside other windows

What the operations on a buffer do beside the windows that are alive with it.
The segments of the buffer are windows like all others: while the last one is
extended, the segments before it count among those that must not notice
(`Undisturbed.frame`).

A buffer that takes segments in shows some of its own and some of those it was
given, so nothing new has to be proved of them (`Buffer.subperm_push` and its
kin).  A buffer whose segments are all shared has views only
(`Buffer.views_shared`).
-/

set_option autoImplicit false

namespace SegmentedText

namespace Buffer

/-! ## Which segments a buffer has -/

/-- A segment that shows nothing is not taken in. -/
theorem segments_push (b : Buffer) (s : Segment) :
    (b.push s).segments = b.segments ++ [s].filter (!·.isEmpty) := by
  unfold push
  split
  next none => rw [List.filter_cons_of_neg (by simpa using none), List.filter_nil, List.append_nil]
  next shows => rw [List.filter_cons_of_pos (by simpa using shows)]; rfl

theorem subperm_push (b : Buffer) (s : Segment) : (b.push s).segments.Subperm (s :: b.segments) := by
  unfold push
  split
  next => exact (List.sublist_cons_self _ _).subperm
  next => exact (List.perm_append_singleton s b.segments).subperm

theorem subperm_pushFront (b : Buffer) (s : Segment) :
    (b.pushFront s).segments.Subperm (s :: b.segments) := by
  unfold pushFront
  split
  next => exact (List.sublist_cons_self _ _).subperm
  next => exact List.Subperm.refl _

theorem subperm_pushAll (b : Buffer) (segments : List Segment) :
    (b.pushAll segments).segments.Subperm (segments ++ b.segments) := by
  have shown : (b.pushAll segments).segments =
      b.segments ++ segments.filter (!·.isEmpty) := SegmentList.toList_pushAll _ _
  rw [shown]
  have fewer : (b.segments ++ segments.filter (!·.isEmpty)).Sublist (b.segments ++ segments) :=
    List.Sublist.append (List.Sublist.refl _) List.filter_sublist
  exact fewer.subperm.trans List.perm_append_comm.subperm

theorem subperm_ofSegment (s : Segment) : (ofSegment s).segments.Subperm [s] := subperm_push {} s

theorem segments_shared (b : Buffer) : b.shared.segments = b.segments.map Segment.shared := by
  unfold shared
  split
  next vacant => simp [segments, vacant]
  next held => simp [segments, held]

theorem segments_mapSegments {b : Buffer} {f : List Segment → List Segment}
    (vacant : b.segments = [] → f [] = []) : (b.mapSegments f).segments = f b.segments := by
  unfold mapSegments
  split
  next none =>
    have empty : b.segments = [] := by simp [segments, none]
    rw [empty, vacant empty]
  next held => simp [segments, held]

theorem segments_withTrailing {b : Buffer} (front : List Segment) (last : Segment) :
    (b.withTrailing front last).segments = front ++ [last] := rfl

/-- A buffer with a trailing segment that has room is the segments before it and that one. -/
theorem segments_of_trailing {b : Buffer} {front : List Segment} {last : Segment}
    (found : b.trailing? = some (front, last)) :
    b.segments = front ++ [last] ∧ 0 < last.spare := by
  unfold trailing? at found
  split at found
  next t behind =>
    split at found
    next room =>
      obtain ⟨rfl, rfl⟩ := Prod.mk.inj (Option.some.inj found)
      refine ⟨?_, room⟩
      obtain ⟨before, shown⟩ := List.getLast?_eq_some_iff.1 behind
      rw [shown, List.dropLast_concat]
    next => cases found
  next => cases found

section

variable {α : Type} {st : Store α} {b : Buffer} {others : List Segment}

/-- The segments of a shared buffer are views of the segments that it shares. -/
theorem views_shared {live : List Segment} (hosts : st.Hosts live) (alive : b.segments ⊆ live) :
    ∀ t ∈ b.shared.segments, ∃ s ∈ live, t.Views s := by
  intro t found
  rw [segments_shared] at found
  obtain ⟨s, here, rfl⟩ := List.mem_map.1 found
  exact ⟨s, alive here, Segment.views_shared (hosts.placed s (alive here)).valid.start_le_stop⟩

/-! ## Taking segments in -/

theorem hosts_push {s : Segment} (hosts : st.Hosts (s :: (b.segments ++ others))) :
    st.Hosts ((b.push s).segments ++ others) :=
  hosts.subperm ((List.subperm_append_right others).2 (b.subperm_push s))

theorem hosts_appendSegment {s : Segment} {b' : Buffer}
    (hosts : st.Hosts (s :: (b.segments ++ others))) (done : b.appendSegment s = .ok b') :
    st.Hosts (b'.segments ++ others) := by
  rw [eq_of_taking done]
  exact hosts_push hosts

theorem hosts_prependSegment {s : Segment} {b' : Buffer}
    (hosts : st.Hosts (s :: (b.segments ++ others))) (done : b.prependSegment s = .ok b') :
    st.Hosts (b'.segments ++ others) := by
  rw [eq_of_taking done]
  exact hosts.subperm ((List.subperm_append_right others).2 (b.subperm_pushFront s))

theorem hosts_appendSegments {segments : List Segment} {b' : Buffer}
    (hosts : st.Hosts (segments ++ (b.segments ++ others)))
    (done : b.appendSegments segments = .ok b') : st.Hosts (b'.segments ++ others) := by
  rw [eq_of_taking done]
  rw [← List.append_assoc] at hosts
  exact hosts.subperm ((List.subperm_append_right others).2 (b.subperm_pushAll segments))

theorem hosts_appendBuffer {other b' : Buffer} (hosts : st.Hosts (b.segments ++ others))
    (views : ∀ t ∈ other.shared.segments, ∃ s ∈ b.segments ++ others, t.Views s)
    (done : b.appendBuffer other = .ok b') : st.Hosts (b'.segments ++ others) :=
  hosts_appendSegments (hosts.views (segments_shared other ▸ views)) done

theorem hosts_appendOwned {other b' : Buffer}
    (hosts : st.Hosts (other.segments ++ (b.segments ++ others)))
    (done : b.appendOwned other = .ok b') : st.Hosts (b'.segments ++ others) :=
  hosts_appendSegments hosts done

theorem undisturbed_ofSegment {s : Segment} {st' : Store α}
    (made : Undisturbed others st [s] st') :
    Undisturbed others st (ofSegment s).segments st' :=
  made.subperm (subperm_ofSegment s)

/-- An edit that is done or refused as a whole. -/
theorem undisturbed_whole {r : Except Fault (Buffer × Store α)}
    (hosts : st.Hosts (b.segments ++ others))
    (done : ∀ made, r = .ok made → Undisturbed others st made.1.segments made.2) :
    Undisturbed others st (Edited.whole b st r).object.segments (Edited.whole b st r).store := by
  cases r with
  | ok made => exact done made rfl
  | error fault => exact .refl hosts

theorem undisturbed_wholeObject {r : Except Fault Buffer} (hosts : st.Hosts (b.segments ++ others))
    (done : ∀ b', r = .ok b' → st.Hosts (b'.segments ++ others)) :
    Undisturbed others st (Edited.wholeObject b st r).object.segments
      (Edited.wholeObject b st r).store := by
  cases r with
  | ok b' => exact .refl (done b' rfl)
  | error fault => exact .refl hosts

/-! ## The last segment -/

/-- What extends the last segment leaves alone whatever it leaves alone beside the whole buffer. -/
theorem undisturbed_withTrailing {front : List Segment} {last' : Segment} {st' : Store α}
    (extended : Undisturbed (front ++ others) st [last'] st') :
    Undisturbed others st (b.withTrailing front last').segments st' := by
  rw [segments_withTrailing]
  exact extended.frame.perm List.perm_append_comm

/-- The last segment beside the segments before it. -/
theorem hosts_trailing {front : List Segment} {last : Segment}
    (hosts : st.Hosts (b.segments ++ others)) (found : b.trailing? = some (front, last)) :
    st.Hosts (last :: (front ++ others)) := by
  rw [(segments_of_trailing found).1, List.append_assoc] at hosts
  exact hosts.perm List.perm_middle

end

variable {α : Type} [TextUnit α] {st : Store α} {b : Buffer} {others : List Segment}

/-! ## Making -/

theorem undisturbed_ofUnits (hosts : st.Hosts others) (units : List α) :
    Undisturbed others st (ofUnits units st).1.segments (ofUnits units st).2 :=
  undisturbed_ofSegment (undisturbed_allocate units _ hosts)

/-- The buffer that units have been made into, by name. -/
theorem undisturbed_of_made {units : List α} {made : Buffer} {st' : Store α}
    (hosts : st.Hosts others) (done : ofUnits units st = (made, st')) :
    Undisturbed others st made.segments st' := by
  have allocated := undisturbed_ofUnits hosts units
  rwa [done] at allocated

theorem undisturbed_ofText (hosts : st.Hosts others) (text : String) :
    Undisturbed others st (ofText text st).1.segments (ofText text st).2 :=
  undisturbed_ofSegment (undisturbed_allocate _ _ hosts)

theorem undisturbed_ofArray (hosts : st.Hosts others) (units : List α) (capacity : Nat) :
    Undisturbed others st (ofArray units capacity st).1.segments (ofArray units capacity st).2 :=
  undisturbed_ofSegment (undisturbed_allocate units capacity hosts)

theorem undisturbed_withCapacity {capacity : Nat} {made : Buffer × Store α}
    (hosts : st.Hosts others) (done : withCapacity capacity st = .ok made) :
    Undisturbed others st made.1.segments made.2 := by
  unfold withCapacity at done
  cases made' : Segment.withCapacity capacity st with
  | error fault => rw [made'] at done; cases done
  | ok r =>
      rw [made'] at done
      cases done
      exact Segment.undisturbed_withRoom hosts made'

theorem undisturbed_withRoom {units : List α} {capacity : Nat} {made : Buffer × Store α}
    (hosts : st.Hosts others) (done : withRoom units capacity st = .ok made) :
    Undisturbed others st made.1.segments made.2 := by
  unfold withRoom at done
  cases made' : Segment.withRoom units capacity st with
  | error fault => rw [made'] at done; cases done
  | ok r =>
      rw [made'] at done
      cases done
      exact undisturbed_ofSegment (Segment.undisturbed_withRoom hosts made')

/-! ## Appending -/

/-- A new last segment is filled in an array of its own. -/
theorem undisturbed_extendBy {pending : Nat} {write : Segment → Store α → Edited Segment α Unit}
    {extended : Buffer × Store α} (hosts : st.Hosts (b.segments ++ others))
    (writes : ∀ (s : Segment) (st : Store α), st.Hosts (s :: (b.segments ++ others)) →
      Undisturbed (b.segments ++ others) st [(write s st).object] (write s st).store)
    (done : b.extendBy pending write st = .ok extended) :
    Undisturbed others st extended.1.segments extended.2 := by
  obtain ⟨s, made, fresh, filled, -, rfl⟩ := extendBy_eq_ok.1 done
  have allocated := Segment.undisturbed_withRoom hosts fresh
  exact (allocated.trans (writes s made allocated.hosts)).frame.perm List.perm_append_comm

section

variable {write : Segment → List α → Store α → Edited Segment α Unit}
  (writes : ∀ {s : Segment} {st : Store α} {others : List Segment}, st.Hosts (s :: others) →
    ∀ us, Undisturbed others st [(write s us st).object] (write s us st).store)
include writes

theorem undisturbed_appendRest (hosts : st.Hosts (b.segments ++ others)) (rest : List α) :
    Undisturbed others st (b.appendRest write rest st).object.segments
      (b.appendRest write rest st).store := by
  unfold appendRest
  split
  next => exact .refl hosts
  next =>
    exact undisturbed_whole hosts fun made done =>
      undisturbed_extendBy hosts (fun s st fresh => writes fresh rest) done

theorem undisturbed_appendBy (hosts : st.Hosts (b.segments ++ others)) (units : List α) :
    Undisturbed others st (b.appendBy write units st).object.segments
      (b.appendBy write units st).store := by
  unfold appendBy
  split
  next front last found =>
    have first := undisturbed_withTrailing (b := b) (writes (hosts_trailing hosts found)
      (units.take (min last.spare units.length)))
    exact Edited.left_andThen
      (P := fun (b' : Buffer) st' => Undisturbed others st b'.segments st') first
      fun _ => first.trans (undisturbed_appendRest writes first.hosts _)
  next => exact undisturbed_appendRest writes hosts units

end

/-- A unit has gone into the last segment or into a new one. -/
theorem append_cases {around : Surroundings} {u : α} {appended : Buffer × Store α}
    (done : b.append around u st = .ok appended) :
    (∃ front last, b.trailing? = some (front, last) ∧ (last.append around u st).answer = .ok () ∧
      appended = (b.withTrailing front (last.append around u st).object,
        (last.append around u st).store)) ∨
    b.trailing? = none ∧ b.extendBy 1 (fun s st => s.append around u st) st = .ok appended := by
  unfold append at done
  split at done
  next front last found =>
    have taken := Edited.answer_of_outcome done
    obtain rfl := Edited.left_of_outcome done
    exact .inl ⟨front, last, found, taken, rfl⟩
  next found => exact .inr ⟨found, done⟩

section

variable (around : Surroundings)

theorem undisturbed_append {u : α} {appended : Buffer × Store α}
    (hosts : st.Hosts (b.segments ++ others)) (done : b.append around u st = .ok appended) :
    Undisturbed others st appended.1.segments appended.2 := by
  rcases append_cases done with ⟨front, last, found, -, rfl⟩ | ⟨-, opened⟩
  · exact undisturbed_withTrailing
      (Segment.undisturbed_append around (hosts_trailing hosts found) u)
  · exact undisturbed_extendBy hosts
      (fun s st fresh => Segment.undisturbed_append around fresh u) opened

theorem undisturbed_extend (hosts : st.Hosts (b.segments ++ others)) (units : List α) :
    Undisturbed others st (b.extend around units st).object.segments
      (b.extend around units st).store := by
  induction units generalizing b st with
  | nil => exact .refl hosts
  | cons u us ih =>
      rw [extend]
      split
      next b' st' done =>
        have first := undisturbed_append around hosts done
        exact first.trans (ih first.hosts)
      next => exact .refl hosts

theorem undisturbed_appendSlice (hosts : st.Hosts (b.segments ++ others)) (units : List α) :
    Undisturbed others st (b.appendSlice around units st).object.segments
      (b.appendSlice around units st).store :=
  undisturbed_appendBy (fun fresh us => Segment.undisturbed_appendSlice around fresh us) hosts units

theorem undisturbed_appendText (hosts : st.Hosts (b.segments ++ others)) (text : String) :
    Undisturbed others st (b.appendText around text st).object.segments
      (b.appendText around text st).store :=
  undisturbed_appendBy (fun fresh us => Segment.undisturbed_appendEach around fresh us) hosts
    (TextUnit.unitsOf text)

end

theorem undisturbed_copy (hosts : st.Hosts others) (b : Buffer) :
    Undisturbed others st (b.copy st).1.segments (b.copy st).2 :=
  (undisturbed_allocate _ _ hosts).subperm (subperm_push _ _)

/-! ## Shortening -/

section

omit [TextUnit α]

theorem hosts_dropUnits {segments : List Segment} (hosts : st.Hosts (segments ++ others))
    (count : Nat) : st.Hosts (dropUnits segments count ++ others) := by
  induction segments generalizing count with
  | nil => exact hosts
  | cons s rest ih =>
      rw [dropUnits]
      split
      next => exact Segment.hosts_removeStart hosts count
      next => exact ih (Store.Hosts.cons_iff.1 hosts).2.1 _

theorem hosts_dropLastUnits {around : Surroundings} (covers : around.Covers others)
    {segments : List Segment} (hosts : st.Hosts (segments ++ others)) (count : Nat) :
    st.Hosts (dropLastUnits around segments count ++ others) := by
  induction segments generalizing count with
  | nil => exact hosts
  | cons last front ih =>
      rw [dropLastUnits]
      split
      next => exact hosts
      next =>
        split
        next => exact Segment.hosts_removeEnd hosts (covers.besides front) count
        next => exact ih (Store.Hosts.cons_iff.1 hosts).2.1 _

/-- A change of the segments that can be followed from their last one on. -/
theorem hosts_reversed {segments changed : List Segment} (hosts : st.Hosts (segments ++ others))
    (step : st.Hosts (segments.reverse ++ others) → st.Hosts (changed ++ others)) :
    st.Hosts (changed.reverse ++ others) :=
  (step (hosts.perm (segments.reverse_perm.symm.append_right others))).perm
    (changed.reverse_perm.symm.append_right others)

theorem hosts_removeStart (hosts : st.Hosts (b.segments ++ others)) (count : Nat) :
    st.Hosts ((b.removeStart count).segments ++ others) := by
  rw [removeStart, segments_mapSegments fun _ => rfl]
  exact hosts_dropUnits hosts count

theorem hosts_removeEnd {around : Surroundings} (covers : around.Covers others)
    (hosts : st.Hosts (b.segments ++ others)) (count : Nat) :
    st.Hosts ((b.removeEnd around count).segments ++ others) := by
  rw [removeEnd, segments_mapSegments fun _ => rfl]
  exact hosts_reversed hosts fun reversed => hosts_dropLastUnits covers reversed count

end

theorem hosts_trimFirst {segments : List Segment} (hosts : st.Hosts (segments ++ others)) :
    st.Hosts (trimFirst st segments ++ others) := by
  induction segments with
  | nil => exact hosts
  | cons s rest ih =>
      simp only [trimFirst]
      split
      next => exact ih (Store.Hosts.cons_iff.1 hosts).2.1
      next => exact Segment.hosts_trimStart hosts

theorem hosts_trimLast {around : Surroundings} (covers : around.Covers others)
    {segments : List Segment} (hosts : st.Hosts (segments ++ others)) :
    st.Hosts (trimLast around st segments ++ others) := by
  induction segments with
  | nil => exact hosts
  | cons last front ih =>
      simp only [trimLast]
      split
      next => exact ih (Store.Hosts.cons_iff.1 hosts).2.1
      next => exact Segment.hosts_trimEnd hosts (covers.besides front)

theorem hosts_trimStart (hosts : st.Hosts (b.segments ++ others)) :
    st.Hosts ((b.trimStart st).segments ++ others) := by
  rw [trimStart, segments_mapSegments fun _ => rfl]
  exact hosts_trimFirst hosts

theorem hosts_trimEnd {around : Surroundings} (covers : around.Covers others)
    (hosts : st.Hosts (b.segments ++ others)) :
    st.Hosts ((b.trimEnd around st).segments ++ others) := by
  rw [trimEnd, segments_mapSegments fun _ => rfl]
  exact hosts_reversed hosts fun reversed => hosts_trimLast covers reversed

theorem hosts_trim {around : Surroundings} (covers : around.Covers others)
    (hosts : st.Hosts (b.segments ++ others)) :
    st.Hosts ((b.trim around st).segments ++ others) :=
  hosts_trimEnd covers (hosts_trimStart hosts)

/-- Each segment moves while those behind it still are where they were. -/
theorem undisturbed_compactEach {segments : List Segment}
    (hosts : st.Hosts (segments ++ others)) :
    Undisturbed others st (compactEach segments st).1 (compactEach segments st).2 := by
  induction segments generalizing st others with
  | nil => exact .refl hosts
  | cons s rest ih =>
      have first := Segment.undisturbed_compact hosts
      have moved : Undisturbed others st [(s.compact st).1] (s.compact st).2 :=
        ⟨first.hosts.subperm (((List.sublist_append_right rest others).cons_cons _).subperm),
          first.keeps.subset (List.subset_append_right _ _), first.size_le⟩
      have fresh : (s.compact st).2.Hosts ((s.compact st).1 :: (rest ++ others)) := first.hosts
      have more := ih (fresh.perm List.perm_middle.symm)
      rw [compactEach]
      refine moved.trans ⟨?_, more.keeps.subset (List.subset_cons_self _ _), more.size_le⟩
      exact more.hosts.perm List.perm_middle

/-- The segments that show something, moved one after the other. -/
theorem segments_compact (b : Buffer) (st : Store α) :
    (b.compact st).1.segments = (compactEach (b.segments.filter (!·.isEmpty)) st).1 := by
  refine segments_mapSegments fun vacant => ?_
  rw [vacant]
  rfl

theorem undisturbed_compact (hosts : st.Hosts (b.segments ++ others)) :
    Undisturbed others st (b.compact st).1.segments (b.compact st).2 := by
  have kept : (b.segments.filter (!·.isEmpty) ++ others).Sublist (b.segments ++ others) :=
    List.Sublist.append List.filter_sublist (List.Sublist.refl _)
  have moved := undisturbed_compactEach (hosts.subperm kept.subperm)
  rw [segments_compact]
  exact ⟨moved.hosts, moved.keeps, moved.size_le⟩

/-! ## Changes in place -/

omit [TextUnit α]

theorem hosts_mapEachSegment {around : Surroundings} {f : α → α} {live : List Segment}
    (hosts : st.Hosts live) (segments : List Segment) :
    (mapEachSegment around f segments st).1.Hosts live := by
  induction segments generalizing st with
  | nil => exact hosts
  | cons s rest ih =>
      rw [mapEachSegment]
      split
      next done => exact ih (Segment.hosts_mapUnits hosts done)
      next => exact hosts

theorem hosts_setAt {around : Surroundings} {i : Nat} {u : α} {st' : Store α}
    {live : List Segment} (hosts : st.Hosts live) (done : b.setAt around i u st = .ok st') :
    st'.Hosts live := by
  unfold setAt at done
  dsimp only at done
  split at done
  next => exact Segment.hosts_setAt hosts done
  next => cases done

theorem unit?_mapEachSegment_of_not_reaches {around : Surroundings} {f : α → α} {c : Cell}
    {segments : List Segment} (ordered : ∀ s ∈ segments, s.stop ≤ s.limit)
    (clear : ∀ s ∈ segments, ¬s.Reaches c) :
    (mapEachSegment around f segments st).1.unit? c = st.unit? c := by
  induction segments generalizing st with
  | nil => rfl
  | cons s rest ih =>
      rw [mapEachSegment]
      split
      next st' done =>
        have first := Segment.unit?_mapUnits_of_not_reaches (ordered s List.mem_cons_self)
          (clear s List.mem_cons_self) done
        have later : (mapEachSegment around f rest st').1.unit? c = st'.unit? c :=
          ih (fun t here => ordered t (List.mem_cons_of_mem _ here))
            fun t here => clear t (List.mem_cons_of_mem _ here)
        exact later.trans first
      next => rfl

theorem unit?_setAt_of_not_reaches {around : Surroundings} {i : Nat} {u : α} {st' : Store α}
    {c : Cell} (ordered : ∀ s ∈ b.segments, s.stop ≤ s.limit)
    (clear : ∀ s ∈ b.segments, ¬s.Reaches c) (done : b.setAt around i u st = .ok st') :
    st'.unit? c = st.unit? c := by
  unfold setAt at done
  dsimp only at done
  split at done
  next s found =>
    have here : s ∈ b.segments := List.mem_of_getElem? found
    exact Segment.unit?_setAt_of_not_reaches (ordered s here) (clear s here) done
  next => cases done

end Buffer

end SegmentedText
