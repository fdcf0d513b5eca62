import SegmentedText.Proofs.Flat.Shortenings
import SegmentedText.Proofs.Lending.Edits
import SegmentedText.Proofs.Lists.Lasting
import SegmentedText.Proofs.Serial.RoundTrip

/-!
# Lists that could be opened

A buffer opens its list of segments when the first segment comes, and the layout says how many
places the list is opened with.  A layout that asks for more places than there can be never opens
one.  So a buffer is founded (`Buffer.Founded`): it has no list, or its layout is one that opens
lists.

This is lasting (`Buffer.lasting_founded`), since no operation changes the layout of a buffer and
each one that fills a buffer needs the list.
-/

set_option autoImplicit false

namespace SegmentedText
namespace Buffer

/-- There is no list of segments, or the layout opens lists. -/
def Founded (b : Buffer) : Prop := b.segmentList = .vacant ∨ b.layout.opensList = true

variable {b b' : Buffer}

namespace Founded

theorem opensList (founded : b.Founded) (room : b.canHold = true) : b.layout.opensList = true := by
  rcases founded with vacant | there
  · simpa [canHold, hasNoSegments, vacant] using room
  · exact there

/-- What a buffer that can hold segments becomes. -/
theorem filled (founded : b.Founded) (room : b.canHold = true) (same : b'.layout = b.layout) :
    b'.Founded := .inr (same ▸ founded.opensList room)

/-- What a buffer becomes that is only changed where it has segments. -/
theorem changed (founded : b.Founded) (same : b'.layout = b.layout)
    (idle : b.segmentList = .vacant → b'.segmentList = .vacant) : b'.Founded :=
  founded.imp idle fun there => same ▸ there

end Founded

theorem founded_ofLayout (layout : Layout) : (ofLayout layout).Founded := .inl rfl

theorem segments_of_vacant (vacant : b.segmentList = .vacant) : b.segments = [] := by
  rw [segments, vacant, SegmentList.toList_vacant]

/-! ## Taking segments in -/

theorem Founded.taking {changed : Buffer} {nothing : Bool} (founded : b.Founded)
    (done : b.taking nothing changed = .ok b') (same : changed.layout = b.layout)
    (idle : nothing = true → changed = b) : b'.Founded := by
  obtain rfl := eq_of_taking done
  unfold Buffer.taking at done
  split at done
  next there =>
    rcases Bool.or_eq_true_iff.1 there with none | room
    · exact (idle none).symm ▸ founded
    · exact founded.filled room same
  next => cases done

theorem Founded.appendSegment {s : Segment} (founded : b.Founded)
    (done : b.appendSegment s = .ok b') : b'.Founded :=
  founded.taking done (layout_push s) fun none => if_pos none

theorem Founded.prependSegment {s : Segment} (founded : b.Founded)
    (done : b.prependSegment s = .ok b') : b'.Founded :=
  founded.taking done (layout_pushFront s) fun none => if_pos none

theorem Founded.appendSegments {segments : List Segment} (founded : b.Founded)
    (done : b.appendSegments segments = .ok b') : b'.Founded := by
  refine founded.taking done rfl fun none => ?_
  have hollow : segments.filter (!·.isEmpty) = [] := by
    refine List.filter_eq_nil_iff.2 fun s here => ?_
    simp [List.all_eq_true.1 none s here]
  rw [pushAll, hollow]
  rfl

/-! ## Letting segments go and exchanging them -/

theorem Founded.mapSegments (founded : b.Founded) (f : List Segment → List Segment) :
    (b.mapSegments f).Founded :=
  founded.changed (layout_mapSegments f) fun vacant => by
    rw [Buffer.mapSegments, vacant]
    exact vacant

theorem canHold_of_splice {r : Buffer} {start stop : Nat} {c : Cursor}
    (done : b.splice start stop r = .ok (b', c)) : b.canHold = true := by
  rw [splice, if_neg (not_not_intro (le_of_splice done))] at done
  split at done
  next => cases done
  next room => simpa using room

theorem Founded.splice {r : Buffer} {start stop : Nat} {c : Cursor} (founded : b.Founded)
    (done : b.splice start stop r = .ok (b', c)) : b'.Founded :=
  founded.filled (canHold_of_splice done) (layout_of_splice done)

variable {α : Type} {st : Store α}

theorem Founded.replaceRange (founded : b.Founded) (start stop : Nat) (r : Buffer) :
    (b.replaceRange start stop r st).object.Founded := by
  unfold Buffer.replaceRange
  split
  next done => exact founded.splice done
  next => exact founded

variable [TextUnit α] {around : Surroundings}

theorem Founded.replaceFrom {search replacement : List α} {c : Cursor} {count : Nat}
    (founded : b.Founded) : (replaceFrom search replacement b c count st).object.Founded := by
  fun_induction Buffer.replaceFrom search replacement b c count st with
  | case1 => exact founded
  | case2 => exact founded
  | case3 b c count st first past found value st' made b' c' done ih =>
      exact ih (founded.splice done)

theorem Founded.substituteFrom {opening closing : List α} {provider : Provider α} {c : Cursor}
    {enclosed : List Buffer} (founded : b.Founded) :
    (substituteFrom opening closing provider b c enclosed st).object.Founded := by
  fun_induction Buffer.substituteFrom opening closing provider b c enclosed st with
  | case1 => exact founded
  | case2 => exact founded
  | case3 => exact founded
  | case4 => exact founded
  | case5 b c enclosed st first body opened last past closed inner cut value st' made b' c' done ih =>
      exact ih (founded.splice done)

theorem Founded.substitute (founded : b.Founded) (opening closing : List α)
    (provider : Provider α) : (b.substitute opening closing provider st).object.Founded := by
  unfold Buffer.substitute
  split
  next => exact founded
  next => exact founded.substituteFrom

/-! ## Filling segments -/

theorem Founded.extendBy {pending : Nat} {write : Segment → Store α → Edited Segment α Unit}
    {extended : Buffer × Store α} (founded : b.Founded)
    (done : b.extendBy pending write st = .ok extended) : extended.1.Founded :=
  founded.filled (Bool.and_eq_true_iff.1 (eq_of_extendBy done).1).2 (layout_of_extendBy done)

theorem Founded.append {u : α} {appended : Buffer × Store α} (founded : b.Founded)
    (done : b.append around u st = .ok appended) : appended.1.Founded := by
  rcases append_cases done with ⟨front, last, found, -, rfl⟩ | ⟨-, opened⟩
  · exact founded.filled (canHold_of_trailing found) rfl
  · exact founded.extendBy opened

theorem Founded.extend (founded : b.Founded) (units : List α) :
    (b.extend around units st).object.Founded := by
  induction units generalizing b st with
  | nil => exact founded
  | cons u us ih =>
      rw [Buffer.extend]
      split
      next done => exact ih (founded.append done)
      next => exact founded

section

variable {write : Segment → List α → Store α → Edited Segment α Unit}

theorem Founded.appendRest (founded : b.Founded) (rest : List α) :
    (b.appendRest write rest st).object.Founded := by
  unfold Buffer.appendRest
  split
  next => exact founded
  next => exact Edited.object_whole founded fun made done => founded.extendBy done

theorem Founded.appendBy (founded : b.Founded) (units : List α) :
    (b.appendBy write units st).object.Founded := by
  unfold Buffer.appendBy
  split
  next front last found =>
    have filled : ∀ last', (b.withTrailing front last').Founded := fun last' =>
      founded.filled (canHold_of_trailing found) rfl
    exact Edited.left_andThen (P := fun (b' : Buffer) (_ : Store α) => b'.Founded) (filled _)
      fun _ => (filled _).appendRest _
  next => exact founded.appendRest units

end

theorem Founded.prepend {u : α} {made : Buffer × Store α} (founded : b.Founded)
    (done : b.prepend u st = .ok made) : made.1.Founded := by
  obtain ⟨b', taken, rfl⟩ := eq_ok_of_map done
  exact founded.prependSegment taken

/-! ## Edits -/

theorem Founded.apply (founded : b.Founded) (around : Surroundings) (st : Store α)
    (edit : Edit α) : (b.apply around st edit).object.Founded := by
  cases edit with
  | append u => exact Edited.object_whole founded fun made done => founded.append done
  | appendSlice units => exact founded.appendBy units
  | appendText text => exact founded.appendBy _
  | extend units => exact founded.extend units
  | appendSegment s =>
      exact Edited.object_wholeObject founded fun made done => founded.appendSegment done
  | appendBuffer other =>
      exact Edited.object_wholeObject founded fun made done => founded.appendSegments done
  | prepend u => exact Edited.object_whole founded fun made done => founded.prepend done
  | prependSegment s =>
      exact Edited.object_wholeObject founded fun made done => founded.prependSegment done
  | setAt =>
      rw [Buffer.apply, Edited.object_written]
      exact founded
  | replaceUnit | lowerCase | upperCase =>
      rw [Buffer.apply, Edited.object_mapped]
      exact founded
  | removeStart count => exact founded.mapSegments _
  | removeEnd count => exact founded.mapSegments _
  | trimStart => exact founded.mapSegments _
  | trimEnd => exact founded.mapSegments _
  | trim => exact (founded.mapSegments _).mapSegments _
  | compact => exact founded.mapSegments _
  | clear => exact .inl rfl
  | replaceRange start stop r => exact founded.replaceRange start stop r
  | replaceAll search replacement => exact founded.replaceFrom
  | substitute opening closing provider => exact founded.substitute opening closing provider

/-! ## New buffers -/

omit [TextUnit α] in
theorem Founded.shared (founded : b.Founded) : b.shared.Founded := by
  rcases founded with vacant | there
  · exact .inl (by rw [Buffer.shared, vacant]; exact vacant)
  · refine .inr ?_
    unfold Buffer.shared
    split <;> exact there

omit [TextUnit α] in
theorem layout_part (start stop : Nat) : (b.part start stop).layout = b.layout := by
  unfold Buffer.part
  split
  next => rfl
  next =>
    dsimp only
    split
    next => split <;> rfl
    next => rfl

omit [TextUnit α] in
theorem part_of_vacant (vacant : b.segmentList = .vacant) (start stop : Nat) :
    (b.part start stop).segmentList = .vacant := by
  unfold Buffer.part
  rw [segments_of_vacant vacant]
  split <;> rfl

omit [TextUnit α] in
theorem Founded.part (founded : b.Founded) (start stop : Nat) : (b.part start stop).Founded :=
  founded.changed (layout_part start stop) fun vacant => part_of_vacant vacant start stop

/-- A buffer that shows nothing is copied without a segment. -/
theorem Founded.copy (founded : b.Founded) (st : Store α) : (b.copy st).1.Founded := by
  refine founded.changed (layout_push _) fun vacant => ?_
  rw [Buffer.copy, toUnits_eq, content, segments_of_vacant vacant]
  rfl

omit [TextUnit α] in
theorem layout_cutSegment (layout : Layout) (s : Segment) (bounds : List (Nat × Nat))
    {current : Buffer} (same : current.layout = layout) :
    (∀ piece ∈ (cutSegment layout s bounds current).1, piece.layout = layout) ∧
      (cutSegment layout s bounds current).2.layout = layout := by
  induction bounds generalizing current with
  | nil => exact ⟨nofun, same⟩
  | cons bound rest ih =>
      have first := (layout_push (s.window bound.1 bound.2)).trans same
      cases rest with
      | nil => exact ⟨nofun, first⟩
      | cons next more =>
          have fresh : (ofLayout layout).layout = layout := rfl
          obtain ⟨others, final⟩ := ih fresh
          refine ⟨fun piece here => ?_, final⟩
          rcases List.mem_cons.1 here with rfl | later
          · exact first
          · exact others piece later

theorem layout_splitSegments (layout : Layout) (separator : α) (st : Store α)
    (segments : List Segment) {current : Buffer} (same : current.layout = layout) :
    ∀ piece ∈ splitSegments layout separator st segments current, piece.layout = layout := by
  induction segments generalizing current with
  | nil =>
      intro piece here
      obtain rfl := List.mem_singleton.1 here
      exact same
  | cons s rest ih =>
      obtain ⟨pieces, last⟩ :=
        layout_cutSegment layout s (pieceBounds separator (s.content st) 0 0) same
      intro piece here
      rcases List.mem_append.1 here with first | later
      · exact pieces piece first
      · exact ih last piece later

theorem Founded.split (founded : b.Founded) (separator : α) (st : Store α) :
    ∀ piece ∈ b.split separator st, piece.Founded := by
  intro piece here
  have fresh : (ofLayout b.layout).layout = b.layout := rfl
  have same := layout_splitSegments b.layout separator st b.segments fresh piece here
  refine founded.changed same fun vacant => ?_
  rw [Buffer.split, segments_of_vacant vacant] at here
  obtain rfl := List.mem_singleton.1 here
  rfl

/-- **Being founded is lasting.** -/
theorem lasting_founded (α : Type) [TextUnit α] : Lasting α Founded where
  ofLayout := founded_ofLayout
  withCapacity done := by
    obtain ⟨made, -, rfl⟩ := eq_ok_of_map done
    exact .inr rfl
  apply around st edit founded := founded.apply around st edit
  appendOwned founded done := founded.appendSegments done
  shared founded := founded.shared
  part start stop founded := founded.part start stop
  copy st founded := founded.copy st
  split separator st founded := founded.split separator st

end Buffer

end SegmentedText
