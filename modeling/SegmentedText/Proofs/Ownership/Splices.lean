import SegmentedText.Edit
import SegmentedText.Proofs.Flat.Cursors
import SegmentedText.Proofs.Ownership.Buffers

/-!
# Cutting and splicing beside other windows

A part of a buffer is made of views of its segments (`Buffer.views_part`), and so are
the pieces between separators (`Buffer.views_split`).  What a splice leaves of the
segments at the ends of its range are views too, and everything else that it shows
is a segment of the buffer or of the replacement (`Buffer.hosts_splice`).  No cell
is touched.

A substitution asks for values while it runs, so it is only as good as what it
asks.  A provider is fair (`Provider.Fair`) when making a value leaves alone every
window but those of the enclosed text that it was given; it may rely on windows of its
own being alive.
-/

set_option autoImplicit false

namespace SegmentedText

/-! ## Parts -/

namespace Buffer

/-- Segments that all begin before they end. -/
def Ordered (segments : List Segment) : Prop := ∀ s ∈ segments, s.start ≤ s.stop

theorem ordered_of_hosts {α : Type} {st : Store α} {live segments : List Segment}
    (hosts : st.Hosts live) (alive : segments ⊆ live) : Ordered segments :=
  fun s here => (hosts.placed s (alive here)).valid.start_le_stop

/-- The segments of a part are views of the segments that it was cut from. -/
theorem views_part {b : Buffer} (ordered : Ordered b.segments) (start stop : Nat) :
    ∀ t ∈ (b.part start stop).segments, ∃ s ∈ b.segments, t.Views s := by
  unfold part
  split
  next => exact fun t none => absurd none List.not_mem_nil
  next proper =>
    dsimp only
    split
    next front back first last =>
      have front_mem := List.mem_of_getElem? first
      have back_mem := List.mem_of_getElem? last
      have front_inside := Cursor.offset_lt_of_locate first
      have back_inside := Cursor.offset_lt_of_locate last
      split
      next same =>
        rintro t found
        obtain rfl := List.mem_singleton.1 found
        rw [same, last] at first
        obtain rfl := Option.some.inj first
        rcases Cursor.locate_mono b.segments (show start ≤ stop - 1 by omega)
          with less | ⟨-, le⟩
        · omega
        · exact ⟨_, back_mem,
            Segment.views_window (Nat.le_succ_of_le le) back_inside (ordered _ back_mem)⟩
      next =>
        intro t found
        rcases List.mem_append.1 found with most | final
        · rcases List.mem_append.1 most with initial | between
          · obtain rfl := List.mem_singleton.1 initial
            exact ⟨front, front_mem,
              Segment.views_window (Nat.le_of_lt front_inside) (Nat.le_refl _)
                (ordered _ front_mem)⟩
          · obtain ⟨s, here, rfl⟩ := List.mem_map.1 (List.mem_filter.1 between).1
            have mem := List.mem_of_mem_take (List.mem_of_mem_drop here)
            exact ⟨s, mem, Segment.views_shared (ordered s mem)⟩
        · obtain rfl := List.mem_singleton.1 final
          exact ⟨back, back_mem,
            Segment.views_window (Nat.zero_le _) back_inside (ordered _ back_mem)⟩
    next => exact fun t none => absurd none List.not_mem_nil

/-- The segments of a part of a buffer, shared once more, are views of its own. -/
theorem views_shared_part {α : Type} {st : Store α} {b : Buffer} {live : List Segment}
    (hosts : st.Hosts live) (alive : b.segments ⊆ live) (start stop : Nat) :
    ∀ t ∈ (b.part start stop).shared.segments, ∃ s ∈ live, t.Views s := by
  intro t found
  rw [segments_shared] at found
  obtain ⟨u, here, rfl⟩ := List.mem_map.1 found
  obtain ⟨s, there, view⟩ := views_part (ordered_of_hosts hosts alive) start stop u here
  exact ⟨s, alive there, (Segment.views_shared view.ordered).trans view⟩

theorem views_substring {b part : Buffer} {start stop : Nat} (ordered : Ordered b.segments)
    (done : b.substring start stop = .ok part) :
    ∀ t ∈ part.segments, ∃ s ∈ b.segments, t.Views s := by
  unfold substring at done
  split at done
  · cases done
  · cases done
    exact views_part ordered start stop

theorem views_substringFrom {b part : Buffer} {start : Nat} (ordered : Ordered b.segments)
    (done : b.substringFrom start = .ok part) :
    ∀ t ∈ part.segments, ∃ s ∈ b.segments, t.Views s := by
  unfold substringFrom at done
  split at done
  · cases done
  · exact views_substring ordered done

/-! ## Pieces -/

theorem mem_segments_push {b : Buffer} {s t : Segment} (found : t ∈ (b.push s).segments) :
    t ∈ b.segments ∨ t = s := by
  rcases List.mem_cons.1 ((subperm_push b s).subset found) with new | old
  · exact .inr new
  · exact .inl old

/-- The pieces of one segment show what the first of them showed already, and views. -/
theorem mem_cutSegment (layout : Layout) {s : Segment} (valid : s.start ≤ s.stop)
    {bounds : List (Nat × Nat)}
    (inside : ∀ bound ∈ bounds, bound.1 ≤ bound.2 ∧ bound.2 ≤ s.length) (current : Buffer) :
    ∀ piece ∈ (cutSegment layout s bounds current).1 ++ [(cutSegment layout s bounds current).2],
      ∀ t ∈ piece.segments, t ∈ current.segments ∨ t.Views s := by
  have pushed : ∀ (b : Buffer), ∀ bound ∈ bounds, ∀ t ∈ (b.push (s.window bound.1 bound.2)).segments,
      t ∈ b.segments ∨ t.Views s := by
    intro b bound here t found
    rcases mem_segments_push found with old | rfl
    · exact .inl old
    · exact .inr (Segment.views_window (inside bound here).1 (inside bound here).2 valid)
  induction bounds generalizing current with
  | nil =>
      intro piece found t shown
      obtain rfl := List.mem_singleton.1 found
      exact .inl shown
  | cons bound rest ih =>
      intro piece found t shown
      cases rest with
      | nil =>
          obtain rfl := List.mem_singleton.1 found
          exact pushed current bound List.mem_cons_self t shown
      | cons next rest =>
          rw [cutSegment] at found
          · rcases List.mem_cons.1 found with rfl | later
            · exact pushed current bound List.mem_cons_self t shown
            · have behind := ih (fun bound here => inside bound (List.mem_cons_of_mem _ here))
                (ofLayout layout) (fun b bound here => pushed b bound (List.mem_cons_of_mem _ here))
                piece later t shown
              rcases behind with none | view
              · exact absurd none List.not_mem_nil
              · exact .inr view
          · exact fun none => nomatch none

section

variable {α : Type} [TextUnit α]

theorem mem_splitSegments {layout : Layout} {separator : α} {st : Store α}
    {segments : List Segment} (ordered : Ordered segments) (current : Buffer) :
    ∀ piece ∈ splitSegments layout separator st segments current, ∀ t ∈ piece.segments,
      t ∈ current.segments ∨ ∃ s ∈ segments, t.Views s := by
  induction segments generalizing current with
  | nil =>
      intro piece found t shown
      obtain rfl := List.mem_singleton.1 found
      exact .inl shown
  | cons s rest ih =>
      have inside : ∀ bound ∈ pieceBounds separator (s.content st) 0 0,
          bound.1 ≤ bound.2 ∧ bound.2 ≤ s.length := fun bound here =>
        ⟨Segment.pieceBounds_ordered separator _ (Nat.le_refl _) bound here,
          Segment.bound_le_length separator s st bound here⟩
      have cut := mem_cutSegment layout (ordered s List.mem_cons_self) inside current
      intro piece found t shown
      rcases List.mem_append.1 found with own | later
      · rcases cut piece (List.mem_append_left _ own) t shown with old | view
        · exact .inl old
        · exact .inr ⟨s, List.mem_cons_self, view⟩
      · rcases ih (fun s here => ordered s (List.mem_cons_of_mem _ here)) _ piece later t shown
          with opened | ⟨o, here, view⟩
        · rcases cut _ (List.mem_append_right _ (List.mem_singleton_self _)) t opened with old | view
          · exact .inl old
          · exact .inr ⟨s, List.mem_cons_self, view⟩
        · exact .inr ⟨o, List.mem_cons_of_mem _ here, view⟩

/-- The segments of the pieces between separators are views of the segments of the buffer. -/
theorem views_split {b : Buffer} {separator : α} {st : Store α} (ordered : Ordered b.segments) :
    ∀ piece ∈ b.split separator st, ∀ t ∈ piece.segments, ∃ s ∈ b.segments, t.Views s := by
  intro piece found t shown
  rcases mem_splitSegments ordered (ofLayout b.layout) piece found t shown with none | view
  · exact absurd none List.not_mem_nil
  · exact view

end

end Buffer

/-! ## Splicing -/

namespace Gap

open Buffer (Ordered)

theorem views_frontOf {segments : List Segment} (ordered : Ordered segments) (position : Nat) :
    ∀ t ∈ frontOf segments (Cursor.locate segments position), ∃ s ∈ segments, t.Views s := by
  intro t found
  unfold frontOf at found
  split at found
  next s here =>
    have mem := List.mem_of_getElem? here
    split at found
    · obtain rfl := List.mem_singleton.1 found
      exact ⟨s, mem, Segment.views_window (Nat.zero_le _)
        (Nat.le_of_lt (Cursor.offset_lt_of_locate here)) (ordered s mem)⟩
    · exact absurd found List.not_mem_nil
  next => exact absurd found List.not_mem_nil

theorem views_backOf {segments : List Segment} (ordered : Ordered segments) (i start : Nat) :
    ∀ t ∈ backOf segments i start, ∃ s ∈ segments, t.Views s := by
  intro t found
  unfold backOf at found
  split at found
  next s here =>
    have mem := List.mem_of_getElem? here
    split at found
    next inside =>
      obtain rfl := List.mem_singleton.1 found
      exact ⟨s, mem, Segment.views_window (Nat.le_of_lt inside) (Nat.le_refl _) (ordered s mem)⟩
    next => exact absurd found List.not_mem_nil
  next => exact absurd found List.not_mem_nil

/-- What a gap leaves of the segments at its ends are views of them. -/
theorem views_ends {segments : List Segment} (ordered : Ordered segments) (start stop : Nat) :
    ∀ t ∈ (ofRange segments start stop).front ++ (ofRange segments start stop).back,
      ∃ s ∈ segments, t.Views s := by
  unfold ofRange
  dsimp only
  intro t found
  split at found
  next => exact absurd found List.not_mem_nil
  next =>
    split at found
    · rcases List.mem_append.1 found with front | back
      · exact views_frontOf ordered start t front
      · exact views_backOf ordered _ _ t back
    · rcases List.mem_append.1 found with front | back
      · exact views_frontOf ordered start t front
      · exact views_backOf ordered _ _ t back

/-- A gap does not end before it begins. -/
theorem before_le_past (segments : List Segment) {start stop : Nat} (ordered : start ≤ stop) :
    (ofRange segments start stop).before ≤ (ofRange segments start stop).past := by
  unfold ofRange
  dsimp only
  split
  next => exact Nat.le_refl _
  next =>
    split
    next => exact Nat.le_succ _
    next less =>
      rcases Cursor.locate_mono segments (show start ≤ stop - 1 by omega) with
        before | ⟨same, -⟩
      · exact Nat.le_succ_of_le (Nat.le_of_lt before)
      · exact Nat.le_succ_of_le (Nat.le_of_eq same)

/-- What is shown after a splice are segments from outside the gap, ends of it, and what came in. -/
theorem subperm_filled {gap : Gap} (le : gap.before ≤ gap.past)
    (segments incoming : List Segment) :
    (gap.filled segments incoming).Subperm (gap.front ++ gap.back ++ (segments ++ incoming)) := by
  have outside : (segments.take gap.before ++ segments.drop gap.past).Sublist segments := by
    have kept := List.Sublist.append (List.Sublist.refl (segments.take gap.before))
      (List.drop_sublist_drop_left segments le)
    rwa [List.take_append_drop] at kept
  have fewer := outside.subperm.trans (List.Subperm.refl segments)
  have arranged : (gap.filled segments incoming).Perm (gap.front ++ gap.back ++
      ((segments.take gap.before ++ segments.drop gap.past) ++ incoming)) := by
    refine List.perm_iff_count.2 fun s => ?_
    simp only [filled, List.count_append]
    omega
  exact arranged.subperm.trans ((List.subperm_append_left _).2
    ((List.subperm_append_right _).2 fewer))

end Gap

namespace Buffer

section

variable {α : Type} {st : Store α} {b : Buffer} {others : List Segment}

/-- A splice shows nothing but segments of the buffer and the replacement, and views. -/
theorem hosts_splice {r b' : Buffer} {start stop : Nat} {c : Cursor}
    (hosts : st.Hosts (r.segments ++ (b.segments ++ others)))
    (done : b.splice start stop r = .ok (b', c)) : st.Hosts (b'.segments ++ others) := by
  obtain ⟨rfl, -⟩ := eq_of_splice done
  have shown : ∀ list : List Segment,
      ({ b with segmentList := (SegmentList.held list).settle } : Buffer).segments = list :=
    fun list => SegmentList.toList_settle _
  rw [shown]
  have alive : b.segments ⊆ r.segments ++ (b.segments ++ others) :=
    fun s here => List.mem_append_right _ (List.mem_append_left _ here)
  have ends := Gap.views_ends (ordered_of_hosts hosts alive) start stop
  have more := hosts.views fun t found =>
    let ⟨s, here, view⟩ := ends t found
    ⟨s, alive here, view⟩
  have filled := Gap.subperm_filled (Gap.before_le_past b.segments (le_of_splice done).1) b.segments
    (r.segments.filter (!·.isEmpty))
  refine more.subperm (((List.subperm_append_right others).2 filled).trans ?_)
  have fewer : (r.segments.filter (!·.isEmpty)).Subperm r.segments := List.filter_sublist.subperm
  rw [List.append_assoc]
  refine (List.subperm_append_left _).2 ?_
  rw [List.append_assoc]
  refine ((List.subperm_append_left b.segments).2
    ((List.subperm_append_right others).2 fewer)).trans ?_
  rw [← List.append_assoc, ← List.append_assoc]
  exact ((List.subperm_append_right others).2 List.perm_append_comm.subperm)

/-! ## Taking a text in -/

variable [TextUnit α]

theorem undisturbed_prepend {u : α} {made : Buffer × Store α}
    (hosts : st.Hosts (b.segments ++ others)) (done : b.prepend u st = .ok made) :
    Undisturbed others st made.1.segments made.2 := by
  have fresh := undisturbed_allocate [u] 1 hosts
  unfold prepend at done
  obtain ⟨b', taken, rfl⟩ : ∃ b', b.prependSegment (Segment.ofUnits [u] st).1 = .ok b' ∧
      made = (b', (Segment.ofUnits [u] st).2) := by
    cases taken : b.prependSegment (Segment.ofUnits [u] st).1 with
    | error fault => simp [taken, Except.map] at done
    | ok b' => exact ⟨b', rfl, by simpa [taken, Except.map] using done.symm⟩
  exact ⟨hosts_prependSegment fresh.hosts taken,
    fresh.keeps.subset (List.subset_append_right _ _), fresh.size_le⟩

omit [TextUnit α] in
theorem undisturbed_replaceRange {r : Buffer}
    (hosts : st.Hosts (r.segments ++ (b.segments ++ others))) (start stop : Nat) :
    Undisturbed others st (b.replaceRange start stop r st).object.segments
      (b.replaceRange start stop r st).store := by
  unfold replaceRange
  split
  next done => exact .refl (hosts_splice hosts done)
  next => exact .refl hosts.right

theorem undisturbed_replaceFrom {search replacement : List α} {c : Cursor} {count : Nat}
    (hosts : st.Hosts (b.segments ++ others)) :
    Undisturbed others st (replaceFrom search replacement b c count st).object.segments
      (replaceFrom search replacement b c count st).store := by
  fun_induction replaceFrom search replacement b c count st with
  | case1 => exact .refl hosts
  | case2 b c count st first after located value st' made fault refused =>
      have fresh := undisturbed_of_made hosts made
      exact ⟨fresh.hosts.right, fresh.keeps.subset (List.subset_append_right _ _), fresh.size_le⟩
  | case3 b c count st first after located value st' made b' c' done ih =>
      have fresh := undisturbed_of_made hosts made
      have spliced : Undisturbed others st b'.segments st' :=
        ⟨hosts_splice fresh.hosts done, fresh.keeps.subset (List.subset_append_right _ _),
          fresh.size_le⟩
      exact spliced.trans (ih spliced.hosts)

theorem undisturbed_replaceAll (hosts : st.Hosts (b.segments ++ others))
    (search replacement : List α) :
    Undisturbed others st (b.replaceAll search replacement st).object.segments
      (b.replaceAll search replacement st).store :=
  undisturbed_replaceFrom hosts

end

end Buffer

/-! ## Substitution -/

/-- Making a value leaves alone every window but those of the enclosed text, as long as the windows
that the provider relies on are alive. -/
def Provider.Fair {α : Type} (provider : Provider α) (relied : List Segment) : Prop :=
  ∀ (n : Nat) (inner : Buffer) (st : Store α) (live : List Segment), relied ⊆ live →
    st.Hosts (inner.segments ++ live) →
    Undisturbed live st (provider n inner st).1.segments (provider n inner st).2

/-- The enclosed text itself is a fair value. -/
theorem Provider.fair_same {α : Type} :
    Provider.Fair (fun _ inner st => (inner.shared, st) : Provider α) [] := by
  intro n inner st live _ hosts
  have shared := hosts.views (Buffer.views_shared hosts (List.subset_append_left _ _))
  refine .refl (shared.subperm ?_)
  exact (List.subperm_append_left _).2 (List.sublist_append_right _ _).subperm

/-- Making a value leaves alone every window but those of the enclosed text and those that the
provider gives away.  It has had the windows `held n` in its hands when it is asked for the value of
number `n`, and keeps those of `held (n + 1)`; they are alive until they are handed over. -/
structure Provider.Serves {α : Type} (provider : Provider α) (relied : List Segment)
    (held : Nat → List Segment) : Prop where
  fewer : ∀ n, held (n + 1) ⊆ held n
  undisturbed : ∀ (n : Nat) (inner : Buffer) (st : Store α) (live : List Segment), relied ⊆ live →
    st.Hosts (inner.segments ++ (held n ++ live)) →
    Undisturbed (held (n + 1) ++ live) st (provider n inner st).1.segments (provider n inner st).2

/-- A fair provider has nothing to give away. -/
theorem Provider.Fair.serves {α : Type} {provider : Provider α} {relied : List Segment}
    (fair : provider.Fair relied) : provider.Serves relied fun _ => [] :=
  ⟨fun _ => List.Subset.refl _, fair⟩

/-- A buffer that is alive is a fair value. -/
theorem Provider.fair_shared {α : Type} (b : Buffer) :
    Provider.Fair (fun _ _ st => (b.shared, st) : Provider α) b.shared.segments := by
  intro n inner st live alive hosts
  refine .refl (hosts.right.views fun t found => ?_)
  have here := alive found
  refine ⟨t, here, ⟨rfl, Nat.le_refl _, ?_, Nat.le_refl _, ?_⟩⟩
  · exact (hosts.right.placed t here).valid.start_le_stop
  · rw [Buffer.segments_shared] at found
    obtain ⟨s, -, rfl⟩ := List.mem_map.1 found
    rfl

namespace Buffer

variable {α : Type} [TextUnit α] {st : Store α} {b : Buffer} {others relied : List Segment}

omit [TextUnit α] in
/-- A value is made beside the buffer that the enclosed text was cut out of. -/
theorem undisturbed_asked {provider : Provider α} {inner value : Buffer} {st' : Store α}
    {start stop n : Nat} (fair : provider.Fair relied) (alive : relied ⊆ others)
    (hosts : st.Hosts (b.segments ++ others)) (cut : b.substring start stop = .ok inner)
    (made : provider n inner st = (value, st')) :
    Undisturbed (b.segments ++ others) st value.segments st' := by
  have views := views_substring (ordered_of_hosts hosts (List.subset_append_left _ _)) cut
  have beside := hosts.views fun t found =>
    let ⟨s, here, view⟩ := views t found
    ⟨s, List.mem_append_left others here, view⟩
  have given := fair n inner st _ (fun s here => List.mem_append_right _ (alive here)) beside
  rwa [made] at given

theorem undisturbed_substituteFrom {opening closing : List α} {provider : Provider α} {c : Cursor}
    {enclosed : List Buffer} (fair : provider.Fair relied) (alive : relied ⊆ others)
    (hosts : st.Hosts (b.segments ++ others)) :
    Undisturbed others st
      (substituteFrom opening closing provider b c enclosed st).object.segments
      (substituteFrom opening closing provider b c enclosed st).store := by
  fun_induction substituteFrom opening closing provider b c enclosed st with
  | case1 => exact .refl hosts
  | case2 => exact .refl hosts
  | case3 => exact .refl hosts
  | case4 b c enclosed st first body opened last after closed inner cut value st' made =>
      have given := undisturbed_asked fair alive hosts cut made
      exact ⟨given.hosts.right, given.keeps.subset (List.subset_append_right _ _), given.size_le⟩
  | case5 b c enclosed st first body opened last after closed inner cut value st' made b' c' done
      ih =>
      have given := undisturbed_asked fair alive hosts cut made
      have spliced : Undisturbed others st b'.segments st' :=
        ⟨hosts_splice given.hosts done, given.keeps.subset (List.subset_append_right _ _),
          given.size_le⟩
      exact spliced.trans (ih spliced.hosts)

theorem undisturbed_substitute (opening closing : List α) {provider : Provider α}
    (fair : provider.Fair relied) (alive : relied ⊆ others)
    (hosts : st.Hosts (b.segments ++ others)) :
    Undisturbed others st (b.substitute opening closing provider st).object.segments
      (b.substitute opening closing provider st).store := by
  unfold substitute
  split
  next => exact .refl hosts
  next => exact undisturbed_substituteFrom fair alive hosts

end Buffer

end SegmentedText
