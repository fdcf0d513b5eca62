import SegmentedText.Proofs.Ownership.Splices
import SegmentedText.World.Changing

/-!
# Edits beside other windows

An edit may bring windows of its own, which change hands (`Edit.windows`); or it
shares windows that stay where they are, or relies on them (`Edit.Fits`).  For
every edit that fits, on every kind of object, the windows that are left are hosted
together with all others (`Object.hosts_apply`).  If the edit does not change text in
place, no other window can tell that it has taken place (`Object.undisturbed_apply`).

A bounded buffer adds nothing but cuts: what it takes in is cut before, and what
overflows is dropped behind.
-/

set_option autoImplicit false

namespace SegmentedText

namespace Edit

variable {α : Type}

/-- The windows that an edit brings. -/
def windows : Edit α → List Segment
  | .appendSegment s | .prependSegment s => [s]
  | .replaceRange _ _ replacement => replacement.segments
  | _ => []

/-- What an edit shares or relies on is alive, in the object or beside it. -/
def Fits (own others : List Segment) : Edit α → Prop
  | .appendBuffer other => other.segments ⊆ own ++ others
  | .substitute _ _ provider => ∃ relied, relied ⊆ others ∧ provider.Fair relied
  | _ => True

/-- Whether an edit overwrites text where it is. -/
def inPlace : Edit α → Bool
  | .setAt _ _ | .replaceUnit _ _ | .lowerCase | .upperCase => true
  | _ => false

/-- An edit that overwrites text where it is brings no windows and relies on none. -/
theorem nothing_shared (edit : Edit α) (inPlace : edit.inPlace = true) :
    edit.windows = [] ∧ ∀ own others, edit.Fits own others := by
  cases edit <;> simp only [Edit.inPlace, Bool.false_eq_true] at inPlace
  all_goals exact ⟨rfl, fun _ _ => trivial⟩

/-- What an edit relies on may be alive beside more. -/
theorem Fits.widen {edit : Edit α} {own others more : List Segment} (fits : edit.Fits own others)
    (kept : others ⊆ more) : edit.Fits own more := by
  cases edit
  case appendBuffer other =>
    intro s here
    exact (List.mem_append.1 (fits here)).elim (List.mem_append_left _)
      fun beside => List.mem_append_right _ (kept beside)
  case substitute opening closing provider =>
    obtain ⟨relied, alive, fair⟩ := fits
    exact ⟨relied, fun s here => kept (alive here), fair⟩
  all_goals exact trivial

end Edit

variable {α : Type} {st : Store α} {others : List Segment}

/-- A write that is done or refused as a whole leaves the windows of the object where they are. -/
theorem hosts_written {ω : Type} (live : ω → List Segment) {object : ω}
    {r : Except Fault (Store α)} (hosts : st.Hosts (live object))
    (done : ∀ st', r = .ok st' → st'.Hosts (live object)) :
    (Edited.written object st r).store.Hosts (live (Edited.written object st r).object) := by
  cases r with
  | ok st' => exact done st' rfl
  | error fault => exact hosts

theorem hosts_mapped {ω : Type} (live : ω → List Segment) {object : ω}
    {r : Store α × Option Fault} (hosts : r.1.Hosts (live object)) :
    (Edited.mapped object r).store.Hosts (live (Edited.mapped object r).object) := by
  obtain ⟨st', none | fault⟩ := r
  · exact hosts
  · exact hosts

/-- A write that is done or refused as a whole leaves a cell as it is, if it does so when it is
done. -/
theorem unit?_written {ω : Type} {object : ω} {r : Except Fault (Store α)} {c : Cell}
    (done : ∀ st', r = .ok st' → st'.unit? c = st.unit? c) :
    (Edited.written object st r).store.unit? c = st.unit? c := by
  cases r with
  | ok st' => exact done st' rfl
  | error fault => rfl

theorem store_mapped {ω : Type} (object : ω) (r : Store α × Option Fault) :
    (Edited.mapped object r).store = r.1 := by
  obtain ⟨st', none | fault⟩ := r <;> rfl

variable [TextUnit α]

/-! ## Segments -/

section

variable {s : Segment} {around : Surroundings} {edit : Edit α} {r : Edited Segment α Reply}

theorem Segment.undisturbed_apply (hosts : st.Hosts (s :: others)) (covers : around.Covers others)
    (calm : edit.inPlace = false) (done : s.apply around st edit = some r) :
    Undisturbed others st [r.object] r.store := by
  cases edit <;> simp only [Segment.apply, reduceCtorEq, Option.some.injEq] at done <;> subst done
  case append u => exact undisturbed_append around hosts u
  case appendSlice units => exact undisturbed_appendSlice around hosts units
  case appendText text => exact undisturbed_appendText around hosts text
  case setAt => cases calm
  case replaceUnit => cases calm
  case lowerCase => cases calm
  case upperCase => cases calm
  case removeStart count => exact .refl (hosts_removeStart hosts count)
  case removeEnd count => exact .refl (hosts_removeEnd hosts covers count)
  case trimStart => exact .refl (hosts_trimStart hosts)
  case trimEnd => exact .refl (hosts_trimEnd hosts covers)
  case trim => exact .refl (hosts_trim hosts covers)
  case compact => exact undisturbed_compact hosts

theorem Segment.hosts_apply (hosts : st.Hosts (s :: others)) (covers : around.Covers others)
    (done : s.apply around st edit = some r) : r.store.Hosts (r.object :: others) := by
  cases calm : edit.inPlace with
  | false => exact (undisturbed_apply hosts covers calm done).hosts
  | true =>
      cases edit <;> simp only [Edit.inPlace, Bool.false_eq_true] at calm <;>
        simp only [Segment.apply, Option.some.injEq] at done <;> subst done
      case setAt i u => exact hosts_written (· :: others) hosts fun _ => hosts_setAt hosts
      case replaceUnit => exact hosts_written (· :: others) hosts fun _ => hosts_mapUnits hosts
      case lowerCase => exact hosts_written (· :: others) hosts fun _ => hosts_mapUnits hosts
      case upperCase => exact hosts_written (· :: others) hosts fun _ => hosts_mapUnits hosts

end

/-! ## Buffers -/

section

variable {b : Buffer} {around : Surroundings} {edit : Edit α}

theorem Buffer.undisturbed_apply (hosts : st.Hosts (edit.windows ++ (b.segments ++ others)))
    (fits : edit.Fits b.segments others) (covers : around.Covers others)
    (calm : edit.inPlace = false) :
    Undisturbed others st (b.apply around st edit).object.segments
      (b.apply around st edit).store := by
  have own : st.Hosts (b.segments ++ others) := hosts.right
  cases edit with
  | append u =>
      exact undisturbed_whole own fun made done => undisturbed_append around own done
  | appendSlice units => exact undisturbed_appendSlice around own units
  | appendText text => exact undisturbed_appendText around own text
  | extend units => exact undisturbed_extend around own units
  | appendSegment s =>
      exact undisturbed_wholeObject own fun b' done => hosts_appendSegment hosts done
  | appendBuffer other =>
      exact undisturbed_wholeObject own fun b' done =>
        hosts_appendBuffer own (views_shared own fits) done
  | prepend u =>
      exact undisturbed_whole own fun made done => undisturbed_prepend own done
  | prependSegment s =>
      exact undisturbed_wholeObject own fun b' done => hosts_prependSegment hosts done
  | setAt => cases calm
  | replaceUnit => cases calm
  | lowerCase => cases calm
  | upperCase => cases calm
  | removeStart count => exact .refl (hosts_removeStart own count)
  | removeEnd count => exact .refl (hosts_removeEnd covers own count)
  | trimStart => exact .refl (hosts_trimStart own)
  | trimEnd => exact .refl (hosts_trimEnd covers own)
  | trim => exact .refl (hosts_trim covers own)
  | compact => exact undisturbed_compact own
  | clear => exact .refl (Store.Hosts.right own)
  | replaceRange start stop r => exact undisturbed_replaceRange hosts start stop
  | replaceAll search replacement => exact undisturbed_replaceAll own search replacement
  | substitute opening closing provider =>
      obtain ⟨relied, alive, fair⟩ := fits
      exact undisturbed_substitute opening closing fair alive own

theorem Buffer.hosts_apply (hosts : st.Hosts (edit.windows ++ (b.segments ++ others)))
    (fits : edit.Fits b.segments others) (covers : around.Covers others) :
    (b.apply around st edit).store.Hosts ((b.apply around st edit).object.segments ++ others) := by
  have own : st.Hosts (b.segments ++ others) := hosts.right
  cases calm : edit.inPlace with
  | false => exact (undisturbed_apply hosts fits covers calm).hosts
  | true =>
      cases edit <;> simp only [Edit.inPlace, Bool.false_eq_true] at calm
      case setAt i u =>
        exact hosts_written (fun b : Buffer => b.segments ++ others) own fun _ => hosts_setAt own
      case replaceUnit =>
        exact hosts_mapped (fun b : Buffer => b.segments ++ others)
          (hosts_mapEachSegment own b.segments)
      case lowerCase =>
        exact hosts_mapped (fun b : Buffer => b.segments ++ others)
          (hosts_mapEachSegment own b.segments)
      case upperCase =>
        exact hosts_mapped (fun b : Buffer => b.segments ++ others)
          (hosts_mapEachSegment own b.segments)

end

/-! ## Bounded buffers -/

namespace Bounded

variable {b : Bounded} {around : Surroundings}

/-- The windows of a bounded buffer. -/
def segments (b : Bounded) : List Segment := b.inner.segments

omit [TextUnit α] in
theorem hosts_truncate (hosts : st.Hosts (b.segments ++ others)) (covers : around.Covers others) :
    st.Hosts ((b.truncate around).segments ++ others) := by
  unfold truncate
  split
  next => exact Buffer.hosts_removeEnd covers hosts _
  next => exact hosts

omit [TextUnit α] in
/-- Counting what was appended leaves the result of the append as it is. -/
theorem undisturbed_counting {added : Nat} {r : Edited Buffer α Unit}
    (appended : Undisturbed others st r.object.segments r.store) :
    Undisturbed others st (b.counting added r).object.segments (b.counting added r).store := by
  unfold counting
  split <;> exact appended

omit [TextUnit α] in
theorem undisturbed_admitting {change : Nat → Edited Bounded α Unit}
    (hosts : st.Hosts (b.segments ++ others))
    (changed : ∀ budget, Undisturbed others st (change budget).object.segments
      (change budget).store) :
    Undisturbed others st (b.admitting st change).object.segments
      (b.admitting st change).store := by
  unfold admitting
  split
  next => exact changed _
  next => exact .refl hosts

omit [TextUnit α] in
theorem undisturbed_truncating {r : Edited Bounded α Unit} (covers : around.Covers others)
    (changed : Undisturbed others st r.object.segments r.store) :
    Undisturbed others st (truncating around r).object.segments (truncating around r).store := by
  unfold truncating
  split
  next => exact ⟨hosts_truncate changed.hosts covers, changed.keeps, changed.size_le⟩
  next => exact changed

/-! ### Appending within the budget -/

theorem undisturbed_append (around : Surroundings) (hosts : st.Hosts (b.segments ++ others))
    (u : α) :
    Undisturbed others st (b.append around u st).object.segments (b.append around u st).store := by
  unfold append
  split
  next => exact .refl hosts
  next =>
    exact undisturbed_counting (Buffer.undisturbed_whole hosts fun made done =>
      Buffer.undisturbed_append around hosts done)

theorem undisturbed_appendEach (around : Surroundings) (hosts : st.Hosts (b.segments ++ others))
    (units : List α) :
    Undisturbed others st (b.appendEach around units st).object.segments
      (b.appendEach around units st).store := by
  induction units generalizing b st with
  | nil => exact .refl hosts
  | cons u us ih =>
      have first := undisturbed_append around hosts u
      rw [appendEach]
      split
      next => exact first.trans (ih first.hosts)
      next => exact first

omit [TextUnit α] in
/-- What is admitted of a segment takes its place. -/
theorem hosts_admitted {s : Segment} {live : List Segment} (hosts : st.Hosts (s :: live))
    (budget : Nat) :
    st.Hosts ((if budget < s.length then s.window 0 budget else s) :: live) := by
  split
  next more =>
    have valid := (hosts.placed s List.mem_cons_self).valid.start_le_stop
    have view := Segment.views_window (Nat.zero_le budget) (Nat.le_of_lt more) valid
    exact (hosts.view List.mem_cons_self view).subperm
      ((List.sublist_cons_self s _).cons_cons _).subperm
  next => exact hosts

omit [TextUnit α] in
theorem undisturbed_appendSegment {s : Segment}
    (hosts : st.Hosts (s :: (b.segments ++ others))) :
    Undisturbed others st (b.appendSegment s st).object.segments (b.appendSegment s st).store := by
  have own : st.Hosts (b.segments ++ others) := (Store.Hosts.cons_iff.1 hosts).2.1
  refine undisturbed_admitting own fun budget => ?_
  dsimp only
  split
  next inner done => exact .refl (Buffer.hosts_appendSegment (hosts_admitted hosts budget) done)
  next => exact .refl own

omit [TextUnit α] in
theorem undisturbed_appendBuffer {other : Buffer} (hosts : st.Hosts (b.segments ++ others))
    (alive : other.segments ⊆ b.segments ++ others) :
    Undisturbed others st (b.appendBuffer other st).object.segments
      (b.appendBuffer other st).store := by
  refine undisturbed_admitting hosts fun budget => ?_
  split
  next =>
    exact undisturbed_counting (Buffer.undisturbed_wholeObject hosts fun b' done =>
      Buffer.hosts_appendBuffer hosts (Buffer.views_shared hosts alive) done)
  next =>
    exact undisturbed_counting (Buffer.undisturbed_wholeObject hosts fun b' done =>
      Buffer.hosts_appendBuffer hosts (Buffer.views_shared_part hosts alive 0 budget) done)

/-! ### Changes that may overflow -/

omit [TextUnit α] in
theorem undisturbed_replaceRange {r : Buffer}
    (hosts : st.Hosts (r.segments ++ (b.segments ++ others))) (covers : around.Covers others)
    (start stop : Nat) :
    Undisturbed others st (b.replaceRange around start stop r st).object.segments
      (b.replaceRange around start stop r st).store := by
  have changed := Buffer.undisturbed_replaceRange hosts start stop
  unfold replaceRange
  dsimp only
  split
  next =>
    split
    next => exact changed
    next => exact ⟨hosts_truncate changed.hosts covers, changed.keeps, changed.size_le⟩
  next => exact changed

theorem undisturbed_replaceAll (hosts : st.Hosts (b.segments ++ others))
    (covers : around.Covers others) (search replacement : List α) :
    Undisturbed others st (b.replaceAll around search replacement st).object.segments
      (b.replaceAll around search replacement st).store := by
  have changed := Buffer.undisturbed_replaceAll hosts search replacement
  unfold replaceAll
  dsimp only
  split
  next =>
    split
    next => exact changed
    next => exact ⟨hosts_truncate changed.hosts covers, changed.keeps, changed.size_le⟩
  next => exact changed

theorem undisturbed_substitute (opening closing : List α) {provider : Provider α}
    {relied : List Segment} (fair : provider.Fair relied) (alive : relied ⊆ others)
    (hosts : st.Hosts (b.segments ++ others)) (covers : around.Covers others) :
    Undisturbed others st (b.substitute around opening closing provider st).object.segments
      (b.substitute around opening closing provider st).store := by
  have changed := Buffer.undisturbed_substitute opening closing fair alive hosts
  unfold substitute
  dsimp only
  split
  next => exact ⟨hosts_truncate changed.hosts covers, changed.keeps, changed.size_le⟩
  next => exact changed

/-! ### All edits -/

theorem undisturbed_apply {edit : Edit α}
    (hosts : st.Hosts (edit.windows ++ (b.segments ++ others)))
    (fits : edit.Fits b.segments others) (covers : around.Covers others)
    (calm : edit.inPlace = false) :
    Undisturbed others st (b.apply around st edit).object.segments
      (b.apply around st edit).store := by
  have own : st.Hosts (b.segments ++ others) := hosts.right
  cases edit with
  | append u => exact undisturbed_append around own u
  | appendSlice units =>
      exact undisturbed_admitting own fun budget =>
        undisturbed_counting (Buffer.undisturbed_appendSlice around own _)
  | appendText text =>
      exact undisturbed_admitting own fun budget =>
        undisturbed_counting (Buffer.undisturbed_appendText around own _)
  | extend units =>
      exact undisturbed_admitting own fun budget => undisturbed_appendEach around own _
  | appendSegment s => exact undisturbed_appendSegment hosts
  | appendBuffer other => exact undisturbed_appendBuffer own fits
  | prepend u =>
      show Undisturbed others st (b.prepend around u st).object.segments
        (b.prepend around u st).store
      unfold prepend
      split
      next => exact .refl own
      next =>
        exact undisturbed_truncating covers (undisturbed_counting
          (Buffer.undisturbed_whole own fun made done => Buffer.undisturbed_prepend own done))
  | prependSegment s =>
      exact undisturbed_truncating covers (undisturbed_counting
        (Buffer.undisturbed_wholeObject own fun b' done => Buffer.hosts_prependSegment hosts done))
  | setAt => cases calm
  | replaceUnit => cases calm
  | lowerCase => cases calm
  | upperCase => cases calm
  | removeStart count => exact .refl (Buffer.hosts_removeStart own count)
  | removeEnd count => exact .refl (Buffer.hosts_removeEnd covers own count)
  | trimStart => exact .refl (Buffer.hosts_trimStart own)
  | trimEnd => exact .refl (Buffer.hosts_trimEnd covers own)
  | trim => exact .refl (Buffer.hosts_trim covers own)
  | compact => exact Buffer.undisturbed_compact own
  | clear => exact .refl (Store.Hosts.right own)
  | replaceRange start stop r => exact undisturbed_replaceRange hosts covers start stop
  | replaceAll search replacement => exact undisturbed_replaceAll own covers search replacement
  | substitute opening closing provider =>
      obtain ⟨relied, alive, fair⟩ := fits
      exact undisturbed_substitute opening closing fair alive own covers

theorem hosts_apply {edit : Edit α} (hosts : st.Hosts (edit.windows ++ (b.segments ++ others)))
    (fits : edit.Fits b.segments others) (covers : around.Covers others) :
    (b.apply around st edit).store.Hosts ((b.apply around st edit).object.segments ++ others) := by
  have own : st.Hosts (b.segments ++ others) := hosts.right
  cases calm : edit.inPlace with
  | false => exact (undisturbed_apply hosts fits covers calm).hosts
  | true =>
      cases edit <;> simp only [Edit.inPlace, Bool.false_eq_true] at calm
      case setAt i u =>
        exact hosts_written (fun b : Bounded => b.segments ++ others) own fun _ =>
          Buffer.hosts_setAt own
      case replaceUnit =>
        exact hosts_mapped (fun b : Bounded => b.segments ++ others)
          (Buffer.hosts_mapEachSegment own b.segments)
      case lowerCase =>
        exact hosts_mapped (fun b : Bounded => b.segments ++ others)
          (Buffer.hosts_mapEachSegment own b.segments)
      case upperCase =>
        exact hosts_mapped (fun b : Bounded => b.segments ++ others)
          (Buffer.hosts_mapEachSegment own b.segments)

end Bounded

/-! ## Objects -/

namespace Object

variable {o : Object} {around : Surroundings} {edit : Edit α} {r : Edited Object α Reply}

/-- No window that is alive beside an object can tell that the object was edited, unless the edit
was one in place. -/
theorem undisturbed_apply (hosts : st.Hosts (edit.windows ++ (o.segments ++ others)))
    (fits : edit.Fits o.segments others) (covers : around.Covers others)
    (calm : edit.inPlace = false) (done : o.apply around st edit = some r) :
    Undisturbed others st r.object.segments r.store := by
  cases o with
  | segment s =>
      obtain ⟨edited, applied, rfl⟩ := Option.map_eq_some_iff.1 done
      exact Segment.undisturbed_apply (Store.Hosts.right hosts) covers calm applied
  | buffer b =>
      cases done
      exact Buffer.undisturbed_apply hosts fits covers calm
  | bounded b =>
      cases done
      exact Bounded.undisturbed_apply hosts fits covers calm

/-- An edited object and everything beside it are hosted. -/
theorem hosts_apply (hosts : st.Hosts (edit.windows ++ (o.segments ++ others)))
    (fits : edit.Fits o.segments others) (covers : around.Covers others)
    (done : o.apply around st edit = some r) : r.store.Hosts (r.object.segments ++ others) := by
  cases o with
  | segment s =>
      obtain ⟨edited, applied, rfl⟩ := Option.map_eq_some_iff.1 done
      exact Segment.hosts_apply (Store.Hosts.right hosts) covers applied
  | buffer b =>
      cases done
      exact Buffer.hosts_apply hosts fits covers
  | bounded b =>
      cases done
      exact Bounded.hosts_apply hosts fits covers

/-- Text that is overwritten where it is leaves every cell that the object does not reach. -/
theorem unit?_apply_of_inPlace {c : Cell} (inPlace : edit.inPlace = true)
    (ordered : ∀ s ∈ o.segments, s.stop ≤ s.limit) (clear : ∀ s ∈ o.segments, ¬s.Reaches c)
    (done : o.apply around st edit = some r) : r.store.unit? c = st.unit? c := by
  have mapped : ∀ {ω : Type} (object : ω) (f : α → α),
      (Edited.mapped object (mapEachSegment around f o.segments st)).store.unit? c =
        st.unit? c := fun object f => by
    rw [store_mapped]
    exact Buffer.unit?_mapEachSegment_of_not_reaches ordered clear
  cases o with
  | segment s =>
      have inside := ordered s List.mem_cons_self
      have away := clear s List.mem_cons_self
      obtain ⟨edited, applied, rfl⟩ := Option.map_eq_some_iff.1 done
      cases edit <;> simp only [Edit.inPlace, Bool.false_eq_true] at inPlace
      case setAt =>
        cases applied
        exact unit?_written fun _ => Segment.unit?_setAt_of_not_reaches inside away
      all_goals
        cases applied
        exact unit?_written fun _ => Segment.unit?_mapUnits_of_not_reaches inside away
  | buffer b =>
      cases done
      cases edit <;> simp only [Edit.inPlace, Bool.false_eq_true] at inPlace
      case setAt =>
        exact unit?_written fun _ => Buffer.unit?_setAt_of_not_reaches ordered clear
      all_goals exact mapped b _
  | bounded b =>
      cases done
      cases edit <;> simp only [Edit.inPlace, Bool.false_eq_true] at inPlace
      case setAt =>
        exact unit?_written fun _ => Buffer.unit?_setAt_of_not_reaches ordered clear
      all_goals exact mapped b _

end Object

end SegmentedText
