import Mathlib.Algebra.Group.Nat.Defs
import SegmentedText.Proofs.Bounded.Counts

/-!
# Worlds without bounds

A world can be compared with the one in which an object is taken out of its bounds
(`World.unbounded`).  All else is the same there, so an action resolves its arguments to
the same edit, and the edit meets the same surroundings.

The main statement is about every world that is reached without an edit of a bounded
buffer that is refused for want of room.  There the count of a bounded buffer is the
number of its units and within the bounds, and every edit gives the answer and the text
that it gives without them, but that the text is cut to the maximum
(`World.bounded_refines`).  Room is a true exception (`World.staleCount`).
-/

set_option autoImplicit false

namespace SegmentedText

/-- The object out of its bounds. -/
def Object.unbounded : Object → Object
  | .bounded b => .buffer b.inner
  | o => o

namespace Object

@[simp] theorem segment?_unbounded (o : Object) : o.unbounded.segment? = o.segment? := by
  cases o <;> rfl

@[simp] theorem buffer?_unbounded (o : Object) : o.unbounded.buffer? = o.buffer? := by
  cases o <;> rfl

@[simp] theorem segmentAt?_unbounded (o : Object) (i : Nat) :
    o.unbounded.segmentAt? i = o.segmentAt? i := by
  cases o <;> rfl

end Object

/-! ## Replies that show buffers -/

namespace Edited

variable {ω α : Type}

/-- The answer does not depend on a store. -/
def Plain (r : Edited ω α Reply) : Prop := ∀ texts, r.answer ≠ .ok (.enclosed texts)

theorem plain_silent (r : Edited ω α Unit) : r.silent.Plain := by
  obtain ⟨object, st, answer⟩ := r
  cases answer <;> exact nofun

theorem plain_written (object : ω) (st : Store α) (r : Except Fault (Store α)) :
    (written object st r).Plain := by
  cases r <;> exact nofun

theorem plain_mapped (object : ω) (r : Store α × Option Fault) : (mapped object r).Plain := by
  obtain ⟨st, none | fault⟩ := r <;> exact nofun

theorem plain_count (r : Edited ω α Nat) : (r.mapAnswer Reply.count).Plain := by
  obtain ⟨object, st, answer⟩ := r
  cases answer <;> exact nofun

theorem Plain.answer_eq [TextUnit α] {r : Edited ω α Reply} (plain : r.Plain) (st st' : Store α) :
    Answer.ofExcept (Reply.answer st) r.answer = Answer.ofExcept (Reply.answer st') r.answer := by
  obtain ⟨object, own, answer⟩ := r
  cases answer with
  | error fault => rfl
  | ok reply =>
      cases reply with
      | done => rfl
      | count n => rfl
      | enclosed texts => exact absurd rfl (plain texts)

end Edited

namespace Bounded

variable {α : Type} [TextUnit α]

/-- The buffers that an edit shows are shown in the same store as without bounds. -/
theorem store_substitute (b : Bounded) (around : Surroundings) (opening closing : List α)
    (provider : Provider α) (st : Store α) :
    (b.substitute around opening closing provider st).store =
      (b.inner.substitute opening closing provider st).store := by
  unfold substitute
  dsimp only
  split <;> rfl

theorem plain_apply (b : Bounded) (around : Surroundings) (st : Store α) (edit : Edit α) :
    (b.apply around st edit).Plain ∨
      (b.apply around st edit).store = (b.inner.apply around st edit).store := by
  cases edit
  case setAt i u => exact .inl (Edited.plain_written _ _ _)
  case replaceUnit old new => exact .inl (Edited.plain_mapped _ _)
  case lowerCase => exact .inl (Edited.plain_mapped _ _)
  case upperCase => exact .inl (Edited.plain_mapped _ _)
  case replaceAll search replacement => exact .inl (Edited.plain_count _)
  case substitute opening closing provider =>
    exact .inr (b.store_substitute around opening closing provider st)
  case removeStart | removeEnd | trimStart | trimEnd | trim | compact | clear => exact .inl nofun
  all_goals exact .inl (Edited.plain_silent _)

/-- What is told of an edit is what is told of it without bounds. -/
theorem told_apply {b : Bounded} {around : Surroundings} {st : Store α} {edit : Edit α}
    (same : (b.apply around st edit).answer = (b.inner.apply around st edit).answer) :
    Answer.ofExcept (Reply.answer (b.apply around st edit).store) (b.apply around st edit).answer =
      Answer.ofExcept (Reply.answer (b.inner.apply around st edit).store)
        (b.inner.apply around st edit).answer := by
  rcases b.plain_apply around st edit with plain | shown
  · rw [plain.answer_eq _ (b.inner.apply around st edit).store, same]
  · rw [shown, same]

end Bounded

namespace World

variable {α : Type} {w : World α} {name : String} {b : Bounded}

/-- The world in which the object in a register is out of its bounds. -/
def unbounded (w : World α) (name : String) : World α :=
  { w with
    registers := w.registers.map fun entry =>
      (entry.1, if entry.1 = name then entry.2.unbounded else entry.2) }

/-! ## What is the same without bounds -/

theorem get?_unbounded (w : World α) (name other : String) :
    (w.unbounded name).get? other =
      (w.get? other).map fun o => if other = name then o.unbounded else o := by
  simp only [get?, unbounded]
  induction w.registers with
  | nil => rfl
  | cons entry rest ih =>
      obtain ⟨first, o⟩ := entry
      rw [List.map_cons, List.lookup_cons, List.lookup_cons]
      by_cases same : other = first
      · subst same
        rw [beq_self_eq_true]
        rfl
      · rw [beq_eq_false_iff_ne.2 same]
        exact ih

theorem erase_unbounded (w : World α) (name other : String) :
    (w.unbounded name).erase other = (w.erase other).unbounded name := by
  simp only [erase, unbounded, List.filter_map]
  rfl

theorem unbounded_erase (w : World α) (name : String) :
    (w.erase name).unbounded name = w.erase name := by
  have kept : ∀ entry ∈ w.registers.filter (·.1 != name),
      (entry.1, if entry.1 = name then entry.2.unbounded else entry.2) = entry := by
    intro entry here
    have other : entry.1 ≠ name := by simpa using (List.mem_filter.1 here).2
    rw [if_neg other]
  simp only [erase, unbounded, List.map_congr_left kept, List.map_id']

/-! ## With and without bounds -/

/-- What an action leaves with an object in its bounds is what it leaves without them, cut to the
maximum.  Whatever else the action does, the count does not get in its way. -/
structure Cut (name : String) (maxSize : Nat) (r u : World α × Answer) : Prop where
  countable : r.2 ≠ .fault .countExceeded ∧ r.2 ≠ .fault .budgetExceeded
  answer : u.2 ≠ .fault .roomExceeded → r.2 = u.2
  content : u.2 ≠ .fault .roomExceeded → ∃ b v, r.1.get? name = some (.bounded b) ∧
    u.1.get? name = some (.buffer v) ∧ b.maxSize = maxSize ∧
    b.inner.content r.1.store = (v.content u.1.store).take maxSize

theorem get?_unbounded_self (there : w.get? name = some (.bounded b)) :
    (w.unbounded name).get? name = some (.buffer b.inner) := by
  rw [get?_unbounded, there, Option.map_some, if_pos rfl]
  rfl

/-- Where nothing happens to an object, nothing is cut. -/
theorem cut_malformed {r u : World α} (inside : r.get? name = some (.bounded b))
    (outside : u.get? name = some (.buffer b.inner)) (same : u.store = r.store)
    (valid : b.inner.Valid r.store) (counted : b.Counted) :
    Cut name b.maxSize (r, .malformed) (u, .malformed) := by
  refine ⟨⟨nofun, nofun⟩, fun _ => rfl, fun _ => ⟨b, b.inner, inside, outside, rfl, ?_⟩⟩
  rw [same]
  refine (List.take_of_length_le ?_).symm
  rw [counted.length_content valid]
  exact counted.size_le

/-- What was set aside or lent out on the way does not show. -/
theorem Cut.restore {maxSize : Nat} {r u : World α × Answer} (cut : Cut name maxSize r u)
    (aside aside' : List Segment) (lent lent' : List StorageId) :
    Cut name maxSize ({ r.1 with aside, lent }, r.2)
      ({ u.1 with aside := aside', lent := lent' }, u.2) := ⟨cut.countable, cut.answer, cut.content⟩

/-- An object that is put into another register does not show either. -/
theorem Cut.put {maxSize : Nat} {r u : World α × Answer} (cut : Cut name maxSize r u)
    {source : String} (other : name ≠ source) (o : Object) :
    Cut name maxSize (r.1.put source o, r.2) (u.1.put source o, u.2) := by
  refine ⟨cut.countable, cut.answer, fun room => ?_⟩
  obtain ⟨b, v, inside, outside, same, content⟩ := cut.content room
  refine ⟨b, v, ?_, ?_, same, content⟩
  · rw [get?_put, if_neg other]
    exact inside
  · rw [get?_put, if_neg other]
    exact outside

/-! ## Resolving arguments -/

theorem takeSegment?_unbounded (w : World α) (name source : String) (move : Bool) :
    (w.unbounded name).takeSegment? source move =
      (w.takeSegment? source move).map fun taken => (taken.1, taken.2.unbounded name) := by
  unfold takeSegment?
  rw [get?_unbounded]
  cases w.get? source with
  | none => rfl
  | some o =>
      have same : (if source = name then o.unbounded else o).segment? = o.segment? := by
        split
        next => exact o.segment?_unbounded
        next => rfl
      simp only [Option.map_some, Option.bind_eq_bind, Option.bind_some, same]
      cases o.segment? with
      | none => rfl
      | some s => cases move <;> simp [erase_unbounded]

theorem buffer?_get?_unbounded (w : World α) (name source : String) :
    ((w.unbounded name).get? source).bind Object.buffer? = (w.get? source).bind Object.buffer? := by
  rw [get?_unbounded]
  cases w.get? source with
  | none => rfl
  | some o =>
      show (if source = name then o.unbounded else o).buffer? = o.buffer?
      split
      next => exact o.buffer?_unbounded
      next => rfl

theorem takeBuffer?_unbounded {source : String} {move : Bool}
    (other : ¬(move = true ∧ name = source)) :
    (w.unbounded name).takeBuffer? source move =
      (w.takeBuffer? source move).map fun taken => (taken.1, taken.2.unbounded name) := by
  unfold takeBuffer?
  rw [get?_unbounded]
  cases w.get? source with
  | none => rfl
  | some o =>
      simp only [Option.map_some, Option.bind_eq_bind, Option.bind_some]
      cases move with
      | true =>
          have apart : source ≠ name := fun same => other ⟨rfl, same.symm⟩
          rw [if_neg apart]
          cases o.plainBuffer? <;> simp [erase_unbounded]
      | false =>
          have same : (if source = name then o.unbounded else o).buffer? = o.buffer? := by
            split
            next => exact o.buffer?_unbounded
            next => rfl
          rw [same]
          cases o.buffer? <;> simp

theorem segmentAt?_get?_unbounded (w : World α) (name source : String) (i : Nat) :
    ((w.unbounded name).get? source).bind (·.segmentAt? i) =
      (w.get? source).bind (·.segmentAt? i) := by
  rw [get?_unbounded]
  cases w.get? source with
  | none => rfl
  | some o =>
      show (if source = name then o.unbounded else o).segmentAt? i = o.segmentAt? i
      split
      next => exact o.segmentAt?_unbounded i
      next => rfl

variable [TextUnit α]

/-- The arguments of a change are the same without bounds, unless the object is used up itself. -/
theorem edit?_unbounded {change : Change} (unused : ¬change.Uses name) :
    (w.unbounded name).edit? change =
      (w.edit? change).map fun found => (found.1, found.2.unbounded name) := by
  cases change
  case appendSegment source move =>
    simp only [edit?, takeSegment?_unbounded]
    cases w.takeSegment? source move <;> rfl
  case prependSegment source move =>
    simp only [edit?, takeSegment?_unbounded]
    cases w.takeSegment? source move <;> rfl
  case appendBuffer source =>
    have same := buffer?_get?_unbounded w name source
    simp only [edit?, Option.bind_eq_bind, ← Option.bind_assoc]
    rw [same]
    cases (w.get? source).bind Object.buffer? <;> rfl
  case appendWindow source i =>
    have same := segmentAt?_get?_unbounded w name source i
    simp only [edit?, lentWindow?, Option.bind_eq_bind, ← Option.bind_assoc]
    rw [same]
    cases (w.get? source).bind (·.segmentAt? i) <;> rfl
  case replaceRange start stop replacement =>
    cases replacement with
    | register source move =>
        simp only [edit?, replacement?, takeBuffer?_unbounded unused]
        cases w.takeBuffer? source move <;> rfl
    | text text form => rfl
  case substitute opening closing values =>
    cases values with
    | table entries fallback form => rfl
    | same => rfl
    | register source =>
        have same := buffer?_get?_unbounded w name source
        simp only [edit?, provider?, Option.bind_eq_bind, ← Option.bind_assoc]
        rw [same]
        cases (w.get? source).bind Object.buffer? <;> rfl
  all_goals rfl

/-! ## Edits -/

/-- Putting a result back where only the room can have been wanting. -/
theorem cut_putEdited {maxSize : Nat} {r : Edited Bounded α Reply} {u : Edited Buffer α Reply}
    (refines : Bounded.Refines maxSize r u)
    (told : r.answer = u.answer → Answer.ofExcept (Reply.answer r.store) r.answer =
      Answer.ofExcept (Reply.answer u.store) u.answer) :
    Cut name maxSize (w.putEdited name (r.mapObject .bounded))
      (w.putEdited name (u.mapObject .buffer)) := by
  have faults : ∀ {st : Store α} {answer : Except Fault Reply} {fault : Fault},
      Answer.ofExcept (Reply.answer st) answer = .fault fault ↔ answer = .error fault := by
    intro st answer fault
    cases answer with
    | ok reply => cases reply <;> simp [Answer.ofExcept, Reply.answer]
    | error refusal => simp [Answer.ofExcept]
  refine ⟨⟨mt faults.1 refines.countable.1, mt faults.1 refines.countable.2⟩, fun room => ?_,
    fun room => ⟨r.object, u.object, ?_, ?_, refines.maxSize_eq, ?_⟩⟩
  · exact told (refines.answer (mt faults.2 room))
  · exact (get?_put ..).trans (if_pos rfl)
  · exact (get?_put ..).trans (if_pos rfl)
  · exact refines.content (mt faults.2 room)

/-- Applying an edit to an object in its bounds. -/
theorem cut_applyEdit {edit : Edit α} (hosts : w.store.Hosts (edit.windows ++ w.alive))
    (fits : edit.Fits b.inner.segments (w.erase name).alive)
    (there : w.get? name = some (.bounded b)) (made : w.LendsMade) (counted : b.Counted) :
    ∃ r u, w.applyEdit name edit = some r ∧ (w.unbounded name).applyEdit name edit = some u ∧
      Cut name b.maxSize r u := by
  have covers : (w.erase name).surroundings.Covers (w.erase name).alive :=
    Surroundings.covers_of_alive (List.Subset.refl _)
  have inside : w.applyEdit name edit = some ((w.erase name).putEdited name
      ((b.apply (w.erase name).surroundings w.store edit).mapObject .bounded)) := by
    simp only [applyEdit, take?, there]
    rfl
  have outside : (w.unbounded name).applyEdit name edit = some ((w.erase name).putEdited name
      ((b.inner.apply (w.erase name).surroundings w.store edit).mapObject .buffer)) := by
    simp only [applyEdit, take?, get?_unbounded_self there, erase_unbounded, unbounded_erase]
    rfl
  have refines := Bounded.refines_apply (hosts_taken hosts there) fits covers made counted
  exact ⟨_, _, inside, outside, cut_putEdited refines Bounded.told_apply⟩

/-! ## All actions -/

/-- Bounded buffers have no changes that other objects do not have. -/
theorem changeSpecial_bounded (w : World α) (target : String) (b : Bounded) (change : Change) :
    w.changeSpecial target (.bounded b) change = (w.put target (.bounded b), .malformed) := by
  cases change <;> rfl

theorem changeSpecial_buffer (w : World α) (target : String) (b : Buffer) {change : Change}
    (shared : ∀ source, change ≠ .appendOwned source) :
    w.changeSpecial target (.buffer b) change = (w.put target (.buffer b), .malformed) := by
  cases change
  case appendOwned source => exact absurd rfl (shared source)
  all_goals rfl

theorem cut_change (sound : w.Sound) (made : w.LendsMade) (there : w.get? name = some (.bounded b))
    (counted : b.Counted) {change : Change} (unused : ¬change.Uses name)
    (shared : ∀ source, change ≠ .appendOwned source) :
    Cut name b.maxSize (w.change name change) ((w.unbounded name).change name change) := by
  have valid : b.inner.Valid w.store := Buffer.valid_of_hosts sound (subset_alive_of_get? there)
  have inside := take?_of_get? there
  have outside : (w.unbounded name).take? name = some (.buffer b.inner, w.erase name) := by
    rw [take?, get?_unbounded_self there, erase_unbounded, unbounded_erase]
    rfl
  unfold World.change
  rw [inside, outside, edit?_unbounded unused]
  cases found : w.edit? change with
  | none =>
      simp only [Option.map_none, changeSpecial_bounded, changeSpecial_buffer _ _ _ shared]
      refine cut_malformed ?_ ?_ rfl valid counted
      · rw [get?_put, if_pos rfl]
      · rw [get?_put, if_pos rfl]
  | some entry =>
      obtain ⟨edit, resolved⟩ := entry
      have resolves : Resolves change.Uses False w change edit resolved :=
        resolves_edit? sound (fun _ uses => uses) found
      have still := (resolves.underway.same name unused).trans there
      obtain ⟨r, u, done, done', cut⟩ := cut_applyEdit resolves.underway.hosts
        (resolves.fits name _ still) still (made.resolved sound found) counted
      simp only [Option.map_some, done, done']
      exact cut.restore _ _ _ _

theorem cut_step (sound : w.Sound) (made : w.LendsMade) (there : w.get? name = some (.bounded b))
    (counted : b.Counted) {step : Step} (edits : step.Edits name) :
    Cut name b.maxSize (w.step step) ((w.unbounded name).step step) := by
  induction step generalizing w with
  | change target change =>
      obtain ⟨rfl, unused, shared⟩ := edits
      exact cut_change sound made there counted unused shared
  | lend source i inner ih =>
      obtain ⟨edits, other⟩ := edits
      have same := segmentAt?_get?_unbounded w name source i
      cases found : (w.get? source).bind (·.segmentAt? i) with
      | none =>
          rw [step_lend_of_none found, step_lend_of_none (same.trans found)]
          have valid : b.inner.Valid w.store :=
            Buffer.valid_of_hosts sound (subset_alive_of_get? there)
          exact cut_malformed there (get?_unbounded_self there) rfl valid counted
      | some s =>
          obtain ⟨o, source_there, at_place⟩ := Option.bind_eq_some_iff.1 found
          have left : (w.unbounded name).get? source = some o := by
            rw [get?_unbounded, source_there, Option.map_some, if_neg (Ne.symm other)]
          have aside : (w.unbounded name).settingAside source o (s.storage :: w.lent) =
              (w.settingAside source o (s.storage :: w.lent)).unbounded name := by
            simp only [settingAside, erase_unbounded]
            rfl
          have within : (w.settingAside source o (s.storage :: w.lent)).get? name =
              some (.bounded b) := by
            show (w.erase source).get? name = _
            rw [get?_erase, if_neg other, there]
          have cut := ih (sound_settingAside sound source_there _)
            (made.settingAside sound source_there at_place) within edits
          rw [step_lend inner source_there at_place, step_lend inner left at_place]
          rw [← aside] at cut
          exact (cut.restore w.aside w.aside w.lent w.lent).put other o
  | make | ofSegment | bound | unbound | ofJson | ofValue | ask | derive | split | drop | read
  | write | drain => cases edits

theorem cut_act (sound : w.Sound) (made : w.LendsMade) (there : w.get? name = some (.bounded b))
    (counted : b.Counted) {action : Action α} (fair : action.Fair w) (edits : action.Edits name) :
    Cut name b.maxSize (w.act action) ((w.unbounded name).act action) := by
  cases action with
  | step step => exact cut_step sound made there counted edits
  | edit target edit relied =>
      obtain rfl : target = name := edits
      obtain ⟨hosts, relies⟩ := fair
      have fits : edit.Fits b.inner.segments
          (({ w with aside := relied ++ w.aside } : World α).erase target).alive :=
        relies.mono fun s here => List.mem_append_right _ (List.mem_append_left _ here)
      have acts : ∀ (v : World α) (r : World α × Answer),
          ({ v with aside := relied ++ v.aside } : World α).applyEdit target edit = some r →
          v.act (.edit target edit relied) =
            ({ r.1 with aside := v.aside, lent := v.lent }, r.2) := by
        intro v r done
        rw [act, done]
      obtain ⟨r, u, inside, outside, cut⟩ :=
        cut_applyEdit (w := { w with aside := relied ++ w.aside }) (hosts_relied hosts) fits there
          made counted
      rw [acts w r inside, acts (w.unbounded target) u outside]
      exact cut.restore _ _ _ _

/-! ## Bounds in reached worlds -/

omit [TextUnit α] in
/-- A buffer that is put within bounds is cut to them. -/
theorem bound_of_buffer (sound : w.Sound) {source : String} {v : Buffer}
    (there : w.get? source = some (.buffer v)) (dest : String) (maxSize : Nat) :
    ∃ b : Bounded, w.bound dest source maxSize = ((w.erase source).put dest (.bounded b), .done) ∧
      b.maxSize = maxSize ∧ b.inner.content w.store = (v.content w.store).take maxSize := by
  have covers : (w.erase source).surroundings.Covers (w.erase source).alive :=
    Surroundings.covers_of_alive (List.Subset.refl _)
  have everything : w.store.Hosts ([] ++ w.alive) := sound
  have hosts : w.store.Hosts (v.segments ++ (w.erase source).alive) := hosts_taken everything there
  refine ⟨Bounded.ofBuffer v maxSize (w.erase source).surroundings, ?_, ?_, ?_⟩
  · simp only [bound, takeBuffer?, there]
    rfl
  · exact Bounded.maxSize_truncate _ _
  · exact Bounded.content_truncate (b := ⟨v, maxSize, v.length⟩) hosts covers rfl

/-- **Within bounds, every edit does what it does without them, cut to the maximum.**

This holds of every world that is reached without an edit of a bounded buffer that is refused
for want of room.  The count of a bounded buffer is the number of units that it shows, and never
exceeds the maximum.  Every edit, whatever comes with it, gives the same answer and the same
text as it gives without bounds, but that the text is cut; a text that is put within bounds is
cut in the same way. -/
theorem bounded_refines (reached : Reached Action.Overruns w) :
    (∀ name b, w.get? name = some (.bounded b) →
      b.size = b.inner.length ∧ (b.inner.content w.store).length = b.size ∧ b.size ≤ b.maxSize ∧
        b.remaining = .ok (b.maxSize - b.size) ∧
        ∀ action : Action α, action.Fair w → action.Edits name →
          Cut name b.maxSize (w.act action) ((w.unbounded name).act action)) ∧
    (∀ source dest maxSize v, w.get? source = some (.buffer v) →
      (w.act (.step (.bound dest source maxSize))).2 = .done ∧
        ∃ b, (w.act (.step (.bound dest source maxSize))).1.get? dest = some (.bounded b) ∧
          b.maxSize = maxSize ∧
          b.inner.content (w.act (.step (.bound dest source maxSize))).1.store =
            (v.content w.store).take maxSize) := by
  constructor
  · intro name b there
    have counted := counted_of_reached reached name b there
    have valid : b.inner.Valid w.store :=
      Buffer.valid_of_hosts reached.sound (subset_alive_of_get? there)
    refine ⟨counted.size_eq, counted.length_content valid, counted.size_le, counted.remaining, ?_⟩
    intro action fair edits
    exact cut_act reached.sound (lendsMade_of_lent_eq reached.lent_eq) there counted fair edits
  · intro source dest maxSize v there
    obtain ⟨b, done, same, content⟩ := bound_of_buffer reached.sound there dest maxSize
    have acts : w.act (.step (.bound dest source maxSize)) =
        ((w.erase source).put dest (.bounded b), .done) := done
    rw [acts]
    exact ⟨rfl, b, (get?_put ..).trans (if_pos rfl), same, content⟩

/-- A bounded buffer that is full, and a buffer without bounds. -/
def fullAndFree : World Char :=
  (((({} : World Char).act (.step (.make "n" (.bounded 3 {})))).1.act
    (.step (.change "n" (.appendText "abcd")))).1.act
    (.step (.make "s" (.bufferOfText "uvwxyz")))).1

theorem reached_fullAndFree : Reached Action.Overruns fullAndFree := by
  refine .act (.act (.act .start trivial ?_) trivial ?_) trivial ?_
  all_goals exact fun refused => absurd refused.1 (by decide)

theorem bounded_refines_fullAndFree :
    (∃ b, fullAndFree.get? "n" = some (.bounded b) ∧ b.size = 3 ∧ b.inner.length = 3 ∧
      b.remaining = .ok 0 ∧
      Cut "n" 3 (fullAndFree.act (.step (.change "n" (.prepend 'z'))))
        ((fullAndFree.unbounded "n").act (.step (.change "n" (.prepend 'z'))))) ∧
    (fullAndFree.act (.step (.change "n" (.prepend 'z')))).1.dump =
      [("s", .buffer [⟨"uvwxyz", 8⟩]), ("n", .bounded 3 3 [⟨"z", 1⟩, ⟨"ab", 32⟩])] ∧
    ∃ b, (fullAndFree.act (.step (.bound "t" "s" 2))).1.get? "t" = some (.bounded b) ∧
      b.maxSize = 2 ∧
      b.inner.content (fullAndFree.act (.step (.bound "t" "s" 2))).1.store = ['u', 'v'] := by
  obtain ⟨within, put⟩ := bounded_refines reached_fullAndFree
  obtain ⟨size, -, -, remaining, cut⟩ :=
    within "n" ⟨⟨.held [⟨⟨0⟩, 0, 3, 32⟩], {}⟩, 3, 3⟩ (by decide)
  obtain ⟨-, b, there, same, content⟩ :=
    put "s" "t" 2 ⟨.held [⟨⟨1⟩, 0, 6, 8⟩], {}⟩ (by decide)
  refine ⟨⟨_, by decide, rfl, size.symm, remaining, ?_⟩, by decide, b, there, same, ?_⟩
  · exact cut (.step (.change "n" (.prepend 'z'))) trivial ⟨rfl, id, nofun⟩
  · exact content.trans (by decide)

/-! ## Want of room -/

/-- A bounded buffer with a segment of room for five, behind which no segment can be opened that is
as large as its layout asks for. -/
def roomless : World Char :=
  (((({} : World Char).act (.step (.make "s" (.segmentOfArray "ab" 5)))).1.act
    (.step (.make "n" (.bounded 20 { initialCapacity := 2 ^ 63 })))).1.act
    (.step (.change "n" (.appendSegment "s" true)))).1

/-- An append that is refused midway leaves units that are not counted. -/
theorem staleCount :
    Reached (fun _ _ => False) (roomless.act (.step (.change "n" (.appendSlice "wxyz12")))).1 ∧
      (roomless.act (.step (.change "n" (.appendSlice "wxyz12")))).2 = .fault .roomExceeded ∧
      ∃ b, (roomless.act (.step (.change "n" (.appendSlice "wxyz12")))).1.get? "n" =
          some (.bounded b) ∧
        b.size = 2 ∧ b.inner.length = 5 ∧
        b.inner.content (roomless.act (.step (.change "n" (.appendSlice "wxyz12")))).1.store =
          ['a', 'b', 'w', 'x', 'y'] := by
  refine ⟨.act (.act (.act (.act .start trivial id) trivial id) trivial id) trivial id, ?_, ?_⟩
  · decide
  · exact ⟨⟨⟨.held [⟨⟨0⟩, 0, 5, 5⟩], { initialCapacity := 2 ^ 63 }⟩, 20, 2⟩, by decide, rfl, rfl,
      by decide⟩

end World

end SegmentedText
