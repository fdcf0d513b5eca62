import SegmentedText.Proofs.Refusals.Changes
import SegmentedText.Proofs.Words.Edits
import SegmentedText.Proofs.Words.Streams

/-!
# Actions in machine words

The texts that an action meets are short if all objects are before and after it, and so is what
comes with an edit, and what a scan makes of the text in a bounded buffer before that is cut
(`Action.Short`).  Nothing is assumed of the indices and counts that an action names.

An action is exact if everything is in range before and after it, all windows, lengths and
counts (`World.Exact`), and so is what is computed on the way from the one to the other: the
cursors, cuts and splices, the searches and scans, the counts of a bounded buffer, of a reader,
of a writer and of a drain (`Action.Exact`).  Where the texts are short, every action is exact
(`World.exact_act`).
-/

set_option autoImplicit false

namespace SegmentedText

variable {α : Type} [TextUnit α]

/-! ## Short texts -/

/-- Every array can be had, and the text of every object is short. -/
structure World.Short (w : World α) : Prop where
  arrays : ∀ a ∈ w.store.arrays, fitsMemory (TextUnit.kind α).width a.extent = true
  texts : ∀ entry ∈ w.registers, entry.2.length < textLimit

/-- The texts that come with an edit of a buffer, and that a scan leaves, are short. -/
def Action.Brief (w : World α) : Action α → Prop
  | .step (.change target what) =>
      ∀ edit resolved o b, w.edit? what = some (edit, resolved) →
        resolved.get? target = some o → o.buffer? = some b → edit.Brief b resolved.store
  | .edit target what _ =>
      ∀ o b, w.get? target = some o → o.buffer? = some b → what.Brief b w.store
  | _ => True

/-- The texts that an action meets, before and after it, are short. -/
structure Action.Short (w : World α) (action : Action α) : Prop where
  before : w.Short
  after : (w.act action).1.Short
  brief : action.Brief w

/-! ## Exact worlds and actions -/

/-- What a world holds is in range: every window lies in order within its array, all of whose places
are words; the length of every object is a word; and a bounded buffer counts what it shows, no
more than its maximum. -/
structure World.Exact (w : World α) : Prop where
  windows : ∀ s ∈ w.alive, s.start ≤ s.stop ∧ s.stop ≤ s.limit ∧
    s.limit ≤ w.store.extent s.storage ∧ w.store.extent s.storage < wordSize
  lengths : ∀ name o, w.get? name = some o → o.length < wordSize
  counts : w.Counted

/-- What a step computes on its way is exact. -/
def Step.Exact (w : World α) : Step → Prop
  | .ask source query => ∀ o, w.get? source = some o → query.Exact o w.store
  | .derive source _ what => ∀ o, w.get? source = some o → what.Exact o
  | .split source c _ => ∀ o, w.get? source = some o → o.SplitsExactly c w.store
  | .change target what => ∀ edit resolved o, w.edit? what = some (edit, resolved) →
      resolved.get? target = some o →
        edit.Exact o (resolved.erase target).surroundings resolved.store
  | .read source actions => ∀ o b, w.get? source = some o → o.buffer? = some b →
      (w.settingAside source o w.lent).ReadsAllExactly (.ofBuffer b) actions
  | .write target actions => ∀ b, w.get? target = some (.buffer b) →
      (w.erase target).WritesExactly ⟨b, 0⟩ w.store actions
  | .drain source job => ∀ o b, w.get? source = some o → o.buffer? = some b → job.Exact b w.store
  | _ => True

/-- What an action computes on its way is exact. -/
def Action.ExactMidway (w : World α) : Action α → Prop
  | .step request => request.Exact w
  | .edit target what relied => ∀ o, w.get? target = some o →
      what.Exact o (({ w with aside := relied ++ w.aside } : World α).erase target).surroundings
        w.store

/-- An action is exact: so is what is there before and after it, and what it computes on its way. -/
structure Action.Exact (w : World α) (action : Action α) : Prop where
  before : w.Exact
  after : (w.act action).1.Exact
  midway : action.ExactMidway w

namespace World

variable {w : World α}

theorem Short.length_lt (short : w.Short) {name : String} {o : Object}
    (there : w.get? name = some o) : o.length < textLimit := by
  obtain ⟨before, behind, parted, -⟩ := List.lookup_eq_some_iff.1 there
  refine short.texts (name, o) ?_
  rw [parted]
  exact List.mem_append_right _ List.mem_cons_self

theorem Short.extent_lt (short : w.Short) (id : StorageId) : w.store.extent id < wordSize := by
  rw [Store.extent]
  split
  next a there =>
    have fits := short.arrays a (Array.mem_of_getElem? there)
    have width : 1 ≤ (TextUnit.kind α).width := by cases TextUnit.kind α <;> decide
    simp only [fitsMemory, decide_eq_true_eq] at fits
    have places := Nat.le_trans (Nat.le_mul_of_pos_left _ width) fits
    exact Nat.lt_of_le_of_lt places (by decide)
  next => decide

theorem Short.size_lt (short : w.Short) (counted : w.Counted) {name : String} {b : Bounded}
    (there : w.get? name = some (.bounded b)) : b.size < textLimit := by
  rw [(counted name b there).size_eq]
  exact short.length_lt there

theorem exact_of_short (sound : w.Sound) (counted : w.Counted) (short : w.Short) : w.Exact where
  windows := by
    intro s here
    have valid := (sound.placed s here).valid
    exact ⟨valid.start_le_stop, valid.stop_le_limit, valid.limit_le_extent,
      short.extent_lt s.storage⟩
  lengths := fun name o there => Nat.lt_trans (short.length_lt there) (by decide)
  counts := counted

/-! ## Edits in a world -/

/-- What an edit leaves of the object in a register is there afterwards. -/
theorem get?_applyEdit {target : String} {edit : Edit α} {after : World α} {answer : Answer}
    (done : w.applyEdit target edit = some (after, answer)) :
    ∃ o r, w.get? target = some o ∧
      o.apply (w.erase target).surroundings w.store edit = some r ∧
        after.get? target = some r.object := by
  obtain ⟨⟨o, rest⟩, taken, done⟩ := Option.bind_eq_some_iff.1 done
  obtain ⟨r, applied, done⟩ := Option.bind_eq_some_iff.1 done
  obtain ⟨rfl, -⟩ := Prod.mk.inj (Option.some.inj done)
  obtain ⟨there, rfl⟩ := eq_of_take? taken
  refine ⟨o, r, there, applied, ?_⟩
  rw [get?_put, if_pos rfl]

/-- An edit is exact where its arguments have been taken out for it. -/
theorem exact_applyEdit {target : String} {edit : Edit α} (sound : w.Sound)
    (fits : ∀ o, w.get? target = some o → edit.Fits o.segments (w.erase target).alive)
    (counted : w.Counted) (short : ∀ o, w.get? target = some o → o.length < textLimit)
    (brief : ∀ o b, w.get? target = some o → o.buffer? = some b → edit.Brief b w.store)
    (ended : ∀ after answer b, w.applyEdit target edit = some (after, answer) →
      after.get? target = some (.bounded b) → b.size < textLimit) {o : Object}
    (there : w.get? target = some o) :
    edit.Exact o (w.erase target).surroundings w.store := by
  refine Edit.exact (Store.Hosts.subperm sound (subperm_take there)) (fits o there)
    (fun b same => counted target b (same ▸ there)) (short o there) (fun b => brief o b there) ?_
  rintro b rfl
  have taken := take?_of_get? there
  have done : w.applyEdit target edit = some ((w.erase target).putEdited target
      ((b.apply (w.erase target).surroundings w.store edit).mapObject .bounded)) :=
    Option.bind_eq_some_iff.2 ⟨_, taken, Option.bind_eq_some_iff.2 ⟨_, rfl, rfl⟩⟩
  refine ended _ _ _ done ?_
  obtain ⟨o, r, found, applied, left⟩ := get?_applyEdit done
  obtain rfl := Option.some.inj (there.symm.trans found)
  obtain rfl := Option.some.inj applied
  exact left

theorem exact_change (sound : w.Sound) (counted : w.Counted) {target : String} {what : Change}
    (short : Action.Short w (.step (.change target what)))
    (behind : (w.change target what).1.Counted) : (Step.change target what).Exact w := by
  intro edit resolved o found there
  have resolves : Resolves what.Uses True w what edit resolved :=
    resolves_edit? sound (fun _ uses => uses) found
  have before : ∀ {name o}, resolved.get? name = some o → w.get? name = some o :=
    fun there => (get?_of_edit? found there).1
  refine exact_applyEdit resolves.underway.hosts.right (resolves.fits target)
    (counted.fewer fun _ _ => before) (fun o there => short.before.length_lt (before there))
    (fun o b => short.brief edit resolved o b found) ?_ there
  intro after answer b done left
  have taken := take?_of_get? (before there)
  have changed : w.change target what =
      ({ after with aside := w.aside, lent := w.lent }, answer) := by
    rw [World.change, taken]
    simp only [found, done]
  have ended := short.after
  rw [changed] at behind
  rw [act, World.step, changed] at ended
  exact ended.size_lt behind left

theorem exact_edit (counted : w.Counted) {target : String} {edit : Edit α}
    {relied : List Segment} (fair : (Action.edit target edit relied).Fair w)
    (short : (Action.edit target edit relied).Short w)
    (behind : (w.act (.edit target edit relied)).1.Counted) {o : Object}
    (there : w.get? target = some o) :
    edit.Exact o (({ w with aside := relied ++ w.aside } : World α).erase target).surroundings
      w.store := by
  obtain ⟨hosts, fits⟩ := fair
  refine exact_applyEdit (w := { w with aside := relied ++ w.aside })
    (hosts_relied hosts).right ?_ counted (fun o => short.before.length_lt) short.brief ?_ there
  · exact fun o _ => fits.mono fun s here =>
      List.mem_append_right _ (List.mem_append_left _ here)
  · intro after answer b done left
    have ended := short.after
    simp only [act, done] at behind ended
    exact ended.size_lt behind left

/-! ## Streams in a world -/

theorem exact_read (sound : w.Sound) (made : w.LendsMade) (short : w.Short) (source : String)
    (actions : List ReadAction) : (Step.read source actions).Exact w := by
  intro o b there shown
  have tapes := tapes_settingAside sound made there shown
  have brief := short.length_lt there
  rw [← Object.length_of_buffer? shown] at brief
  have twice : totalLength b.segments < 2 * textLimit := Nat.lt_trans brief (by decide)
  exact readsAllExactly tapes.sound tapes.made tapes.aside tapes.follows.on twice actions

theorem exact_write (sound : w.Sound) (made : w.LendsMade) {target : String}
    {actions : List WriteAction} (allots : (Step.write target actions).Allots w)
    (behind : (w.write target actions).1.Sound) (short : (w.write target actions).1.Short) :
    (Step.write target actions).Exact w := by
  intro b there
  have hosts : w.store.Hosts ((⟨b, 0⟩ : Writer).buffer.segments ++ (w.erase target).alive) :=
    Store.Hosts.subperm sound (subperm_take there)
  have ended : ∀ b, (w.write target actions).1.get? target = some (.buffer b) →
      (b.content (w.write target actions).1.store).length < wordSize := by
    intro b left
    have shown := Buffer.valid_of_hosts behind (subset_alive_of_get? left)
    rw [shown.length_content]
    exact Nat.lt_trans (short.length_lt left) (by decide)
  have made : (w.erase target).LendsMade := made
  refine writesExactly made hosts (allots b there) (Nat.zero_le _) ?_
  have left := ended ((w.erase target).writeAll ⟨b, 0⟩ w.store actions).1.buffer
  have back : ∀ {used : World α}, (used.put target (.buffer
      ((w.erase target).writeAll ⟨b, 0⟩ w.store actions).1.buffer)).get? target =
        some (.buffer ((w.erase target).writeAll ⟨b, 0⟩ w.store actions).1.buffer) := by
    intro used
    rw [get?_put, if_pos rfl]
  rw [write, take?_of_get? there] at left
  dsimp only at left
  split at left
  next => exact left back
  next fault refused => cases writeAll_of_admits made hosts (allots b there) refused
  next => exact left back

theorem exact_drain (sound : w.Sound) (short : w.Short) (source : String) (job : DrainJob) :
    (Step.drain source job).Exact w := by
  intro o b there shown
  have own : b.segments ⊆ w.alive := segments_of_buffer? shown ▸ subset_alive_of_get? there
  refine job.exact ?_
  rw [(Buffer.valid_of_hosts sound own).length_content, Object.length_of_buffer? shown]
  exact short.length_lt there

/-! ## All actions -/

/-- **Every action is exact where the texts are short**, whatever indices and counts it names. -/
theorem exact_act (sound : w.Sound) (counted : w.Counted) {action : Action α}
    (fair : action.Fair w) (unlent : action.Unlent w) (allots : action.Allots w)
    (short : action.Short w) : action.Exact w := by
  have made := lendsMade_of_lent_eq (lent_eq_of_unlent unlent)
  have behind : (w.act action).1.Counted :=
    (keepsTo_act sound counted fair unlent allots).counted sound made counted fair
  have sound_behind : (w.act action).1.Sound := (underway_act sound fair).sound
  refine ⟨exact_of_short sound counted short.before,
    exact_of_short sound_behind behind short.after, ?_⟩
  have valid : ∀ {name o}, w.get? name = some o → ∀ s ∈ o.segments, s.Valid w.store :=
    fun there => valid_of_alive sound (subset_alive_of_get? there)
  have texts : ∀ {name o}, w.get? name = some o → o.length < textLimit :=
    fun there => short.before.length_lt there
  cases action with
  | edit target what relied => exact fun o => exact_edit counted fair short behind
  | step request =>
      cases request with
      | ask source query =>
          intro o there
          exact query.exact (valid there) (Nat.lt_trans (texts there) (by decide))
            fun b same => counted source b (same ▸ there)
      | derive source dest what =>
          intro o there
          exact what.exact (Nat.lt_trans (texts there) (by decide))
      | split source c dest => exact fun o _ => o.splitsExactly c w.store
      | change target what => exact exact_change sound counted short behind
      | read source actions => exact exact_read sound made short.before source actions
      | write target actions => exact exact_write sound made allots sound_behind short.after
      | drain source job => exact exact_drain sound short.before source job
      | make | ofSegment | bound | unbound | ofJson | ofValue | drop | lend => trivial

end World

end SegmentedText
