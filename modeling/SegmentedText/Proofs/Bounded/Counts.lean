import SegmentedText.Proofs.Bounded.Refinement
import SegmentedText.Proofs.Ownership.Lent

/-!
# Every bounded buffer is counted

A bounded buffer starts with the right count, whether it is made empty or from a buffer;
edits keep the count right, and whatever else is done in a world does not come near it.
There is one exception: an edit that is refused for want of room has not been counted, though
some of its units may have gone in (`Action.Overruns`).

In worlds that are reached without such an edit the count of every bounded buffer is
right (`World.counted_of_reached`).
-/

set_option autoImplicit false

namespace SegmentedText

/-! ## Which actions edit a register -/

/-- Whether a step edits the object in a register, possibly while windows of other objects are lent
out.  The object is not used up by its own edit, and the edit is one that bounded buffers have. -/
def Step.Edits (step : Step) (name : String) : Prop :=
  match step with
  | .change target what =>
      target = name ∧ ¬what.Uses name ∧ ∀ source, what ≠ .appendOwned source
  | .lend source _ inner => inner.Edits name ∧ name ≠ source
  | _ => False

namespace Action

variable {α : Type}

/-- Whether an action edits the object in a register. -/
def Edits (action : Action α) (name : String) : Prop :=
  match action with
  | .step request => request.Edits name
  | .edit target _ _ => target = name

/-- Whether an action is an edit of a bounded buffer that is refused for want of room. -/
def Overruns [TextUnit α] (w : World α) (action : Action α) : Prop :=
  (w.act action).2 = .fault .roomExceeded ∧
    ∃ name b, w.get? name = some (.bounded b) ∧ action.Edits name

end Action

namespace World

variable {α : Type} {w w' : World α}

/-- Every bounded buffer in a register is counted. -/
def Counted (w : World α) : Prop := ∀ name b, w.get? name = some (.bounded b) → b.Counted

/-! ## Registers that are left, emptied and filled -/

/-- What is left of the registers is as it was. -/
theorem Counted.fewer (counted : w.Counted)
    (left : ∀ name o, w'.get? name = some o → w.get? name = some o) : w'.Counted :=
  fun name b there => counted name b (left name _ there)

theorem get?_of_erase {source name : String} {o : Object}
    (there : (w.erase source).get? name = some o) : w.get? name = some o ∧ name ≠ source := by
  rw [get?_erase] at there
  split at there
  next => cases there
  next other => exact ⟨there, other⟩

theorem Counted.erase (counted : w.Counted) (source : String) : (w.erase source).Counted :=
  counted.fewer fun _ _ there => (get?_of_erase there).1

theorem Counted.put (counted : w.Counted) (dest : String) {o : Object}
    (fresh : ∀ b, o = .bounded b → b.Counted) : (w.put dest o).Counted := by
  intro name b there
  rw [get?_put] at there
  split at there
  next => exact fresh b (Option.some.inj there)
  next => exact counted name b there

theorem get?_of_takeSegment? {source name : String} {move : Bool} {s : Segment} {rest : World α}
    {o : Object} (taken : w.takeSegment? source move = some (s, rest))
    (there : rest.get? name = some o) :
    w.get? name = some o ∧ ¬(move = true ∧ name = source) := by
  obtain ⟨object, -, taken⟩ := Option.bind_eq_some_iff.1 taken
  obtain ⟨t, -, taken⟩ := Option.bind_eq_some_iff.1 taken
  cases move with
  | true =>
      obtain ⟨-, rfl⟩ := Prod.mk.inj (Option.some.inj taken)
      exact ⟨(get?_of_erase there).1, fun moved => (get?_of_erase there).2 moved.2⟩
  | false =>
      obtain ⟨-, rfl⟩ := Prod.mk.inj (Option.some.inj taken)
      exact ⟨there, fun moved => nomatch moved.1⟩

theorem get?_of_takeBuffer? {source name : String} {move : Bool} {b : Buffer} {rest : World α}
    {o : Object} (taken : w.takeBuffer? source move = some (b, rest))
    (there : rest.get? name = some o) :
    w.get? name = some o ∧ ¬(move = true ∧ name = source) := by
  obtain ⟨object, -, taken⟩ := Option.bind_eq_some_iff.1 taken
  cases move with
  | true =>
      obtain ⟨t, -, taken⟩ := Option.bind_eq_some_iff.1 taken
      obtain ⟨-, rfl⟩ := Prod.mk.inj (Option.some.inj taken)
      exact ⟨(get?_of_erase there).1, fun moved => (get?_of_erase there).2 moved.2⟩
  | false =>
      obtain ⟨t, -, taken⟩ := Option.bind_eq_some_iff.1 taken
      obtain ⟨-, rfl⟩ := Prod.mk.inj (Option.some.inj taken)
      exact ⟨there, fun moved => nomatch moved.1⟩

variable [TextUnit α]

/-- Resolving a change takes its arguments out and leaves the other registers as they are. -/
theorem get?_of_edit? {change : Change} {edit : Edit α} {resolved : World α} {name : String}
    {o : Object} (found : w.edit? change = some (edit, resolved))
    (there : resolved.get? name = some o) : w.get? name = some o ∧ ¬change.Uses name := by
  cases change
  case appendSegment source move =>
    obtain ⟨⟨s, rest⟩, taken, found⟩ := Option.bind_eq_some_iff.1 found
    obtain ⟨-, rfl⟩ := Prod.mk.inj (Option.some.inj found)
    exact get?_of_takeSegment? taken there
  case prependSegment source move =>
    obtain ⟨⟨s, rest⟩, taken, found⟩ := Option.bind_eq_some_iff.1 found
    obtain ⟨-, rfl⟩ := Prod.mk.inj (Option.some.inj found)
    exact get?_of_takeSegment? taken there
  case appendBuffer source =>
    obtain ⟨other, -, found⟩ := Option.bind_eq_some_iff.1 found
    obtain ⟨b, -, found⟩ := Option.bind_eq_some_iff.1 found
    obtain ⟨-, rfl⟩ := Prod.mk.inj (Option.some.inj found)
    exact ⟨there, id⟩
  case appendWindow source i =>
    obtain ⟨⟨units, rest⟩, lent, found⟩ := Option.bind_eq_some_iff.1 found
    obtain ⟨-, rfl⟩ := Prod.mk.inj (Option.some.inj found)
    obtain ⟨object, -, lent⟩ := Option.bind_eq_some_iff.1 lent
    obtain ⟨s, -, lent⟩ := Option.bind_eq_some_iff.1 lent
    obtain ⟨-, rfl⟩ := Prod.mk.inj (Option.some.inj lent)
    exact ⟨there, id⟩
  case replaceRange start stop replacement =>
    obtain ⟨⟨b, rest⟩, taken, found⟩ := Option.bind_eq_some_iff.1 found
    obtain ⟨-, rfl⟩ := Prod.mk.inj (Option.some.inj found)
    cases replacement with
    | register source move => exact get?_of_takeBuffer? taken there
    | text text form =>
        obtain ⟨-, rfl⟩ := Prod.mk.inj (Option.some.inj taken)
        exact ⟨there, id⟩
  case substitute opening closing values =>
    obtain ⟨⟨provider, rest⟩, provided, found⟩ := Option.bind_eq_some_iff.1 found
    obtain ⟨-, rfl⟩ := Prod.mk.inj (Option.some.inj found)
    cases values with
    | table entries fallback form =>
        obtain ⟨-, rfl⟩ := Prod.mk.inj (Option.some.inj provided)
        exact ⟨there, id⟩
    | same =>
        obtain ⟨-, rfl⟩ := Prod.mk.inj (Option.some.inj provided)
        exact ⟨there, id⟩
    | register source =>
        obtain ⟨object, -, provided⟩ := Option.bind_eq_some_iff.1 provided
        obtain ⟨b, -, provided⟩ := Option.bind_eq_some_iff.1 provided
        obtain ⟨-, rfl⟩ := Prod.mk.inj (Option.some.inj provided)
        exact ⟨there, id⟩
  case appendOwned => cases found
  case moveForward => cases found
  case reserve => cases found
  all_goals
    obtain ⟨-, rfl⟩ := Prod.mk.inj (Option.some.inj found)
    exact ⟨there, id⟩

/-! ## Edits -/

/-- An edit that is not refused for want of room leaves a bounded buffer counted. -/
theorem counted_applyEdit {target : String} {edit : Edit α} {after : World α} {answer : Answer}
    (hosts : w.store.Hosts (edit.windows ++ w.alive))
    (fits : ∀ o, w.get? target = some o → edit.Fits o.segments (w.erase target).alive)
    (made : w.LendsMade) (counted : w.Counted)
    (room : ∀ b, w.get? target = some (.bounded b) → answer ≠ .fault .roomExceeded)
    (done : w.applyEdit target edit = some (after, answer)) : after.Counted := by
  obtain ⟨⟨o, rest⟩, taken, done⟩ := Option.bind_eq_some_iff.1 done
  obtain ⟨r, applied, done⟩ := Option.bind_eq_some_iff.1 done
  obtain ⟨rfl, rfl⟩ := Prod.mk.inj (Option.some.inj done)
  obtain ⟨there, rfl⟩ := eq_of_take? taken
  refine Counted.put (counted.erase target) target fun b' edited => ?_
  cases o with
  | segment s =>
      obtain ⟨_, _, rfl⟩ := Option.map_eq_some_iff.1 applied
      cases edited
  | buffer b =>
      cases applied
      cases edited
  | bounded b =>
      cases applied
      obtain rfl := Object.bounded.inj edited
      have covers : (w.erase target).surroundings.Covers (w.erase target).alive :=
        Surroundings.covers_of_alive (List.Subset.refl _)
      have refines := Bounded.refines_apply (hosts_taken hosts there) (fits _ there) covers made
        (counted target b there)
      refine refines.counted fun refused => room b there ?_
      show Answer.ofExcept _ (b.apply _ _ edit).answer = _
      exact congrArg (Answer.ofExcept _) refused

/-- A change that bounded buffers do not have leaves them as they are. -/
theorem counted_changeSpecial {target : String} {o : Object} {change : Change} (counted : w.Counted)
    (object : ∀ b, o = .bounded b → b.Counted) : (w.changeSpecial target o change).1.Counted := by
  unfold changeSpecial
  split
  next =>
    split
    next => exact counted.put target nofun
    next => exact counted.put target object
  next =>
    split
    next => exact Counted.put counted target nofun
    next => exact counted.put target object
  next source b =>
    split
    next => exact counted.put target object
    next other rest taken =>
      have left : rest.Counted :=
        counted.fewer fun _ _ there => (get?_of_takeBuffer? taken there).1
      split
      next => exact left.put target nofun
      next => exact left.put target nofun
  next => exact counted.put target object

theorem counted_change (sound : w.Sound) (made : w.LendsMade) (counted : w.Counted)
    (target : String) (change : Change)
    (room : ∀ b, w.get? target = some (.bounded b) → (Step.change target change).Edits target →
      (w.change target change).2 ≠ .fault .roomExceeded) : (w.change target change).1.Counted := by
  unfold World.change at room ⊢
  cases taken : w.take? target with
  | none => exact counted
  | some entry =>
      obtain ⟨o, rest⟩ := entry
      obtain ⟨there, rfl⟩ := eq_of_take? taken
      cases found : w.edit? change with
      | none =>
          exact counted_changeSpecial (counted.erase target) fun b same =>
            counted target b (same ▸ there)
      | some entry =>
          obtain ⟨edit, resolved⟩ := entry
          simp only [taken, found] at room ⊢
          have resolves : Resolves (fun _ => True) False w change edit resolved :=
            resolves_edit? sound (fun _ _ => trivial) found
          have left : resolved.Counted :=
            counted.fewer fun _ _ there => (get?_of_edit? found there).1
          cases done : resolved.applyEdit target edit with
          | none => exact counted
          | some entry =>
              obtain ⟨after, answer⟩ := entry
              rw [done] at room
              have edited : after.Counted := by
                refine counted_applyEdit resolves.underway.hosts
                  (fun o there => resolves.fits target o there) (made.resolved sound found) left
                  (fun b here => ?_) done
                obtain ⟨there, unused⟩ := get?_of_edit? found here
                refine room b there ⟨rfl, unused, ?_⟩
                rintro source rfl
                cases found
              exact edited

/-! ## All steps -/

/-- Only a bounded buffer is made bounded, and it is made empty. -/
theorem counted_make_run {what : Make} {st st' : Store α} {b : Bounded}
    (done : what.run st = .ok (.bounded b, st')) : b.Counted := by
  cases what with
  | bounded maxSize layout =>
      obtain ⟨same, -⟩ := Prod.mk.inj (Except.ok.inj done)
      obtain rfl := Object.bounded.inj same
      exact ⟨rfl, Nat.zero_le _⟩
  | segment | segmentOfUnits | segmentOfText | buffer | bufferOfUnits | bufferOfText => cases done
  | segmentWithCapacity | segmentOfArray | bufferWithCapacity | bufferOfArray | bufferOfEach
  | bufferOfParts =>
      obtain ⟨_, -, same⟩ := eq_ok_of_map done
      cases same

/-- Nothing that is derived from an object is bounded. -/
theorem derive_run_ne_bounded {what : Derive} {st st' : Store α} {o : Object} {b : Bounded} :
    what.run st o ≠ some (.ok (.bounded b, st')) := by
  intro done
  cases what with
  | substring start stop =>
      cases o <;>
        · obtain ⟨_, -, same⟩ := eq_ok_of_map (Option.some.inj done)
          cases same
  | substringFrom start =>
      cases o <;>
        · obtain ⟨_, -, same⟩ := eq_ok_of_map (Option.some.inj done)
          cases same
  | copy => cases o <;> cases done
  | shared => cases o <;> cases done
  | segmentAt i =>
      obtain ⟨_, -, same⟩ := Option.map_eq_some_iff.1 done
      cases same

omit [TextUnit α] in
theorem counted_putPieces {dest : String} {pieces : List Object} {i : Nat} (counted : w.Counted)
    (plain : ∀ piece ∈ pieces, ∀ b, piece ≠ .bounded b) :
    (w.putPieces dest i pieces).Counted := by
  induction pieces generalizing i w with
  | nil => exact counted
  | cons piece rest ih =>
      refine ih (counted.put _ fun b same => ?_) fun other here =>
        plain other (List.mem_cons_of_mem _ here)
      exact absurd same (plain piece List.mem_cons_self b)

/-- The pieces of an object are not bounded. -/
theorem split_ne_bounded {o piece : Object} {c : Char} {st : Store α} {b : Bounded}
    (here : piece ∈ (o.split c st).1) : piece ≠ .bounded b := by
  rintro rfl
  cases o <;>
    · obtain ⟨_, -, same⟩ := List.mem_map.1 here
      cases same

/-- Reading fills buffers that are not bounded. -/
theorem counted_readOne (counted : w.Counted) (r : Reader α) (action : ReadAction) :
    (w.readOne r action).2.1.Counted := by
  cases action with
  | readUntil c sink handover =>
      simp only [readOne, readIntoSink]
      split
      next => exact counted
      next b rest found =>
        have left : rest.Counted := by
          split at found
          next b' rest' taken =>
            obtain ⟨-, rfl⟩ := Prod.mk.inj (Option.some.inj found)
            obtain ⟨-, rfl⟩ := eq_of_take? taken
            exact counted.erase sink
          next => cases found
          next =>
            obtain ⟨-, rfl⟩ := Prod.mk.inj (Option.some.inj found)
            exact counted
        refine Counted.put left sink ?_
        rintro - ⟨⟩
  | read handover =>
      simp only [readOne]
      split <;> exact counted
  | readInto | back | remaining | sizeHint | take | rest => exact counted

theorem counted_readAll (counted : w.Counted) (r : Reader α) (actions : List ReadAction) :
    (w.readAll r actions).1.Counted := by
  induction actions generalizing w r with
  | nil => exact counted
  | cons action rest ih =>
      have first := counted_readOne counted r action
      rw [readAll]
      split
      next done =>
        rw [done] at first
        exact first
      next r' w' outcome done =>
        rw [done] at first
        exact ih first r'

theorem counted_make (counted : w.Counted) (dest : String) (what : Make) :
    (w.make dest what).1.Counted := by
  unfold make
  split
  next o st done =>
    refine Counted.put counted dest ?_
    rintro b rfl
    exact counted_make_run done
  next => exact counted

omit [TextUnit α] in
theorem counted_ofSegment (counted : w.Counted) (dest source : String) (move : Bool) :
    (w.ofSegment dest source move).1.Counted := by
  unfold ofSegment
  split
  next s rest taken =>
    have left : rest.Counted := counted.fewer fun _ _ there => (get?_of_takeSegment? taken there).1
    exact left.put dest nofun
  next => exact counted

omit [TextUnit α] in
/-- A buffer that is put within bounds is counted, and cut if it exceeds them. -/
theorem counted_bound (counted : w.Counted) (dest source : String) (maxSize : Nat) :
    (w.bound dest source maxSize).1.Counted := by
  unfold bound
  split
  next b rest taken =>
    have left : rest.Counted := counted.fewer fun _ _ there => (get?_of_takeBuffer? taken there).1
    refine left.put dest fun b' same => ?_
    obtain rfl := Object.bounded.inj same
    exact Bounded.counted_truncate rfl
  next => exact counted

omit [TextUnit α] in
theorem counted_unbound (counted : w.Counted) (source dest : String) :
    (w.unbound source dest).1.Counted := by
  unfold unbound
  split
  next b rest taken =>
    obtain ⟨-, rfl⟩ := eq_of_take? taken
    exact (counted.erase source).put dest nofun
  next => exact counted

omit [TextUnit α] in
theorem counted_putRead {ε : Type} (counted : w.Counted) (dest : String) (refuse : ε → Answer)
    (r : Except ε (Buffer × Store α)) : (w.putRead dest refuse r).1.Counted := by
  unfold putRead
  split
  next => exact Counted.put counted dest nofun
  next => exact counted

theorem counted_derive (counted : w.Counted) (source dest : String) (what : Derive) :
    (w.derive source dest what).1.Counted := by
  unfold derive
  split
  next o st done =>
    refine Counted.put counted dest ?_
    rintro b rfl
    obtain ⟨_, -, derived⟩ := Option.bind_eq_some_iff.1 done
    exact absurd derived derive_run_ne_bounded
  next => exact counted
  next => exact counted

theorem counted_split (counted : w.Counted) (source : String) (c : Char) (dest : Option String) :
    (w.split source c dest).1.Counted := by
  unfold split
  split
  next => exact counted
  next o there =>
    cases dest with
    | some kept =>
        exact counted_putPieces (w := w.withStore (o.split c w.store).2) counted
          fun piece here b => split_ne_bounded here
    | none => exact counted

omit [TextUnit α] in
theorem counted_drop (counted : w.Counted) (target : String) : (w.drop target).1.Counted := by
  unfold drop
  split
  next => exact counted.erase target
  next => exact counted

/-- Reading puts the object that is read back as it was, or loses it. -/
theorem counted_read (counted : w.Counted) (source : String) (actions : List ReadAction) :
    (w.read source actions).1.Counted := by
  unfold read
  split
  next => exact counted
  next o rest taken =>
    obtain ⟨there, rfl⟩ := eq_of_take? taken
    split
    next => exact counted
    next b shown =>
      have aside : (w.settingAside source o w.lent).Counted := counted.erase source
      have used := counted_readAll aside (.ofBuffer b) actions
      dsimp only
      split
      next => exact Counted.put used source fun b' same => counted source b' (same ▸ there)
      next => exact used

/-- Only buffers that are not bounded are written to. -/
theorem counted_write (counted : w.Counted) (target : String) (actions : List WriteAction) :
    (w.write target actions).1.Counted := by
  unfold write
  split
  next b rest taken =>
    obtain ⟨-, rfl⟩ := eq_of_take? taken
    dsimp only
    split
    next => exact Counted.put (counted.erase target) target nofun
    next => exact counted.erase target
    next => exact Counted.put (counted.erase target) target nofun
  next => exact counted

/-- Every step but an overrun leaves every bounded buffer counted. -/
theorem counted_step (sound : w.Sound) (made : w.LendsMade) (counted : w.Counted) (step : Step)
    (fits : ¬(Action.step step).Overruns w) : (w.step step).1.Counted := by
  induction step generalizing w with
  | make dest what => exact counted_make counted dest what
  | ofSegment dest source move => exact counted_ofSegment counted dest source move
  | bound dest source maxSize => exact counted_bound counted dest source maxSize
  | unbound source dest => exact counted_unbound counted source dest
  | ofJson dest json => exact counted_putRead counted dest _ _
  | ofValue dest value => exact counted_putRead counted dest _ _
  | ask source query => exact counted
  | derive source dest what => exact counted_derive counted source dest what
  | split source c dest => exact counted_split counted source c dest
  | change target change =>
      refine counted_change sound made counted target change fun b there edits refused => ?_
      exact fits ⟨refused, target, b, there, edits⟩
  | drop target => exact counted_drop counted target
  | read source actions => exact counted_read counted source actions
  | write target actions => exact counted_write counted target actions
  | drain source job => exact counted
  | lend source i inner ih =>
      cases found : (w.get? source).bind (·.segmentAt? i) with
      | none => rwa [step_lend_of_none found]
      | some s =>
          obtain ⟨o, there, at_place⟩ := Option.bind_eq_some_iff.1 found
          have same := step_lend inner there at_place
          have lent : (w.settingAside source o (s.storage :: w.lent)).Counted :=
            counted.erase source
          have within := ih (sound_settingAside sound there _)
            (made.settingAside sound there at_place) lent ?_
          · rw [same]
            exact Counted.put within source fun b' same => counted source b' (same ▸ there)
          · rintro ⟨refused, name, b, here, edits⟩
            obtain ⟨left, other⟩ := get?_of_erase here
            refine fits ⟨?_, name, b, left, edits, other⟩
            rw [act, same]
            exact refused

/-! ## Reached worlds -/

omit [TextUnit α] in
/-- What comes with an edit is hosted together with what is kept alive for it. -/
theorem hosts_relied {edit : Edit α} {relied : List Segment}
    (hosts : w.store.Hosts (edit.windows ++ (relied ++ w.alive))) :
    w.store.Hosts (edit.windows ++ ({ w with aside := relied ++ w.aside } : World α).alive) := by
  refine hosts.perm (List.Perm.append_left _ ?_)
  simp only [alive]
  rw [← List.append_assoc, ← List.append_assoc]
  exact List.perm_append_comm.append_right _

theorem counted_act (sound : w.Sound) (made : w.LendsMade) (counted : w.Counted)
    {action : Action α} (fair : action.Fair w) (fits : ¬action.Overruns w) :
    (w.act action).1.Counted := by
  cases action with
  | step step => exact counted_step sound made counted step fits
  | edit target edit relied =>
      obtain ⟨hosts, relies⟩ := fair
      cases done : ({ w with aside := relied ++ w.aside } : World α).applyEdit target edit with
      | none =>
          simp only [act, done]
          exact counted
      | some entry =>
          obtain ⟨after, answer⟩ := entry
          have edited : after.Counted := by
            refine counted_applyEdit (w := { w with aside := relied ++ w.aside })
              (hosts_relied hosts) (fun o _ => ?_) made counted (fun b there refused => ?_) done
            · exact relies.mono fun s here =>
                List.mem_append_right _ (List.mem_append_left _ here)
            · refine fits ⟨?_, target, b, there, rfl⟩
              rw [act, done]
              exact refused
          simp only [act, done]
          exact edited

/-- Where no edit of a bounded buffer has been refused for want of room, every bounded buffer is
counted. -/
theorem counted_of_reached (reached : Reached Action.Overruns w) : w.Counted := by
  induction reached with
  | start => exact nofun
  | act before fair fits ih =>
      exact counted_act before.sound (lendsMade_of_lent_eq before.lent_eq) ih fair fits

end World

end SegmentedText
