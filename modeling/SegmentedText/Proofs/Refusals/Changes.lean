import SegmentedText.Proofs.Refusals.Steps

/-!
# Changes that keep to their bounds

A change is judged by the edit that it is resolved to, and the edit by the object that it
meets.  When the edit is refused, the object goes back into its register as it was, and the
store has only gained arrays for texts that came with the change; an argument that was
moved is gone.

The main statement is about every action in a sound world whose bounded buffers are
counted, where nothing is lent out and no more room is asked for than there can be
(`World.keepsTo_act`).
-/

set_option autoImplicit false

namespace SegmentedText
namespace World

variable {α : Type} [TextUnit α] {w : World α} {used : String → Prop}

/-! ## Changes -/

omit [TextUnit α] in
/-- An object that is put back is as it was. -/
theorem unchanged_putBack {target : String} {o : Object} (there : w.get? target = some o) :
    Unchanged (fun _ => False) w ((w.erase target).put target o) where
  same := by
    intro name _
    rw [get?_put, get?_erase]
    by_cases same : name = target
    · rw [if_pos same, same, there]
    · rw [if_neg same, if_neg same]
  gone := fun _ none => none.elim
  keeps := fun _ _ _ _ => rfl
  aside := rfl
  lent := rfl

/-- An edit that an object does not have is not judged. -/
theorem refusal?_of_apply_none {o : Object} {around : Surroundings} {st : Store α} {edit : Edit α}
    (absent : o.apply around st edit = none) : edit.refusal? o = none := by
  cases o with
  | segment s =>
      have none : s.apply around st edit = Option.none := Option.map_eq_none_iff.1 absent
      cases edit <;> first | rfl | cases none
  | buffer b | bounded b => cases absent

theorem refusal?_of_applyEdit_none {target : String} {edit : Edit α}
    (absent : w.applyEdit target edit = none) : (w.get? target).bind edit.refusal? = none := by
  cases there : w.get? target with
  | none => rfl
  | some o =>
      cases applied : o.apply (w.erase target).surroundings w.store edit with
      | none => exact refusal?_of_apply_none applied
      | some r =>
          have taken := take?_of_get? there
          have done : w.applyEdit target edit = some ((w.erase target).putEdited target r) :=
            Option.bind_eq_some_iff.2 ⟨_, taken, Option.bind_eq_some_iff.2 ⟨r, applied, rfl⟩⟩
          cases done.symm.trans absent

/-- An edit keeps to its bound, in a world whose arguments have been taken out for it. -/
theorem keepsTo_applyEdit {resolved after : World α} {target : String} {edit : Edit α}
    {answer : Answer} (u : Underway used True w edit.windows resolved)
    (gone : ∀ name, used name → resolved.get? name = none)
    (fits : ∀ o, resolved.get? target = some o →
      edit.Fits o.segments (resolved.erase target).alive)
    (free : edit.inPlace = true → resolved.lent = [])
    (made : resolved.LendsMade)
    (allots : ∀ o, resolved.get? target = some o → edit.Allots o resolved.surroundings)
    (counted : ∀ b, resolved.get? target = some (.bounded b) → b.Counted)
    (done : resolved.applyEdit target edit = some (after, answer)) :
    w.KeepsTo used ((resolved.get? target).bind edit.refusal?)
      ({ after with aside := w.aside, lent := w.lent }, answer) := by
  obtain ⟨⟨o, rest⟩, taken, done⟩ := Option.bind_eq_some_iff.1 done
  obtain ⟨r, applied, done⟩ := Option.bind_eq_some_iff.1 done
  obtain ⟨rfl, rfl⟩ := Prod.mk.inj (Option.some.inj done)
  obtain ⟨there, rfl⟩ := eq_of_take? taken
  have made : (resolved.erase target).surroundings.LendsMade resolved.store := made
  have keeps : r.KeepsTo o resolved.store (edit.refusal? o) :=
    Object.keepsTo_apply (hosts_taken u.hosts there) (fits o there)
      (Surroundings.covers_of_alive (List.Subset.refl _)) made free
      ((allots o there).congr rfl) (fun b same => counted b (same ▸ there)) applied
  have judged : (Answer.ofExcept (Reply.answer r.store) r.answer).fault? = edit.refusal? o :=
    (Answer.fault?_ofExcept (Reply.fault?_answer r.store) _).trans keeps.refused?_eq
  rw [there]
  refine ⟨judged, fun refused => ?_⟩
  obtain ⟨fault, bound⟩ : ∃ fault, edit.refusal? o = some fault :=
    Option.ne_none_iff_exists'.1 (judged ▸ refused)
  rw [bound] at keeps
  obtain rfl : r = ⟨o, resolved.store, .error fault⟩ := keeps
  have kept := unchanged_putBack there
  exact {
    same := fun name unused => (kept.same name id).trans (u.same name unused)
    gone := fun name uses => (kept.same name id).trans (gone name uses)
    keeps := u.keeps trivial
    aside := rfl
    lent := rfl }

/-- An argument that is taken out of its register is gone. -/
theorem gone_of_edit? {what : Change} {edit : Edit α} {resolved : World α} {name : String}
    (found : w.edit? what = some (edit, resolved)) (uses : what.Uses name) :
    resolved.get? name = none :=
  Option.eq_none_iff_forall_ne_some.2 fun _ there => (get?_of_edit? found there).2 uses

/-- Only a window that is appended is lent out for a change. -/
theorem lent_of_edit? {what : Change} {edit : Edit α} {resolved : World α}
    (found : w.edit? what = some (edit, resolved)) (writes : what.inPlace = true) :
    resolved.lent = w.lent := by
  cases what
  case setAt | replaceUnit | lowerCase | upperCase =>
    obtain ⟨-, rfl⟩ := Prod.mk.inj (Option.some.inj found)
    rfl
  all_goals cases writes

/-- A change is judged by the edit that it is resolved to. -/
theorem refusal?_of_edit? {target : String} {what : Change} {edit : Edit α} {resolved : World α}
    (found : w.edit? what = some (edit, resolved)) :
    what.refusal? w target = (resolved.get? target).bind edit.refusal? := by
  have judged : ((w.edit? what).bind fun entry =>
      (entry.2.get? target).bind entry.1.refusal?) = (resolved.get? target).bind edit.refusal? := by
    rw [found]
    rfl
  cases what
  case moveForward => cases found
  all_goals exact judged

/-- A change that is not resolved, and one of an empty register, is not judged. -/
theorem refusal?_of_absent {target : String} {what : Change} (absent : w.get? target = none)
    (same : ∀ edit resolved, w.edit? what = some (edit, resolved) → resolved.get? target = none) :
    what.refusal? w target = none := by
  cases found : w.edit? what with
  | some entry =>
      obtain ⟨edit, resolved⟩ := entry
      rw [refusal?_of_edit? found, same edit resolved found]
      rfl
  | none =>
      cases what
      case moveForward count => rw [Change.refusal?, absent]
      all_goals
        rw [Change.refusal?, found]
        · rfl
        · rintro _ ⟨⟩

/-- A change that has not been resolved is refused only if more units are to be consumed than there
are. -/
theorem keepsTo_changeSpecial {target : String} {o : Object} {what : Change}
    (there : w.get? target = some o) (allots : what.Allots w target)
    (unresolved : w.edit? what = none) :
    w.KeepsTo what.Uses (what.refusal? w target) ((w.erase target).changeSpecial target o what) := by
  cases what
  case moveForward count =>
    cases o with
    | segment s =>
        rw [changeSpecial, Segment.moveForward, Change.refusal?, there]
        dsimp only
        by_cases inside : count ≤ s.length
        · rw [if_pos inside, if_neg (Nat.not_lt.2 inside)]
          exact keepsTo_none rfl
        · rw [if_neg inside, if_pos (Nat.lt_of_not_le inside)]
          exact ⟨rfl, fun _ => unchanged_putBack there⟩
    | buffer b | bounded b =>
        rw [Change.refusal?, there]
        exact keepsTo_none rfl
  case reserve additional =>
    have none : (Change.reserve additional).refusal? w target = Option.none := rfl
    rw [none]
    refine keepsTo_none ?_
    cases o with
    | segment s =>
        have can : s.canReserve α (w.erase target).surroundings additional = true :=
          Bool.or_eq_true_iff.2 (allots s there)
        rw [changeSpecial, Segment.reserve, if_pos can]
        rfl
    | buffer b | bounded b => rfl
  case appendOwned source =>
    have none : (Change.appendOwned source).refusal? w target = Option.none := rfl
    rw [none]
    refine keepsTo_none ?_
    cases o with
    | buffer b =>
        rw [changeSpecial]
        split
        next => rfl
        next other rest taken =>
          rw [Buffer.appendOwned, Buffer.appendSegments,
            Buffer.taking_of_opensList (allots b there)]
          rfl
    | segment s | bounded b => rfl
  case appendSegment | appendBuffer | appendWindow | prependSegment | replaceRange | substitute =>
    rw [Change.refusal?, unresolved]
    · exact keepsTo_none rfl
    · rintro _ ⟨⟩
  all_goals cases unresolved

theorem keepsTo_change (sound : w.Sound) (counted : w.Counted) (unlent : w.lent = [])
    {target : String} {what : Change} (allots : what.Allots w target) :
    w.KeepsTo what.Uses (what.refusal? w target) (w.change target what) := by
  have made := lendsMade_of_lent_eq unlent
  have resolves : ∀ {edit : Edit α} {resolved : World α},
      w.edit? what = some (edit, resolved) → Resolves what.Uses True w what edit resolved :=
    fun found => resolves_edit? sound (fun _ uses => uses) found
  unfold World.change
  split
  next absent =>
    have nothing : w.get? target = none := Option.map_eq_none_iff.1 absent
    rw [refusal?_of_absent nothing fun edit resolved found =>
      Option.eq_none_iff_forall_ne_some.2 fun o there =>
        Option.some_ne_none o ((get?_of_edit? found there).1.symm.trans nothing)]
    exact keepsTo_none rfl
  next o rest taken =>
    obtain ⟨there, rfl⟩ := eq_of_take? taken
    split
    next unresolved => exact keepsTo_changeSpecial there allots unresolved
    next edit resolved found =>
      rw [refusal?_of_edit? found]
      split
      next absent =>
        rw [refusal?_of_applyEdit_none absent]
        exact keepsTo_none rfl
      next after answer done =>
        have roomy : ∀ o, w.get? target = some o → edit.Allots o resolved.surroundings := by
          intro o there
          cases what
          case moveForward | reserve | appendOwned => cases found
          all_goals exact allots edit resolved o found there
        have free : edit.inPlace = true → resolved.lent = [] := fun writes =>
          (lent_of_edit? found ((resolves found).inPlace ▸ writes)).trans unlent
        exact keepsTo_applyEdit (resolves found).underway (fun _ => gone_of_edit? found)
          (fun o => (resolves found).fits target o) free (made.resolved sound found)
          (fun o there => roomy o (get?_of_edit? found there).1)
          (fun b there => counted target b (get?_of_edit? found there).1) done

/-! ## All actions -/

/-- An edit that comes from outside of the table. -/
theorem keepsTo_edit (sound : w.Sound) (counted : w.Counted) {target : String} {edit : Edit α}
    {relied : List Segment} (fair : (Action.edit target edit relied).Fair w) (unlent : w.lent = [])
    (allots : (Action.edit target edit relied).Allots w) :
    w.KeepsTo (fun _ => False) ((w.get? target).bind edit.refusal?)
      (w.act (.edit target edit relied)) := by
  obtain ⟨hosts, fits⟩ := fair
  have start : Underway (fun _ => False) True w [] w := .refl sound
  have arranged : w.store.Hosts (relied ++ edit.windows ++ w.alive) := by
    rw [← List.append_assoc] at hosts
    exact hosts.perm (List.perm_append_comm.append_right _)
  have out : Underway (fun _ => False) True w edit.windows { w with aside := relied ++ w.aside } :=
    (start.rearrange arranged).setAside
  have alive : ∀ o, { w with aside := relied ++ w.aside }.get? target = some o →
      edit.Fits o.segments ({ w with aside := relied ++ w.aside }.erase target).alive :=
    fun o _ => fits.mono fun s here =>
      List.mem_append_right _ (List.mem_append_left _ here)
  -- What is set aside for the edit does not matter to its bound.
  have judged : (w.get? target).bind edit.refusal? =
      (({ w with aside := relied ++ w.aside } : World α).get? target).bind edit.refusal? := rfl
  rw [act, judged]
  split
  next after answer done =>
    have made : ({ w with aside := relied ++ w.aside } : World α).LendsMade :=
      lendsMade_of_lent_eq unlent
    exact keepsTo_applyEdit out (fun _ none => none.elim) alive (fun _ => unlent) made
      (fun o there => (allots o there).congr rfl) (counted target) done
  next absent =>
    rw [refusal?_of_applyEdit_none absent]
    exact keepsTo_none rfl

omit [TextUnit α] in
theorem lent_eq_of_unlent {action : Action α} (unlent : action.Unlent w) : w.lent = [] := by
  cases action with
  | edit => exact unlent
  | step request =>
      cases request with
      | lend => exact unlent.elim
      | _ => exact unlent

/-- **Every action keeps to its bound.**  It is refused just where the index, the range or the number
that it names does not fit the object that it meets, with the fault for that; and then nothing has
changed, but that an argument which was handed over is gone. -/
theorem keepsTo_act (sound : w.Sound) (counted : w.Counted) {action : Action α}
    (fair : action.Fair w) (unlent : action.Unlent w) (allots : action.Allots w) :
    w.KeepsTo action.Uses (action.refusal? w) (w.act action) := by
  have still : ∀ {r : World α × Answer}, r.2.fault? = none →
      w.KeepsTo (fun _ => False) none r := keepsTo_none
  cases action with
  | edit target edit relied => exact keepsTo_edit sound counted fair unlent allots
  | step step =>
      cases step with
      | make dest what => exact keepsTo_make allots w dest
      | ask source query => exact keepsTo_still (fault?_ask sound counted allots)
      | derive source dest what => exact keepsTo_derive w source dest what
      | change target what => exact keepsTo_change sound counted unlent allots
      | read source actions =>
          exact keepsTo_read sound (lendsMade_of_lent_eq unlent) allots
      | write target actions =>
          exact keepsTo_write sound (lendsMade_of_lent_eq unlent) allots
      | ofSegment dest source move =>
          refine still ?_
          rw [act, World.step, ofSegment]
          split <;> rfl
      | bound dest source maxSize =>
          refine still ?_
          rw [act, World.step, bound]
          split <;> rfl
      | unbound source dest =>
          refine still ?_
          rw [act, World.step, unbound]
          split <;> rfl
      | ofJson dest json => exact still (fault?_putRead (fun _ => rfl) _)
      | ofValue dest value => exact still (fault?_putRead (fun _ => rfl) _)
      | split source c dest =>
          refine still ?_
          rw [act, World.step, split]
          split
          · rfl
          · cases dest <;> rfl
      | drop target =>
          refine still ?_
          rw [act, World.step, drop]
          split <;> rfl
      | drain source job =>
          refine still ?_
          rw [act, World.step, drainObject]
          split
          · rfl
          · split <;> (rw [drainWith]; split <;> rfl)
      | lend source i inner => exact unlent.elim

/-- Every bounded buffer is still counted: a refused action has changed none, and any other has not
run out of room. -/
theorem KeepsTo.counted {action : Action α} {bound? : Option Fault}
    (keeps : w.KeepsTo used bound? (w.act action)) (sound : w.Sound) (made : w.LendsMade)
    (counted : w.Counted) (fair : action.Fair w) : (w.act action).1.Counted := by
  by_cases refused : (w.act action).2.fault? = none
  · refine counted_act sound made counted fair ?_
    rintro ⟨full, -⟩
    rw [full] at refused
    cases refused
  · have unchanged := keeps.unchanged refused
    refine counted.fewer fun name o there => ?_
    by_cases uses : used name
    · cases (unchanged.gone name uses).symm.trans there
    · exact (unchanged.same name uses).symm.trans there

end World

end SegmentedText
