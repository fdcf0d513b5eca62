import SegmentedText.Proofs.Lending.Steps
import SegmentedText.Proofs.Ownership.Reached

/-!
# Lent windows are not seen

While a window is lent out, its array is not written to in place, and a segment that is extended
moves.  The main statement is that this is not seen (`World.unseen_while_lent`): an action that
overwrites no text in place leaves the window as it is, gives the answer that it gives when
nothing is lent out, and leaves every object with the same text.  It does not matter which
other objects share the array, nor whether the window itself is what is appended.

The one thing that is seen is a want of room (`World.lending_shows_in_room`).  A segment that moves
has room to spare, so units that would have been refused can be taken; and to move it there
has to be room.
-/

set_option autoImplicit false

namespace SegmentedText

/-! ## Actions -/

/-- The registers in whose objects an action makes room. -/
def Action.MakesRoom {α : Type} (action : Action α) (name : String) : Prop :=
  match action with
  | .step request => request.MakesRoom name
  | .edit target what _ => what.makesRoom = true ∧ name = target

variable {α : Type} [TextUnit α]

/-- An action has the room that it needs on account of what is lent out. -/
def Action.HasRoom (w : World α) : Action α → Prop
  | .step request => request.HasRoom w
  | .edit target what _ =>
      ∀ o, w.get? target = some o → what.makesRoom = true → o.fills α w.surroundings = true

namespace World

variable {w : World α} {lent : List StorageId}

theorem act_edit (target : String) (edit : Edit α) (relied : List Segment) :
    w.act (.edit target edit relied) =
      w.ended (({ w with aside := relied ++ w.aside } : World α).applyEdit target edit) := by
  rw [act]
  cases ({ w with aside := relied ++ w.aside } : World α).applyEdit target edit <;> rfl

/-- Every action that overwrites no text in place runs alike, however much is lent out. -/
theorem compared_act (sound : w.Sound) (more : w.lent ⊆ lent) (made : w.LendsMade)
    (made' : (w.withLent lent).LendsMade) {action : Action α} (fair : action.Fair w)
    (calm : action.inPlace = false) :
    Compared action.MakesRoom (action.HasRoom (w.withLent lent)) (w.act action)
      ((w.withLent lent).act action) := by
  cases action with
  | step request => exact compared_step sound more made made' calm
  | edit target edit relied =>
      obtain ⟨hosts, fits⟩ := fair
      have kept : relied ⊆ (({ w with aside := relied ++ w.aside } : World α).erase target).alive :=
        fun s here => List.mem_append_right _ (List.mem_append_left _ here)
      have applied := compared_applyEdit (hosts_relied hosts) (fun _ _ => fits.mono kept) calm more
        made made'
      rw [act_edit, act_edit]
      have ended := compared_ended (w := w) applied lent
      exact ⟨ended.alike, fun room => ended.unrefused fun o there makes =>
        (Object.fills_congr rfl).trans (room o there makes)⟩

/-- A window is appended as its units are. -/
theorem compared_appendWindow (sound : w.Sound) (made : w.LendsMade) {target source : String}
    {i : Nat} {s : Segment} (found : (w.get? source).bind (·.segmentAt? i) = some s) :
    Compared (Step.change target (.appendWindow source i)).MakesRoom
      ((Change.appendWindow source i).HasRoom w target)
      (w.act (.edit target (.appendSlice (s.content w.store)) []))
      (w.step (.change target (.appendWindow source i))) := by
  obtain ⟨o, there, found⟩ := Option.bind_eq_some_iff.1 found
  have placed := sound.placed s (subset_alive_of_get? there (mem_of_segmentAt? found))
  have resolved : w.edit? (.appendWindow source i) =
      some (.appendSlice (s.content w.store), w.withLent (s.storage :: w.lent)) := by
    rw [edit?, lentWindow?, there]
    show ((o.segmentAt? i).bind _).bind _ = _
    rw [found]
    rfl
  have applied : Option.Rel _ (w.applyEdit target (.appendSlice (s.content w.store)))
      ((w.withLent (s.storage :: w.lent)).applyEdit target (.appendSlice (s.content w.store))) :=
    compared_applyEdit sound (fun _ _ => trivial) rfl (List.subset_cons_self s.storage w.lent) made
      (made.cons rfl placed)
  have ended := compared_ended (w := w) applied w.lent
  rw [act_edit]
  cases held : w.get? target with
  | none =>
      have absent : (w.withLent (s.storage :: w.lent)).applyEdit target
          (.appendSlice (s.content w.store)) = none := by
        rw [applyEdit, take?_withLent, take?, held]
        rfl
      rw [absent] at ended
      rw [World.step, change, take?, held]
      exact ⟨ended.alike, fun _ => ended.unrefused fun o there =>
        absurd (held.symm.trans there).symm (Option.some_ne_none o)⟩
  | some object =>
      rw [World.step, change_of_edit? held resolved]
      exact ⟨ended.alike, fun room => ended.unrefused fun o there => room _ _ o resolved there⟩

variable {barred : World α → Action α → Prop}

/-- **What is lent out is not seen, as long as there is room.**

While a window that an action does not touch is lent out, an action that overwrites no text in place
leaves it as it is, and everything else that it does not touch.  Unless it is refused room, with
the window lent out or without, it gives the same answer both times, and leaves all objects with
the same text, layout and bounds; the objects themselves are the same but for those in which it
makes room.  If it is not refused room without, it is not refused it with the window lent out
either, as long as what it appends to can be moved, and what it reserves or streams can be had.

So it is for a step that runs inside of another, and for a window that is itself what is
appended. -/
theorem unseen_while_lent (reached : Reached barred w) :
    (∀ (action : Action α) (s : Segment), action.Fair w → action.inPlace = false →
      let lending := w.withLent (s.storage :: w.lent)
      w.Bystander (action.Touches lending) s →
        (∀ t, w.Bystander (action.Touches lending) t →
          t.content (lending.act action).1.store = t.content w.store) ∧
        Compared action.MakesRoom (action.HasRoom lending) (w.act action) (lending.act action)) ∧
    (∀ (source : String) (i : Nat) (inner : Step) (o : Object) (s : Segment),
      w.get? source = some o → o.segmentAt? i = some s → inner.inPlace = false →
        let unlent := (w.settingAside source o w.lent).step inner
        let lending := w.step (.lend source i inner)
        s.content lending.1.store = s.content w.store ∧
        Compared (Step.lend source i inner).MakesRoom ((Step.lend source i inner).HasRoom w)
          (unlent.1.put source o, unlent.2) lending) ∧
    (∀ (target source : String) (i : Nat) (s : Segment),
      (w.get? source).bind (·.segmentAt? i) = some s →
        let unlent := w.act (.edit target (.appendSlice (s.content w.store)) [])
        let lending := w.step (.change target (.appendWindow source i))
        (source ≠ target → s.content lending.1.store = s.content w.store) ∧
        Compared (Step.change target (.appendWindow source i)).MakesRoom
          ((Change.appendWindow source i).HasRoom w target) unlent lending) := by
  have sound := reached.sound
  have made := lendsMade_of_lent_eq reached.lent_eq
  refine ⟨fun action s fair calm bystander => ⟨fun t here => ?_, ?_⟩,
    fun source i inner o s there found calm => ⟨?_, ?_⟩,
    fun target source i s found => ⟨fun other => ?_, compared_appendWindow sound made found⟩⟩
  · have second := (underway_act (w := w.withLent (s.storage :: w.lent)) sound fair).of_withLent
    exact second.content_eq calm sound here
  · have placed := sound.placed s (Underway.alive_of_bystander bystander)
    exact compared_act sound (List.subset_cons_self _ _) made (made.cons rfl placed) fair calm
  · have whole := underway_step sound (.lend source i inner)
    have apart : ¬(Step.lend source i inner).Touches w source := by
      rw [touches_lend there found]
      exact fun touches => touches.2 rfl
    exact whole.content_eq calm sound (.inr ⟨source, o, apart, there, mem_of_segmentAt? found⟩)
  · have aside := sound_settingAside sound there w.lent
    have made' := made.settingAside sound there found
    have compared := compared_step aside (List.subset_cons_self s.storage w.lent) made made' calm
    have second := (underway_step
      (w := (w.settingAside source o w.lent).withLent (s.storage :: w.lent))
      aside inner).of_withLent
    have back := compared_settingAside sound there calm (underway_step aside inner) second compared
      w.lent w.lent
    rw [step_lend inner there found]
    exact ⟨fun room room' =>
      let alike := back.alike room room'
      ⟨alike.answer, alike.shown, alike.same⟩,
      fun room => back.unrefused (room o s there found)⟩
  · obtain ⟨o, there, found⟩ := Option.bind_eq_some_iff.1 found
    have whole := underway_step sound (.change target (.appendWindow source i))
    refine whole.content_eq rfl sound (.inr ⟨source, o, ?_, there, mem_of_segmentAt? found⟩)
    rintro (touches | uses)
    · exact other touches
    · exact uses

/-- A buffer is shown into another over the same array while its window is lent out; and so are a
text and the window appended. -/
theorem unseen_while_lent_sharedLines :
    let s : Segment := ⟨⟨0⟩, 0, 5, 5⟩
    let b : Object := .buffer ⟨.held [s], {}⟩
    let writing : Action Char := .step (.write "a" [.showObject "b", .write '!'])
    let unlent := (sharedLines.settingAside "b" b []).step (.change "a" (.appendText "!"))
    let lending := sharedLines.step (.lend "b" 0 (.change "a" (.appendText "!")))
    s.content ((sharedLines.withLent [s.storage]).act writing).1.store = ['a', 'b', '.', 'c', 'd'] ∧
      Alike writing.MakesRoom (sharedLines.act writing)
        ((sharedLines.withLent [s.storage]).act writing) ∧
      Alike (Step.lend "b" 0 (.change "a" (.appendText "!"))).MakesRoom
        (unlent.1.put "b" b, unlent.2) lending ∧
      unlent.1.get? "a" = some (.buffer ⟨.held [⟨⟨0⟩, 0, 6, 12⟩], {}⟩) ∧
      lending.1.get? "a" = some (.buffer ⟨.held [⟨⟨1⟩, 0, 6, 524⟩], {}⟩) ∧
      Alike (Step.change "a" (.appendWindow "b" 0)).MakesRoom
        (sharedLines.act (.edit "a" (.appendSlice ['a', 'b', '.', 'c', 'd']) []))
        (sharedLines.step (.change "a" (.appendWindow "b" 0))) := by
  intro s b writing unlent lending
  obtain ⟨acting, inside, appending⟩ := unseen_while_lent reached_sharedLines
  have there : sharedLines.get? "b" = some b := by decide
  have window : (sharedLines.get? "b").bind (·.segmentAt? 0) = some s := by decide
  have shown : s.content sharedLines.store = ['a', 'b', '.', 'c', 'd'] := by decide
  have lent : sharedLines.lent = [] := by decide
  have bystander : sharedLines.Bystander
      (writing.Touches (sharedLines.withLent (s.storage :: sharedLines.lent))) s :=
    .inr ⟨"b", b, (by decide : ¬"b" = "a"), there, List.mem_cons_self⟩
  obtain ⟨kept, outside⟩ := acting writing s trivial rfl bystander
  have kept := kept s bystander
  rw [lent] at kept outside
  have room : writing.HasRoom (sharedLines.withLent [s.storage]) := by
    intro c held action here
    obtain rfl : (⟨.held [⟨⟨0⟩, 0, 5, 12⟩], {}⟩ : Buffer) = c := by
      have there : (sharedLines.withLent [s.storage]).get? "a" =
          some (.buffer ⟨.held [⟨⟨0⟩, 0, 5, 12⟩], {}⟩) := by decide
      exact Object.buffer.inj (Option.some.inj (there.symm.trans held))
    rcases List.mem_cons.1 here with rfl | here
    · intro o source t shows long
      obtain rfl : b = o := Option.some.inj ((by decide :
        ((sharedLines.withLent [s.storage]).erase "a").get? "b" = some b).symm.trans source)
      obtain rfl := List.mem_singleton.1 shows
      exact ⟨by decide, by decide, by decide⟩
    · obtain rfl := List.mem_singleton.1 here
      exact ⟨by decide, by decide, by decide⟩
  obtain ⟨-, within⟩ := inside "b" 0 (.change "a" (.appendText "!")) b s there rfl rfl
  rw [lent] at within
  obtain ⟨-, behind⟩ := appending "a" "b" 0 s window
  rw [shown] at behind
  have plain : (sharedLines.act writing).2 ≠ .fault .roomExceeded := by decide
  refine ⟨kept.trans shown, outside.alike plain (outside.unrefused room plain),
    within.alike (by decide) (by decide), by decide, by decide,
    behind.alike (by decide) (by decide)⟩

/-- A buffer with room for three units, behind which no segment can be opened that is as large as
its layout asks for, and another over the same array. -/
def roomForThree : World Char :=
  ((((({} : World Char).act (.step (.make "s" (.segmentOfArray "ab" 5)))).1.act
    (.step (.make "b" (.buffer { initialCapacity := 9223372036854775808 })))).1.act
    (.step (.change "b" (.appendSegment "s" true)))).1.act (.step (.derive "b" "c" .shared))).1

/-- A word in an array that is too large for one half as large again, and another over the same
array. -/
def widestWord : World Char :=
  ((({} : World Char).act (.step (.make "s" (.segmentOfArray "ab" 1729382256910270464)))).1.act
    (.step (.derive "s" "c" .shared))).1

/-- Six units are refused where there is room for three, unless the window in front of them is lent
out and they move to a larger array.  One unit is taken where there is room for it, unless a
window is lent out that cannot be moved to a larger array. -/
theorem lending_shows_in_room :
    let s : Segment := ⟨⟨0⟩, 0, 2, 2⟩
    let extending : Action Char := .step (.change "b" (.extend "wxyz12"))
    let lending := roomForThree.step (.lend "c" 0 (.change "b" (.extend "wxyz12")))
    (Reached (fun _ _ => False) roomForThree ∧
      roomForThree.Bystander (extending.Touches (roomForThree.withLent [s.storage])) s ∧
      (roomForThree.act extending).2 = .fault .roomExceeded ∧
      (roomForThree.act extending).1.dump =
        [("c", .buffer [⟨"ab", 2⟩]), ("b", .buffer [⟨"abwxy", 5⟩])] ∧
      lending.2 = .done ∧
      lending.1.dump = [("b", .buffer [⟨"abwxyz12", 517⟩]), ("c", .buffer [⟨"ab", 2⟩])] ∧
      ¬Alike extending.MakesRoom (roomForThree.act extending)
        ((roomForThree.withLent [s.storage]).act extending)) ∧
    Reached (fun _ _ => False) widestWord ∧
      (widestWord.step (.change "s" (.append 'w'))).2 = .done ∧
      (widestWord.step (.lend "c" 0 (.change "s" (.append 'w')))).2 = .fault .roomExceeded := by
  intro s extending lending
  have there : roomForThree.get? "c" =
      some (.buffer ⟨.held [s], { initialCapacity := 9223372036854775808 }⟩) := by decide
  have apart : ¬extending.Touches (roomForThree.withLent [s.storage]) "c" := by
    rintro (same | uses)
    · exact absurd same (by decide)
    · exact uses
  have refused : (roomForThree.act extending).2 = .fault .roomExceeded := by decide
  have done : ((roomForThree.withLent [s.storage]).act extending).2 = .done := by decide
  refine ⟨⟨.act (.act (.act (.act .start trivial id) trivial id) trivial id) trivial id,
    .inr ⟨"c", _, apart, there, List.mem_cons_self⟩, refused, by decide, by decide,
    by decide +kernel, fun alike => ?_⟩, .act (.act .start trivial id) trivial id, by decide,
    by decide⟩
  cases done.symm.trans (alike.answer.trans refused)

end World

end SegmentedText
