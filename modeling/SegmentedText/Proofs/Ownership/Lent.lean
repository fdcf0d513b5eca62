import SegmentedText.Proofs.Growing.Room
import SegmentedText.Proofs.Ownership.Reached

/-!
# What is lent out in a world

Windows are lent out around a step, or for the one change that appends a window.  When the step is
over, no more is lent out than before (`World.lent_step`), so in a reached world nothing is
(`World.Reached.lent_eq`).

While windows are lent out, their objects are set aside, so their arrays have been made
(`World.LendsMade`).  That is all that an append has to know of them: a new array is never one
that is lent out.
-/

set_option autoImplicit false

namespace SegmentedText
namespace World

variable {α : Type} {w : World α}

/-! ## Arguments -/

theorem rest_of_takeSegment? {name : String} {move : Bool} {s : Segment} {rest : World α}
    (taken : w.takeSegment? name move = some (s, rest)) : rest = w.erase name ∨ rest = w := by
  obtain ⟨o, -, taken⟩ := Option.bind_eq_some_iff.1 taken
  obtain ⟨t, -, taken⟩ := Option.bind_eq_some_iff.1 taken
  cases move with
  | true => exact .inl (Prod.mk.inj (Option.some.inj taken)).2.symm
  | false => exact .inr (Prod.mk.inj (Option.some.inj taken)).2.symm

theorem rest_of_takeBuffer? {name : String} {move : Bool} {b : Buffer} {rest : World α}
    (taken : w.takeBuffer? name move = some (b, rest)) : rest = w.erase name ∨ rest = w := by
  obtain ⟨o, -, taken⟩ := Option.bind_eq_some_iff.1 taken
  cases move with
  | true =>
      obtain ⟨t, -, taken⟩ := Option.bind_eq_some_iff.1 taken
      exact .inl (Prod.mk.inj (Option.some.inj taken)).2.symm
  | false =>
      obtain ⟨t, -, taken⟩ := Option.bind_eq_some_iff.1 taken
      exact .inr (Prod.mk.inj (Option.some.inj taken)).2.symm

theorem lent_of_takeSegment? {name : String} {move : Bool} {s : Segment} {rest : World α}
    (taken : w.takeSegment? name move = some (s, rest)) : rest.lent = w.lent := by
  rcases rest_of_takeSegment? taken with rfl | rfl <;> rfl

theorem lent_of_takeBuffer? {name : String} {move : Bool} {b : Buffer} {rest : World α}
    (taken : w.takeBuffer? name move = some (b, rest)) : rest.lent = w.lent := by
  rcases rest_of_takeBuffer? taken with rfl | rfl <;> rfl

/-! ## After a step -/

theorem lent_putPieces (name : String) (i : Nat) (pieces : List Object) :
    (w.putPieces name i pieces).lent = w.lent := by
  induction pieces generalizing w i with
  | nil => rfl
  | cons piece rest ih => exact ih (w := w.put (name ++ toString i) piece) (i + 1)

variable [TextUnit α]

theorem lent_readOne (w : World α) (r : Reader α) (action : ReadAction) :
    (w.readOne r action).2.1.lent = w.lent := by
  cases action with
  | readUntil c sink handover =>
      rw [readOne, readIntoSink]
      rcases taken : w.take? sink with _ | ⟨s | b | b, rest⟩
      · rfl
      · rfl
      · obtain ⟨-, rfl⟩ := eq_of_take? taken
        rfl
      · rfl
  | read handover =>
      rw [readOne]
      split <;> rfl
  | readInto | back | remaining | sizeHint | take | rest => rfl

theorem lent_readAll (w : World α) (r : Reader α) (actions : List ReadAction) :
    (w.readAll r actions).1.lent = w.lent := by
  induction actions generalizing w r with
  | nil => rfl
  | cons action rest ih =>
      have first := w.lent_readOne r action
      rw [readAll]
      split
      next used => rwa [used] at first
      next r' after _ used =>
        rw [used] at first
        exact (ih after r').trans first

theorem lent_read (w : World α) (source : String) (actions : List ReadAction) :
    (w.read source actions).1.lent = w.lent := by
  unfold read
  split
  next => rfl
  next o rest taken =>
    obtain ⟨-, rfl⟩ := eq_of_take? taken
    split
    next => rfl
    next b _ =>
      have used := lent_readAll { w.erase source with aside := o.segments ++ w.aside }
        (.ofBuffer b) actions
      dsimp only
      split <;> exact used

theorem lent_write (w : World α) (target : String) (actions : List WriteAction) :
    (w.write target actions).1.lent = w.lent := by
  unfold write
  split
  next taken =>
    obtain ⟨-, rfl⟩ := eq_of_take? taken
    dsimp only
    split <;> rfl
  next => rfl

theorem lent_changeSpecial (w : World α) (target : String) (o : Object) (change : Change) :
    (w.changeSpecial target o change).1.lent = w.lent := by
  unfold changeSpecial
  split
  next => split <;> rfl
  next => split <;> rfl
  next =>
    split
    next => rfl
    next taken =>
      have kept := lent_of_takeBuffer? taken
      split <;> exact kept
  next => rfl

theorem lent_change (w : World α) (target : String) (change : Change) :
    (w.change target change).1.lent = w.lent := by
  unfold World.change
  split
  next => rfl
  next object rest taken =>
    obtain ⟨-, rfl⟩ := eq_of_take? taken
    split
    next => exact lent_changeSpecial (w.erase target) target object change
    next => split <;> rfl

theorem lent_step (w : World α) (step : Step) : (w.step step).1.lent = w.lent := by
  cases step with
  | make dest what =>
      rw [step, make]
      split <;> rfl
  | ofSegment dest source move =>
      rw [step, ofSegment]
      split
      next taken =>
        have kept := lent_of_takeSegment? taken
        exact kept
      next => rfl
  | bound dest source maxSize =>
      rw [step, bound]
      split
      next taken =>
        have kept := lent_of_takeBuffer? taken
        exact kept
      next => rfl
  | unbound source dest =>
      rw [step, unbound]
      split
      next taken =>
        obtain ⟨-, rfl⟩ := eq_of_take? taken
        rfl
      next => rfl
  | ofJson | ofValue =>
      rw [step, putRead.eq_def]
      split <;> rfl
  | ask | drain => rfl
  | derive source dest what =>
      rw [step, derive]
      split <;> rfl
  | split source c dest =>
      rw [step, World.split]
      split
      next => rfl
      next object _ =>
        cases dest with
        | none => rfl
        | some name => exact lent_putPieces (w := w.withStore (object.split c w.store).2) name 0 _
  | change target what => exact w.lent_change target what
  | drop target =>
      rw [step, drop]
      split <;> rfl
  | read source actions => exact w.lent_read source actions
  | write target actions => exact w.lent_write target actions
  | lend source i inner =>
      rw [step]
      split
      next => rfl
      next taken =>
        obtain ⟨-, rfl⟩ := eq_of_take? taken
        split <;> rfl

theorem lent_act (w : World α) (action : Action α) : (w.act action).1.lent = w.lent := by
  cases action with
  | step step => exact w.lent_step step
  | edit target edit relied =>
      rw [act]
      split <;> rfl

/-- Nothing is lent out between actions. -/
theorem Reached.lent_eq {barred : World α → Action α → Prop} (reached : Reached barred w) :
    w.lent = [] := by
  induction reached with
  | start => rfl
  | act _ _ _ ih => exact (lent_act _ _).trans ih

/-! ## Arrays that are lent out -/

omit [TextUnit α]

/-- Only arrays that have been made are lent out. -/
def LendsMade (w : World α) : Prop := w.surroundings.LendsMade w.store

theorem lendsMade_of_lent_eq (none : w.lent = []) : w.LendsMade := by
  intro id here
  rw [surroundings, none] at here
  exact absurd here List.not_mem_nil

/-- The world with other arrays lent out. -/
def withLent (w : World α) (lent : List StorageId) : World α := { w with lent }

/-- The arrays of windows that are alive may be lent out. -/
theorem Sound.lendsMade (sound : w.Sound) {lent : List StorageId}
    (alive : ∀ id ∈ lent, ∃ s ∈ w.alive, s.storage = id) : (w.withLent lent).LendsMade := by
  intro id here
  obtain ⟨s, shown, rfl⟩ := alive id here
  exact (sound.placed s shown).made

/-- A window over an array that has been made may be lent out. -/
theorem LendsMade.cons (made : w.LendsMade) {lent : List StorageId} (same : lent = w.lent)
    {s : Segment} (placed : s.Placed w.store) : ({ w with lent := s.storage :: lent }).LendsMade := by
  subst same
  intro id here
  rcases List.mem_cons.1 here with rfl | before
  · exact placed.made
  · exact made id before

/-- So may one of an object that is set aside. -/
theorem LendsMade.settingAside (made : w.LendsMade) (sound : w.Sound) {source : String}
    {o : Object} (there : w.get? source = some o) {i : Nat} {s : Segment}
    (found : o.segmentAt? i = some s) :
    (w.settingAside source o (s.storage :: w.lent)).LendsMade := by
  have alive := subset_alive_of_get? there (mem_of_segmentAt? found)
  exact LendsMade.cons made rfl (sound.placed s alive)

variable [TextUnit α]

/-- To resolve a change lends out nothing but a window that is alive. -/
theorem LendsMade.resolved (made : w.LendsMade) (sound : w.Sound) {change : Change} {edit : Edit α}
    {resolved : World α} (found : w.edit? change = some (edit, resolved)) :
    resolved.LendsMade := by
  cases change
  case appendSegment | prependSegment =>
    obtain ⟨⟨s, rest⟩, taken, found⟩ := Option.bind_eq_some_iff.1 found
    obtain ⟨-, rfl⟩ := Prod.mk.inj (Option.some.inj found)
    rcases rest_of_takeSegment? taken with rfl | rfl <;> exact made
  case appendBuffer =>
    obtain ⟨other, -, found⟩ := Option.bind_eq_some_iff.1 found
    obtain ⟨b, -, found⟩ := Option.bind_eq_some_iff.1 found
    obtain ⟨-, rfl⟩ := Prod.mk.inj (Option.some.inj found)
    exact made
  case appendWindow source i =>
    obtain ⟨⟨units, rest⟩, lent, found⟩ := Option.bind_eq_some_iff.1 found
    obtain ⟨-, rfl⟩ := Prod.mk.inj (Option.some.inj found)
    obtain ⟨o, there, lent⟩ := Option.bind_eq_some_iff.1 lent
    obtain ⟨s, placed, lent⟩ := Option.bind_eq_some_iff.1 lent
    obtain ⟨-, rfl⟩ := Prod.mk.inj (Option.some.inj lent)
    have alive := subset_alive_of_get? there (mem_of_segmentAt? placed)
    exact LendsMade.cons made rfl (sound.placed s alive)
  case replaceRange start stop replacement =>
    obtain ⟨⟨b, rest⟩, taken, found⟩ := Option.bind_eq_some_iff.1 found
    obtain ⟨-, rfl⟩ := Prod.mk.inj (Option.some.inj found)
    cases replacement with
    | register source move => rcases rest_of_takeBuffer? taken with rfl | rfl <;> exact made
    | text text form =>
        obtain ⟨rfl, rfl⟩ := Prod.mk.inj (Option.some.inj taken)
        cases form <;>
          exact Surroundings.LendsMade.grow made
            (Nat.le_trans (Nat.le_succ _) (Nat.le_of_eq (Segment.size_allocate ..).symm))
  case substitute opening closing values =>
    obtain ⟨⟨provider, rest⟩, provided, found⟩ := Option.bind_eq_some_iff.1 found
    obtain ⟨-, rfl⟩ := Prod.mk.inj (Option.some.inj found)
    cases values with
    | table | same =>
        obtain ⟨-, rfl⟩ := Prod.mk.inj (Option.some.inj provided)
        exact made
    | register source =>
        obtain ⟨object, -, provided⟩ := Option.bind_eq_some_iff.1 provided
        obtain ⟨b, -, provided⟩ := Option.bind_eq_some_iff.1 provided
        obtain ⟨-, rfl⟩ := Prod.mk.inj (Option.some.inj provided)
        exact made
  case appendOwned | moveForward | reserve => cases found
  all_goals
    obtain ⟨-, rfl⟩ := Prod.mk.inj (Option.some.inj found)
    exact made

end World
end SegmentedText
