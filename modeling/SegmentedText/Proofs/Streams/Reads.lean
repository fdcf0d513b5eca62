import SegmentedText.Proofs.Ownership.Lent
import SegmentedText.Proofs.Streams.Tapes

/-!
# Reading in a world

A reader in a world follows a tape as long as it is used (`World.Tapes`), while the sinks of its
lines are in registers; and so everything that is told of a run is what the tape tells.  A use is
refused only where it does not find room: a destination, or room for a line in its sink
(`ReadAction.Finds`).  It is the last one then, and what has been read before it is what the tape
of the uses before it tells (`World.told_readAll`).

The main statement is about reading the object in a register, which is set aside meanwhile
(`World.read_eq_tape`).
-/

set_option autoImplicit false

namespace SegmentedText

variable {α : Type} [TextUnit α]

namespace World

section

omit [TextUnit α]

/-- The buffer in a register that can be a sink; a register that does not exist is as good as one
with an empty buffer. -/
def sinkBuffer? (w : World α) (name : String) : Option Buffer :=
  match w.get? name with
  | none => some {}
  | some (.buffer b) => some b
  | some _ => none

/-- The text in a register that can be a sink. -/
def sinkText? (w : World α) (name : String) : Option (List α) :=
  (w.sinkBuffer? name).map fun b => b.content w.store

theorem erase_of_get?_eq_none {w : World α} {name : String} (none : w.get? name = none) :
    w.erase name = w := by
  have others : w.registers.filter (·.1 != name) = w.registers :=
    List.filter_eq_self.2 fun entry here => by
      have other := List.lookup_eq_none_iff.1 none entry here
      simpa [bne_comm] using other
  rw [erase, others]

/-- A buffer that can be a sink is hosted beside the others when it is out of the table. -/
theorem hosts_of_sinkBuffer? {w : World α} (sound : w.Sound) {sink : String} {b : Buffer}
    (found : w.sinkBuffer? sink = some b) :
    w.store.Hosts (b.segments ++ (w.erase sink).alive) := by
  unfold sinkBuffer? at found
  split at found
  next vacant =>
    obtain rfl := Option.some.inj found
    rw [erase_of_get?_eq_none vacant]
    exact sound
  next there =>
    obtain rfl := Option.some.inj found
    have hosts : w.store.Hosts ([] ++ w.alive) := sound
    exact hosts_taken hosts there
  next => cases found

theorem sinkBuffer?_put (w : World α) (name other : String) (b : Buffer) :
    (w.put name (.buffer b)).sinkBuffer? other =
      if other = name then some b else w.sinkBuffer? other := by
  rw [sinkBuffer?, get?_put]
  by_cases same : other = name
  · rw [if_pos same, if_pos same]
  · rw [if_neg same, if_neg same, sinkBuffer?]

theorem sinkBuffer?_erase (w : World α) {name other : String} (apart : other ≠ name) :
    (w.erase name).sinkBuffer? other = w.sinkBuffer? other := by
  rw [sinkBuffer?, get?_erase, if_neg apart]
  rfl

end

/-- A reader in a world, whose segments are set aside, is what a tape is, and so are the sinks. -/
structure Tapes (w : World α) (r : Reader α) (segments : List Segment) (t : Tape α) : Prop where
  sound : w.Sound
  made : w.LendsMade
  aside : segments ⊆ w.aside
  follows : r.Follows segments w.store t
  sinks : w.sinkText? = t.sinks

end World

/-- There is room for what a use of a reader asks for: a destination, or a line in its sink. -/
def ReadAction.Finds (w : World α) (t : Tape α) : ReadAction → Prop
  | .readInto size _ => fitsMemory (TextUnit.kind α).width size = true
  | .readUntil c sink _ =>
      let line := lineOf (TextUnit.ofChar c) t.ahead
      ∀ b, w.sinkBuffer? sink = some b → b.Finds α w.surroundings line.length line.length
  | _ => True

namespace World

/-- What one use of a reader comes to: what its tape tells, unless it did not find room. -/
def Told (w : World α) (segments : List Segment) (t : Tape α) (action : ReadAction)
    (used : Reader α × World α × Except Fault ReadOutcome) : Prop :=
  (used.2.2 = .error .roomExceeded ∧ ¬action.Finds w t ∧ used.1.On segments ∧
    t.Begun used.2.1.sinkText? action) ∨
    used.2.2 = .ok (t.step action).2 ∧ used.2.1.Tapes used.1 segments (t.step action).1

variable {w w' : World α} {r : Reader α} {segments : List Segment} {t : Tape α}

omit [TextUnit α] in
/-- A sink that is not touched keeps its text. -/
theorem sinkText?_of_underway {touched : String → Prop} {calm : Prop} {hand : List Segment}
    (u : Underway touched calm w hand w') (quiet : calm) (sound : w.Sound) {name : String}
    (apart : ¬touched name) : w'.sinkText? name = w.sinkText? name := by
  unfold sinkText? sinkBuffer?
  rw [u.same name apart]
  cases there : w.get? name with
  | none => rfl
  | some o =>
      cases o with
      | segment s | bounded b => rfl
      | buffer b =>
          exact congrArg some (contentOf_congr fun s here =>
            u.content_eq quiet sound (.inr ⟨name, _, apart, there, here⟩))

/-- A line is read into a buffer that is out of the table, which is put into its register. -/
def filledSink (rest : World α) (r : Reader α) (delimiter : α) (sink : String) (b : Buffer) :
    Reader α × World α × Except Fault ReadOutcome :=
  let read := r.readUntil delimiter rest.surroundings b rest.store
  (read.1, (rest.withStore read.2.store).put sink (.buffer read.2.object),
    read.2.answer.map .found)

theorem readIntoSink_of_sinkBuffer? {sink : String} {b : Buffer}
    (found : w.sinkBuffer? sink = some b) (delimiter : α) :
    w.readIntoSink r delimiter sink = (w.erase sink).filledSink r delimiter sink b := by
  unfold sinkBuffer? at found
  rw [readIntoSink, take?]
  split at found
  next vacant =>
    obtain rfl := Option.some.inj found
    rw [vacant, erase_of_get?_eq_none vacant]
    rfl
  next there =>
    obtain rfl := Option.some.inj found
    rw [there]
    rfl
  next => cases found

theorem readIntoSink_of_no_sink {sink : String} (none : w.sinkBuffer? sink = none)
    (delimiter : α) : w.readIntoSink r delimiter sink = (r, w, .ok .malformed) := by
  unfold sinkBuffer? at none
  rw [readIntoSink, take?]
  split at none
  next => cases none
  next => cases none
  next o other there =>
    rw [there]
    cases o with
    | buffer b => exact absurd rfl (other b)
    | segment s | bounded b => rfl

/-- What is put into a sink shows in no other. -/
theorem sinkText?_filledSink (sound : w.Sound) {sink : String} {b : Buffer}
    (found : w.sinkBuffer? sink = some b) (sinks : w.sinkText? = t.sinks) (c : Char) {text : List α}
    (shown : (r.readUntil (TextUnit.ofChar c) (w.erase sink).surroundings b w.store).2.object.content
      (r.readUntil (TextUnit.ofChar c) (w.erase sink).surroundings b w.store).2.store = text) :
    ((w.erase sink).filledSink r (TextUnit.ofChar c) sink b).2.1.sinkText? =
      (t.pouring sink text).sinks := by
  have u : Underway (· = sink) True w [] (w.readIntoSink r (TextUnit.ofChar c) sink).2.1 :=
    underway_readIntoSink sound r _ sink
  rw [readIntoSink_of_sinkBuffer? found] at u
  funext name
  show _ = if name = sink then _ else _
  by_cases same : name = sink
  · rw [if_pos same, ← shown, filledSink, sinkText?, sinkBuffer?_put, if_pos same]
    rfl
  · rw [if_neg same, sinkText?_of_underway u trivial sound same, sinks]

theorem told_readIntoSink (tapes : w.Tapes r segments t) (c : Char) (sink : String)
    (handover : Handover) :
    w.Told segments t (.readUntil c sink handover) (w.readIntoSink r (TextUnit.ofChar c) sink) := by
  have text := congrFun tapes.sinks sink
  rw [sinkText?] at text
  cases found : w.sinkBuffer? sink with
  | none =>
      rw [found] at text
      have step : t.step (.readUntil c sink handover) = (t, .malformed) := by
        rw [Tape.step, ← text]
        rfl
      rw [readIntoSink_of_no_sink found, Told, step]
      exact .inr ⟨rfl, tapes⟩
  | some b =>
      rw [found] at text
      have text : t.sinks sink = some (b.content w.store) := text.symm
      have hosts := hosts_of_sinkBuffer? tapes.sound found
      have u : Underway (· = sink) True w [] (w.readIntoSink r (TextUnit.ofChar c) sink).2.1 :=
        underway_readIntoSink tapes.sound r _ sink
      have made : (w.erase sink).surroundings.LendsMade w.store := tapes.made
      have grown : w.store.arrays.size ≤ (r.readUntil (TextUnit.ofChar c)
          (w.erase sink).surroundings b w.store).2.store.arrays.size :=
        (undisturbed_readUntil hosts).size_le
      have lines := tapes.follows.readUntil
        (List.subset_append_of_subset_right _ tapes.aside) (TextUnit.ofChar c) hosts made
      rw [readIntoSink_of_sinkBuffer? found] at u ⊢
      rcases lines with ⟨refused, closed, ⟨part, begun, shown⟩, on⟩ | ⟨answer, after, shown⟩
      · refine .inl ⟨congrArg (Except.map ReadOutcome.found) refused, fun finds => ?_, on, ?_⟩
        · exact closed ((finds b found).congr rfl)
        · exact ⟨_, part, text, begun, sinkText?_filledSink tapes.sound found tapes.sinks c shown⟩
      · rw [Told, Tape.step, text]
        refine .inr ⟨congrArg (Except.map ReadOutcome.found) answer, u.sound,
          tapes.made.grow grown, fun s here => u.aside.subset (tapes.aside here), ?_, ?_⟩
        · exact ⟨after.segments_eq, after.pushback, after.place⟩
        · exact sinkText?_filledSink tapes.sound found tapes.sinks c shown

theorem told_readDestination (tapes : w.Tapes r segments t) (size : Nat) (handover : Handover) :
    w.Told segments t (.readInto size handover) (w.readOne r (.readInto size handover)) := by
  have valid := valid_of_alive tapes.sound (List.subset_append_of_subset_right _ tapes.aside)
  by_cases fits : fitsMemory (TextUnit.kind α).width size = true
  · have made : emptyDestination size = .ok (List.replicate size (TextUnit.ofChar '-' : α)) :=
      if_pos fits
    obtain ⟨moved, counted, shown⟩ :=
      tapes.follows.readInto valid (List.replicate size (TextUnit.ofChar '-'))
    rw [List.length_replicate] at moved counted shown
    rw [readOne, readDestination, made]
    dsimp only
    rcases read : r.readInto (List.replicate size (TextUnit.ofChar '-')) w.store with
      ⟨count, destination, r'⟩
    rw [read] at moved counted shown
    have after : w.Tapes r' segments (t.skip size) :=
      ⟨tapes.sound, tapes.made, tapes.aside, moved, tapes.sinks.trans (Tape.sinks_skip t size).symm⟩
    dsimp only at counted shown
    rw [List.drop_replicate] at shown
    rw [Told, Tape.step]
    by_cases none : size = 0
    · subst none
      rw [if_pos rfl]
      rw [List.replicate_zero, if_neg fun both => both.1 rfl] at counted
      subst counted shown
      exact .inr ⟨rfl, after⟩
    · rw [if_neg none]
      have somewhere : List.replicate size (TextUnit.ofChar '-' : α) ≠ [] :=
        mt (List.replicate_eq_nil_iff _).1 none
      by_cases empty : t.ahead = []
      · rw [if_pos ⟨somewhere, empty⟩] at counted
        rw [Tape.skip_of_ahead empty] at after
        subst counted
        rw [empty, List.take_nil]
        exact .inr ⟨rfl, after⟩
      · rw [if_neg fun both => empty both.2] at counted
        subst counted shown
        have some_unit : ¬(t.ahead.take size).isEmpty = true := by
          rw [List.isEmpty_iff, List.take_eq_nil_iff]
          exact fun either => either.elim none empty
        dsimp only
        rw [if_neg some_unit]
        exact .inr ⟨rfl, after⟩
  · have refused : emptyDestination size = (.error .roomExceeded : Except Fault (List α)) :=
      if_neg fits
    rw [readOne, readDestination, refused]
    exact .inl ⟨rfl, fits, tapes.follows.on, tapes.sinks⟩

theorem told_readOne (tapes : w.Tapes r segments t) (action : ReadAction) :
    w.Told segments t action (w.readOne r action) := by
  have valid := valid_of_alive tapes.sound (List.subset_append_of_subset_right _ tapes.aside)
  have same : ∀ {r' : Reader α} {t' : Tape α}, r'.Follows segments w.store t' →
      t'.sinks = t.sinks → w.Tapes r' segments t' :=
    fun follows sinks =>
      ⟨tapes.sound, tapes.made, tapes.aside, follows, tapes.sinks.trans sinks.symm⟩
  cases action with
  | read handover =>
      obtain ⟨moved, unit⟩ := tapes.follows.read valid
      have after := same moved (Tape.sinks_skip t 1)
      rw [readOne, Told, Tape.step]
      cases ahead : t.ahead with
      | nil =>
          rw [ahead] at unit
          rw [Tape.skip_of_ahead ahead] at after
          split
          next u r' done =>
            rw [done] at unit
            cases unit
          next signal r' done =>
            rw [done] at unit after
            obtain rfl := Except.error.inj unit
            exact .inr ⟨rfl, after⟩
      | cons u us =>
          rw [ahead] at unit
          split
          next v r' done =>
            rw [done] at unit after
            obtain rfl := Except.ok.inj unit
            exact .inr ⟨rfl, after⟩
          next signal r' done =>
            rw [done] at unit
            cases unit
  | readInto size handover => exact told_readDestination tapes size handover
  | back c => exact .inr ⟨rfl, same (tapes.follows.pushing _) rfl⟩
  | remaining =>
      refine .inr ⟨?_, same tapes.follows rfl⟩
      exact congrArg (Except.ok ∘ ReadOutcome.number) (tapes.follows.remaining_eq valid)
  | sizeHint =>
      refine .inr ⟨?_, same tapes.follows rfl⟩
      exact congrArg (fun n => Except.ok (ReadOutcome.hint n (some n)))
        (tapes.follows.remaining_eq valid)
  | take count =>
      obtain ⟨moved, units⟩ := tapes.follows.take valid count
      refine .inr ⟨?_, same moved (Tape.sinks_skip t count)⟩
      exact congrArg (fun us => Except.ok (ReadOutcome.text (TextUnit.textOf us))) units
  | rest =>
      obtain ⟨moved, units⟩ := tapes.follows.take valid (r.remaining + 1)
      rw [tapes.follows.remaining_eq valid] at moved units
      rw [List.take_of_length_le (Nat.le_succ _)] at units
      rw [readOne, Reader.rest, tapes.follows.remaining_eq valid]
      refine .inr ⟨?_, same moved (Tape.sinks_skip t _)⟩
      exact congrArg (fun us => Except.ok (ReadOutcome.text (TextUnit.textOf us))) units
  | readUntil c sink handover => exact told_readIntoSink tapes c sink handover

/-! ## Runs -/

/-- The reader after several uses, whatever came of them. -/
def readerAfter (w : World α) (r : Reader α) : List ReadAction → Reader α
  | [] => r
  | action :: rest =>
      let used := w.readOne r action
      used.2.1.readerAfter used.1 rest

theorem lendsMade_readOne (sound : w.Sound) (made : w.LendsMade) (r : Reader α)
    (action : ReadAction) : (w.readOne r action).2.1.LendsMade := by
  cases action with
  | readUntil c sink handover =>
      rw [readOne]
      cases found : w.sinkBuffer? sink with
      | none =>
          rw [readIntoSink_of_no_sink found]
          exact made
      | some b =>
          rw [readIntoSink_of_sinkBuffer? found]
          exact made.grow (undisturbed_readUntil (hosts_of_sinkBuffer? sound found)).size_le
  | read handover =>
      simp only [readOne]
      split <;> exact made
  | readInto | back | remaining | sizeHint | take | rest => exact made

/-- A reader stays within the text that it reads. -/
theorem on_readerAfter (sound : w.Sound) (made : w.LendsMade) (aside : segments ⊆ w.aside)
    (on : r.On segments) (actions : List ReadAction) : (w.readerAfter r actions).On segments := by
  induction actions generalizing w r with
  | nil => exact on
  | cons action rest ih =>
      obtain ⟨same, place, le, cursor⟩ := on
      have u : Underway action.Fills True w [] (w.readOne r action).2.1 :=
        underway_readOne sound r action
      have tapes : w.Tapes r segments
          ⟨r.pushback, (contentOf segments w.store).drop place, w.sinkText?⟩ :=
        ⟨sound, made, aside, ⟨same, rfl, place, le, cursor, rfl⟩, rfl⟩
      refine ih u.sound (lendsMade_readOne sound made r action)
        (fun s here => u.aside.subset (aside here)) ?_
      rcases told_readOne tapes action with ⟨-, -, there, -⟩ | ⟨-, after⟩
      · exact there
      · exact after.follows.on

/-- A run tells what its tape tells, and leaves in the sinks what the tape has there. -/
def Tells (t : Tape α) (actions : List ReadAction)
    (told : World α × Except Fault (List Priority × List ReadOutcome)) : Prop :=
  told.2 = .ok (actions.flatMap notedBy, (t.run actions).2) ∧
    told.1.sinkText? = (t.run actions).1.sinks

/-- A run has ended before one of its uses, which did not find room.  The uses before it were a run
that told what its tape tells. -/
def Breaks (w : World α) (r : Reader α) (t : Tape α) (actions : List ReadAction) : Prop :=
  ∃ before action after, actions = before ++ action :: after ∧ Tells t before (w.readAll r before) ∧
    ¬action.Finds (w.readAll r before).1 (t.run before).1 ∧
    (t.run before).1.Begun (w.readAll r actions).1.sinkText? action

/-- What is done after a use is a run of its own, with one more outcome before it. -/
theorem readAll_cons {action : ReadAction} {r' : Reader α} {w' : World α} {outcome : ReadOutcome}
    (used : w.readOne r action = (r', w', .ok outcome)) (rest : List ReadAction) :
    w.readAll r (action :: rest) = ((w'.readAll r' rest).1, (w'.readAll r' rest).2.map fun told =>
      (notedBy action ++ told.1, outcome :: told.2)) := by
  rw [readAll, used]

theorem Tells.cons {action : ReadAction} {rest : List ReadAction} {r' : Reader α} {w' : World α}
    (later : Tells (t.step action).1 rest (w'.readAll r' rest))
    (used : w.readOne r action = (r', w', .ok (t.step action).2)) :
    Tells t (action :: rest) (w.readAll r (action :: rest)) := by
  rw [readAll_cons used]
  exact ⟨congrArg (Except.map _) later.1, later.2⟩

/-- A run tells what its tape tells, up to the first use that does not find room. -/
theorem told_readAll (tapes : w.Tapes r segments t) (actions : List ReadAction) :
    ((w.readAll r actions).2 = .error .roomExceeded ∧ w.Breaks r t actions) ∨
      Tells t actions (w.readAll r actions) := by
  induction actions generalizing w r t with
  | nil => exact .inr ⟨rfl, tapes.sinks⟩
  | cons action rest ih =>
      have told := told_readOne tapes action
      rcases used : w.readOne r action with ⟨r', w', fault | outcome⟩
      · rw [used] at told
        rcases told with ⟨full, closed, -, begun⟩ | ⟨well, -⟩
        · obtain rfl : fault = .roomExceeded := Except.error.inj full
          have run : w.readAll r (action :: rest) = (w', .error .roomExceeded) := by
            rw [readAll, used]
          rw [Breaks, run]
          exact .inl ⟨rfl, [], action, rest, rfl, ⟨rfl, tapes.sinks⟩, closed, begun⟩
        · cases well
      · rw [used] at told
        rcases told with ⟨full, -⟩ | ⟨well, after⟩
        · cases full
        · obtain rfl : outcome = (t.step action).2 := Except.ok.inj well
          rcases ih after with ⟨full, before, last, later, rfl, early, closed, begun⟩ | well
          · refine .inl ⟨?_, action :: before, last, later, rfl, early.cons used, ?_, ?_⟩
            · rw [readAll_cons used, full]
              rfl
            · rw [readAll_cons used]
              exact closed
            · rw [readAll_cons used]
              exact begun
          · exact .inr (well.cons used)

/-! ## Runs with room -/

end World

/-- There can be a destination of the size that is asked for, and room for `longest` units in the
sink. -/
def ReadAction.Roomy (w : World α) (longest : Nat) : ReadAction → Prop
  | .readInto size _ => fitsMemory (TextUnit.kind α).width size = true
  | .readUntil _ sink _ =>
      ∀ b, w.sinkBuffer? sink = some b → b.Admits α w.surroundings longest
  | _ => True

namespace World

variable {w : World α} {r : Reader α} {segments : List Segment} {t : Tape α}

/-- What finds room at any time finds it for a line that is as long as a text can be. -/
theorem finds_of_roomy (tapes : w.Tapes r segments t) {longest : Nat}
    (long : totalLength segments < longest) {action : ReadAction} (roomy : action.Roomy w longest) :
    action.Finds w t := by
  cases action with
  | readUntil c sink handover =>
      intro b found
      have valid := valid_of_alive tapes.sound (List.subset_append_of_subset_right _ tapes.aside)
      have short : (lineOf (TextUnit.ofChar c) t.ahead).length ≤ t.ahead.length :=
        (List.takeWhile_prefix _).length_le
      have ahead := tapes.follows.length_ahead_le valid
      exact ((roomy b found).finds _).mono (by omega)
  | _ => exact roomy

/-- A sink that has room for a line of any length has it after every use. -/
theorem roomy_readOne (sound : w.Sound) (made : w.LendsMade) (r : Reader α) (used : ReadAction)
    {longest : Nat} {action : ReadAction} (roomy : action.Roomy w longest) :
    action.Roomy (w.readOne r used).2.1 longest := by
  cases action with
  | readUntil c sink handover =>
      cases used with
      | readUntil c' sink' handover' =>
          rw [readOne]
          cases found : w.sinkBuffer? sink' with
          | none =>
              rw [readIntoSink_of_no_sink found]
              exact roomy
          | some b =>
              rw [readIntoSink_of_sinkBuffer? found]
              intro b' found'
              rw [filledSink, sinkBuffer?_put] at found'
              by_cases same : sink = sink'
              · subst same
                rw [if_pos rfl] at found'
                obtain rfl := Option.some.inj found'
                have made' : (w.erase sink).surroundings.LendsMade w.store := made
                have admits := r.admits_readUntil (TextUnit.ofChar c')
                  (hosts_of_sinkBuffer? sound found) made' made (roomy b found)
                exact admits.congr rfl
              · rw [if_neg same] at found'
                exact (roomy b' ((sinkBuffer?_erase w same).symm.trans found')).congr rfl
      | read handover' =>
          simp only [readOne]
          split <;> exact roomy
      | readInto | back | remaining | sizeHint | take | rest => exact roomy
  | _ => exact roomy

/-- A run that asks for no more room than there can be comes to its end. -/
theorem tells_of_roomy (tapes : w.Tapes r segments t) {longest : Nat}
    (long : totalLength segments < longest) {actions : List ReadAction}
    (roomy : ∀ action ∈ actions, action.Roomy w longest) :
    Tells t actions (w.readAll r actions) := by
  induction actions generalizing w r t with
  | nil => exact ⟨rfl, tapes.sinks⟩
  | cons action rest ih =>
      have finds := finds_of_roomy tapes long (roomy action List.mem_cons_self)
      have later : ∀ a ∈ rest, a.Roomy (w.readOne r action).2.1 longest := fun a there =>
        roomy_readOne tapes.sound tapes.made r action (roomy a (List.mem_cons_of_mem _ there))
      rcases told_readOne tapes action with ⟨-, closed, -⟩ | ⟨well, after⟩
      · exact absurd finds closed
      · exact (ih after later).cons (Prod.ext rfl (Prod.ext rfl well))

/-! ## Reading an object -/

/-- A run of a reader is over.  The object that was read goes back, unless a use was refused. -/
def afterReading (w : World α) (source : String) (o : Object)
    (used : World α × Except Fault (List Priority × List ReadOutcome)) : World α × Answer :=
  match used.2 with
  | .ok told => ({ used.1 with aside := w.aside }.put source o, .reading told.1 told.2)
  | .error fault => ({ used.1 with aside := w.aside }, .fault fault)

/-- A buffer is read while it is set aside. -/
theorem read_of_get? {source : String} {o : Object} {b : Buffer} (there : w.get? source = some o)
    (shown : o.buffer? = some b) (actions : List ReadAction) :
    w.read source actions = w.afterReading source o
      ((w.settingAside source o w.lent).readAll (.ofBuffer b) actions) := by
  rw [read, take?_of_get? there]
  dsimp only
  rw [shown, show ({ w.erase source with aside := o.segments ++ (w.erase source).aside } : World α) =
    w.settingAside source o w.lent from rfl]
  dsimp only
  generalize (w.settingAside source o w.lent).readAll (.ofBuffer b) actions = used
  rcases used with ⟨left, fault | told⟩ <;> rfl

/-- The tape that a buffer is to its readers.  Its own register is as good as empty meanwhile. -/
def tapeOf (w : World α) (source : String) (b : Buffer) : Tape α :=
  ⟨none, b.content w.store, fun name => if name = source then some [] else w.sinkText? name⟩

omit [TextUnit α] in
theorem tapes_settingAside (sound : w.Sound) (made : w.LendsMade) {source : String} {o : Object}
    {b : Buffer} (there : w.get? source = some o) (shown : o.buffer? = some b) :
    (w.settingAside source o w.lent).Tapes (.ofBuffer b) b.segments (w.tapeOf source b) where
  sound := sound_settingAside sound there w.lent
  made := made
  aside := segments_of_buffer? shown ▸ List.subset_append_left _ _
  follows := b.follows_ofBuffer w.store _
  sinks := by
    funext name
    have found : (w.settingAside source o w.lent).get? name =
        if name = source then none else w.get? name := get?_erase w source name
    simp only [tapeOf, sinkText?, sinkBuffer?, found]
    by_cases same : name = source
    · rw [if_pos same, if_pos same]
      rfl
    · rw [if_neg same, if_neg same]
      rfl

variable {barred : World α → Action α → Prop}

/-- A text in two registers.  The first one has room behind it in the array of both. -/
def sharedLines : World Char :=
  ((({} : World Char).act (.step (.make "a" (.bufferOfArray "ab.cd" 12)))).1.act
    (.step (.derive "a" "b" .shared))).1

theorem reached_sharedLines : Reached (fun _ _ => False) sharedLines :=
  .act (.act .start trivial id) trivial id

end World

end SegmentedText
