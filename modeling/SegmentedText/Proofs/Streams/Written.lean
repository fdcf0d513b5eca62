import SegmentedText.Proofs.Lending.Steps

/-!
# What a writer leaves

Everything that is written through a writer goes behind the text of its buffer, in the order in
which it is written, and the writer counts it (`World.written_in_order`).  What is written may be
shown from objects over the array that the buffer is extended in: the window that is shown is lent
out, the buffer moves its last segment with the first unit, and the object shows afterwards what it
showed before.

A use of a writer comes to its end whenever it finds room (`WriteAction.Finds`): behind the last
segment, which may have to move, or in a segment that can be opened for the units that are left
over.  A layout may ask for segments that are larger than an array can be, so there are buffers in
which a use does not find room (`World.written_beyond_room`).
-/

set_option autoImplicit false

namespace SegmentedText
namespace World

variable {α : Type} [TextUnit α] {w : World α} {writer : Writer} {st : Store α}

/-- How much has been written after each of several uses, given how much had been before. -/
def tallies (count : Nat) (pieces : List (List α)) : List Nat :=
  (List.range pieces.length).map fun k => count + (pieces.take (k + 1)).flatten.length

omit [TextUnit α] in
theorem tallies_cons (count : Nat) (units : List α) (pieces : List (List α)) :
    tallies count (units :: pieces) =
      (count + units.length) :: tallies (count + units.length) pieces := by
  simp only [tallies, List.length_cons, List.range_succ_eq_map, List.map_cons, List.map_map,
    List.take_succ_cons, List.take_zero, List.flatten_cons, List.flatten_nil,
    List.length_append, Function.comp_def, Nat.add_assoc]
  rfl

/-- What is written by uses that name objects is told by what each of them writes. -/
theorem writing_of_named {actions : List WriteAction} {pieces : List (List α)}
    (named : actions.mapM w.written? = some pieces) (count : Nat) :
    w.writing count actions = (pieces.flatten, .ok (tallies count pieces)) := by
  induction actions generalizing pieces count with
  | nil =>
      obtain rfl := Option.some.inj named
      rfl
  | cons action rest ih =>
      rw [List.mapM_cons] at named
      obtain ⟨units, put, named⟩ := Option.bind_eq_some_iff.1 named
      obtain ⟨others, later, named⟩ := Option.bind_eq_some_iff.1 named
      obtain rfl := Option.some.inj named
      rw [writing, put, tallies_cons]
      dsimp only
      rw [ih later, List.flatten_cons]
      rfl

/-- A run of a writer goes on behind its first use as a run of its own. -/
theorem writeAll_cons {action : WriteAction} {r : Edited Writer α Unit}
    (done : w.writeOne writer st action = some r) (well : r.answer = .ok ())
    (rest : List WriteAction) :
    w.writeAll writer st (action :: rest) = ((w.writeAll r.object r.store rest).1,
      (w.writeAll r.object r.store rest).2.1,
      (w.writeAll r.object r.store rest).2.2.map (r.object.written :: ·)) := by
  rw [writeAll, done]
  dsimp only
  rw [well]

/-- Behind a use that comes to its end, a run is refused just where the rest of it is. -/
theorem writeAll_cons_eq_error {action : WriteAction} {r : Edited Writer α Unit}
    (done : w.writeOne writer st action = some r) (well : r.answer = .ok ())
    (rest : List WriteAction) {answer : Answer} :
    (w.writeAll writer st (action :: rest)).2.2 = .error answer ↔
      (w.writeAll r.object r.store rest).2.2 = .error answer := by
  rw [writeAll_cons done well]
  dsimp only
  cases (w.writeAll r.object r.store rest).2.2 with
  | error => exact Iff.rfl
  | ok =>
      constructor
      · rintro ⟨⟩
      · rintro ⟨⟩

/-- A run of a writer is refused at a use that does not find room, and those before it come to their
ends. -/
theorem refused_writeAll {actions : List WriteAction} {pieces : List (List α)}
    (made : w.surroundings.LendsMade st) (hosts : st.Hosts (writer.buffer.segments ++ w.alive))
    (kept : ∀ s ∈ w.alive, s.content st = s.content w.store)
    (named : actions.mapM w.written? = some pieces)
    (refused : (w.writeAll writer st actions).2.2 = .error (.fault .roomExceeded)) :
    ∃ before action after early units, actions = before ++ action :: after ∧
      before.mapM w.written? = some early ∧ w.written? action = some units ∧
      (w.writeAll writer st before).2.2 ≠ .error (.fault .roomExceeded) ∧
      ¬action.Finds w (w.writeAll writer st before).1.buffer units.length := by
  induction actions generalizing writer st pieces with
  | nil => cases refused
  | cons action rest ih =>
      rw [List.mapM_cons] at named
      obtain ⟨units, put, named⟩ := Option.bind_eq_some_iff.1 named
      obtain ⟨others, later, -⟩ := Option.bind_eq_some_iff.1 named
      have put' := (written?_withStore kept action).trans put
      cases done : w.writeOne writer st action with
      | none => cases ((writeOne_eq_none_iff action).1 done).symm.trans put
      | some r =>
          have beside := undisturbed_writeOne hosts done
          cases well : r.answer with
          | error fault =>
              refine ⟨[], action, rest, [], units, rfl, rfl, put, nofun, fun finds => ?_⟩
              cases well.symm.trans (writeOne_of_finds made hosts put' done finds)
          | ok _ =>
              have onward := (writeAll_cons_eq_error done well rest).1 refused
              obtain ⟨before, last, after, early, amount, parted, wrote, wrote', through, short⟩ :=
                ih (made.grow beside.size_le) beside.hosts
                  (fun s here => (beside.content_eq here).trans (kept s here)) later onward
              refine ⟨action :: before, last, after, units :: early, amount, ?_, ?_, wrote', ?_, ?_⟩
              · rw [parted, List.cons_append]
              · rw [List.mapM_cons, put, wrote]
                rfl
              · exact mt (writeAll_cons_eq_error done well before).1 through
              · rw [writeAll_cons done well]
                exact short

/-- A run of a writer has come to its end: it tells how much had been written after each of its uses,
and all of that has gone behind the text of its buffer, which is now `b'`. -/
def Writes (w : World α) (target : String) (b b' : Buffer) (pieces : List (List α))
    (run : World α × Answer) : Prop :=
  run.2 = .writing (tallies 0 pieces) ∧ run.1.get? target = some (.buffer b') ∧
    b'.content run.1.store = b.content w.store ++ pieces.flatten

/-- A run that is not refused room comes to its end. -/
theorem writes_of_unrefused {rest : World α} {target : String} {b : Buffer}
    {actions : List WriteAction} {pieces : List (List α)}
    (hosts : rest.store.Hosts (b.segments ++ rest.alive))
    (named : actions.mapM rest.written? = some pieces)
    (unrefused : (rest.writeAll ⟨b, 0⟩ rest.store actions).2.2 ≠ .error (.fault .roomExceeded)) :
    rest.Writes target b (rest.writeAll ⟨b, 0⟩ rest.store actions).1.buffer pieces
      (rest.afterWriting target (rest.writeAll ⟨b, 0⟩ rest.store actions)) := by
  have hosts : rest.store.Hosts ((⟨b, 0⟩ : Writer).buffer.segments ++ rest.alive) := hosts
  obtain ⟨counted, text, -⟩ := (told_writeAll hosts fun _ _ => rfl).resolve_left unrefused
  rw [writing_of_named named] at counted text
  rw [Writes, afterWriting, counted]
  refine ⟨rfl, ?_, text⟩
  rw [get?_put, if_pos rfl]

variable {barred : World α → Action α → Prop}

/-- **What is written through a writer goes behind the text of its buffer, in order, and is counted.**

That holds whatever is written, and whichever of the windows that are alive are over the array that
the buffer is extended in, or are lent out.  Nothing else is seen to change.  A use is refused only
where it does not find room; those before it have come to their ends, and the buffer is lost. -/
theorem written_in_order (reached : Reached barred w) {lent : List StorageId}
    (alive : ∀ id ∈ lent, ∃ s ∈ w.alive, s.storage = id) {target : String} {b : Buffer}
    (there : w.get? target = some (.buffer b)) {actions : List WriteAction}
    {pieces : List (List α)} (named : actions.mapM (w.erase target).written? = some pieces) :
    let rest := (w.withLent lent).erase target
    let run := (w.withLent lent).write target
    (∀ name o, name ≠ target → w.get? name = some o → (run actions).1.get? name = some o ∧
      o.content (run actions).1.store = o.content w.store) ∧
    ((∃ b' : Buffer, w.Writes target b b' pieces (run actions)) ∨
      (run actions).2 = .fault .roomExceeded ∧ (run actions).1.get? target = none ∧
        ∃ before action after early units, ∃ b' : Buffer, actions = before ++ action :: after ∧
          before.mapM rest.written? = some early ∧ rest.written? action = some units ∧
          w.Writes target b b' early (run before) ∧ ¬action.Finds rest b' units.length) := by
  intro rest run
  have hosts : rest.store.Hosts (b.segments ++ rest.alive) :=
    Store.Hosts.subperm reached.sound (subperm_take there)
  have made : rest.LendsMade := Sound.lendsMade reached.sound alive
  have shape : ∀ actions, run actions =
      rest.afterWriting target (rest.writeAll ⟨b, 0⟩ rest.store actions) :=
    write_of_get? (w := w.withLent lent) there
  have named' : actions.mapM rest.written? = some pieces := named
  refine ⟨fun name o other shown => ?_, ?_⟩
  · have u : Underway (· = target) True (w.withLent lent) [] (run actions).1 :=
      underway_write (w := w.withLent lent) reached.sound target actions
    refine ⟨(u.same name other).trans shown, o.content_congr fun s here => ?_⟩
    exact u.content_eq trivial reached.sound (.inr ⟨name, o, other, shown, here⟩)
  · by_cases full : (rest.writeAll ⟨b, 0⟩ rest.store actions).2.2 = .error (.fault .roomExceeded)
    · have beside : rest.store.Hosts ((⟨b, 0⟩ : Writer).buffer.segments ++ rest.alive) := hosts
      obtain ⟨before, action, after, early, units, parted, wrote, put, through, short⟩ :=
        refused_writeAll made beside (fun _ _ => rfl) named' full
      refine .inr ⟨?_, ?_, before, action, after, early, units, _, parted, wrote, put, ?_, short⟩
      · rw [shape, afterWriting, full]
      · rw [shape, afterWriting, full]
        exact (get?_erase (w.withLent lent) target target).trans (if_pos rfl)
      · rw [shape]
        exact writes_of_unrefused hosts wrote through
    · refine .inl ⟨(rest.writeAll ⟨b, 0⟩ rest.store actions).1.buffer, ?_⟩
      rw [shape]
      exact writes_of_unrefused hosts named' full

/-- A text is written behind one that it shares an array with, shown from the array in which there is
room behind it, while a window over that is lent out. -/
theorem written_in_order_sharedLines :
    let actions : List WriteAction := [.showObject "b", .writeText "!?", .flush]
    let written := (sharedLines.withLent [⟨0⟩]).write "a" actions
    Reached (fun _ _ => False) sharedLines ∧
      actions.mapM (sharedLines.erase "a").written? =
        some [['a', 'b', '.', 'c', 'd'], ['!', '?'], []] ∧
      written.2 = .writing [5, 7, 7] ∧
      (∃ b' : Buffer, written.1.get? "a" = some (.buffer b') ∧
        b'.content written.1.store =
          ['a', 'b', '.', 'c', 'd', 'a', 'b', '.', 'c', 'd', '!', '?']) ∧
      (Object.buffer ⟨.held [⟨⟨0⟩, 0, 5, 5⟩], {}⟩).content written.1.store =
        ['a', 'b', '.', 'c', 'd'] := by
  intro actions written
  have there : sharedLines.get? "a" = some (.buffer ⟨.held [⟨⟨0⟩, 0, 5, 12⟩], {}⟩) := by decide
  have named : actions.mapM (sharedLines.erase "a").written? =
      some [['a', 'b', '.', 'c', 'd'], ['!', '?'], []] := by decide
  have lendable : ∀ id ∈ ([⟨0⟩] : List StorageId), ∃ s ∈ sharedLines.alive, s.storage = id := by
    decide
  obtain ⟨others, told⟩ := written_in_order reached_sharedLines lendable there named
  have shown := (others "b" _ (by decide) (show sharedLines.get? "b" =
    some (.buffer ⟨.held [⟨⟨0⟩, 0, 5, 5⟩], {}⟩) by decide)).2
  rcases told with ⟨b', counted, left, text⟩ | ⟨full, -⟩
  · exact ⟨reached_sharedLines, named, counted.trans (by decide), ⟨b', left, text⟩,
      shown.trans (by decide)⟩
  · have wrote : written.2 = .writing [5, 7, 7] := by decide +kernel
    cases full.symm.trans wrote

/-- A buffer without a segment, whose layout asks for one that is larger than an array can be. -/
def overlarge : World Char :=
  (({} : World Char).act (.step (.make "b" (.buffer { initialCapacity := 9223372036854775808 })))).1

/-- There are buffers to which not a single unit can be written, and which are lost by that. -/
theorem written_beyond_room :
    Reached (fun _ _ => False) overlarge ∧
      overlarge.get? "b" =
        some (.buffer ⟨.vacant, { initialCapacity := 9223372036854775808 }⟩) ∧
      (overlarge.write "b" [.write 'a']).2 = .fault .roomExceeded ∧
      (overlarge.write "b" [.write 'a']).1.get? "b" = none :=
  ⟨.act .start trivial id, by decide, by decide, by decide⟩

end World
end SegmentedText
