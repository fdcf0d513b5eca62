import SegmentedText.Proofs.Flat.Allotments
import SegmentedText.Proofs.Ownership.Reached

/-!
# What is written

A use of a writer puts units behind the text of its buffer and counts them, unless it is
refused room (`Writer.Puts`).  It is not refused where it finds room: behind the last segment of
the buffer, which moves if it is lent out, or in a segment that can be opened for what is left
over (`World.writeOne_of_finds`).  A run of uses finds room as long as the layout of the buffer
asks for no more than there can be, and the last segment can be moved (`WriteAction.Admits`).

Which units a use puts in is told by the world that the writer is used in
(`World.written?`), so what several uses put in is told by the texts alone
(`World.told_writeAll`): neither the layout of the buffer nor what surrounds it has a say in
it, as long as no use is refused room.
-/

set_option autoImplicit false

namespace SegmentedText

/-! ## One writer -/

namespace Writer

variable {α : Type} [TextUnit α] {writer : Writer} {st : Store α} {live : List Segment}

/-- A use of a writer puts units behind those of its buffer and counts them, unless it is refused
room. -/
def Puts (writer : Writer) (units : List α) (st : Store α) (r : Edited Writer α Unit) : Prop :=
  r.answer = .error .roomExceeded ∨
    r.answer = .ok () ∧ r.object.written = writer.written + units.length ∧
      r.object.buffer.content r.store = writer.buffer.content st ++ units ∧
      r.object.buffer.layout = writer.buffer.layout

omit [TextUnit α] in
theorem puts_none : writer.Puts [] st ⟨writer, st, .ok ()⟩ :=
  .inr ⟨rfl, rfl, (List.append_nil _).symm, rfl⟩

namespace Puts

variable {units more : List α} {r r' : Edited Writer α Unit}

omit [TextUnit α] in
/-- What is put behind a first text is put behind both. -/
theorem trans (first : writer.Puts units st r) (done : r.answer = .ok ())
    (second : r.object.Puts more r.store r') : writer.Puts (units ++ more) st r' := by
  rcases first with full | ⟨-, count, text, layout⟩
  · cases done.symm.trans full
  · refine second.imp_right ?_
    rintro ⟨well, count', text', layout'⟩
    refine ⟨well, ?_, ?_, layout'.trans layout⟩
    · rw [count', count, List.length_append, Nat.add_assoc]
    · rw [text', text, List.append_assoc]

omit [TextUnit α] in
theorem refused {fault : Fault} (first : writer.Puts units st r)
    (refused : r.answer = .error fault) : writer.Puts more st r := by
  rcases first with full | ⟨well, -⟩
  · exact .inl full
  · cases refused.symm.trans well

end Puts

omit [TextUnit α] in
/-- An append that is counted for as many units as it puts in. -/
theorem puts_counting {units : List α} {r : Edited Buffer α Unit}
    (leaves : r.Leaves (writer.buffer.content st ++ units))
    (layout : r.object.layout = writer.buffer.layout) :
    writer.Puts units st (writer.counting units.length r) := by
  unfold counting
  rcases leaves with ⟨⟨_, done⟩, text⟩ | full
  · rw [done]
    exact .inr ⟨rfl, rfl, text, layout⟩
  · rw [full]
    exact .inl rfl

omit [TextUnit α] in
theorem answer_counting (count : Nat) (r : Edited Buffer α Unit) :
    (writer.counting count r).answer = r.answer := by
  unfold counting
  split
  next done => exact done.symm
  next refused => exact refused.symm

section

variable (around : Surroundings) (hosts : st.Hosts (writer.buffer.segments ++ live))
include hosts

theorem puts_write (u : α) : writer.Puts [u] st (writer.write around u st) := by
  refine puts_counting (Buffer.leaves_append around hosts u) ?_
  cases done : writer.buffer.append around u st with
  | ok made => exact Buffer.layout_of_append done
  | error fault => rfl

theorem puts_writeChars (cs : List Char) :
    writer.Puts (cs.map TextUnit.ofChar) st (writer.writeChars around cs st) := by
  induction cs generalizing writer st with
  | nil => exact puts_none
  | cons c cs ih =>
      have first := puts_write around hosts (TextUnit.ofChar c : α)
      have beside := undisturbed_write around hosts (TextUnit.ofChar c : α)
      rw [writeChars]
      split
      next done => exact first.trans done (ih beside.hosts)
      next refused => exact first.refused refused

/-- Segments that are alive show what they showed, however far the writer has come. -/
theorem puts_showSegments {segments : List Segment} (alive : segments ⊆ live) :
    writer.Puts ((contentOf segments st).map fun u => TextUnit.ofChar (TextUnit.toChar u)) st
      (writer.showSegments around segments st) := by
  induction segments generalizing writer st with
  | nil => exact puts_none
  | cons s rest ih =>
      have first := puts_writeChars (around.lending s.storage) hosts
        ((s.content st).map TextUnit.toChar)
      have beside := undisturbed_writeChars (around.lending s.storage) hosts
        ((s.content st).map TextUnit.toChar)
      have later : rest ⊆ live := fun t here => alive (List.mem_cons_of_mem s here)
      rw [showSegments]
      split
      next done =>
        have behind := ih beside.hosts later
        have kept := contentOf_congr fun t here => beside.content_eq (later here)
        rw [kept] at behind
        have both := first.trans done behind
        rw [List.map_map] at both
        rw [contentOf_cons, List.map_append]
        exact both
      next refused => exact first.refused refused

end

/-! ### Finding room -/

section

variable {around : Surroundings} {count : Nat} (made : around.LendsMade st)
  (hosts : st.Hosts (writer.buffer.segments ++ live))
include made hosts

/-- A unit that finds room is written, and those behind it still find theirs, whatever is lent out
then. -/
theorem write_of_finds (finds : writer.buffer.Finds α around (count + 1) 1) (u : α) :
    (writer.write around u st).answer = .ok () ∧
      ∀ around' : Surroundings, around'.LendsMade st →
        writer.buffer.Finds α around' (count + 1) 1 →
          (writer.write around u st).object.buffer.Finds α around' count 1 := by
  obtain ⟨appended, done, later⟩ := Buffer.append_of_finds made hosts (Nat.le_refl 1) finds u
  rw [write, done]
  exact ⟨rfl, later⟩

theorem writeChars_of_finds {cs : List Char}
    (finds : cs ≠ [] → writer.buffer.Finds α around (cs.length + count) 1) :
    (writer.writeChars around cs st).answer = .ok () ∧
      ∀ around' : Surroundings, around'.LendsMade st →
        writer.buffer.Finds α around' (cs.length + count) 1 →
          (writer.writeChars around cs st).object.buffer.Finds α around' count 1 := by
  induction cs generalizing writer st with
  | nil => exact ⟨rfl, fun _ _ finds' => Nat.zero_add count ▸ finds'⟩
  | cons c cs ih =>
      have shift : (c :: cs).length + count = cs.length + count + 1 := by
        rw [List.length_cons, Nat.add_right_comm]
      rw [shift] at finds
      have here := finds (List.cons_ne_nil c cs)
      have beside := undisturbed_write around hosts (TextUnit.ofChar c : α)
      obtain ⟨done, later⟩ := write_of_finds made hosts here (TextUnit.ofChar c : α)
      obtain ⟨done', later'⟩ := ih (made.grow beside.size_le) beside.hosts fun _ =>
        later around made here
      rw [writeChars, done, shift]
      exact ⟨done', fun around' made' finds' =>
        later' around' (made'.grow beside.size_le) (later around' made' finds')⟩

/-- Which windows are lent out on the way may move the last segment, but takes no room away. -/
theorem showSegments_of_finds {segments : List Segment} (alive : segments ⊆ live)
    (finds : ∀ s ∈ segments, 0 < s.length →
      writer.buffer.Finds α (around.lending s.storage) (contentOf segments st).length 1) :
    (writer.showSegments around segments st).answer = .ok () := by
  induction segments generalizing writer st with
  | nil => rfl
  | cons s rest ih =>
      let text := (s.content st).map TextUnit.toChar
      have beside := undisturbed_writeChars (around.lending s.storage) hosts text
      have later : rest ⊆ live := fun t here => alive (List.mem_cons_of_mem s here)
      have kept := contentOf_congr fun t here => beside.content_eq (later here)
      have placed : ∀ t ∈ s :: rest, t.Placed st := fun t here =>
        hosts.placed t (List.mem_append_right _ (alive here))
      have lending : ∀ t ∈ s :: rest, (around.lending t.storage).LendsMade st := fun t here =>
        made.lending (placed t here).made
      have total : (contentOf (s :: rest) st).length = text.length + (contentOf rest st).length := by
        rw [contentOf_cons, List.length_append, List.length_map]
      rw [total] at finds
      obtain ⟨done, onward⟩ := writeChars_of_finds (lending s List.mem_cons_self) hosts fun some =>
        finds s List.mem_cons_self (by
          have shown := (placed s List.mem_cons_self).valid.length_content
          rw [← shown]
          exact List.length_pos_iff.2 fun none => some (List.map_eq_nil_iff.2 none))
      rw [showSegments, show (writer.writeChars (around.lending s.storage)
        ((s.content st).map TextUnit.toChar) st).answer = .ok () from done]
      refine ih (made.grow beside.size_le) beside.hosts later fun t here long => ?_
      rw [kept]
      have there := List.mem_cons_of_mem s here
      exact onward _ (lending t there) (finds t there long)

end

/-! ### Room for more -/

section

variable (around : Surroundings) {around' : Surroundings} {pending : Nat}
  (made : around.LendsMade st) (made' : around'.LendsMade st)
  (hosts : st.Hosts (writer.buffer.segments ++ live))
  (admits : writer.buffer.Admits α around' pending)
include made made' hosts admits

theorem admits_write (u : α) :
    (writer.write around u st).object.buffer.Admits α around' pending := by
  refine buffer_counting (P := fun b => b.Admits α around' pending) ?_
  exact Edited.object_whole (P := fun b => b.Admits α around' pending) admits fun _ done =>
    Buffer.admits_append hosts made made' admits done

theorem admits_writeChars (cs : List Char) :
    (writer.writeChars around cs st).object.buffer.Admits α around' pending := by
  induction cs generalizing writer st with
  | nil => exact admits
  | cons c cs ih =>
      have beside := undisturbed_write around hosts (TextUnit.ofChar c : α)
      have first := admits_write around made made' hosts admits (TextUnit.ofChar c : α)
      rw [writeChars]
      split
      next => exact ih (made.grow beside.size_le) (made'.grow beside.size_le) beside.hosts first
      next => exact first

theorem admits_showSegments {segments : List Segment} (alive : segments ⊆ live) :
    (writer.showSegments around segments st).object.buffer.Admits α around' pending := by
  induction segments generalizing writer st with
  | nil => exact admits
  | cons s rest ih =>
      have beside := undisturbed_writeChars (around.lending s.storage) hosts
        ((s.content st).map TextUnit.toChar)
      have placed := hosts.placed s (List.mem_append_right _ (alive List.mem_cons_self))
      have first := admits_writeChars (around.lending s.storage) (made.lending placed.made) made'
        hosts admits ((s.content st).map TextUnit.toChar)
      have later : rest ⊆ live := fun t here => alive (List.mem_cons_of_mem s here)
      rw [showSegments]
      split
      next =>
        exact ih (made.grow beside.size_le) (made'.grow beside.size_le) beside.hosts first later
      next => exact first

end

end Writer

/-! ## Writers in a world -/

namespace World

variable {α : Type} [TextUnit α] {w : World α} {writer : Writer} {st : Store α}

/-- The units that one use of a writer puts into its buffer; none come of one that names no
object. -/
def written? (w : World α) : WriteAction → Option (List α)
  | .write c => some [TextUnit.ofChar c]
  | .writeSlice text | .writeText text | .writeChars text => some (TextUnit.unitsOf text)
  | .flush => some []
  | .showObject source | .writeObjectChars source =>
      (w.get? source).map fun o =>
        (o.content w.store).map fun u => TextUnit.ofChar (TextUnit.toChar u)

/-- What several uses of a writer put into its buffer, and what is told of them, given the number of
units written before. -/
def writing (w : World α) (count : Nat) : List WriteAction → List α × Except Answer (List Nat)
  | [] => ([], .ok [])
  | action :: rest =>
      match w.written? action with
      | none => ([], .error .malformed)
      | some units =>
          let later := w.writing (count + units.length) rest
          (units ++ later.1, later.2.map ((count + units.length) :: ·))

theorem writeOne_eq_none_iff (action : WriteAction) :
    w.writeOne writer st action = none ↔ w.written? action = none := by
  cases action with
  | showObject source | writeObjectChars source =>
      simp only [writeOne, written?, Option.map_eq_none_iff]
      cases w.get? source <;> simp
  | write | writeSlice | writeText | flush | writeChars => exact ⟨nofun, nofun⟩

/-- As long as what is alive shows what it showed, a use puts in the same units. -/
theorem written?_withStore (kept : ∀ s ∈ w.alive, s.content st = s.content w.store)
    (action : WriteAction) : (w.withStore st).written? action = w.written? action := by
  have same : ∀ source, ((w.withStore st).get? source).map (fun o =>
      (o.content st).map fun u => (TextUnit.ofChar (TextUnit.toChar u) : α)) =
        (w.get? source).map fun o =>
          (o.content w.store).map fun u => TextUnit.ofChar (TextUnit.toChar u) := by
    intro source
    refine Option.map_congr fun o there => ?_
    rw [Object.content_congr o fun s here => kept s (subset_alive_of_get? there here)]
  cases action with
  | showObject source | writeObjectChars source => exact same source
  | write | writeSlice | writeText | flush | writeChars => rfl

/-- A use of a writer puts in what the texts at hand say. -/
theorem puts_writeOne {action : WriteAction} {r : Edited Writer α Unit} {units : List α}
    (hosts : st.Hosts (writer.buffer.segments ++ w.alive))
    (put : (w.withStore st).written? action = some units)
    (done : w.writeOne writer st action = some r) : writer.Puts units st r := by
  have width : ∀ text : String, (TextUnit.unitsOf text : List α).length = text.toList.length :=
    fun text => List.length_map _
  cases action with
  | write c =>
      cases put
      cases done
      exact Writer.puts_write _ hosts _
  | writeSlice text =>
      cases put
      cases done
      exact Writer.puts_counting (Buffer.leaves_appendSlice w.surroundings hosts
        (TextUnit.unitsOf text)) (Buffer.layout_appendSlice _)
  | writeText text =>
      cases put
      cases done
      have puts : writer.Puts _ st _ :=
        Writer.puts_counting (Buffer.leaves_appendText w.surroundings hosts text)
          (Buffer.layout_appendText text)
      rw [width] at puts
      exact puts
  | flush =>
      cases put
      cases done
      exact Writer.puts_none
  | showObject source =>
      obtain ⟨o, there, rfl⟩ := Option.map_eq_some_iff.1 put
      obtain ⟨o', there', done⟩ := Option.bind_eq_some_iff.1 done
      obtain rfl := Option.some.inj (there.symm.trans there')
      cases done
      exact Writer.puts_showSegments _ hosts (subset_alive_of_get? there')
  | writeObjectChars source =>
      obtain ⟨o, there, rfl⟩ := Option.map_eq_some_iff.1 put
      obtain ⟨o', there', done⟩ := Option.bind_eq_some_iff.1 done
      obtain rfl := Option.some.inj (there.symm.trans there')
      cases done
      have puts : writer.Puts _ st _ :=
        Writer.puts_writeChars w.surroundings hosts ((o.content st).map TextUnit.toChar)
      rw [List.map_map] at puts
      exact puts
  | writeChars text =>
      cases put
      cases done
      exact Writer.puts_writeChars _ hosts _

/-! ### Runs -/

/-- **What is written is told by the world in which it is written**, unless a use is refused room.
The text goes behind that of the buffer, whose layout stays. -/
theorem told_writeAll {actions : List WriteAction}
    (hosts : st.Hosts (writer.buffer.segments ++ w.alive))
    (kept : ∀ s ∈ w.alive, s.content st = s.content w.store) :
    (w.writeAll writer st actions).2.2 = .error (.fault .roomExceeded) ∨
      (w.writeAll writer st actions).2.2 = (w.writing writer.written actions).2 ∧
        (w.writeAll writer st actions).1.buffer.content (w.writeAll writer st actions).2.1 =
          writer.buffer.content st ++ (w.writing writer.written actions).1 ∧
        (w.writeAll writer st actions).1.buffer.layout = writer.buffer.layout := by
  induction actions generalizing writer st with
  | nil => exact .inr ⟨rfl, (List.append_nil _).symm, rfl⟩
  | cons action rest ih =>
      rw [writeAll, writing]
      cases put : w.written? action with
      | none =>
          rw [(writeOne_eq_none_iff action).2 put]
          exact .inr ⟨rfl, (List.append_nil _).symm, rfl⟩
      | some units =>
          cases done : w.writeOne writer st action with
          | none => cases ((writeOne_eq_none_iff action).1 done).symm.trans put
          | some r =>
              have beside := undisturbed_writeOne hosts done
              have puts := puts_writeOne hosts ((written?_withStore kept action).trans put) done
              rcases puts with full | ⟨well, count, text, layout⟩
              · refine .inl ?_
                dsimp only
                rw [full]
              · have onward := @ih r.object r.store beside.hosts fun s here =>
                  (beside.content_eq here).trans (kept s here)
                rw [count] at onward
                dsimp only
                rw [well]
                rcases onward with full | ⟨told, shown, same⟩
                · refine .inl ?_
                  dsimp only
                  rw [full]
                  rfl
                · refine .inr ⟨?_, ?_, same.trans layout⟩
                  · dsimp only
                    rw [told, count]
                  · dsimp only
                    rw [shown, text, List.append_assoc]

/-- A run of a writer is over.  Its buffer goes back to its register, unless a use was refused. -/
def afterWriting (rest : World α) (target : String)
    (used : Writer × Store α × Except Answer (List Nat)) : World α × Answer :=
  let left := rest.withStore used.2.1
  match used.2.2 with
  | .ok counts => (left.put target (.buffer used.1.buffer), .writing counts)
  | .error (.fault fault) => (left, .fault fault)
  | .error answer => (left.put target (.buffer used.1.buffer), answer)

/-- A buffer is written to while it is out of the table. -/
theorem write_of_get? {target : String} {b : Buffer} (there : w.get? target = some (.buffer b))
    (actions : List WriteAction) : w.write target actions =
      (w.erase target).afterWriting target
        ((w.erase target).writeAll ⟨b, 0⟩ w.store actions) := by
  rw [write, take?_of_get? there]
  rfl

end World

/-! ### Finding room -/

/-- There is room in a buffer for the units that a use of a writer puts into it, in bulk or one by
one. -/
def WriteAction.Finds {α : Type} [TextUnit α] (w : World α) (b : Buffer) (count : Nat) :
    WriteAction → Prop
  | .write _ | .writeObjectChars _ | .writeChars _ => b.Finds α w.surroundings count 1
  | .writeSlice _ | .writeText _ => b.Finds α w.surroundings count (count - b.room)
  | .showObject source => ∀ o, w.get? source = some o → ∀ s ∈ o.segments, 0 < s.length →
      b.Finds α (w.surroundings.lending s.storage) count 1
  | .flush => True

/-- There can be room in a buffer for the units that a use of a writer puts into it. -/
def WriteAction.Admits {α : Type} [TextUnit α] (w : World α) (b : Buffer) : WriteAction → Prop
  | .write _ | .writeObjectChars _ | .writeChars _ => b.Admits α w.surroundings 1
  | .writeSlice text | .writeText text => b.Admits α w.surroundings text.toList.length
  | .showObject source => ∀ o, w.get? source = some o → ∀ s ∈ o.segments, 0 < s.length →
      b.Admits α (w.surroundings.lending s.storage) 1
  | .flush => True

namespace World

variable {α : Type} [TextUnit α] {w : World α} {writer : Writer} {st : Store α}

/-- A use of a writer that finds room comes to its end. -/
theorem writeOne_of_finds {action : WriteAction} {r : Edited Writer α Unit} {units : List α}
    (made : w.surroundings.LendsMade st)
    (hosts : st.Hosts (writer.buffer.segments ++ w.alive))
    (put : (w.withStore st).written? action = some units)
    (done : w.writeOne writer st action = some r)
    (finds : action.Finds w writer.buffer units.length) : r.answer = .ok () := by
  have bulk : ∀ {write : Segment → List α → Store α → Edited Segment α Unit},
      Buffer.WritesBehind w.surroundings write → ∀ units : List α,
        writer.buffer.Finds α w.surroundings units.length (units.length - writer.buffer.room) →
          (writer.buffer.appendBy write units st).answer = .ok () :=
    fun writes units => (Buffer.answer_appendBy writes hosts made units).2
  cases action with
  | write c =>
      cases put
      cases done
      exact (Writer.write_of_finds made hosts finds _).1
  | writeSlice text =>
      cases put
      cases done
      exact (Writer.answer_counting _ _).trans
        (bulk (Buffer.writesBehind_appendSlice w.surroundings) _ finds)
  | writeText text =>
      cases put
      cases done
      exact (Writer.answer_counting _ _).trans
        (bulk (Buffer.writesBehind_appendEach w.surroundings) _ finds)
  | flush =>
      cases done
      rfl
  | showObject source =>
      obtain ⟨o, there, rfl⟩ := Option.map_eq_some_iff.1 put
      obtain ⟨o', there', done⟩ := Option.bind_eq_some_iff.1 done
      obtain rfl := Option.some.inj (there.symm.trans there')
      cases done
      rw [List.length_map] at finds
      exact Writer.showSegments_of_finds made hosts (subset_alive_of_get? there') (finds o there')
  | writeObjectChars source =>
      obtain ⟨o, there, rfl⟩ := Option.map_eq_some_iff.1 put
      obtain ⟨o', there', done⟩ := Option.bind_eq_some_iff.1 done
      obtain rfl := Option.some.inj (there.symm.trans there')
      cases done
      rw [List.length_map, ← List.length_map TextUnit.toChar, ← Nat.add_zero (List.length _)] at finds
      exact (Writer.writeChars_of_finds made hosts fun _ => finds).1
  | writeChars text =>
      cases put
      cases done
      rw [TextUnit.unitsOf, List.length_map, ← Nat.add_zero (List.length _)] at finds
      exact (Writer.writeChars_of_finds made hosts fun _ => finds).1

/-- Where there can be room for a use, it finds it. -/
theorem finds_of_admits {action : WriteAction} {b : Buffer} {units : List α}
    (put : (w.withStore st).written? action = some units) (admits : action.Admits w b) :
    action.Finds w b units.length := by
  have width : ∀ text : String, (TextUnit.unitsOf text : List α).length = text.toList.length :=
    fun text => List.length_map _
  cases action with
  | write | writeObjectChars | writeChars => exact Buffer.Admits.finds admits _
  | writeSlice text | writeText text =>
      cases put
      have whole : b.Admits α w.surroundings (TextUnit.unitsOf text : List α).length := by
        rw [width]
        exact admits
      exact (whole.mono (Nat.sub_le ..)).finds _
  | flush => trivial
  | showObject source => exact fun o there s here long => (admits o there s here long).finds _

section

variable {action : WriteAction} {r : Edited Writer α Unit} (made : w.surroundings.LendsMade st)
  (hosts : st.Hosts (writer.buffer.segments ++ w.alive))
  (done : w.writeOne writer st action = some r)
include made hosts done

theorem admits_writeOne {around : Surroundings} {pending : Nat} (made' : around.LendsMade st)
    (admits : writer.buffer.Admits α around pending) : r.object.buffer.Admits α around pending := by
  cases action with
  | write c =>
      cases done
      exact Writer.admits_write _ made made' hosts admits _
  | writeSlice text =>
      cases done
      exact Writer.buffer_counting (P := fun b => b.Admits α around pending)
        (Buffer.admits_appendBy hosts made made' admits (Buffer.writesBehind_appendSlice _) _)
  | writeText text =>
      cases done
      exact Writer.buffer_counting (P := fun b => b.Admits α around pending)
        (Buffer.admits_appendBy hosts made made' admits (Buffer.writesBehind_appendEach _) _)
  | flush =>
      cases done
      exact admits
  | showObject source =>
      obtain ⟨o, there, done⟩ := Option.bind_eq_some_iff.1 done
      cases done
      exact Writer.admits_showSegments _ made made' hosts admits (subset_alive_of_get? there)
  | writeObjectChars source =>
      obtain ⟨o, there, done⟩ := Option.bind_eq_some_iff.1 done
      cases done
      exact Writer.admits_writeChars _ made made' hosts admits _
  | writeChars text =>
      cases done
      exact Writer.admits_writeChars _ made made' hosts admits _

/-- Where there can be room for a use, there can be behind what other uses have put in. -/
theorem later_admits {later : WriteAction} (admits : later.Admits w writer.buffer) :
    later.Admits w r.object.buffer := by
  cases later with
  | write | writeObjectChars | writeChars | writeSlice | writeText =>
      exact admits_writeOne made hosts done made admits
  | flush => trivial
  | showObject source =>
      intro o there s here long
      have placed := hosts.placed s (List.mem_append_right _ (subset_alive_of_get? there here))
      exact admits_writeOne made hosts done (made.lending placed.made) (admits o there s here long)

end

end World
end SegmentedText
