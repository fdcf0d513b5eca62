import SegmentedText.Proofs.Refusals.Steps
import SegmentedText.Proofs.Streams.Drains
import SegmentedText.Proofs.Words.Cursors

/-!
# Readers, writers and drains in machine words

A reader moves a cursor over a text that stays as it is: unit by unit, or by jumps to the end
of a block or behind a delimiter.  All its cursors are located ones, so every use of a reader
is exact (`World.readsExactly`), and so is a run of uses, whatever they pour into other
registers (`World.readsAllExactly`).

A writer counts what it has appended.  Its counts are no greater than the number of units that
its buffer shows in the end, so they can be counted with words (`World.writesExactly`).

A run that drains a buffer counts bytes.  No encoder makes more than four of a unit, and four
times the limit of a text is just what a word cannot tell any more (`Buffer.drainsExactly`).
-/

set_option autoImplicit false

namespace SegmentedText

variable {α : Type} {st : Store α} {segments : List Segment}

namespace Cursor

/-! ## Blocks and lines -/

/-- Gathering a block is exact: so is each cursor that it comes to, and each jump leads to an offset
of the same segment. -/
inductive GathersExactly (segments : List Segment) : Cursor → Nat → Prop where
  | ended {c : Cursor} {room : Nat} (spent : segments[c.segment]? = none ∨ room = 0) :
      GathersExactly segments c room
  | block {c : Cursor} {room : Nat} {s : Segment} (here : segments[c.segment]? = some s)
      (exact : c.Exact segments)
      (inside : c.offset + min (s.length - c.offset) room ≤ s.length)
      (onward : GathersExactly segments
        (c.jumpTo segments (c.offset + min (s.length - c.offset) room))
        (room - min (s.length - c.offset) room)) : GathersExactly segments c room

theorem gathersExactly_locate (st : Store α) (short : totalLength segments < 2 * textLimit)
    (position room : Nat) : GathersExactly segments (locate segments position) room := by
  generalize located : locate segments position = c
  fun_induction gather segments st c room generalizing position with
  | case1 c room absent => exact .ended (.inl absent)
  | case2 c s here => exact .ended (.inr rfl)
  | case3 c room s here some_room count block others behind rest ih =>
      subst located
      have inside := lt_of_segment_locate here
      have offset_lt := offset_lt_of_locate here
      have jumped := jumpTo_locate inside
        (Nat.le_add_right (locate segments position).offset count)
      exact .block here (exact_locate short position) (by omega) (ih _ jumped.symm)

variable [TextUnit α]

/-- Pouring up to a delimiter is exact, whatever becomes of the sink: so is each cursor on the way,
and the place behind the delimiter is one of its segment. -/
inductive PoursExactly (segments : List Segment) (delimiter : α) (around : Surroundings) :
    Cursor → Buffer → Store α → Prop where
  | ended {c : Cursor} {sink : Buffer} {st : Store α} (spent : segments[c.segment]? = none) :
      PoursExactly segments delimiter around c sink st
  | found {c : Cursor} {sink : Buffer} {st : Store α} {s : Segment} {place : Nat}
      (here : segments[c.segment]? = some s) (exact : c.Exact segments)
      (there : s.indexOf delimiter c.offset st = some place) (inside : place + 1 ≤ s.length) :
      PoursExactly segments delimiter around c sink st
  | onward {c : Cursor} {sink : Buffer} {st : Store α} {s : Segment}
      (here : segments[c.segment]? = some s) (exact : c.Exact segments)
      (absent : s.indexOf delimiter c.offset st = none)
      (next : PoursExactly segments delimiter around (c.jumpTo segments s.length)
        (sink.appendSlice around ((s.content st).drop c.offset) st).object
        (sink.appendSlice around ((s.content st).drop c.offset) st).store) :
      PoursExactly segments delimiter around c sink st

theorem poursExactly_locate (short : totalLength segments < 2 * textLimit) (delimiter : α)
    (around : Surroundings) (position : Nat) (sink : Buffer) (st : Store α) :
    PoursExactly segments delimiter around (locate segments position) sink st := by
  -- The segments that are left become fewer.
  induction left : segments.length - (locate segments position).segment using Nat.strongRecOn
    generalizing position sink st with
  | ind left ih =>
      cases here : segments[(locate segments position).segment]? with
      | none => exact .ended here
      | some s =>
          cases there : s.indexOf delimiter (locate segments position).offset st with
          | some place =>
              exact .found here (exact_locate short position) there (indexOf_bounds there).2
          | none =>
              have jumped := jumpTo_locate (lt_of_segment_locate here)
                (Nat.le_of_lt (offset_lt_of_locate here))
              have fewer := lt_segment_jumpTo here (Nat.le_refl s.length)
              have held := (List.getElem?_eq_some_iff.1 here).1
              refine .onward here (exact_locate short position) there ?_
              rw [jumped] at fewer ⊢
              exact ih _ (by omega) _ _ _ rfl

end Cursor

/-! ## Uses of a reader -/

namespace Reader

variable {r : Reader α}

/-- A reader is exact if its cursor is, if it stands at most at the end of the text, and if one unit
more than the text has can be counted. -/
structure Exact (r : Reader α) : Prop where
  cursor : r.cursor.Exact r.segments
  position : r.cursor.position ≤ totalLength r.segments
  count : totalLength r.segments + 1 < wordSize

/-- Taking units one by one is exact: so is the reader before each of them. -/
def TakesExactly (r : Reader α) (st : Store α) : Nat → Prop
  | 0 => True
  | count + 1 => r.Exact ∧ TakesExactly (r.read st).2 st count

theorem exact_of_on (on : r.On segments) (short : totalLength segments < 2 * textLimit) :
    r.Exact := by
  obtain ⟨same, place, le, located⟩ := on
  refine ⟨?_, ?_, ?_⟩
  · rw [located, same]
    exact Cursor.exact_locate short place
  · rw [located, same]
    exact le
  · rw [same]
    have quarter := four_mul_textLimit
    omega

theorem on_read (valid : ∀ s ∈ segments, s.Valid st) (on : r.On segments) :
    (r.read st).2.On segments := by
  obtain ⟨same, place, le, located⟩ := on
  have follows : r.Follows segments st
      ⟨r.pushback, (contentOf segments st).drop place, fun _ => none⟩ :=
    ⟨same, rfl, place, le, located, rfl⟩
  exact (follows.read valid).1.on

theorem takesExactly (valid : ∀ s ∈ segments, s.Valid st) (on : r.On segments)
    (short : totalLength segments < 2 * textLimit) (count : Nat) : r.TakesExactly st count := by
  induction count generalizing r with
  | zero => trivial
  | succ count ih => exact ⟨exact_of_on on short, ih (on_read valid on)⟩

end Reader

namespace World

variable [TextUnit α] {w : World α} {r : Reader α}

/-- A use of a reader is exact: the reader is, and so is what the use does with it. -/
def ReadsExactly (w : World α) (r : Reader α) (action : ReadAction) : Prop :=
  r.Exact ∧
    match action with
    | .readInto size _ =>
        r.cursor.GathersExactly r.segments (size - r.pushback.toList.length)
    | .take count => r.TakesExactly w.store count
    | .rest => r.TakesExactly w.store (r.remaining + 1)
    | .readUntil c _ _ => ∀ around sink st,
        r.cursor.PoursExactly r.segments (TextUnit.ofChar c : α) around sink st
    | _ => True

/-- A run of uses is exact: so is each of them. -/
def ReadsAllExactly (w : World α) (r : Reader α) : List ReadAction → Prop
  | [] => True
  | action :: rest =>
      w.ReadsExactly r action ∧
        ReadsAllExactly (w.readOne r action).2.1 (w.readOne r action).1 rest

theorem readsExactly (sound : w.Sound) (aside : segments ⊆ w.aside) (on : r.On segments)
    (short : totalLength segments < 2 * textLimit) (action : ReadAction) :
    w.ReadsExactly r action := by
  have valid := valid_of_alive sound (List.subset_append_of_subset_right _ aside)
  refine ⟨Reader.exact_of_on on short, ?_⟩
  have takes := Reader.takesExactly valid on short
  obtain ⟨rfl, place, -, located⟩ := on
  cases action with
  | readInto size handover =>
      dsimp only
      rw [located]
      exact Cursor.gathersExactly_locate w.store short _ _
  | take count => exact takes count
  | rest => exact takes _
  | readUntil c sink handover =>
      intro around sink st
      rw [located]
      exact Cursor.poursExactly_locate short _ around _ sink st
  | read | back | remaining | sizeHint => trivial

/-- **A run of uses is exact**, whatever is read, pushed back or poured on the way. -/
theorem readsAllExactly (sound : w.Sound) (made : w.LendsMade) (aside : segments ⊆ w.aside)
    (on : r.On segments) (short : totalLength segments < 2 * textLimit)
    (actions : List ReadAction) :
    w.ReadsAllExactly r actions := by
  induction actions generalizing w r with
  | nil => trivial
  | cons action rest ih =>
      have u : Underway action.Fills True w [] (w.readOne r action).2.1 :=
        underway_readOne sound r action
      refine ⟨readsExactly sound aside on short action, ?_⟩
      exact ih u.sound (lendsMade_readOne sound made r action)
        (fun s here => u.aside.subset (aside here)) (on_readerAfter sound made aside on [action])

/-! ## Uses of a writer -/

variable {writer : Writer} {st : Store α}

/-- A run of writes is exact: the number of units written so far is a word after each of them. -/
def WritesExactly (w : World α) (writer : Writer) (st : Store α) : List WriteAction → Prop
  | [] => True
  | action :: rest => ∀ r, w.writeOne writer st action = some r →
      r.object.written < wordSize ∧ WritesExactly w r.object r.store rest

/-- What a run of writes has counted has gone into the buffer. -/
theorem grows_writeAll {actions : List WriteAction} (made : w.surroundings.LendsMade st)
    (hosts : st.Hosts (writer.buffer.segments ++ w.alive))
    (admits : ∀ action ∈ actions, action.Admits w writer.buffer) :
    writer.written ≤ (w.writeAll writer st actions).1.written ∧
      (w.writeAll writer st actions).1.written + (writer.buffer.content st).length =
        writer.written + ((w.writeAll writer st actions).1.buffer.content
          (w.writeAll writer st actions).2.1).length := by
  induction actions generalizing writer st with
  | nil => exact ⟨Nat.le_refl _, rfl⟩
  | cons action rest ih =>
      rw [writeAll]
      split
      next => exact ⟨Nat.le_refl _, rfl⟩
      next r done =>
        have wrote := wrote_writeOne made hosts (admits action List.mem_cons_self) done
        have beside := undisturbed_writeOne hosts done
        obtain ⟨later, behind⟩ := ih (made.grow beside.size_le) wrote.hosts fun a here =>
          later_admits made hosts done (admits a (List.mem_cons_of_mem _ here))
        have before := wrote.grows
        simp only [wrote.answer]
        refine ⟨Nat.le_trans wrote.written_le later, ?_⟩
        generalize w.writeAll r.object r.store rest = told at behind ⊢
        obtain ⟨writer', st', counts⟩ := told
        dsimp only at behind ⊢
        omega

/-- **A run of writes is exact** if the text that it leaves is short. -/
theorem writesExactly {actions : List WriteAction} (made : w.surroundings.LendsMade st)
    (hosts : st.Hosts (writer.buffer.segments ++ w.alive))
    (admits : ∀ action ∈ actions, action.Admits w writer.buffer)
    (begun : writer.written ≤ (writer.buffer.content st).length)
    (ended : ((w.writeAll writer st actions).1.buffer.content
      (w.writeAll writer st actions).2.1).length < wordSize) :
    w.WritesExactly writer st actions := by
  induction actions generalizing writer st with
  | nil => trivial
  | cons action rest ih =>
      intro r done
      have wrote := wrote_writeOne made hosts (admits action List.mem_cons_self) done
      have onward := made.grow (undisturbed_writeOne hosts done).size_le
      have roomy : ∀ a ∈ rest, a.Admits w r.object.buffer := fun a here =>
        later_admits made hosts done (admits a (List.mem_cons_of_mem _ here))
      have before := wrote.grows
      have within : r.object.written ≤ (r.object.buffer.content r.store).length := by omega
      rw [writeAll, done] at ended
      simp only [wrote.answer] at ended
      obtain ⟨later, behind⟩ := grows_writeAll onward wrote.hosts roomy
      refine ⟨?_, ih onward wrote.hosts roomy within ended⟩
      generalize w.writeAll r.object r.store rest = told at later behind ended
      obtain ⟨writer', st', counts⟩ := told
      dsimp only at later behind ended
      omega

end World

/-! ## Draining -/

section

variable {σ κ ε : Type}

/-- An encoder makes at most `width` bytes of each unit. -/
def Encoder.Widens (encoder : Encoder α σ) (width : Nat) : Prop :=
  ∀ state window last chunk, (encoder.encode state window last).2 = .ok chunk →
    chunk.length ≤ width * window.length

/-- Draining a buffer is exact, whatever the sink does: the number of bytes that a run hands to it,
and so the number of those that it takes, is a word. -/
def Buffer.DrainsExactly (b : Buffer) (st : Store α) (encoder : Encoder α σ) : Prop :=
  ∀ (κ ε : Type) (sink : Sink κ ε) (priority : Priority) (state : σ) (kept : κ),
    (drain encoder sink priority b st state kept).chunks.flatten.length < wordSize

theorem length_chunks_drainWindows {encoder : Encoder α σ} {width : Nat}
    (widens : encoder.Widens width) (sink : Sink κ ε) (priority : Priority)
    (windows : List (List α)) (state : σ) (kept : κ) (written : Nat) :
    (drainWindows encoder sink priority windows state kept written).chunks.flatten.length ≤
      width * windows.flatten.length := by
  have more : ∀ (window : List α) (rest : List (List α)), width * (window :: rest).flatten.length =
      width * window.length + width * rest.flatten.length := by
    intro window rest
    rw [List.flatten_cons, List.length_append, Nat.mul_add]
  have encoded : ∀ {state state' : σ} {window : List α} {last : Bool} {chunk : List UInt8},
      encoder.encode state window last = (state', .ok chunk) →
        chunk.length ≤ width * window.length := by
    intro state state' window last chunk made
    exact widens state window last chunk (congrArg Prod.snd made)
  fun_induction drainWindows encoder sink priority windows state kept written with
  | case1 state kept written => exact Nat.zero_le _
  | case2 window rest state kept written events state' error failed => exact Nat.zero_le _
  | case3 window rest state kept written events state' chunk made none ih =>
      rw [Drained.chunks_after, more]
      exact Nat.le_trans ih (Nat.le_add_left _ _)
  | case4 window rest state kept written events state' chunk made some kept' taken ih =>
      have offered : offeredIn (events ++ [.offered chunk]) = [chunk] := rfl
      rw [Drained.chunks_after, offered, more, List.flatten_append, List.length_append,
        List.flatten_singleton]
      exact Nat.add_le_add (encoded made) ih
  | case5 window rest state kept written events state' chunk made some kept' error refused =>
      have offered : Drained.chunks (α := α) (σ := σ) (ε := ε)
          ⟨state', kept', events ++ [.offered chunk], .error (.sink error)⟩ = [chunk] := rfl
      rw [offered, more, List.flatten_singleton]
      exact Nat.le_trans (encoded made) (Nat.le_add_right _ _)

theorem length_utf8Bytes_le [TextUnit α] (units : List α) :
    (utf8Bytes units).length ≤ 4 * units.length := by
  induction units with
  | nil => exact Nat.zero_le _
  | cons u us ih =>
      have size := (TextUnit.toChar u).utf8Size_le_four
      rw [utf8Bytes] at ih
      rw [utf8Bytes, List.flatMap_cons, List.length_append, String.length_utf8EncodeChar,
        List.length_cons]
      omega

/-- A single-byte charset has one byte for each unit that is encoded. -/
theorem length_encodeSingle [TextUnit α] {charset : Charset} {strict : Bool} {window : List α}
    {position : Nat} {bytes : List UInt8}
    (made : (Encoder.encodeSingle charset strict window position).2 = .ok bytes) :
    bytes.length = window.length := by
  induction window generalizing position bytes with
  | nil =>
      obtain rfl := Except.ok.inj made
      rfl
  | cons u us ih =>
      rw [Encoder.encodeSingle] at made
      split at made
      next => cases made
      next b encoded =>
        split at made
        next position' rest later =>
          obtain rfl := Except.ok.inj made
          rw [List.length_cons, List.length_cons, ih (congrArg Prod.snd later)]
        next => cases made

theorem Encoder.widens_utf8 [TextUnit α] : (Encoder.utf8 : Encoder α Unit).Widens 4 := by
  intro state window last chunk made
  obtain rfl := Except.ok.inj made
  exact length_utf8Bytes_le window

theorem Encoder.widens_singleByte [TextUnit α] (charset : Charset) (strict : Bool) :
    (Encoder.singleByte charset strict : Encoder α Nat).Widens 4 := by
  intro position window last chunk made
  rw [length_encodeSingle made]
  exact Nat.le_mul_of_pos_left _ (by decide)

theorem Encoder.Widens.traced {encoder : Encoder α σ} {width : Nat}
    (widens : encoder.Widens width) : encoder.traced.Widens width :=
  fun state window last => widens state.1 window last

/-- **Draining a short text is exact**, whether it is encoded in UTF-8 or in a single-byte charset. -/
theorem Buffer.drainsExactly {b : Buffer} {encoder : Encoder α σ} (widens : encoder.Widens 4)
    (short : (b.content st).length < textLimit) : b.DrainsExactly st encoder := by
  intro κ ε sink priority state kept
  have most := length_chunks_drainWindows widens sink priority (b.windows st) state kept 0
  rw [Buffer.flatten_windows] at most
  have quarter := four_mul_textLimit
  exact Nat.lt_of_le_of_lt most (by omega)

end

/-- Draining a buffer as a job asks for it is exact. -/
def DrainJob.Exact [TextUnit α] (job : DrainJob) (b : Buffer) (st : Store α) : Prop :=
  match job.encoder with
  | .utf8 => b.DrainsExactly st Encoder.utf8
  | .single charset strict => b.DrainsExactly st (Encoder.singleByte charset strict)
  | .traced => b.DrainsExactly st Encoder.utf8.traced

theorem DrainJob.exact [TextUnit α] {b : Buffer} (short : (b.content st).length < textLimit)
    (job : DrainJob) : job.Exact b st := by
  rw [DrainJob.Exact]
  split
  · exact Buffer.drainsExactly Encoder.widens_utf8 short
  · exact Buffer.drainsExactly (Encoder.widens_singleByte _ _) short
  · exact Buffer.drainsExactly Encoder.widens_utf8.traced short

end SegmentedText
