import SegmentedText.Proofs.Streams.Readings

/-!
# Readers as tapes

A tape is what a reader is on flat text: a unit that was pushed back in front of what is
still unread, and the texts of the sinks that lines go to.  `Tape.step` says what one use
of a reader does to it and what is told of it.

A reader follows a tape (`Reader.Follows`) through reading single units, blocks, the rest of
the text (`Reader.Follows.take`, `Reader.Follows.readInto`) and lines.  A line is either read as
a whole, or it is refused where its sink does not find room, and then a beginning of it has
been read (`Reader.Follows.readUntil`).
-/

set_option autoImplicit false

namespace SegmentedText

variable {α : Type} [TextUnit α]

/-! ## Tapes -/

/-- What a reader is on flat text. -/
structure Tape (α : Type) where
  /-- The unit that was pushed back and will be read next. -/
  pushed : Option α
  /-- What is still unread of the text. -/
  unread : List α
  /-- The texts in the registers that can be sinks. -/
  sinks : String → Option (List α)

namespace Tape

/-- The units that will be read, in order. -/
def ahead (t : Tape α) : List α := t.pushed.toList ++ t.unread

/-- The tape with units taken off its front.  Taking none leaves a unit that was pushed back apart
from the others. -/
def skip (t : Tape α) : Nat → Tape α
  | 0 => t
  | count + 1 => { t with pushed := none, unread := t.ahead.drop (count + 1) }

/-- The tape with one more text behind that of a sink. -/
def pouring (t : Tape α) (sink : String) (text : List α) : Tape α :=
  { t with sinks := fun name => if name = sink then some text else t.sinks name }

/-- One use of a reader, on its tape. -/
def step (t : Tape α) : ReadAction → Tape α × ReadOutcome
  | .read _ =>
      match t.ahead with
      | [] => (t, .endOfData .reached)
      | u :: _ => (t.skip 1, .unit (World.unitText u))
  | .readInto size _ =>
      if size = 0 then (t, .filled "" 0)
      else
        let units := t.ahead.take size
        if units.isEmpty then (t, .endOfData .reached)
        else
          let behind := List.replicate (size - units.length) (TextUnit.ofChar '-')
          (t.skip size, .filled (TextUnit.textOf (units ++ behind)) units.length)
  | .back c => ({ t with pushed := some (TextUnit.ofChar c) }, .done)
  | .remaining => (t, .number t.ahead.length)
  | .sizeHint => (t, .hint t.ahead.length (some t.ahead.length))
  | .take count => (t.skip count, .text (TextUnit.textOf (t.ahead.take count)))
  | .rest => (t.skip (t.ahead.length + 1), .text (TextUnit.textOf t.ahead))
  | .readUntil c sink _ =>
      match t.sinks sink with
      | none => (t, .malformed)
      | some text =>
          let behind := fromDelimiter (TextUnit.ofChar c) t.ahead
          ({ t with pushed := none, unread := behind.tail }.pouring sink
              (text ++ lineOf (TextUnit.ofChar c) t.ahead),
            .found !behind.isEmpty)

/-- What a use of a reader that is refused leaves in the sinks: a line may have been begun. -/
def Begun (t : Tape α) (sinks : String → Option (List α)) : ReadAction → Prop
  | .readUntil c sink _ => ∃ text part, t.sinks sink = some text ∧
      part <+: lineOf (TextUnit.ofChar c) t.ahead ∧ sinks = (t.pouring sink (text ++ part)).sinks
  | _ => sinks = t.sinks

/-- Several uses of a reader, on its tape. -/
def run (t : Tape α) : List ReadAction → Tape α × List ReadOutcome
  | [] => (t, [])
  | action :: rest =>
      let (t, outcome) := t.step action
      let (t, outcomes) := t.run rest
      (t, outcome :: outcomes)

section

omit [TextUnit α]

@[simp] theorem sinks_skip (t : Tape α) (count : Nat) : (t.skip count).sinks = t.sinks := by
  cases count <;> rfl

@[simp] theorem ahead_skip (t : Tape α) (count : Nat) :
    (t.skip count).ahead = t.ahead.drop count := by
  cases count <;> rfl

/-- Taking units one after the other takes them all. -/
theorem skip_skip (t : Tape α) (count : Nat) : (t.skip 1).skip count = t.skip (count + 1) := by
  cases count with
  | zero => rfl
  | succ count =>
      have rest : (t.skip 1).ahead.drop (count + 1) = t.ahead.drop (count + 1 + 1) := by
        rw [ahead_skip, List.drop_drop, Nat.add_comm]
      exact congrArg (fun unread => { t with pushed := none, unread }) rest

/-- Nothing can be taken off an empty tape. -/
theorem skip_of_ahead {t : Tape α} (empty : t.ahead = []) (count : Nat) : t.skip count = t := by
  obtain ⟨pushed, unread, sinks⟩ := t
  obtain ⟨none, nothing⟩ := List.append_eq_nil_iff.1 empty
  obtain rfl := Option.toList_eq_nil_iff.1 none
  obtain rfl : unread = [] := nothing
  cases count <;> rfl

end

end Tape

/-! ## Readers on their tape -/

/-- A reader is what a tape is. -/
structure Reader.Follows (r : Reader α) (segments : List Segment) (st : Store α) (t : Tape α) :
    Prop where
  segments_eq : r.segments = segments
  pushback : r.pushback = t.pushed
  place : ∃ place ≤ totalLength segments, r.cursor = .locate segments place ∧
    t.unread = (contentOf segments st).drop place

/-- A reader stands at a place of a text, or at its end. -/
def Reader.On (r : Reader α) (segments : List Segment) : Prop :=
  r.segments = segments ∧ ∃ place ≤ totalLength segments, r.cursor = .locate segments place

omit [TextUnit α] in
/-- A reader at the front of a buffer is a tape of its content. -/
theorem Buffer.follows_ofBuffer (b : Buffer) (st : Store α) (sinks : String → Option (List α)) :
    (Reader.ofBuffer b).Follows b.segments st ⟨none, b.content st, sinks⟩ :=
  ⟨rfl, rfl, 0, Nat.zero_le _, rfl, rfl⟩

namespace Reader.Follows

section

omit [TextUnit α]

variable {r : Reader α} {segments : List Segment} {st : Store α} {t : Tape α}

/-- Readers of text that stays the same go on following. -/
theorem keep {st' : Store α} (follows : r.Follows segments st t)
    (same : contentOf segments st' = contentOf segments st) : r.Follows segments st' t :=
  { follows with place := same ▸ follows.place }

theorem pushing (follows : r.Follows segments st t) (u : α) :
    (r.back u).Follows segments st { t with pushed := some u } :=
  { follows with pushback := rfl }

variable (valid : ∀ s ∈ segments, s.Valid st)
include valid

/-- What is left to be read is counted exactly. -/
theorem remaining_eq (follows : r.Follows segments st t) : r.remaining = t.ahead.length := by
  obtain ⟨place, le, cursor, unread⟩ := follows.place
  rw [Reader.remaining, follows.segments_eq, follows.pushback, cursor, Cursor.position_locate,
    Tape.ahead, unread, List.length_append, List.length_drop, length_contentOf valid]
  cases t.pushed with
  | none => simp
  | some u =>
      simp only [Option.isSome_some, if_true, Option.toList_some, List.length_singleton]
      omega

/-- A tape is no longer than the text with one unit pushed back. -/
theorem length_ahead_le (follows : r.Follows segments st t) :
    t.ahead.length ≤ totalLength segments + 1 := by
  obtain ⟨place, le, cursor, unread⟩ := follows.place
  have single : t.pushed.toList.length ≤ 1 := Option.length_toList_le
  rw [Tape.ahead, unread, List.length_append, List.length_drop, length_contentOf valid]
  omega

/-- A reader that has moved over units, one that was pushed back first, follows the rest of its
tape. -/
theorem skipped {place count : Nat} (unread : t.unread = (contentOf segments st).drop place)
    (le : place ≤ totalLength segments) (some_count : 0 < count) :
    Reader.Follows ⟨segments, .locate segments (place +
      min (count - t.pushed.toList.length) (totalLength segments - place)), none⟩ segments st
        (t.skip count) := by
  obtain ⟨count, rfl⟩ := Nat.exists_eq_add_of_lt some_count
  rw [Nat.zero_add]
  refine ⟨rfl, rfl, _, by omega, rfl, ?_⟩
  have single : t.pushed.toList.length ≤ 1 := Option.length_toList_le
  show (t.pushed.toList ++ t.unread).drop (count + 1) = _
  rw [List.drop_append, List.drop_eq_nil_of_le (by omega), List.nil_append, unread, List.drop_drop]
  by_cases far : count + 1 - t.pushed.toList.length ≤ totalLength segments - place
  · rw [Nat.min_eq_left far]
  · have total := length_contentOf valid
    rw [List.drop_eq_nil_of_le (by omega), List.drop_eq_nil_of_le (by omega)]

/-- One unit comes off the front of the tape, if there is one. -/
theorem read (follows : r.Follows segments st t) :
    (r.read st).2.Follows segments st (t.skip 1) ∧
      (r.read st).1 = match t.ahead.head? with
        | some u => .ok u
        | none => .error .reached := by
  obtain ⟨place, le, cursor, unread⟩ := follows.place
  have moved := skipped valid unread le Nat.one_pos
  obtain ⟨segments', cursor', pushback⟩ := r
  obtain rfl : segments' = segments := follows.segments_eq
  obtain rfl : pushback = t.pushed := follows.pushback
  obtain rfl : cursor' = _ := cursor
  rw [Tape.ahead, unread]
  cases pushed : t.pushed with
  | some u =>
      rw [pushed] at moved
      exact ⟨moved, rfl⟩
  | none =>
      rw [Reader.read]
      dsimp only
      rw [Cursor.unit?_locate valid, Option.toList_none, List.nil_append]
      by_cases inside : place < totalLength segments'
      · have bound := inside
        rw [← length_contentOf valid] at bound
        rw [List.getElem?_eq_getElem bound, List.drop_eq_getElem_cons bound]
        refine ⟨?_, rfl⟩
        have one : min (1 - t.pushed.toList.length) (totalLength segments' - place) = 1 := by
          rw [pushed, Option.toList_none, List.length_nil]
          omega
        rw [one] at moved
        dsimp only
        rw [Cursor.advance_locate inside]
        exact moved
      · have beyond : (contentOf segments' st).length ≤ place := by
          rw [length_contentOf valid]
          exact Nat.le_of_not_lt inside
        have empty : t.ahead = [] := by
          rw [Tape.ahead, pushed, unread, List.drop_eq_nil_of_le beyond]
          rfl
        rw [pushed] at follows
        rw [List.getElem?_eq_none beyond, List.drop_eq_nil_of_le beyond, Tape.skip_of_ahead empty]
        exact ⟨follows, rfl⟩

/-- Units taken one by one are the front of the tape. -/
theorem take (follows : r.Follows segments st t) (count : Nat) :
    (r.take st count).2.Follows segments st (t.skip count) ∧
      (r.take st count).1 = t.ahead.take count := by
  induction count generalizing r t with
  | zero => exact ⟨follows, rfl⟩
  | succ count ih =>
      obtain ⟨moved, unit⟩ := follows.read valid
      rw [Reader.take]
      cases ahead : t.ahead with
      | nil =>
          rw [ahead] at unit
          rw [Tape.skip_of_ahead ahead] at moved ⊢
          split
          next u r' done =>
            rw [done] at unit
            cases unit
          next r' done =>
            rw [done] at moved
            exact ⟨moved, List.take_nil.symm⟩
      | cons u us =>
          rw [ahead] at unit
          split
          next v r' done =>
            rw [done] at unit moved
            obtain rfl := Except.ok.inj unit
            obtain ⟨last, units⟩ := ih moved
            rw [Tape.skip_skip] at last
            refine ⟨last, ?_⟩
            show v :: (r'.take st count).1 = _
            rw [show (r'.take st count).1 = _ from units, Tape.ahead_skip, ahead]
            rfl
          next r' done =>
            rw [done] at unit
            cases unit

/-- A block is the front of the tape, and a destination keeps what the block does not cover.  An
empty destination takes nothing. -/
theorem readInto (follows : r.Follows segments st t) (destination : List α) :
    (r.readInto destination st).2.2.Follows segments st (t.skip destination.length) ∧
      (r.readInto destination st).1 =
        (if destination ≠ [] ∧ t.ahead = [] then .error .reached
        else .ok (t.ahead.take destination.length).length) ∧
      (r.readInto destination st).2.1 = t.ahead.take destination.length ++
        destination.drop (t.ahead.take destination.length).length := by
  obtain ⟨place, le, cursor, unread⟩ := follows.place
  obtain ⟨segments', cursor', pushback⟩ := r
  obtain rfl : segments' = segments := follows.segments_eq
  obtain rfl : pushback = t.pushed := follows.pushback
  obtain rfl : cursor' = _ := cursor
  cases destination with
  | nil => exact ⟨follows, rfl, rfl⟩
  | cons first others =>
      have moved := skipped valid unread le (Nat.succ_pos others.length)
      have single : t.pushed.toList.length ≤ 1 := Option.length_toList_le
      have block : t.pushed.toList ++ ((contentOf segments' st).drop place).take
          (others.length + 1 - t.pushed.toList.length) = t.ahead.take (others.length + 1) := by
        have whole : t.pushed.toList.take (others.length + 1) = t.pushed.toList :=
          List.take_of_length_le (by omega)
        rw [Tape.ahead, unread, List.take_append, whole]
      rw [Reader.readInto, if_neg (by simp)]
      dsimp only
      rw [Cursor.gather_locate valid]
      dsimp only
      rw [List.length_cons, block]
      by_cases empty : t.ahead = []
      · rw [empty, List.take_nil, if_pos (by rfl), if_pos ⟨List.cons_ne_nil _ _, rfl⟩]
        exact ⟨moved, rfl, rfl⟩
      · have some_unit : ¬(t.ahead.take (others.length + 1)).isEmpty = true := by
          cases ahead : t.ahead with
          | nil => exact absurd ahead empty
          | cons u us => simp
        rw [if_neg some_unit, if_neg fun both => empty both.2]
        exact ⟨moved, rfl, rfl⟩

end

section

variable {r : Reader α} {segments live : List Segment} {st : Store α} {t : Tape α}

omit [TextUnit α] in
theorem on (follows : r.Follows segments st t) : r.On segments :=
  let ⟨place, le, cursor, _⟩ := follows.place
  ⟨follows.segments_eq, place, le, cursor⟩

/-- What a line leaves: it came off the front of the tape with its delimiter, and went to the sink
without it, unless it did not find room there; then it has been begun at most. -/
def Lines (segments : List Segment) (delimiter : α) (t : Tape α) (around : Surroundings)
    (sink : Buffer) (st : Store α) (read : Reader α × Edited Buffer α Bool) : Prop :=
  (read.2.answer = .error .roomExceeded ∧
    ¬sink.Finds α around (lineOf delimiter t.ahead).length (lineOf delimiter t.ahead).length ∧
      read.2.Begins (sink.content st) (lineOf delimiter t.ahead) ∧ read.1.On segments) ∨
    read.2.answer = .ok (!(fromDelimiter delimiter t.ahead).isEmpty) ∧
      read.1.Follows segments read.2.store
        { t with pushed := none, unread := (fromDelimiter delimiter t.ahead).tail } ∧
      read.2.object.content read.2.store = sink.content st ++ lineOf delimiter t.ahead

variable (alive : segments ⊆ live) (delimiter : α) {around : Surroundings} {sink : Buffer}
include alive

theorem pour (follows : r.Follows segments st t) (hosts : st.Hosts (sink.segments ++ live))
    (made : around.LendsMade st) (nothing : t.pushed = none) :
    Lines segments delimiter t around sink st (r.pour delimiter around sink st) := by
  obtain ⟨place, le, cursor, unread⟩ := follows.place
  have ahead : t.ahead = (contentOf segments st).drop place := by
    rw [Tape.ahead, nothing, unread]
    rfl
  have poured := Cursor.pours_locate alive delimiter hosts made le
  have kept : contentOf segments ((Cursor.locate segments place).pour segments delimiter around sink
      st).2.store = contentOf segments st :=
    contentOf_congr fun s here => (undisturbed_cursor_pour hosts).content_eq (alive here)
  rw [← ahead] at poured
  rw [Reader.pour, follows.segments_eq, cursor]
  rcases poured with ⟨full, closed, begun, there⟩ | ⟨answer, behind, shown⟩
  · exact .inl ⟨full, closed, begun, rfl, there⟩
  · obtain ⟨past, rest⟩ := drop_behind_line delimiter t.ahead
    have length : t.ahead.length = totalLength segments - place := by
      rw [ahead, List.length_drop, length_contentOf (valid_of_alive hosts.right alive)]
    rw [Nat.add_assoc] at behind
    refine .inr ⟨answer, ⟨rfl, follows.pushback.trans nothing, _, ?_, behind, ?_⟩, shown⟩
    · omega
    · rw [kept, ← List.drop_drop, ← ahead, rest]

theorem readUntil (follows : r.Follows segments st t) (hosts : st.Hosts (sink.segments ++ live))
    (made : around.LendsMade st) :
    Lines segments delimiter t around sink st (r.readUntil delimiter around sink st) := by
  unfold Reader.readUntil
  split
  next nothing => exact follows.pour alive delimiter hosts made (follows.pushback.symm.trans nothing)
  next u back =>
    have pushed : t.pushed = some u := follows.pushback.symm.trans back
    have ahead : t.ahead = u :: t.unread := by
      rw [Tape.ahead, pushed]
      rfl
    have dropped : Reader.Follows { r with pushback := none } segments st { t with pushed := none } :=
      { follows with pushback := rfl }
    dsimp only
    split
    next same =>
      subst same
      obtain ⟨line, behind⟩ := line_cons_self u t.unread
      rw [← ahead] at line behind
      refine .inr ⟨?_, ?_, ?_⟩
      · rw [behind, ahead]
        rfl
      · rw [behind, ahead]
        exact dropped
      · rw [line, List.append_nil]
    next other =>
      obtain ⟨line, behind⟩ := line_cons_of_ne other t.unread
      rw [← ahead] at line behind
      unfold Lines
      rw [behind, line]
      have taken := fun (finds : sink.Finds α around (u :: lineOf delimiter t.unread).length
        (u :: lineOf delimiter t.unread).length) =>
          Buffer.append_of_finds made hosts (Nat.succ_pos _) finds
      split
      next sink' st' done =>
        have first := Buffer.undisturbed_append around hosts done
        have shown := Buffer.content_append around hosts done
        have kept := dropped.keep (contentOf_congr fun s here => first.content_eq (alive here))
        have rest := kept.pour alive delimiter first.hosts (made.grow first.size_le) rfl
        unfold Lines at rest
        rw [shown] at rest
        rcases rest with ⟨full, closed, ⟨part, begun, text⟩, on⟩ | ⟨answer, after, text⟩
        · refine .inl ⟨full, fun finds => closed ?_, ⟨u :: part, ?_, ?_⟩, on⟩
          · obtain ⟨appended, done', later⟩ := taken finds u
            obtain rfl := Except.ok.inj (done.symm.trans done')
            exact (later around made finds).mono (Nat.le_succ _)
          · exact (List.prefix_cons_inj u).2 begun
          · rw [text, List.append_assoc]
            rfl
        · refine .inr ⟨answer, after, ?_⟩
          rw [text, List.append_assoc]
          rfl
      next fault refused =>
        obtain rfl := Buffer.refused_append around refused
        refine .inl ⟨rfl, fun finds => ?_, ⟨[], List.nil_prefix, (List.append_nil _).symm⟩,
          dropped.on⟩
        obtain ⟨appended, done, -⟩ := taken finds u
        cases refused.symm.trans done

end

end Reader.Follows

theorem Reader.layout_readUntil (r : Reader α) (delimiter : α) (around : Surroundings)
    (sink : Buffer) (st : Store α) :
    (r.readUntil delimiter around sink st).2.object.layout = sink.layout := by
  unfold Reader.readUntil
  split
  next => exact Cursor.layout_pour
  next =>
    dsimp only
    split
    next => rfl
    next =>
      split
      next done => exact Cursor.layout_pour.trans (Buffer.layout_of_append done)
      next => rfl

/-- A line that is read does not hinder what comes after it, whatever is lent out then. -/
theorem Reader.admits_readUntil {live : List Segment} (r : Reader α) (delimiter : α)
    {around around' : Surroundings} {sink : Buffer} {st : Store α} {pending : Nat}
    (hosts : st.Hosts (sink.segments ++ live)) (made : around.LendsMade st)
    (made' : around'.LendsMade st) (admits : sink.Admits α around' pending) :
    (r.readUntil delimiter around sink st).2.object.Admits α around' pending := by
  unfold Reader.readUntil
  split
  next => exact Cursor.admits_pour hosts made made' admits
  next =>
    dsimp only
    split
    next => exact admits
    next =>
      split
      next sink' st' done =>
        have first := Buffer.undisturbed_append around hosts done
        exact Cursor.admits_pour first.hosts (made.grow first.size_le) (made'.grow first.size_le)
          (Buffer.admits_append hosts made made' admits done)
      next => exact admits

end SegmentedText
