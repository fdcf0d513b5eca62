import SegmentedText.Proofs.Flat.Extending

/-!
# Appending on flat text

An append puts its units behind what a buffer shows, wherever they are stored.  It can
be refused for want of room only.

There are two ways in which room can be wanting.  The last segment may have room and be
lent out, and there can be no larger array to move it to (`Buffer.fills`); and there may be
no new segment for the units that are left over, or no list to keep it in
(`Buffer.opens`).  Together they tell when units in bulk are refused
(`Buffer.answer_appendBy`).  Fewer units never need more, so whatever begins an append
that is carried out is carried out as well (`Buffer.extend_take`, `Buffer.appendBy_take`).
-/

set_option autoImplicit false

namespace SegmentedText
namespace Buffer

variable {α : Type} [TextUnit α] {st : Store α} {b : Buffer} {others : List Segment}

/-! ## Unit by unit -/

section

variable (around : Surroundings)

omit [TextUnit α] in
/-- A buffer shows what its last segment shows behind what those before it show. -/
theorem content_withTrailing {front : List Segment} {last : Segment} :
    (b.withTrailing front last).content st = contentOf front st ++ last.content st := by
  rw [Buffer.content_eq, segments_withTrailing, contentOf_append, contentOf_cons, contentOf_nil,
    List.append_nil]

omit [TextUnit α] in
/-- What is written behind the last segment is shown behind the buffer. -/
theorem content_trailing {front : List Segment} {last last' : Segment} {st' : Store α}
    {units : List α} (found : b.trailing? = some (front, last))
    (extended : Undisturbed (front ++ others) st [last'] st')
    (shown : last'.content st' = last.content st ++ units) :
    (b.withTrailing front last').content st' = b.content st ++ units := by
  have kept : contentOf front st' = contentOf front st :=
    contentOf_congr fun s here => extended.content_eq (List.mem_append_left _ here)
  rw [content_withTrailing, kept, shown, Buffer.content_eq, (segments_of_trailing found).1,
    contentOf_append, contentOf_cons, contentOf_nil, List.append_nil, List.append_assoc]

theorem content_append {u : α} {appended : Buffer × Store α}
    (hosts : st.Hosts (b.segments ++ others)) (done : b.append around u st = .ok appended) :
    appended.1.content appended.2 = b.content st ++ [u] := by
  rcases append_cases done with ⟨front, last, found, taken, rfl⟩ | ⟨-, opened⟩
  · have beside := hosts_trailing hosts found
    exact content_trailing found (Segment.undisturbed_append around beside u)
      (Segment.content_append around (beside.placed _ List.mem_cons_self) taken)
  · exact content_extendBy hosts (fun s st fresh => Segment.undisturbed_append around fresh u)
      (fun s st placed => Segment.content_append around placed) opened

theorem refused_append {u : α} {fault : Fault} (refused : b.append around u st = .error fault) :
    fault = .roomExceeded := by
  unfold append at refused
  split at refused
  next => exact Segment.refused_append ((Edited.outcome_eq_error (ω := Buffer)).1 refused)
  next => exact refused_extendBy (fun _ _ _ => Segment.refused_append) refused

theorem leaves_append (hosts : st.Hosts (b.segments ++ others)) (u : α) :
    (Edited.whole b st (b.append around u st)).Leaves (b.content st ++ [u]) :=
  leaves_whole (fun _ done => content_append around hosts done)
    fun _ refused => refused_append around refused

theorem leaves_extend (hosts : st.Hosts (b.segments ++ others)) (units : List α) :
    (b.extend around units st).Leaves (b.content st ++ units) := by
  induction units generalizing b st with
  | nil => exact .inl ⟨⟨(), rfl⟩, (List.append_nil _).symm⟩
  | cons u us ih =>
      rw [extend]
      split
      next b' st' done =>
        have first := content_append around hosts done
        have rest := ih (undisturbed_append around hosts done).hosts
        rw [first, List.append_assoc] at rest
        exact rest
      next fault refused => exact .inr (congrArg _ (refused_append around refused))

/-- What begins an extension that is carried out is carried out. -/
theorem extend_take (units : List α) (count : Nat)
    (done : (b.extend around units st).answer = .ok ()) :
    (b.extend around (units.take count) st).answer = .ok () := by
  induction units generalizing b st count with
  | nil => rw [List.take_nil]; exact done
  | cons u us ih =>
      cases count with
      | zero => rfl
      | succ count =>
          rw [extend] at done
          rw [List.take_succ_cons, extend]
          split
          next b' st' first =>
            rw [first] at done
            exact ih count done
          next fault refused =>
            rw [refused] at done
            cases done

end

/-! ## Finding room -/

/-- Whether the last segment takes the units that it has room for.  It does unless it is lent out
and there can be no larger array to move it to. -/
def fills (α : Type) [TextUnit α] (b : Buffer) (around : Surroundings) : Bool :=
  match b.trailing? with
  | some (_, last) => last.canReserve α around 0
  | none => true

/-- So many units find room: there are none, or the last segment takes those for which it has room,
and it has room for all or a segment can be opened for `pending`. -/
def Finds (α : Type) [TextUnit α] (b : Buffer) (around : Surroundings) (count pending : Nat) :
    Prop :=
  count = 0 ∨ b.fills α around = true ∧ (count ≤ b.room ∨ b.opens α pending = true)

section

variable {around around' : Surroundings}

theorem fills_of_trailing {front : List Segment} {last : Segment}
    (found : b.trailing? = some (front, last)) :
    b.fills α around = last.canReserve α around 0 := by
  rw [fills, found]

theorem fills_of_not_trailing (none : b.trailing? = none) : b.fills α around = true := by
  rw [fills, none]

theorem fills_of_last {front : List Segment} {last : Segment}
    (parts : b.segments = front ++ [last]) (can : last.canReserve α around 0 = true) :
    b.fills α around = true := by
  rw [fills, trailing?_of_segments parts]
  split
  next some =>
    split at some
    next => exact (Prod.mk.inj (Option.some.inj some)).2 ▸ can
    next => cases some
  next => rfl

/-- Only what is lent out can hinder a segment. -/
theorem fills_congr (same : around'.lent = around.lent) : b.fills α around' = b.fills α around := by
  simp only [fills, Segment.canReserve_congr same]

theorem Finds.mono {count less more : Nat} (finds : b.Finds α around count more) (le : less ≤ more) :
    b.Finds α around count less :=
  finds.imp_right fun ⟨fills, room⟩ => ⟨fills, room.imp_right (opens_of_le le)⟩

theorem Finds.congr {count pending : Nat} (finds : b.Finds α around count pending)
    (same : around'.lent = around.lent) : b.Finds α around' count pending := by
  rwa [Finds, fills_congr same]

/-- What is not lent out takes all that it has room for. -/
theorem fills_of_unlent (unlent : ∀ s ∈ b.segments, around.lends s.storage = false) :
    b.fills α around = true := by
  cases found : b.trailing? with
  | none => exact fills_of_not_trailing found
  | some entry =>
      have here : entry.2 ∈ b.segments := by
        rw [(segments_of_trailing found).1]
        exact List.mem_append_right _ List.mem_cons_self
      rw [fills_of_trailing found]
      exact Segment.canReserve_of_unlent (unlent _ here) (Nat.zero_le _)

theorem append_of_trailing {front : List Segment} {last : Segment}
    (found : b.trailing? = some (front, last)) {u : α}
    (taken : (last.append around u st).answer = .ok ()) :
    b.append around u st = .ok (b.withTrailing front (last.append around u st).object,
      (last.append around u st).store) := by
  rw [append, found]
  exact Edited.outcome_eq_ok.2 (congrArg (Edited.mk _ _) taken)

/-- A unit is put into a new segment where the last one has no room. -/
theorem append_of_opens (made : around.LendsMade st) (none : b.trailing? = none)
    (may : b.opens α 1 = true) (u : α) :
    b.append around u st = .ok (b.opening 1 1 st,
      (b.newSegment 1 st).2.writeAll (b.newSegment 1 st).1.storage (b.newSegment 1 st).1.stop
        [u]) := by
  rw [append, none]
  have fits : [u].length ≤ 1 := Nat.le_refl 1
  exact extendBy_of_writes (writesBehind_appendSlice around) made fits may

/-- A unit is refused where the last segment has no room and none can be opened. -/
theorem append_of_not_opens (none : b.trailing? = none) (closed : b.opens α 1 = false) (u : α) :
    b.append around u st = .error .roomExceeded := by
  rw [append, none]
  exact extendBy_of_not_opens closed fun _ _ _ => Segment.refused_append

/-- A unit has gone into the last segment, or into a new one. -/
theorem append_done (made : around.LendsMade st) {u : α} {appended : Buffer × Store α}
    (done : b.append around u st = .ok appended) :
    (∃ front last, b.trailing? = some (front, last) ∧
      (last.append around u st).answer = .ok () ∧
      appended = (b.withTrailing front (last.append around u st).object,
        (last.append around u st).store)) ∨
    (b.trailing? = none ∧ b.opens α 1 = true ∧ appended = (b.opening 1 1 st,
      (b.newSegment 1 st).2.writeAll (b.newSegment 1 st).1.storage (b.newSegment 1 st).1.stop
        [u])) := by
  rcases append_cases done with into | ⟨none, opened⟩
  · exact .inl into
  · have may := (eq_of_extendBy opened).1
    exact .inr ⟨none, may, Except.ok.inj (done.symm.trans (append_of_opens made none may u))⟩

section

variable (made : around.LendsMade st)
include made

variable (hosts : st.Hosts (b.segments ++ others))
include hosts

/-- A unit that is appended does not hinder those that come after it, whatever is lent out then. -/
theorem fills_append {u : α} {appended : Buffer × Store α}
    (done : b.append around u st = .ok appended) (made' : around'.LendsMade st)
    (fills : b.fills α around' = true) : appended.1.fills α around' = true := by
  rcases append_done made done with ⟨front, last, found, -, rfl⟩ | ⟨-, -, rfl⟩
  · have valid := ((hosts_trailing hosts found).placed last List.mem_cons_self).valid
    have fits : [u].length ≤ last.spare := (segments_of_trailing found).2
    refine fills_of_last (segments_withTrailing front _) ?_
    exact Segment.canReserve_appendSlice valid made' fits
      ((fills_of_trailing found).symm.trans fills)
  · refine fills_of_last (segments_opening b 1 1 st) ?_
    exact Segment.canReserve_of_unlent (made'.unlent_of_new (Nat.le_refl _)) (Nat.zero_le _)

/-- A unit that finds room is taken, and those behind it still find theirs. -/
theorem append_of_finds {count pending : Nat} (some : 1 ≤ pending)
    (finds : b.Finds α around (count + 1) pending) (u : α) :
    ∃ appended, b.append around u st = .ok appended ∧
      ∀ around' : Surroundings, around'.LendsMade st → b.Finds α around' (count + 1) pending →
        appended.1.Finds α around' count pending := by
  obtain ⟨fills, room⟩ := finds.resolve_left (Nat.succ_ne_zero count)
  have keeps : ∀ {appended}, b.append around u st = .ok appended →
      (∀ _ : count + 1 ≤ b.room ∨ b.opens α pending = true,
        count ≤ appended.1.room ∨ appended.1.opens α pending = true) →
      ∀ around' : Surroundings, around'.LendsMade st → b.Finds α around' (count + 1) pending →
        appended.1.Finds α around' count pending := by
    intro appended done left around' made' finds'
    obtain ⟨fills', room'⟩ := finds'.resolve_left (Nat.succ_ne_zero count)
    exact .inr ⟨fills_append made hosts done made' fills', left room'⟩
  cases found : b.trailing? with
  | none =>
      have may : b.opens α pending = true :=
        room.resolve_left (by rw [room_of_not_trailing found]; omega)
      have done := append_of_opens made found (opens_of_le some may) u
      exact ⟨_, done, keeps done fun _ => .inr (opens_push may _)⟩
  | some entry =>
      obtain ⟨front, last⟩ := entry
      have valid := ((hosts_trailing hosts found).placed last List.mem_cons_self).valid
      have spare := (segments_of_trailing found).2
      have can : last.canReserve α around 1 = true := by
        rw [Segment.canReserve_of_le_spare valid spare, ← fills_of_trailing found, fills]
      have taken : (last.append around u st).answer = .ok () := Segment.answer_growing.2 ⟨can, rfl⟩
      have done := append_of_trailing found taken
      refine ⟨_, done, keeps done fun room => room.imp (fun fits => ?_) fun opened =>
        (opens_withTrailing found pending).trans opened⟩
      have left := Segment.spare_appendSlice around valid [u]
      rw [room_of_segments (segments_of_trailing found).1] at fits
      rw [room_of_segments (segments_withTrailing front _)]
      exact Nat.le_of_add_le_add_right (Nat.le_trans fits left)

/-- Units that find room one by one are taken. -/
theorem extend_of_finds {units : List α} (finds : b.Finds α around units.length 1) :
    (b.extend around units st).answer = .ok () := by
  induction units generalizing b st with
  | nil => rfl
  | cons u us ih =>
      obtain ⟨appended, done, later⟩ := append_of_finds made hosts (Nat.le_refl 1) finds u
      rw [extend, done]
      have beside := undisturbed_append around hosts done
      exact ih (made.grow beside.size_le) beside.hosts (later around made finds)

end

end

/-! ## In bulk -/

section

variable {around : Surroundings} {write : Segment → List α → Store α → Edited Segment α Unit}
  (writes : WritesBehind around write)
include writes

theorem answer_appendRest (made : around.LendsMade st) (rest : List α) :
    (b.appendRest write rest st).answer = .ok () ↔ rest = [] ∨ b.opens α rest.length = true := by
  unfold appendRest
  split
  next none => simp [List.isEmpty_iff.1 none]
  next some =>
    have some : rest ≠ [] := by simpa using some
    cases may : b.opens α rest.length with
    | true =>
        rw [extendBy_of_writes writes made (Nat.le_refl rest.length) may]
        simp [Edited.whole]
    | false =>
        rw [extendBy_of_not_opens may fun _ _ _ => writes.refused]
        simp [Edited.whole, some]

/-- Units in bulk are taken where they find room: a segment is opened for those for which there is
none behind the last one. -/
theorem answer_appendBy (hosts : st.Hosts (b.segments ++ others)) (made : around.LendsMade st)
    (units : List α) :
    (b.appendBy write units st).answer = .ok () ↔
      b.Finds α around units.length (units.length - b.room) := by
  unfold appendBy Finds
  rw [List.length_eq_zero_iff]
  cases found : b.trailing? with
  | none =>
      refine (answer_appendRest writes made units).trans ?_
      rw [room_of_not_trailing found, fills_of_not_trailing found, Nat.sub_zero, Nat.le_zero,
        List.length_eq_zero_iff, eq_self_iff_true, true_and, ← or_assoc, or_self]
  | some entry =>
      obtain ⟨front, last⟩ := entry
      have parts := segments_of_trailing found
      have beside := hosts_trailing hosts found
      have placed := beside.placed last List.mem_cons_self
      let first := units.take (min last.spare units.length)
      let rest := units.drop (min last.spare units.length)
      have fits : first.length ≤ last.spare := by
        rw [List.length_take]
        omega
      have left : rest.length = units.length - last.spare := by
        rw [List.length_drop]
        omega
      have first_none : first = [] ↔ units = [] := by
        rw [← List.length_eq_zero_iff, ← List.length_eq_zero_iff, List.length_take]
        omega
      have rest_none : rest = [] ↔ units.length ≤ last.spare := by
        rw [← List.length_eq_zero_iff, left]
        omega
      have bulk : write last first st = last.appendSlice around first st :=
        writes.bulk placed made fits
      have onward := made.grow (Segment.undisturbed_appendSlice around beside first).size_le
      dsimp only
      rw [Edited.answer_andThen, show write last _ st = _ from bulk, fills_of_trailing found,
        room_of_segments parts.1]
      have taken : (last.appendSlice around first st).answer = .ok () ↔
          units = [] ∨ last.canReserve α around 0 = true := by
        by_cases none : first = []
        · simp [none, first_none.1 none, Segment.appendSlice]
        · rw [Segment.appendSlice_of_ne_nil last around none, Segment.answer_growing,
            Segment.canReserve_of_le_spare placed.valid fits]
          simp [mt first_none.2 none, Segment.fillBehind]
      have behind := (answer_appendRest writes onward rest
        (b := b.withTrailing front (last.appendSlice around first st).object))
      rw [opens_withTrailing found, left, rest_none] at behind
      refine (and_congr taken behind).trans ?_
      rw [or_and_right]
      refine or_congr_left (and_iff_left_of_imp fun none => .inl ?_)
      rw [none]
      exact Nat.zero_le _

section

variable {around' : Surroundings}

theorem fills_appendRest (made : around.LendsMade st) (made' : around'.LendsMade st)
    (fills : b.fills α around' = true) (rest : List α) :
    (b.appendRest write rest st).object.fills α around' = true := by
  unfold appendRest
  split
  next => exact fills
  next =>
    cases may : b.opens α rest.length with
    | true =>
        rw [extendBy_of_writes writes made (Nat.le_refl rest.length) may]
        refine fills_of_last (segments_opening b rest.length rest.length st) ?_
        exact Segment.canReserve_of_unlent (made'.unlent_of_new (Nat.le_refl _)) (Nat.zero_le _)
    | false =>
        rw [extendBy_of_not_opens may fun _ _ _ => writes.refused]
        exact fills

/-- Units in bulk do not hinder those that come after them, whatever is lent out then. -/
theorem fills_appendBy (hosts : st.Hosts (b.segments ++ others)) (made : around.LendsMade st)
    (made' : around'.LendsMade st) (fills : b.fills α around' = true) (units : List α) :
    (b.appendBy write units st).object.fills α around' = true := by
  unfold appendBy
  cases found : b.trailing? with
  | none => exact fills_appendRest writes made made' fills units
  | some entry =>
      obtain ⟨front, last⟩ := entry
      have beside := hosts_trailing hosts found
      have placed := beside.placed last List.mem_cons_self
      have fits : (units.take (min last.spare units.length)).length ≤ last.spare := by
        rw [List.length_take]
        omega
      have grown := (Segment.undisturbed_appendSlice around beside
        (units.take (min last.spare units.length))).size_le
      have first : (b.withTrailing front (last.appendSlice around
          (units.take (min last.spare units.length)) st).object).fills α around' = true := by
        refine fills_of_last (segments_withTrailing front _) ?_
        exact Segment.canReserve_appendSlice placed.valid made' fits
          ((fills_of_trailing found).symm.trans fills)
      dsimp only
      rw [writes.bulk placed made fits]
      exact Edited.left_andThen (P := fun (b' : Buffer) (_ : Store α) =>
        b'.fills α around' = true) first fun _ =>
          fills_appendRest writes (made.grow grown) (made'.grow grown) first _

end

/-! ### Room for more -/

/-- Where a segment can be opened, one can be opened behind what is appended. -/
theorem opens_appendRest (made : around.LendsMade st) {pending : Nat}
    (there : b.opens α pending = true) (rest : List α) :
    (b.appendRest write rest st).object.opens α pending = true := by
  unfold appendRest
  split
  next => exact there
  next =>
    cases may : b.opens α rest.length with
    | true =>
        rw [extendBy_of_writes writes made (Nat.le_refl rest.length) may]
        exact opens_push there _
    | false =>
        rw [extendBy_of_not_opens may fun _ _ _ => writes.refused]
        exact there

theorem opens_appendBy (hosts : st.Hosts (b.segments ++ others)) (made : around.LendsMade st)
    {pending : Nat} (there : b.opens α pending = true) (units : List α) :
    (b.appendBy write units st).object.opens α pending = true := by
  unfold appendBy
  cases found : b.trailing? with
  | none => exact opens_appendRest writes made there units
  | some entry =>
      obtain ⟨front, last⟩ := entry
      have beside := hosts_trailing hosts found
      have placed := beside.placed last List.mem_cons_self
      have fits : (units.take (min last.spare units.length)).length ≤ last.spare := by
        rw [List.length_take]
        omega
      have grown := (Segment.undisturbed_appendSlice around beside
        (units.take (min last.spare units.length))).size_le
      have still : (b.withTrailing front (last.appendSlice around
          (units.take (min last.spare units.length)) st).object).opens α pending = true :=
        (opens_withTrailing found pending).trans there
      dsimp only
      rw [writes.bulk placed made fits]
      exact Edited.left_andThen (P := fun (b' : Buffer) (_ : Store α) => b'.opens α pending = true)
        still fun _ => opens_appendRest writes (made.grow grown) still _

/-- Units for which there is room take up no more of it than they are. -/
theorem room_appendBy (hosts : st.Hosts (b.segments ++ others)) (made : around.LendsMade st)
    {units : List α} (room : units.length ≤ b.room) :
    b.room ≤ (b.appendBy write units st).object.room + units.length := by
  unfold appendBy
  cases found : b.trailing? with
  | none =>
      rw [room_of_not_trailing found]
      exact Nat.zero_le _
  | some entry =>
      obtain ⟨front, last⟩ := entry
      have parts := room_of_segments (segments_of_trailing found).1
      have placed := (hosts_trailing hosts found).placed last List.mem_cons_self
      rw [parts] at room ⊢
      have left : last.spare ≤ (b.withTrailing front
          (last.appendSlice around units st).object).room + units.length := by
        rw [room_of_segments (segments_withTrailing front _)]
        exact Segment.spare_appendSlice around placed.valid units
      dsimp only
      rw [Nat.min_eq_right room, List.take_length, List.drop_length, writes.bulk placed made room]
      exact Edited.left_andThen (P := fun (b' : Buffer) (_ : Store α) =>
        last.spare ≤ b'.room + units.length) left fun _ => left

/-- Units that find room with others behind them are taken, and the others still find theirs. -/
theorem appendBy_of_finds (hosts : st.Hosts (b.segments ++ others)) (made : around.LendsMade st)
    {units : List α} {count pending : Nat} (fits : units.length ≤ pending)
    (finds : b.Finds α around (units.length + count) pending) :
    (b.appendBy write units st).answer = .ok () ∧
      (b.appendBy write units st).object.Finds α around count pending := by
  rw [answer_appendBy writes hosts made]
  rcases finds with none | ⟨fills, room⟩
  · exact ⟨.inl (by omega), .inl (by omega)⟩
  · refine ⟨.inr ⟨fills, room.imp (by omega) (opens_of_le (by omega))⟩,
      .inr ⟨fills_appendBy writes hosts made made fills units, room.imp (fun enough => ?_)
        fun there => opens_appendBy writes hosts made there units⟩⟩
    have few : units.length ≤ b.room := by omega
    have left := room_appendBy writes hosts made few
    omega

omit writes in
/-- What begins an append that finds room finds room. -/
theorem finds_take {units : List α} (count : Nat)
    (finds : b.Finds α around units.length (units.length - b.room)) :
    b.Finds α around (units.take count).length ((units.take count).length - b.room) := by
  have le : (units.take count).length ≤ units.length := List.length_take_le' _ _
  refine finds.imp (fun none => by omega) fun taken => ⟨taken.1, ?_⟩
  exact taken.2.imp (Nat.le_trans le) (opens_of_le (Nat.sub_le_sub_right le b.room))

/-- What begins an append that is carried out is carried out. -/
theorem appendBy_take (hosts : st.Hosts (b.segments ++ others)) (made : around.LendsMade st)
    (units : List α) (count : Nat) (done : (b.appendBy write units st).answer = .ok ()) :
    (b.appendBy write (units.take count) st).answer = .ok () := by
  rw [answer_appendBy writes hosts made] at done ⊢
  exact finds_take count done

theorem leaves_appendRest (hosts : st.Hosts (b.segments ++ others)) (rest : List α) :
    (b.appendRest write rest st).Leaves (b.content st ++ rest) := by
  unfold appendRest
  split
  next none =>
    rw [List.isEmpty_iff.1 none, List.append_nil]
    exact .inl ⟨⟨(), rfl⟩, rfl⟩
  next =>
    exact leaves_whole (fun made done => content_extendBy hosts
      (fun s st fresh => writes.undisturbed fresh rest) (fun s st placed => writes.content placed)
      done) fun fault refused => refused_extendBy (fun _ _ _ => writes.refused) refused

theorem leaves_appendBy (hosts : st.Hosts (b.segments ++ others)) (units : List α) :
    (b.appendBy write units st).Leaves (b.content st ++ units) := by
  unfold appendBy
  split
  next front last found =>
    have beside := hosts_trailing hosts found
    have extended := writes.undisturbed beside (units.take (min last.spare units.length))
    dsimp only
    cases done : (write last (units.take (min last.spare units.length)) st).answer with
    | ok _ =>
        have first := content_trailing found extended
          (writes.content (beside.placed _ List.mem_cons_self) done)
        have rest := leaves_appendRest writes
          (undisturbed_withTrailing (b := b) extended).hosts
          (units.drop (min last.spare units.length))
        rw [first, List.append_assoc, List.take_append_drop] at rest
        rw [Edited.mapObject_andThen, done]
        exact rest
    | error fault =>
        rw [Edited.mapObject_andThen, done]
        exact .inr (congrArg Except.error (writes.refused done))
  next => exact leaves_appendRest writes hosts units

/-! ### What a refusal leaves -/

theorem begins_appendRest (hosts : st.Hosts (b.segments ++ others)) (rest : List α) :
    (b.appendRest write rest st).Begins (b.content st) rest := by
  rcases leaves_appendRest writes hosts rest with ⟨-, shown⟩ | refused
  · exact ⟨rest, List.prefix_rfl, shown⟩
  · refine ⟨[], List.nil_prefix, ?_⟩
    rw [List.append_nil]
    unfold appendRest at refused ⊢
    split at refused
    next => cases refused
    next some =>
      rw [if_neg some]
      cases done : b.extendBy rest.length (fun s st => write s rest st) st with
      | ok made =>
          rw [done] at refused
          cases refused
      | error fault => rfl

/-- Units in bulk that are refused have been begun at most. -/
theorem begins_appendBy (hosts : st.Hosts (b.segments ++ others)) (made : around.LendsMade st)
    (units : List α) : (b.appendBy write units st).Begins (b.content st) units := by
  unfold appendBy
  cases found : b.trailing? with
  | none => exact begins_appendRest writes hosts units
  | some entry =>
      obtain ⟨front, last⟩ := entry
      let first := units.take (min last.spare units.length)
      have beside := hosts_trailing hosts found
      have placed := beside.placed last List.mem_cons_self
      have fits : first.length ≤ last.spare := by
        rw [List.length_take]
        omega
      have bulk : write last first st = last.appendSlice around first st :=
        writes.bulk placed made fits
      have extended := Segment.undisturbed_appendSlice around beside first
      dsimp only
      rw [Edited.mapObject_andThen, show write last _ st = _ from bulk]
      cases done : (last.appendSlice around first st).answer with
      | ok _ =>
          have shown := content_trailing found extended
            (Segment.content_appendSlice around placed done)
          obtain ⟨part, begun, rest⟩ := begins_appendRest writes
            (undisturbed_withTrailing (b := b) extended).hosts
            (units.drop (min last.spare units.length))
          refine ⟨first ++ part, ?_, ?_⟩
          · have whole := (List.prefix_append_right_inj first).2 begun
            rwa [List.take_append_drop] at whole
          · rw [shown, List.append_assoc] at rest
            exact rest
      | error fault =>
          refine ⟨[], List.nil_prefix, ?_⟩
          rw [Segment.eq_of_refused_appendSlice done]
          exact content_trailing found (.refl beside) (List.append_nil _).symm

end

section

variable (around : Surroundings)

theorem appendSlice_take (hosts : st.Hosts (b.segments ++ others)) (made : around.LendsMade st)
    (units : List α) (count : Nat) (done : (b.appendSlice around units st).answer = .ok ()) :
    (b.appendSlice around (units.take count) st).answer = .ok () :=
  appendBy_take (writesBehind_appendSlice around) hosts made units count done

theorem appendText_take (hosts : st.Hosts (b.segments ++ others)) (made : around.LendsMade st)
    (text : String) (count : Nat) (done : (b.appendText around text st).answer = .ok ()) :
    (b.appendText around (String.ofList (text.toList.take count)) st).answer = .ok () := by
  have begun := appendBy_take (writesBehind_appendEach around) hosts made _ count done
  rwa [unitsOf_take] at begun

theorem leaves_appendSlice (hosts : st.Hosts (b.segments ++ others)) (units : List α) :
    (b.appendSlice around units st).Leaves (b.content st ++ units) :=
  leaves_appendBy (writesBehind_appendSlice around) hosts units

theorem leaves_appendText (hosts : st.Hosts (b.segments ++ others)) (text : String) :
    (b.appendText around text st).Leaves (b.content st ++ TextUnit.unitsOf text) :=
  leaves_appendBy (writesBehind_appendEach around) hosts (TextUnit.unitsOf text)

end

end Buffer

end SegmentedText
